import Conform.Report
import Conform.Value.Shown

/-!
Snapshots: reports of values as they are now.
-/
namespace Conform.Snapshot

/-- The greatest integer that a report writes as a number. -/
def safeInteger : Nat := 1 <<< 53

def int (n : Int) : Report :=
  if n.natAbs ≤ safeInteger then .int n else Report.tagged "int" [("v", .text (toString n))]

/-- A list with its kind, unless it is a plain one. -/
def kindOf (kind : Flavour) (base derived : String) : String :=
  match kind with
  | .base => base
  | .derived => derived

def bytesText (bs : List UInt8) : String :=
  String.join (bs.map fun b => Text.hex 2 b.toNat)

def cls (c : Class) : Report :=
  if c == .anything then Report.tagged "typing" [("v", .text "Any")]
  else if c.listed then Report.tagged "class" [("v", .text c.key)]
  else Report.tagged "other" [("type", .text c.metaclass.name)]

def other (v : Value) : Report :=
  Report.tagged "other" [("type", .text v.className)]

mutual

/-- The report of a value, followed to a given depth. -/
def valueAt (fuel : Nat) (v : Value) : Look Report :=
  match fuel with
  | 0 => throw .exhausted
  | fuel + 1 => do
    let h ← read
    let all (items : List Value) : Look Report := do return .list (← items.mapM (valueAt fuel))
    let holding (kind : String) (items : List Value) : Look Report := do
      return Report.tagged kind [("v", ← all items)]
    let pairs (kind : String) (entries : List (Value × Value)) : Look Report := do
      let reports ← entries.mapM fun (k, w) => all [k, w]
      return Report.tagged kind [("v", .list reports)]
    let members (kind : String) (items : List Value) : Look Report := do
      return Report.tagged kind [("v", .list (Report.sortByText (← items.mapM (valueAt fuel))))]
    let spelled (kind text : String) : Report := Report.tagged kind [("v", .text text)]
    match v with
    | .nil => return .null
    | .ellipsis => return Report.tagged "ellipsis" []
    | .notImplemented => return Report.tagged "notimplemented" []
    | .missing => return Report.tagged "missing" []
    | .bool b => return .bool b
    | .int .base _ n => return int n
    | .int .derived _ n => return Report.tagged "myint" [("v", int n)]
    | .float _ x => return spelled "float" x.text
    | .str .base _ s => return .text s
    | .str .derived _ s => return spelled "mystr" s
    | .bytes _ bs => return spelled "bytes" (bytesText bs)
    | .bytearray i => return spelled "bytearray" (bytesText (h.buffer i))
    | .list .base i => all (h.list i)
    | .list .derived i => holding "mylist" (h.list i)
    | .tuple _ items => holding "tuple" items
    | .pair _ l r => holding "pair" [l, r]
    | .set i => members "set" (h.set i)
    | .frozenset _ items => members "frozenset" items
    | .dict kind i => pairs (kindOf kind "dict" "mydict") (h.dict i)
    | .frozenMap _ entries => pairs "frozenmap" entries
    | .iter i => holding "iter" (h.iter i)
    | .range _ r => return Report.tagged "range" [("v", .list [int r.start, int r.stop, int r.step])]
    | .slice _ s t p => holding "slice" [s, t, p]
    | .day _ d => return spelled "date" d.iso
    | .moment _ m => return spelled "datetime" m.iso
    | .regex r => return spelled (if r.binary then "bregex" else "regex") r.source
    | .cls c => return cls c
    | .typeHint n => return spelled "typing" n
    | .fn f => return spelled "fn" f.name
    | .thing c i =>
      if !c.mro.contains .thing then return other v
      let attributes ← (h.thing i).mapM fun (n, w) => do
        return Report.list [.text n, ← valueAt fuel w]
      return Report.tagged "obj" [("class", .text c.name), ("attrs", .list attributes)]
    | .exception .. | .mismatchError .. | .outcomeError .. =>
      return (Report.record (("$", .text "exc") :: (← errorFieldsAt fuel v)))
    | .success _ w => return Report.tagged "success" [("v", ← valueAt fuel w)]
    | .failure _ w => return Report.tagged "failure" [("v", ← valueAt fuel w)]
    | .descriptor d =>
      return Report.tagged "desc" [("kind", .text d.variant.name), ("describe", .text (← d.describe))]
    | .checked c i =>
      let l := h.checkedList i
      return Report.tagged "checked"
        [("class", .text c.name), ("v", ← all l.items), ("type", .text (← l.element.describe)),
          ("collection", .text (← l.collection.describe)), ("frozen", .bool l.frozen)]
    | .context i => return Report.record (("$", .text "context") :: (← contextFieldsAt fuel (h.context i)))
    | .mismatch _ e r w m =>
      return Report.tagged "mismatch"
        [("expected", ← valueAt fuel e), ("received", ← valueAt fuel r), ("value", ← valueAt fuel w),
          ("message", ← valueAt fuel m)]
    | _ => return other v

/-- The fields that describe an error. -/
def errorFieldsAt (fuel : Nat) (v : Value) : Look (List (String × Report)) :=
  match fuel with
  | 0 => throw .exhausted
  | fuel + 1 => do
    let common := [("error", Report.text v.className), ("message", .text (← v.plain))]
    match v with
    | .mismatchError _ expected actual known _ =>
      let shown ← expected.shown
      let details ← match known with
        | .context i => do
          let fields ← contextFieldsAt fuel ((← read).context i)
          pure (Report.record fields)
        | _ => valueAt fuel known
      return common ++ [("expected", .text shown), ("actual", ← valueAt fuel actual), ("context", details)]
    | .outcomeError _ payload _ => return common ++ [("payload", ← valueAt fuel payload)]
    | _ => return common

/-- The fields that describe the context of a failed check. -/
def contextFieldsAt (fuel : Nat) (c : CheckContext) : Look (List (String × Report)) :=
  match fuel with
  | 0 => throw .exhausted
  | fuel + 1 => do
    let expected := Report.text (← c.expected.shown)
    let actual ← valueAt fuel c.actual
    return [("expected", expected), ("actual", actual), ("receiver", .text (← c.receiver.shown)),
      ("operation", ← valueAt fuel c.operation), ("position", ← valueAt fuel c.position),
      ("name", ← valueAt fuel c.name),
      ("mismatch", .record
        [("expected", expected), ("received", .text c.actual.className), ("value", actual),
          ("message", .null)])]

end

/-- The report of a value. -/
def value (v : Value) : Look Report :=
  valueAt valueDepth v

/-- The fields that describe a fault. -/
def fault (f : Fault) : Look (List (String × Report)) := do
  match f with
  | .raised e => errorFieldsAt valueDepth e
  | _ => return [("error", .text f.kind.name), ("message", .text (← f.message))]

/-- The report of a recorded call. -/
def tracedCall (t : TracedCall) : Look Report := do
  let args ← t.args.mapM value
  let named ← t.keywords.mapM fun (n, v) => do return Report.list [.text n, ← value v]
  return .list [.text t.name, .list args, .list named]

end Conform.Snapshot
