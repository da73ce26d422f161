import Conform.Check
import Conform.CheckedList.Method
import Conform.Number.Reading
import Conform.Operator
import Conform.Descriptor.Factory
import Conform.Outcome
import Conform.Signature
import Conform.Value.Method

/-!
Calling a class: which arguments it takes, and the instance that it makes of them.
-/
namespace Conform.Construction

/-- The integer that a value reads as. -/
def toInt (v : Value) : Act Int := do
  let read (text : String) : Act Int := do
    match Reading.int? text, v with
    | some n, _ => return n
    | none, .bytearray i => Act.fail (.badIntText (Text.quotedBytes ((← Act.getHeap).buffer i)))
    | none, _ =>
      let shown ← v.shown
      Act.fail (.badIntText shown)
  match v with
  | .float _ x =>
    match x.exact with
    | .nan => Act.fail .nanToInt
    | exact => match exact.truncate? with
      | some n => return n
      | none => Act.fail .infinityToInt
  | .str _ _ s => read s
  | .bytes .. | .bytearray _ =>
    read (String.ofList (((Value.bytes? (← Act.getHeap) v).getD []).map fun b => Char.ofNat b.toNat))
  | _ =>
    match v.int? with
    | some n => return n
    | none => Act.fail (.intArgument v.operandName)

/-- The floating-point number that a value reads as. -/
def toFloat (v : Value) : Act Binary64 := do
  let read (text : String) : Act Binary64 := do
    match Reading.float? text with
    | some x => return x
    | none =>
      let shown ← v.shown
      Act.fail (.badFloatText shown)
  match v with
  | .float _ x => return x
  | .str _ _ s => read s
  | .bytes .. | .bytearray _ =>
    read (String.ofList (((Value.bytes? (← Act.getHeap) v).getD []).map fun b => Char.ofNat b.toNat))
  | _ =>
    match ← Operator.float? v with
    | some x => return x
    | none => Act.fail (.floatArgument v.operandName)

/-- The two items of an entry that is given as a sequence. -/
def entryOf (place : Nat) (v : Value) : Act (Value × Value) := do
  let items ← Act.handle .typeError v.items fun _ => Act.fail (.pairShape place)
  match items with
  | [k, w] => return (k, w)
  | _ => Act.fail (.pairLength place items.length)

/-- Puts entries into a dictionary one after the other. -/
def putEntries (entries : List (Value × Value)) (into : List (Value × Value)) :
    Act (List (Value × Value)) :=
  entries.foldlM (fun known (k, v) => do
    let _ ← k.hash
    Operator.putEntry k v known) into

def toEntries (args : List Value) (keywords : Keywords) : Act (List (Value × Value)) := do
  let given ← match args with
    | [v] =>
      match v.entries? (← Act.getHeap) with
      | some entries => pure entries
      | none => do (← v.items).zipIdx.mapM fun (item, i) => entryOf i item
    | _ => pure []
  let named ← keywords.mapM fun (n, v) => do return (← Act.newStr n, v)
  putEntries (given ++ named) []

/-- The bytes that a value reads as. -/
def toBytes (kind : String) (v : Value) : Act (List UInt8) := do
  match Value.bytes? (← Act.getHeap) v, v.int? with
  | some bs, _ => return bs
  | _, some n =>
    if !Value.fitsSize n then Act.fail (.hugeRepeat v.operandName)
    if n < 0 then Act.fail .negativeCount
    return List.replicate n.toNat 0
  | _, _ =>
    if v.text?.isSome then Act.fail .stringWithoutEncoding
    let items ← Act.handle .typeError v.items fun _ => Act.fail (.notBytes kind v.operandName)
    items.mapM fun item => do
      let n ← item.asOffset
      if n < 0 || 255 < n then Act.fail (if kind == "bytearray" then .byteRange else .bytesRange)
      return n.toNat.toUInt8

/-- The progression that a list of bounds means. -/
def toSpan (bounds : List Value) : Act Span := do
  let int (v : Value) : Act Int :=
    match v.int? with
    | some n => return n
    | none => Act.fail (.notInteger v.operandName)
  match bounds with
  | [stop] => return ⟨0, ← int stop, 1⟩
  | [start, stop] =>
    let a ← int start
    return ⟨a, ← int stop, 1⟩
  | start :: stop :: step :: _ =>
    let a ← int start
    let b ← int stop
    let c ← int step
    if c == 0 then Act.fail .zeroRangeStep
    return ⟨a, b, c⟩
  | [] => Value.refuseCall "range expected at least 1 argument, got 0"

/-- A slice from its bounds; a single one is the stop. -/
def toSlice (bounds : List Value) : Act Value := do
  match bounds with
  | [] => Value.refuseCall "slice expected at least 1 argument, got 0"
  | [stop] => return .slice (← Act.fresh) .nil stop .nil
  | [start, stop] => return .slice (← Act.fresh) start stop .nil
  | start :: stop :: step :: _ => return .slice (← Act.fresh) start stop step

/-- The methods that an abstract class leaves open. -/
def openMethods : Class → List String
  | .sized => ["__len__"]
  | .hashable => ["__hash__"]
  | .iterable => ["__iter__"]
  | .iterator => ["__next__"]
  | .container => ["__contains__"]
  | .collection | .setLike => ["__contains__", "__iter__", "__len__"]
  | .callable => ["__call__"]
  | .sequence => ["__getitem__", "__len__"]
  | .mutableSequence => ["__delitem__", "__getitem__", "__len__", "__setitem__", "insert"]
  | .mapping => ["__getitem__", "__iter__", "__len__"]
  | .mutableMapping => ["__delitem__", "__getitem__", "__iter__", "__len__", "__setitem__"]
  | .mutableSet => ["__contains__", "__iter__", "__len__", "add", "discard"]
  | .descriptor => ["describe", "match"]
  | .outcome =>
    ["bind", "filter", "is_failure", "is_success", "lift", "lift_or_raise", "map", "raise_or_value",
      "value_or"]
  | _ => []

/-- An instance of a class that takes no arguments. -/
def bare (c : Class) (args : List Value) (keywords : Keywords) : Act Value := do
  unless args.isEmpty && keywords.isEmpty do
    Value.refuseCall (c.name ++ "() takes no arguments")
  match openMethods c with
  | [] =>
    if c.mro.contains .thing || c == .mixin then Act.newThing c []
    else return .other (← Act.fresh) c
  | methods =>
    Act.fail (.notInstantiable ("Can't instantiate abstract class " ++ c.name ++ " with abstract method" ++
      Signature.plural methods.length ++ " " ++ commas methods))

/-- The only argument, if there is one; a complaint if there are more. -/
def optionalArgument (name : String) (args : List Value) (keywords : Keywords) : Act (Option Value) := do
  unless keywords.isEmpty do Value.refuseCall (name ++ "() takes no keyword arguments")
  match args with
  | [] => return none
  | [v] => return some v
  | _ => Value.refuseCall s!"{name} expected at most 1 argument, got {args.length}"

/-- The only argument of a conversion to an integer or a text. -/
def converted (name : String) (args : List Value) (keywords : Keywords) : Act (Option Value) := do
  match keywords with
  | (n, _) :: _ => Value.refuseCall ("'" ++ n ++ "' is an invalid keyword argument for " ++ name ++ "()")
  | [] => return args[0]?

/-- The items of an optional argument. -/
def itemsOf (v : Option Value) : Act (List Value) :=
  match v with
  | some v => v.items
  | none => return []

/-- A class of the calendar needs three numbers at least. -/
def day (args : List Value) : Act Day := do
  let numbers ← args.mapM fun v => do return (← v.asOffset).toNat
  let absent (name : String) (place : Nat) : Act Day :=
    Value.refuseCall s!"function missing required argument '{name}' (pos {place})"
  match numbers with
  | [] => absent "year" 1
  | [_] => absent "month" 2
  | [_, _] => absent "day" 3
  | year :: month :: d :: _ =>
    if year < 1 || 9999 < year then Act.fail (.dayRange s!"year {year} is out of range")
    if month < 1 || 12 < month then Act.fail (.dayRange "month must be in 1..12")
    if d < 1 || 31 < d then Act.fail (.dayRange "day is out of range for month")
    return ⟨year, month, d⟩

/-- Makes an instance of a class of plain data. -/
def plain (c : Class) (args : List Value) (keywords : Keywords) : Act Value := do
  let one := optionalArgument c.name args keywords
  match c with
  | .int | .myInt =>
    let n ← match ← converted c.name args keywords with
      | some v => toInt v
      | none => pure 0
    return .int (if c == .int then .base else .derived) (← Act.fresh) n
  | .str | .myStr =>
    let s ← match ← converted c.name args keywords with
      | some v => (v.plain : Look String)
      | none => pure ""
    match args, c with
    | [.str .base id t], .str => return .str .base id t
    | _, _ => return .str (if c == .str then .base else .derived) (← Act.fresh) s
  | .bool =>
    match ← one with
    | some v => return .bool (← v.truth)
    | none => return .bool false
  | .float =>
    match ← one with
    | some (.float id x) => return .float id x
    | some v => Act.newFloat (← toFloat v)
    | none => Act.newFloat .zero
  | .bytes =>
    match ← one with
    | some (.bytes id bs) => return .bytes id bs
    | some v => return .bytes (← Act.fresh) (← toBytes c.name v)
    | none => return .bytes (← Act.fresh) []
  | .bytearray =>
    match ← one with
    | some v => Act.newBuffer (← toBytes c.name v)
    | none => Act.newBuffer []
  | .list => Act.newList (← itemsOf (← one))
  | .myList => Act.newListOf .derived (← itemsOf (← one))
  | .tuple =>
    match ← one with
    | some (.tuple id items) => return .tuple id items
    | v => Act.newTuple (← itemsOf v)
  | .set => Act.newSet (← Factory.distinct (← itemsOf (← one)))
  | .frozenset =>
    match ← one with
    | some (.frozenset id items) => return .frozenset id items
    | v => return .frozenset (← Act.fresh) (← Factory.distinct (← itemsOf v))
  | .dict | .myDict =>
    if 1 < args.length then Value.refuseCall s!"dict expected at most 1 argument, got {args.length}"
    Act.newDict (if c == .dict then .base else .derived) (← toEntries args keywords)
  | .frozenMap => return .frozenMap (← Act.fresh) (← toEntries args keywords)
  | .iter => Act.newIter (← itemsOf (← one))
  | .range =>
    unless keywords.isEmpty do Value.refuseCall "range() takes no keyword arguments"
    if 3 < args.length then Value.refuseCall s!"range expected at most 3 arguments, got {args.length}"
    return .range (← Act.fresh) (← toSpan args)
  | .slice =>
    unless keywords.isEmpty do Value.refuseCall "slice() takes no keyword arguments"
    if 3 < args.length then Value.refuseCall s!"slice expected at most 3 arguments, got {args.length}"
    toSlice args
  | .date => return .day (← Act.fresh) (← day args)
  | .datetime => return .moment (← Act.fresh) ⟨← day args, 0, 0, 0, 0⟩
  | .noneType =>
    unless args.isEmpty && keywords.isEmpty do Value.refuseCall "NoneType takes no arguments"
    return .nil
  | .type =>
    match args with
    | [v] => return .cls v.classOf
    | _ => Value.refuseCall "type() takes 1 or 3 arguments"
  | .pair =>
    let b ← ({ name := "Pair.__new__", required := ["left", "right"] } : Signature).accept args keywords
    return .pair (← Act.fresh) (b.get "left") (b.get "right")
  | .anything => Act.fail (.notInstantiable "Any cannot be instantiated")
  | _ => bare c args keywords

/-- The parameters of a constructor of this library's own classes. -/
def parameters (c : Class) (required : List String) (optional : List (String × Value)) : Signature :=
  { name := c.name ++ ".__init__", required, optional }

/-- Makes an instance of a class. -/
def construct (e : Engine) (c : Class) (args : List Value) (keywords : Keywords) : Act Value := do
  match c with
  | .checkedList | .numbers =>
    let b ← (parameters .checkedList ["values", "element_type"] []).accept args keywords
    CheckedList.construct e c (b.get "values") (b.get "element_type")
  | .variant .checkedList =>
    let b ← (parameters c ["element_type"] []).accept args keywords
    let d ← Descriptor.ofValue (b.get "element_type")
    return .descriptor (.checkedListOf (← Act.fresh) d)
  | .success =>
    let b ← (parameters c ["value"] []).accept args keywords
    return .success (← Act.fresh) (b.get "value")
  | .failure =>
    let b ← (parameters c ["error"] []).accept args keywords
    return .failure (← Act.fresh) (b.get "error")
  | .typeMismatchError =>
    let b ← (parameters c ["expected", "actual"] [("context", .nil), ("message", .nil)]).accept args keywords
    Check.mismatchError (b.get "expected") (b.get "actual") (b.get "context") (b.get "message")
  | .outcomeError =>
    let b ← (parameters c ["payload"] []).accept args keywords
    Outcome.payloadError (b.get "payload")
  | _ =>
    if c.isException then
      unless keywords.isEmpty do Value.refuseCall (c.name ++ "() takes no keyword arguments")
      return .exception (← Act.fresh) c args
    plain c args keywords

/-- Calls an annotation. Those of the plain generics build what they stand for. -/
def ofHint (e : Engine) (hint : String) (args : List Value) (keywords : Keywords) : Act Value := do
  let refuse (text : String) : Act Value := Act.fail (.notInstantiable text)
  if hint.startsWith "list[" then construct e .list args keywords
  else if hint.startsWith "dict[" then construct e .dict args keywords
  else if hint == "Success[int]" then construct e .success args keywords
  else if hint.startsWith "Callable" then construct e .callable args keywords
  else if hint.startsWith "Literal" then refuse "Cannot instantiate typing.Literal"
  else if hint == "Optional" then refuse "Cannot instantiate typing.Optional"
  else if hint.startsWith "Optional" || hint.startsWith "Union" then
    refuse "Cannot instantiate typing.Union"
  else
    match Descriptor.hintName? hint with
    | some name =>
      refuse ("Type " ++ name ++ " cannot be instantiated; use " ++ Text.lower name ++ "() instead")
    | none => Act.fail (.notCallable (Value.typeHint hint).operandName)

end Conform.Construction
