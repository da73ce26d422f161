import Conform.Value.Truth
import Conform.Number.Shortest
import Conform.Text.Quoted

/-!
The text of values and descriptors. A container or a record that is met again inside itself is written as
dots; objects, outcomes and descriptors are written out again and again, so their texts may have no end.
-/
namespace Conform

/-- Digits filled up with zeros. -/
def padded (width n : Nat) : String :=
  let s := toString n
  "".pushn '0' (width - s.length) ++ s

namespace Day

/-- Year, month and day, joined by hyphens. -/
def iso (d : Day) : String :=
  padded 4 d.year ++ "-" ++ padded 2 d.month ++ "-" ++ padded 2 d.day

end Day

namespace Moment

/-- The time of day; microseconds are only written if there are any. -/
def clock (m : Moment) : String :=
  padded 2 m.hour ++ ":" ++ padded 2 m.minute ++ ":" ++ padded 2 m.second ++
    (if m.micro == 0 then "" else "." ++ padded 6 m.micro)

def iso (m : Moment) : String :=
  m.day.iso ++ "T" ++ m.clock

/-- The arguments that rebuild a moment: seconds and microseconds only as far as needed. -/
def arguments (m : Moment) : List Nat :=
  m.day.numbers ++ [m.hour, m.minute] ++
    (if m.micro != 0 then [m.second, m.micro] else if m.second != 0 then [m.second] else [])

end Moment

/-- Items with commas between them. -/
def commas (items : List String) : String :=
  String.intercalate ", " items

def braces (s : String) : String :=
  "\x7b" ++ s ++ "\x7d"

namespace Span

def shown (r : Span) : String :=
  let ends := s!"{r.start}, {r.stop}"
  "range(" ++ (if r.step == 1 then ends else ends ++ s!", {r.step}") ++ ")"

end Span

namespace Regex

def flagNames (f : Flags) (binary : Bool) : List String :=
  (if f.ignoreCase then ["re.IGNORECASE"] else []) ++ (if f.multiline then ["re.MULTILINE"] else []) ++
    (if f.dotAll then ["re.DOTALL"] else []) ++ (if f.verbose then ["re.VERBOSE"] else []) ++
    (if f.ascii && !binary then ["re.ASCII"] else [])

/-- The pattern as it was written. -/
def quotedSource (r : Regex) : String :=
  if r.binary then Text.quotedBytes (r.source.toList.map fun c => c.toNat.toUInt8)
  else Text.quoted r.source

def shown (r : Regex) : String :=
  "re.compile(" ++ String.ofList (r.quotedSource.toList.take 200) ++
    String.join (match flagNames r.flags r.binary with
      | [] => []
      | names => [", ", String.intercalate "|" names]) ++ ")"

end Regex

/-- The text of a typing annotation. -/
def hintShown (n : String) : String :=
  if n == "T" then "~T"
  else if n == "ForwardRef" then "ForwardRef('Node')"
  else if n == "Success[int]" then "castiron.outcome.Success[int]"
  else if n.startsWith "list[" || n.startsWith "dict[" || n.toList.contains '|' then n
  else "typing." ++ n

/-- Where a value whose text repeats it stands, by table and place. -/
abbrev Trail := List (Nat × Handle)

namespace Value

mutual

/-- The text of a value, as code would write it. -/
def shownAt (fuel : Nat) (trail : Trail) (v : Value) : Look String :=
  match fuel with
  | 0 => throw .exhausted
  | fuel + 1 => do
    let h ← read
    match v with
    | .nil => return "None"
    | .ellipsis => return "Ellipsis"
    | .notImplemented => return "NotImplemented"
    | .missing => return "<object object>"
    | .bool b => return if b then "True" else "False"
    | .int _ _ n => return toString n
    | .float _ x => return x.text
    | .str _ _ s => return Text.quoted s
    | .bytes _ bs => return Text.quotedBytes bs
    | .bytearray i => return "bytearray(" ++ Text.quotedBytes (h.buffer i) ++ ")"
    | .tuple id items =>
      if trail.contains (3, id) then return "(...)"
      let shown ← items.mapM (shownAt fuel ((3, id) :: trail))
      return "(" ++ commas shown ++ (if items.length == 1 then ",)" else ")")
    | .pair _ l r =>
      return "Pair(left=" ++ (← shownAt fuel trail l) ++ ", right=" ++ (← shownAt fuel trail r) ++ ")"
    | .list _ i =>
      if trail.contains (0, i) then return "[...]"
      return "[" ++ commas (← (h.list i).mapM (shownAt fuel ((0, i) :: trail))) ++ "]"
    | .dict _ i =>
      if trail.contains (1, i) then return braces "..."
      return braces (commas (← entriesShown fuel ((1, i) :: trail) (h.dict i)))
    | .set i =>
      if trail.contains (2, i) then return "set(...)"
      if (h.set i).isEmpty then return "set()"
      return braces (commas (← (h.set i).mapM (shownAt fuel ((2, i) :: trail))))
    | .frozenset id items =>
      if trail.contains (4, id) then return "frozenset(...)"
      if items.isEmpty then return "frozenset()"
      return "frozenset(" ++ braces (commas (← items.mapM (shownAt fuel ((4, id) :: trail)))) ++ ")"
    | .frozenMap _ entries =>
      return "FrozenMap(" ++ braces (commas (← entriesShown fuel trail entries)) ++ ")"
    | .range _ r => return r.shown
    | .slice _ s t p => return "slice(" ++ commas (← [s, t, p].mapM (shownAt fuel trail)) ++ ")"
    | .day _ d => return "datetime.date(" ++ commas (d.numbers.map toString) ++ ")"
    | .moment _ m => return "datetime.datetime(" ++ commas (m.arguments.map toString) ++ ")"
    | .regex r => return r.shown
    | .cls c => return c.shown
    | .typeHint n => return hintShown n
    | .fn f => return (if f.bare then "<bare " else "<fn ") ++ f.name ++ ">"
    | .thunk _ label _ => return "<thunk " ++ label ++ ">"
    | .patternTest .. => return "<function Pattern.<locals>._evaluate>"
    | .method owner name _ => return "<method " ++ name ++ " of " ++ owner.className ++ ">"
    | .exception _ c args => return c.name ++ "(" ++ commas (← args.mapM (shownAt fuel trail)) ++ ")"
    | .mismatchError _ _ _ _ message =>
      return "TypeMismatchError(" ++ (← shownAt fuel trail message) ++ ")"
    | .outcomeError _ _ message => return "OutcomeError(" ++ Text.quoted message ++ ")"
    | .success _ w => return "Success(" ++ (← shownAt fuel trail w) ++ ")"
    | .failure _ w => return "Failure(" ++ (← shownAt fuel trail w) ++ ")"
    | .mismatch id e r w m =>
      if trail.contains (5, id) then return "..."
      let shown ← [e, r, w, m].mapM (shownAt fuel ((5, id) :: trail))
      return "Mismatch(" ++ commas
        ((["expected_repr", "received_repr", "value", "message"].zip shown).map
          fun (n, s) => n ++ "=" ++ s) ++ ")"
    | .keys id owner =>
      match owner with
      | .dict _ i =>
        if trail.contains (6, id) then return "..."
        return "dict_keys([" ++ commas (← (h.dict i).mapM fun (k, _) => shownAt fuel ((6, id) :: trail) k) ++ "])"
      | _ => return "KeysView(" ++ (← shownAt fuel trail owner) ++ ")"
    | .other _ c => return if c == .grumpy then "Grumpy()" else "<" ++ c.name ++ " object>"
    | .descriptor d => describeAt fuel trail d
    | .iter _ => return "<iter>"
    | .thing c i =>
      let shown ← (h.thing i).mapM fun (n, w) => do return n ++ "=" ++ (← shownAt fuel trail w)
      return c.name ++ "(" ++ commas shown ++ ")"
    | .checked _ i =>
      let l := h.checkedList i
      return "CheckedList([" ++ commas (← l.items.mapM (shownAt fuel trail)) ++ "], " ++
        (← describeAt fuel trail l.element) ++ ")"
    | .context i =>
      if trail.contains (7, i) then return "..."
      let c := h.context i
      let shown ← [c.expected, c.actual, c.receiver, c.operation, c.position, c.name].mapM
        (shownAt fuel ((7, i) :: trail))
      return "CheckContext(" ++ commas
        ((["expected", "actual", "receiver", "operation_name", "argument_position",
          "argument_name"].zip shown).map fun (n, s) => n ++ "=" ++ s) ++ ", caller_info=\x7b\x7d)"

/-- The texts of the entries of a mapping. -/
def entriesShown (fuel : Nat) (trail : Trail) (entries : List (Value × Value)) : Look (List String) :=
  match fuel with
  | 0 => throw .exhausted
  | fuel + 1 => entries.mapM fun (k, v) => do
    return (← shownAt fuel trail k) ++ ": " ++ (← shownAt fuel trail v)

/-- The short text of a descriptor. A deferred one is never looked into. -/
def describeAt (fuel : Nat) (trail : Trail) (d : Descriptor) : Look String :=
  match fuel with
  | 0 => throw .exhausted
  | fuel + 1 =>
    match d with
    | .any => return "Any"
    | .void => return "Void"
    | .never => return "Never"
    | .boolean => return "Boolean"
    | .truthy => return "Truthy"
    | .falsy => return "Falsy"
    | .jsonData => return "JSONData"
    | .union _ types => do return "Union(" ++ commas (← types.mapM (describeAt fuel trail)) ++ ")"
    | .intersection _ types => do
      return "Intersection(" ++ commas (← types.mapM (describeAt fuel trail)) ++ ")"
    | .negation _ inner => do return "Not(" ++ (← describeAt fuel trail inner) ++ ")"
    | .nilable _ inner => do return "Nilable(" ++ (← describeAt fuel trail inner) ++ ")"
    | .constraint _ bases predicates => do
      let parts ← bases.mapM (describeAt fuel trail)
      return "Constraint(" ++ commas (parts ++ (← namedShown fuel trail predicates)) ++ ")"
    | .rangeOf _ element => do return "RangeOf(" ++ (← describeAt fuel trail element) ++ ")"
    | .tupleOf _ types => do return "TupleOf(" ++ commas (← types.mapM (describeAt fuel trail)) ++ ")"
    | .shape _ fields => do return "Shape(" ++ commas (← namedShown fuel trail fields) ++ ")"
    | .collection _ kind element => do
      let label := match kind with
        | .enumerable => "EnumerableOf"
        | .array => "ArrayOf"
        | .set => "SetOf"
      return label ++ "(" ++ (← describeAt fuel trail element) ++ ")"
    | .mappingOf _ key value => do
      return "MappingOf(" ++ (← describeAt fuel trail key) ++ ", " ++
        (← describeAt fuel trail value) ++ ")"
    | .instanceOf _ c => return c.qualifiedName
    | .classOf _ c => return "ClassOf(" ++ c.qualifiedName ++ ")"
    | .descendantOf _ c => return "DescendantOf(" ++ c.qualifiedName ++ ")"
    | .interface _ methods => return "Interface(" ++ commas methods ++ ")"
    | .predicate _ message _ => do return "Predicate(" ++ (← plainAt fuel trail message) ++ ")"
    | .unit _ obj => do return "Unit(" ++ (← shownAt fuel trail obj) ++ ")"
    | .equal _ obj => shownAt fuel trail obj
    | .within _ container => do
      match container with
      | .slice _ start stop _ =>
        let s ← boundShown fuel trail start
        let t ← boundShown fuel trail stop
        return "Within(" ++ s ++ ":" ++ t ++ ")"
      | _ => return "Within(" ++ (← shownAt fuel trail container) ++ ")"
    | .regex _ pattern => return "Regex(" ++ pattern.quotedSource ++ ")"
    | .deferred .. => return "Deferred"
    | .checkedListOf _ element => do
      return "CheckedListOf(" ++ (← describeAt fuel trail element) ++ ")"

/-- A bound that is not there is written as nothing. -/
def boundShown (fuel : Nat) (trail : Trail) (v : Value) : Look String :=
  match fuel with
  | 0 => throw .exhausted
  | fuel + 1 =>
    match v with
    | .nil => return ""
    | _ => shownAt fuel trail v

/-- Named descriptors, as a call would write them. -/
def namedShown (fuel : Nat) (trail : Trail) (fields : List (String × Descriptor)) :
    Look (List String) :=
  match fuel with
  | 0 => throw .exhausted
  | fuel + 1 => fields.mapM fun (n, d) => do return n ++ "=" ++ (← describeAt fuel trail d)

/-- The text of a value for a reader: texts stand for themselves, exceptions for their arguments. -/
def plainAt (fuel : Nat) (trail : Trail) (v : Value) : Look String :=
  match fuel with
  | 0 => throw .exhausted
  | fuel + 1 =>
    match v with
    | .str _ _ s => return s
    | .day _ d => return d.iso
    | .moment _ m => return m.day.iso ++ " " ++ m.clock
    | .mismatchError _ _ _ _ message => plainAt fuel trail message
    | .outcomeError _ _ message => return message
    | .exception _ c args =>
      match args with
      | [] => return ""
      | [a] => if c == .keyError then shownAt fuel trail a else plainAt fuel trail a
      | _ => do return "(" ++ commas (← args.mapM (shownAt fuel trail)) ++ ")"
    | _ => shownAt fuel trail v

end

/-- The text of a value, as code would write it. -/
def shown (v : Value) : Look String :=
  shownAt valueDepth [] v

/-- The text of a value for a reader. -/
def plain (v : Value) : Look String :=
  plainAt valueDepth [] v

/-- The most characters of a value's text that a message keeps. -/
def shownLimit : Nat := 100

/-- The text of a value, cut for use in a message. -/
def shownBriefly (v : Value) : Look String := do
  return Text.truncated shownLimit (← shown v)

/-- What a failed check says by default. -/
def mismatchMessage (expected actual : Value) : Look String := do
  let e ← shown expected
  return "Expected " ++ e ++ ", got " ++ actual.className ++ " " ++ (← shownBriefly actual)

end Value

/-- The short text of a descriptor. -/
def Descriptor.describe (d : Descriptor) : Look String :=
  Value.describeAt valueDepth [] d

/-- The message of a fault. -/
def Fault.message : Fault → Look String
  | .cause c => return c.message
  | .raised e => e.plain
  | .exhausted => return "maximum recursion depth exceeded"

/-- The text of the exception that a fault surfaces as. -/
def Fault.shown : Fault → Look String
  | .cause c => return c.kind.name ++ "(" ++ Text.quoted c.message ++ ")"
  | .raised e => e.shown
  | .exhausted => return "RecursionError('maximum recursion depth exceeded')"

end Conform
