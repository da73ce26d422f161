import Conform.Value.Items
import Conform.Value.Shown

/-!
Reading attributes. What a value exposes follows from its class; objects carry attributes of their own
on top, and properties of their class come before those.
-/
namespace Conform

namespace Class

/-- Methods that a built-in class gives its instances. -/
def plainMethods : Class → List String
  | .int => ["bit_length", "conjugate"]
  | .float => ["conjugate", "is_integer"]
  | .str | .bytes =>
    ["isdigit", "islower", "isupper", "join", "lower", "split", "strip", "upper"]
  | .bytearray =>
    ["isdigit", "islower", "isupper", "join", "lower", "split", "strip", "upper", "append", "clear",
      "copy", "pop", "reverse"]
  | .list =>
    ["append", "clear", "copy", "pop", "reverse", "extend", "insert", "remove", "index", "count", "sort"]
  | .tuple => ["index", "count"]
  | .set => ["__contains__", "clear", "copy", "pop"]
  | .frozenset => ["__contains__", "copy"]
  | .dict => ["__contains__", "clear", "copy", "keys", "pop", "popitem"]
  | .date => ["isoformat", "weekday"]
  | .internal "Pattern" => ["split", "match"]
  | _ => []

/-- Special methods that a built-in class gives its instances. -/
def specialMethods : Class → List String
  | .noneType => ["__bool__"]
  | .int | .float => ["__abs__", "__bool__"]
  | .str | .bytes | .bytearray | .list | .tuple => ["__contains__", "__iter__", "__len__"]
  | .set | .frozenset | .dict => ["__iter__", "__len__"]
  | .range => ["__bool__", "__contains__", "__iter__", "__len__"]
  | .internal "NotImplementedType" => ["__bool__"]
  | _ => []

/-- Plain data that a built-in class gives its instances. -/
def dataNames : Class → List String
  | .int => ["denominator", "imag", "numerator", "real"]
  | .float => ["imag", "real"]
  | .range | .slice => ["start", "step", "stop"]
  | .date => ["day", "month", "year"]
  | .datetime => ["hour", "minute", "second"]
  | _ => []

/-- Methods of the classes that are not built in. -/
def objectMethods : Class → List String
  | .animal => ["speak"]
  | .dog => ["fetch", "bite"]
  | .mixin => ["mixin_method"]
  | .bag => ["__contains__", "__iter__", "__len__"]
  | .onlyIter => ["__iter__"]
  | .noBool => ["__bool__"]
  | .frozenMap => ["__contains__", "__iter__", "__len__", "keys"]
  | .iter => ["__iter__", "__next__"]
  | .fn | .bareFn | .thunk => ["__call__"]
  | .descriptor => ["match", "describe", "subtype_of"]
  | .variant .deferred => ["resolve"]
  | .variant .checkedList => ["__call__"]
  | .outcome =>
    ["is_success", "is_failure", "map", "bind", "filter", "value_or", "raise_or_value", "lift",
      "lift_or_raise", "fmap", "then", "value_or_raise"]
  | .checkedList =>
    ["__contains__", "__iter__", "__len__", "__getitem__", "__setitem__", "__delitem__", "append",
      "prepend", "insert", "extend", "push", "pop", "shift", "remove", "clear", "reverse",
      "filter_in_place", "reject_in_place", "sort_in_place", "filter", "reject", "sort", "max", "min",
      "minmax", "map", "transform", "freeze", "to_list"]
  | .sequence => ["index", "count", "__reversed__"]
  | .mutableSequence => ["__iadd__"]
  | .checkContext => ["fill_receiver"]
  | _ => []

end Class

namespace Value

/-- Names of methods with the class they come from. -/
def hasName (c : Class) (table : Class → List String) (name : String) : Bool :=
  c.mro.any fun d => (table d).contains name

/-- The sound that a class of dogs makes. -/
def soundOf (c : Class) : Option String :=
  if c.mro.contains .puppy then some "yip"
  else if c.mro.contains .dog then some "woof"
  else none

/-- Data of numbers, ranges, slices and days. -/
def dataAttribute? (v : Value) (name : String) : Act (Option Value) := do
  let number (n : Int) : Act (Option Value) := do return some (← Act.newInt n)
  match v, name with
  | .int .base .., "real" | .int .base .., "numerator" => return some v
  | .bool _, "real" | .bool _, "numerator" | .int .., "real" | .int .., "numerator" =>
    number (v.int?.getD 0)
  | .bool _, "imag" | .int .., "imag" => number 0
  | .bool _, "denominator" | .int .., "denominator" => number 1
  | .float .., "real" => return some v
  | .float .., "imag" => return some (← Act.newFloat .zero)
  | .range _ r, "start" => number r.start
  | .range _ r, "stop" => number r.stop
  | .range _ r, "step" => number r.step
  | .slice _ s _ _, "start" => return some s
  | .slice _ _ t _, "stop" => return some t
  | .slice _ _ _ p, "step" => return some p
  | .day _ d, "day" => number d.day
  | .day _ d, "month" => number d.month
  | .day _ d, "year" => number d.year
  | .day .., "max" => return some (.day (← Act.fresh) ⟨9999, 12, 31⟩)
  | .moment _ m, "day" => number m.day.day
  | .moment _ m, "month" => number m.day.month
  | .moment _ m, "year" => number m.day.year
  | .moment _ m, "hour" => number m.hour
  | .moment _ m, "minute" => number m.minute
  | .moment _ m, "second" => number m.second
  | .moment _ m, "microsecond" => number m.micro
  | .moment .., "max" => return some (.moment (← Act.fresh) ⟨⟨9999, 12, 31⟩, 23, 59, 59, 999999⟩)
  | .pair _ l _, "left" => return some l
  | .pair _ _ r, "right" => return some r
  | .pair .., "_fields" => return some (← Act.newTuple [← Act.newStr "left", ← Act.newStr "right"])
  | .regex r, "pattern" => return some (← Act.newStr r.source)
  | .method _ member _, "__name__" => return some (← Act.newStr member)
  | .method .., "__call__" | .patternTest .., "__call__" => return some (.method v name .wrapper)
  | .patternTest .., "__name__" => return some (← Act.newStr "_evaluate")
  | .fn f, "__name__" => if f.bare then return none else return some (← Act.newStr f.name)
  | _, _ => return none

/-- A tuple of descriptors. -/
def descriptorTuple (ds : List Descriptor) : Act Value :=
  Act.newTuple (ds.map .descriptor)

/-- Names with their descriptors, as a tuple of pairs. -/
def namedTuple (fields : List (String × Descriptor)) : Act Value := do
  Act.newTuple (← fields.mapM fun (n, d) => do Act.newTuple [← Act.newStr n, .descriptor d])

/-- The parts of a descriptor by name. -/
def descriptorAttribute? (d : Descriptor) (name : String) : Act (Option Value) := do
  match d, name with
  | .union _ types, "types" | .intersection _ types, "types" | .tupleOf _ types, "types" =>
    return some (← descriptorTuple types)
  | .negation _ inner, "inner" | .nilable _ inner, "inner" => return some (.descriptor inner)
  | .constraint _ bases _, "bases" => return some (← descriptorTuple bases)
  | .constraint _ _ predicates, "predicates" => return some (← namedTuple predicates)
  | .shape _ fields, "fields" => return some (← namedTuple fields)
  | .rangeOf _ e, "element_type" | .collection _ _ e, "element_type"
  | .checkedListOf _ e, "element_type" => return some (.descriptor e)
  | .mappingOf _ key _, "key_type" => return some (.descriptor key)
  | .mappingOf _ _ value, "value_type" => return some (.descriptor value)
  | .instanceOf _ c, "cls" | .classOf _ c, "cls" | .descendantOf _ c, "cls" => return some (.cls c)
  | .interface _ methods, "methods" =>
    return some (.frozenset (← Act.fresh) (← methods.mapM Act.newStr))
  | .predicate _ message _, "message" => return some message
  | .predicate _ _ test, "fn" => return some test
  | .unit _ obj, "obj" | .equal _ obj, "obj" => return some obj
  | .within _ container, "container" => return some container
  | .regex _ pattern, "pattern" => return some (.regex pattern)
  | .deferred id _, "is_resolved" => return some (.bool ((← get).resolved.any (·.1 == id)))
  | _, _ => return none

/-- The details of a context: expected text, received class, value. -/
def contextMismatch (c : CheckContext) : Act Value := do
  let expected ← c.expected.shown
  return .mismatch (← Act.fresh) (← Act.newStr expected) (← Act.newStr c.actual.className) c.actual .nil

/-- Fields and properties of outcomes, checked lists, contexts and errors. -/
def fieldAttribute? (v : Value) (name : String) : Act (Option Value) := do
  let h ← Act.getHeap
  match v, name with
  | .success _ w, "value" | .success _ w, "success" => return some w
  | .failure _ e, "error" | .failure _ e, "failure" => return some e
  | .success .., "__match_args__" => return some (← Act.newTuple [← Act.newStr "value"])
  | .failure .., "__match_args__" => return some (← Act.newTuple [← Act.newStr "error"])
  | .checked _ i, "element_type" => return some (.descriptor (h.checkedList i).element)
  | .checked _ i, "collection_type" => return some (.descriptor (h.checkedList i).collection)
  | .checked _ i, "is_frozen" => return some (.bool (h.checkedList i).frozen)
  | .exception _ _ args, "args" => return some (← Act.newTuple args)
  | .mismatchError _ _ _ _ message, "args" => return some (← Act.newTuple [message])
  | .mismatchError _ expected _ _ _, "expected" => return some expected
  | .mismatchError _ _ actual _ _, "actual" => return some actual
  | .mismatchError _ _ _ known _, "context" => return some known
  | .outcomeError _ _ message, "args" => return some (← Act.newTuple [← Act.newStr message])
  | .outcomeError _ payload _, "payload" => return some payload
  | .mismatch _ e _ _ _, "expected_repr" => return some e
  | .mismatch _ _ r _ _, "received_repr" => return some r
  | .mismatch _ _ _ w _, "value" => return some w
  | .mismatch _ _ _ _ m, "message" => return some m
  | .context i, "expected" => return some (h.context i).expected
  | .context i, "actual" => return some (h.context i).actual
  | .context i, "receiver" => return some (h.context i).receiver
  | .context i, "operation_name" => return some (h.context i).operation
  | .context i, "argument_position" => return some (h.context i).position
  | .context i, "argument_name" => return some (h.context i).name
  | .context i, "mismatch" => return some (← contextMismatch (h.context i))
  | .descriptor d, _ => descriptorAttribute? d name
  | _, _ => return none

/-- What a class exposes itself. Its methods are bound to nothing; only methods of the class proper are
bound to it. -/
def classAttribute? (c : Class) (name : String) : Act (Option Value) := do
  let owner : Value := .cls c
  let slot (kind : String) : Act (Option Value) := do
    return some (.other (← Act.fresh) (.internal kind))
  if name == "__name__" || name == "__qualname__" then return some (← Act.newStr c.name)
  if c.mro.contains .type && (name == "mro" || name == "__call__") then
    return some (.method owner name (if name == "mro" then .unbound else .unboundWrapper))
  if hasName c Class.plainMethods name then return some (.method owner name .unbound)
  if hasName c Class.specialMethods name then return some (.method owner name .unboundWrapper)
  if hasName c Class.dataNames name then
    slot (if c == .range || c == .slice then "member_descriptor" else "getset_descriptor")
  else if hasName c Class.objectMethods name then return some (.method owner name .function)
  else if name == "kind" && c.mro.contains .dog then return some (.method owner name .method)
  else if name == "legs" && c.mro.contains .dog then return some (.method owner name .function)
  else if name == "weight" && c.mro.contains .puppy then slot "property"
  else
    match if name == "sound" then soundOf c else none with
    | some sound => return some (← Act.newStr sound)
    | none =>
      if name == "mro" then return some (.method owner name .builtin)
      if name == "__call__" then return some (.method owner name .wrapper)
      return none

/-- What an annotation passes on to the class that it stands for. -/
def hintAttribute? (hint name : String) : Act (Option Value) := do
  let origin : Option Class :=
    if hint == "List[int]" || hint == "list[int]" then some .list
    else if hint == "Dict[str, int]" || hint == "dict[str, list[int]]" then some .dict
    else none
  match origin with
  | none => return none
  | some c =>
    let special := hint.startsWith "L" || hint.startsWith "D"
    if special && (name == "__call__" || name == "__iter__") then
      return some (.method (.typeHint hint) name .method)
    if name == "__name__" then
      return some (← Act.newStr (if special then (if c == .list then "List" else "Dict") else c.name))
    if special && name.startsWith "__" then return none
    classAttribute? c name

/-- What an object exposes: properties, then its own attributes, then what its class gives. -/
def thingAttribute? (c : Class) (at_ : Handle) (name : String) : Act (Option Value) := do
  let v : Value := .thing c at_
  if c == .prickly && name == "broken" then Act.fail .brokenProperty
  if c == .prickly && name == "hidden" then return none
  if c.mro.contains .puppy && name == "weight" then return some (← Act.newInt 3)
  match ownAttribute? (← Act.getHeap) at_ name with
  | some w => return some w
  | none =>
    if hasName c Class.objectMethods name || (name == "kind" && c.mro.contains .dog) then
      return some (.method v name .method)
    if name == "legs" && c.mro.contains .dog then return some (.method v name .function)
    match if name == "sound" then soundOf c else none with
    | some sound => return some (← Act.newStr sound)
    | none =>
      if c == .ghost && !name.startsWith "_" then return some (← Act.newStr name)
      return none

/-- The attribute of a value, if it has one by that name. -/
def attribute? (v : Value) (name : String) : Act (Option Value) := do
  if name == "__class__" then return some (.cls v.classOf)
  match v with
  | .cls c => classAttribute? c name
  | .typeHint n => hintAttribute? n name
  | .thing c i => thingAttribute? c i name
  | _ =>
    match ← dataAttribute? v name with
    | some w => return some w
    | none =>
      match ← fieldAttribute? v name with
      | some w => return some w
      | none =>
        let c := v.classOf
        if hasName c Class.plainMethods name then return some (.method v name .builtin)
        if hasName c Class.specialMethods name then return some (.method v name .wrapper)
        if hasName c Class.objectMethods name then return some (.method v name .method)
        return none

/-- The fault of an attribute that is not there. -/
def noAttribute (v : Value) (name : String) : Cause :=
  match v with
  | .cls c => .noClassAttribute c.name name
  | .thing .prickly _ => if name == "hidden" then .hiddenProperty else .noAttribute v.operandName name
  | _ => .noAttribute v.operandName name

/-- The attribute of a value, which must have it. -/
def getAttribute (v : Value) (name : String) : Act Value := do
  match ← attribute? v name with
  | some w => return w
  | none => Act.fail (noAttribute v name)

/-- A named field: by key on mappings, by attribute otherwise. -/
def field? (v : Value) (name : String) : Act (Option Value) := do
  match entries? (← Act.getHeap) v with
  | some entries => return entryNamed? entries name
  | none => attribute? v name

/-- Whether reading an attribute for a constraint calls it: bound methods are called. -/
def isBoundMethod : Value → Bool
  | .method _ _ .builtin | .method _ _ .wrapper | .method _ _ .method => true
  | _ => false

end Value

end Conform
