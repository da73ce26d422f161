import Conform.Descriptor.Coercion
import Conform.Engine
import Conform.Nominal
import Conform.Regex.Search
import Conform.Value.Attribute
import Conform.Value.Order

/-!
When a value matches a descriptor. Alternatives are tried from left to right and stop at the first
answer that settles the matter, so which predicates and thunks are called is determined.
-/
namespace Conform

namespace Descriptor

/-- The descriptor behind a deferred one. The thunk is called on first use and the first result stays. -/
def resolve (e : Engine) (id : Ident) (thunk : Value) : Act Descriptor := do
  match (← get).resolved.find? (·.1 == id) with
  | some entry => return entry.2
  | none =>
    let d ← ofValue (← e.call thunk [] [])
    match (← get).resolved.find? (·.1 == id) with
    | some entry => return entry.2
    | none =>
      Logging.trace (do return "descriptors.DeferredType.resolve: Resolved to " ++ (← d.describe))
      modify fun s => { s with resolved := s.resolved ++ [(id, d)] }
      return d

/-- Reads an attribute for a constraint: bound methods are called without arguments. -/
def readAttribute? (e : Engine) (v : Value) (name : String) : Act (Option Value) := do
  match ← v.attribute? name with
  | some w => if w.isBoundMethod then return some (← e.call w [] []) else return some w
  | none => return none

/-- Whether every named attribute or field is there and satisfies its descriptor. -/
def allNamed (e : Engine) (read : String → Act (Option Value)) : List (String × Descriptor) → Act Bool
  | [] => return true
  | (name, expected) :: rest => do
    match ← read name with
    | none => return false
    | some v => if ← e.accepts expected v then allNamed e read rest else return false

/-- Whether items match descriptors one by one. -/
def allPaired (e : Engine) : List Descriptor → List Value → Act Bool
  | d :: ds, v :: vs => do
    if ← e.accepts d v then allPaired e ds vs else return false
  | _, _ => return true

/-- The two ends of a range or slice. -/
def endpoints? : Value → Option (Value × Value)
  | .range _ r => some (Value.passingInt r.start, Value.passingInt r.stop)
  | .slice _ s t _ => some (s, t)
  | _ => none

/-- The ends that are present, of which there must be one. -/
def presentEnds? (v : Value) : Option (List Value) :=
  match endpoints? v with
  | none => none
  | some (.nil, .nil) => none
  | some (.nil, stop) => some [stop]
  | some (start, .nil) => some [start]
  | some (start, stop) => some [start, stop]

/-- Whether the ends that are present match. -/
def endpointsMatch (e : Engine) (element : Descriptor) (v : Value) : Act Bool :=
  match presentEnds? v with
  | none => return false
  | some ends => ends.allM (e.accepts element)

/-- Whether a value is at or after a bound. -/
def atOrAfter (start v : Value) : Look Bool :=
  match start with
  | .nil => return true
  | _ => Value.ordered .le start v

/-- Whether a value is before a bound. -/
def isBefore (stop v : Value) : Look Bool :=
  match stop with
  | .nil => return true
  | _ => Value.ordered .lt v stop

/-- Membership in a slice: at or after the start, before the stop; an absent bound does not bind. -/
def betweenBounds (start stop v : Value) : Look Bool := do
  if ← atOrAfter start v then isBefore stop v else return false

/-- Membership in a range or slice. Values that do not compare with the bounds of a slice are outside. -/
def isWithin (container v : Value) : Act Bool := do
  match container with
  | .range _ r => Value.inSpan r v
  | .slice _ start stop _ => Act.handle .typeError (betweenBounds start stop v) fun _ => return false
  | _ => return false

/-- Whether a value is a container that a collection descriptor walks through. -/
def isContainer (kind : CollectionKind) (v : Value) : Bool :=
  match kind with
  | .enumerable => !v.isText && v.classOf.conforms .collection
  | .array => v.isList
  | .set =>
    match v with
    | .set _ | .frozenset .. => true
    | _ => false

/-- Whether a value consists of nothing but texts, numbers, booleans, nils, lists, and dictionaries with
text keys. -/
def isPlainData (e : Engine) (v : Value) : Act Bool := do
  match v with
  | .nil | .bool _ | .int .. | .float .. | .str .. => return true
  | .list _ i => ((← Act.getHeap).list i).allM fun item => e.accepts .jsonData item
  | .dict _ i => ((← Act.getHeap).dict i).allM fun (k, w) => do
      if k.text?.isSome then e.accepts .jsonData w else return false
  | _ => return false

/-- Whether a pattern is found in a value that is a text. -/
def isFound (r : Regex) (v : Value) : Act Bool := do
  match v.text? with
  | none => return false
  | some s => if r.binary then Act.fail .binaryPattern else return (r.search s).isSome

/-- Whether a value responds to a method. -/
def respondsTo (v : Value) (name : String) : Act Bool := do
  match ← v.attribute? name with
  | some w => return w.isCallable
  | none => return false

/-- The items of a tuple or list. -/
def positional? (h : Heap) : Value → Option (List Value)
  | .list _ i => some (h.list i)
  | v => v.tuple?

/-- One step of matching. -/
def acceptsStep (e : Engine) (d : Descriptor) (v : Value) : Act Bool := do
  match d with
  | .any => return !v.same .nil
  | .void => return true
  | .never => return false
  | .boolean =>
    match v with
    | .bool _ => return true
    | _ => return false
  | .truthy => v.truth
  | .falsy => return !(← v.truth)
  | .jsonData => isPlainData e v
  | .union _ types => types.anyM fun t => e.accepts t v
  | .intersection _ types => types.allM fun t => e.accepts t v
  | .negation _ inner => return !(← e.accepts inner v)
  | .nilable _ inner => if v.same .nil then return true else e.accepts inner v
  | .constraint _ bases predicates =>
    if ← bases.allM fun b => e.accepts b v then allNamed e (readAttribute? e v) predicates
    else return false
  | .rangeOf _ element => endpointsMatch e element v
  | .tupleOf _ types =>
    match positional? (← Act.getHeap) v with
    | some vs => if vs.length == types.length then allPaired e types vs else return false
    | none => return false
  | .shape _ fields => allNamed e v.field? fields
  | .collection _ kind element =>
    if isContainer kind v then v.allItems (e.accepts element) else return false
  | .mappingOf _ key value =>
    match v.entries? (← Act.getHeap) with
    | some entries => entries.allM fun (k, w) => do
        if ← e.accepts key k then e.accepts value w else return false
    | none => return false
  | .instanceOf _ c => Nominal.isInstance v c
  | .classOf _ c => Nominal.isSubclass v c
  | .descendantOf _ c => if v.same (.cls c) then return false else Nominal.isSubclass v c
  | .interface _ methods => methods.allM (respondsTo v)
  | .predicate _ _ fn => (← e.call fn [v] []).truth
  | .unit _ obj => return v.same obj
  | .equal _ obj => (← v.equal obj).truth
  | .within _ container => isWithin container v
  | .regex _ pattern => isFound pattern v
  | .deferred id thunk => e.accepts (← resolve e id thunk) v
  | .checkedListOf _ element =>
    match v with
    | .checked _ i => e.subtype ((← Act.getHeap).checkedList i).element element
    | _ => return false

end Descriptor

end Conform
