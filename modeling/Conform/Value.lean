import Conform.Expr
import Conform.Regex.Syntax

/-!
Values and type descriptors.

A value that cannot change is a tree that carries an identity; a value that can change is a handle into
the heap, and the handle is its identity. Descriptors never change: a deferred one keeps its thunk, and
what the thunk resolved to is recorded beside the heap.
-/
namespace Conform

/-- The identity of an unchanging value. -/
abbrev Ident := Nat

/-- The place of a changing value in its table of the heap. -/
abbrev Handle := Nat

/-- An arithmetic progression of integers, up to but not including `stop`. -/
structure Span where
  start : Int
  stop : Int
  step : Int
  deriving DecidableEq

/-- How a method was reached, which decides whether reading it as an attribute calls it. -/
inductive Binding where
  /-- A method of a built-in value. -/
  | builtin
  /-- A special method of a built-in value. -/
  | wrapper
  /-- A method of an object. -/
  | method
  /-- A plain function. -/
  | function
  /-- A method read from its class, bound to nothing. -/
  | unbound
  /-- A special method read from its class. -/
  | unboundWrapper
  deriving DecidableEq

/-- The containers that a collection descriptor accepts. -/
inductive CollectionKind where
  | enumerable
  | array
  | set
  deriving DecidableEq

mutual

inductive Value where
  | nil
  | ellipsis
  | notImplemented
  /-- What a lookup answers when there is nothing to read. -/
  | missing
  | bool (b : Bool)
  | int (kind : Flavour) (id : Ident) (n : Int)
  | float (id : Ident) (x : Binary64)
  | str (kind : Flavour) (id : Ident) (s : String)
  | bytes (id : Ident) (bs : List UInt8)
  | tuple (id : Ident) (items : List Value)
  | pair (id : Ident) (left right : Value)
  | frozenset (id : Ident) (items : List Value)
  | frozenMap (id : Ident) (entries : List (Value × Value))
  | range (id : Ident) (r : Span)
  | slice (id : Ident) (start stop step : Value)
  | day (id : Ident) (d : Day)
  | moment (id : Ident) (m : Moment)
  | regex (r : Regex)
  | cls (c : Class)
  | typeHint (name : String)
  | fn (f : NamedFunction)
  | thunk (id : Ident) (label : String) (body : Expr)
  /-- A text test: the pattern is found and the evaluator accepts the captures. -/
  | patternTest (id : Ident) (r : Regex) (evaluator : Value)
  | method (owner : Value) (name : String) (binding : Binding)
  | exception (id : Ident) (c : Class) (args : List Value)
  | mismatchError (id : Ident) (expected actual context message : Value)
  | outcomeError (id : Ident) (payload : Value) (message : String)
  | success (id : Ident) (value : Value)
  | failure (id : Ident) (error : Value)
  | mismatch (id : Ident) (expected received value message : Value)
  /-- The keys of a mapping. -/
  | keys (id : Ident) (owner : Value)
  /-- Anything of which only the class can show. -/
  | other (id : Ident) (c : Class)
  | descriptor (d : Descriptor)
  | list (kind : Flavour) (at_ : Handle)
  | dict (kind : Flavour) (at_ : Handle)
  | set (at_ : Handle)
  | bytearray (at_ : Handle)
  | iter (at_ : Handle)
  | thing (c : Class) (at_ : Handle)
  | checked (c : Class) (at_ : Handle)
  | context (at_ : Handle)

inductive Descriptor where
  | any
  | void
  | never
  | boolean
  | truthy
  | falsy
  | jsonData
  | union (id : Ident) (types : List Descriptor)
  | intersection (id : Ident) (types : List Descriptor)
  | negation (id : Ident) (inner : Descriptor)
  | nilable (id : Ident) (inner : Descriptor)
  | constraint (id : Ident) (bases : List Descriptor) (predicates : List (String × Descriptor))
  | rangeOf (id : Ident) (element : Descriptor)
  | tupleOf (id : Ident) (types : List Descriptor)
  | shape (id : Ident) (fields : List (String × Descriptor))
  | collection (id : Ident) (kind : CollectionKind) (element : Descriptor)
  | mappingOf (id : Ident) (key value : Descriptor)
  | instanceOf (id : Ident) (c : Class)
  | classOf (id : Ident) (c : Class)
  | descendantOf (id : Ident) (c : Class)
  /-- The method names are sorted and distinct. -/
  | interface (id : Ident) (methods : List String)
  | predicate (id : Ident) (message fn : Value)
  | unit (id : Ident) (obj : Value)
  | equal (id : Ident) (obj : Value)
  | within (id : Ident) (container : Value)
  | regex (id : Ident) (pattern : Regex)
  | deferred (id : Ident) (thunk : Value)
  | checkedListOf (id : Ident) (element : Descriptor)

end

instance : Inhabited Value := ⟨.nil⟩

instance : Inhabited Descriptor := ⟨.void⟩

/-- Arguments given by name. -/
abbrev Keywords := List (String × Value)

/-- A list that holds only elements of its declared type. -/
structure CheckedList where
  items : List Value
  element : Descriptor
  collection : Descriptor
  frozen : Bool

/-- What is known about a failed check: the two sides, and who performed it. -/
structure CheckContext where
  expected : Value
  actual : Value
  receiver : Value := .nil
  operation : Value := .nil
  position : Value := .nil
  name : Value := .nil

namespace Descriptor

def variant : Descriptor → Variant
  | .any => .any
  | .void => .void
  | .never => .never
  | .boolean => .boolean
  | .truthy => .truthy
  | .falsy => .falsy
  | .jsonData => .jsonData
  | .union .. => .union
  | .intersection .. => .intersection
  | .negation .. => .negation
  | .nilable .. => .nilable
  | .constraint .. => .constraint
  | .rangeOf .. => .range
  | .tupleOf .. => .tuple
  | .shape .. => .shape
  | .collection _ .enumerable _ => .enumerable
  | .collection _ .array _ => .array
  | .collection _ .set _ => .set
  | .mappingOf .. => .mapping
  | .instanceOf .. => .instance_
  | .classOf .. => .class_
  | .descendantOf .. => .descendant
  | .interface .. => .interface
  | .predicate .. => .predicate
  | .unit .. => .unit
  | .equal .. => .equal
  | .within .. => .within
  | .regex .. => .regex
  | .deferred .. => .deferred
  | .checkedListOf .. => .checkedList

/-- The identity of a descriptor that was built; the constants have none. -/
def ident? : Descriptor → Option Ident
  | .any | .void | .never | .boolean | .truthy | .falsy | .jsonData => none
  | .union id _ | .intersection id _ | .negation id _ | .nilable id _ | .constraint id _ _
  | .rangeOf id _ | .tupleOf id _ | .shape id _ | .collection id _ _ | .mappingOf id _ _
  | .instanceOf id _ | .classOf id _ | .descendantOf id _ | .interface id _ | .predicate id _ _
  | .unit id _ | .equal id _ | .within id _ | .regex id _ | .deferred id _ | .checkedListOf id _ =>
    some id

/-- Whether two descriptors are one and the same. -/
def same (a b : Descriptor) : Bool :=
  a.variant == b.variant && a.ident? == b.ident?

end Descriptor

namespace Value

/-- The class of a typing annotation. -/
def hintClass (n : String) : String :=
  if n == "Optional" || n == "Union" then "_SpecialForm"
  else if n == "List" then "_SpecialGenericAlias"
  else if n == "Callable" then "_CallableType"
  else if n == "T" then "TypeVar"
  else if n == "ForwardRef" then "ForwardRef"
  else if n.startsWith "Optional[" || n.startsWith "Union[" then "_UnionGenericAlias"
  else if n.startsWith "Literal[" then "_LiteralGenericAlias"
  else if n.startsWith "Callable[" then "_CallableGenericAlias"
  else if n.startsWith "list[" || n.startsWith "dict[" then "GenericAlias"
  else if n.toList.contains '|' then "UnionType"
  else "_GenericAlias"

/-- The class of a value. -/
def classOf : Value → Class
  | .nil => .noneType
  | .ellipsis => .internal "ellipsis"
  | .notImplemented => .internal "NotImplementedType"
  | .missing => .object
  | .bool _ => .bool
  | .int .base .. => .int
  | .int .derived .. => .myInt
  | .float .. => .float
  | .str .base .. => .str
  | .str .derived .. => .myStr
  | .bytes .. => .bytes
  | .tuple .. => .tuple
  | .pair .. => .pair
  | .frozenset .. => .frozenset
  | .frozenMap .. => .frozenMap
  | .range .. => .range
  | .slice .. => .slice
  | .day .. => .date
  | .moment .. => .datetime
  | .regex _ => .internal "Pattern"
  | .cls c => c.metaclass
  | .typeHint n => .internal (hintClass n)
  | .fn f => if f.bare then .bareFn else .fn
  | .thunk .. => .thunk
  | .patternTest .. => .internal "function"
  | .method (.regex _) "match" .builtin => .internal "builtin_method"
  | .method _ _ .builtin => .internal "builtin_function_or_method"
  | .method _ _ .wrapper => .internal "method-wrapper"
  | .method _ _ .method => .internal "method"
  | .method _ _ .function => .internal "function"
  | .method _ _ .unbound => .internal "method_descriptor"
  | .method _ _ .unboundWrapper => .internal "wrapper_descriptor"
  | .exception _ c _ => c
  | .mismatchError .. => .typeMismatchError
  | .outcomeError .. => .outcomeError
  | .success .. => .success
  | .failure .. => .failure
  | .mismatch .. => .mismatch
  | .keys _ (.frozenMap ..) => .internal "KeysView"
  | .keys .. => .internal "dict_keys"
  | .other _ c => c
  | .descriptor d => .variant d.variant
  | .list .base _ => .list
  | .list .derived _ => .myList
  | .dict .base _ => .dict
  | .dict .derived _ => .myDict
  | .set _ => .set
  | .bytearray _ => .bytearray
  | .iter _ => .iter
  | .thing c _ => c
  | .checked c _ => c
  | .context _ => .checkContext
def className (v : Value) : String :=
  v.classOf.name

/-- The name of a value's class in the message of a failed operation. -/
def operandName (v : Value) : String :=
  v.classOf.operandName

/-- Small integers exist once. -/
def isShared (n : Int) : Bool :=
  -5 ≤ n && n ≤ 256

/-- Texts of one Latin letter or none exist once. -/
def isSharedText (s : String) : Bool :=
  s.length == 0 || (s.length == 1 && s.toList.all fun c => c.toNat < 256)

/-- Whether two values are one and the same object. The empty tuple exists once, and a method is known by
what it is bound to. -/
def same : Value → Value → Bool
  | .nil, .nil => true
  | .ellipsis, .ellipsis => true
  | .notImplemented, .notImplemented => true
  | .missing, .missing => true
  | .bool a, .bool b => a == b
  | .int .base i a, .int .base j b => a == b && (isShared a || i == j)
  | .int .derived i a, .int .derived j b => a == b && i == j
  | .float i a, .float j b => a == b && i == j
  | .str .base i a, .str .base j b => a == b && (isSharedText a || i == j)
  | .str .derived i a, .str .derived j b => a == b && i == j
  | .bytes i a, .bytes j b => a == b && (a.length ≤ 1 || i == j)
  | .tuple i a, .tuple j b => a.isEmpty == b.isEmpty && (a.isEmpty || i == j)
  | .pair i _ _, .pair j _ _ => i == j
  | .frozenset i _, .frozenset j _ => i == j
  | .frozenMap i _, .frozenMap j _ => i == j
  | .range i a, .range j b => a == b && i == j
  | .slice i _ _ _, .slice j _ _ _ => i == j
  | .day i a, .day j b => a == b && i == j
  | .moment i a, .moment j b => a == b && i == j
  | .regex a, .regex b => a.same b
  | .cls a, .cls b => a == b
  | .typeHint a, .typeHint b => a == b
  | .fn a, .fn b => a == b
  | .thunk i _ _, .thunk j _ _ => i == j
  | .patternTest i _ _, .patternTest j _ _ => i == j
  | .method o n k, .method o' n' k' => same o o' && n == n' && k == k'
  | .exception i _ _, .exception j _ _ => i == j
  | .mismatchError i .., .mismatchError j .. => i == j
  | .outcomeError i .., .outcomeError j .. => i == j
  | .success i _, .success j _ => i == j
  | .failure i _, .failure j _ => i == j
  | .mismatch i .., .mismatch j .. => i == j
  | .keys i _, .keys j _ => i == j
  | .other i _, .other j _ => i == j
  | .descriptor a, .descriptor b => a.same b
  | .list _ a, .list _ b => a == b
  | .dict _ a, .dict _ b => a == b
  | .set a, .set b => a == b
  | .bytearray a, .bytearray b => a == b
  | .iter a, .iter b => a == b
  | .thing _ a, .thing _ b => a == b
  | .checked _ a, .checked _ b => a == b
  | .context a, .context b => a == b
  | _, _ => false

/-- Whether a value is a plain list or the subclass that adds nothing. -/
def isList : Value → Bool
  | .list .. => true
  | _ => false

/-- The text of a text. -/
def text? : Value → Option String
  | .str _ _ s => some s
  | _ => none

/-- The integer behind integers and booleans. -/
def int? : Value → Option Int
  | .bool b => some (if b then 1 else 0)
  | .int _ _ n => some n
  | _ => none

/-- The exact number behind a number. -/
def number? : Value → Option Exact
  | .bool b => some (.ofInt (if b then 1 else 0))
  | .int _ _ n => some (.ofInt n)
  | .float _ x => some x.exact
  | _ => none

/-- The items of a tuple. -/
def tuple? : Value → Option (List Value)
  | .tuple _ items => some items
  | .pair _ l r => some [l, r]
  | _ => none

/-- Whether a value is an exception. -/
def isException (v : Value) : Bool :=
  v.classOf.isException

def isCallable : Value → Bool
  | .cls _ | .fn _ | .thunk .. | .patternTest .. | .method .. => true
  | .descriptor (.checkedListOf ..) => true
  | .typeHint n => !(n == "T" || n == "ForwardRef" || n.toList.contains '|')
  | _ => false

end Value

end Conform
