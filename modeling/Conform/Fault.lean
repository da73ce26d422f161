import Conform.Value

/-!
How an action fails: for a cause that this library knows, with an exception that was a value before, or
because the depth of its recursion ran out. The wording of every cause stands in `Cause.message`.
-/
namespace Conform

/-- Why an action failed. Arguments are names of classes or attributes and texts of values. -/
inductive Cause where
  -- malformed descriptors and pipelines
  | noTypes (factory : String)
  | noBase
  | noField
  | noMethod
  | noStep
  | noEvaluator
  | notClass (who shown : String)
  | methodNames (shown : String)
  | notPredicate (message shown : String)
  | notThunk (shown : String)
  | notRange (name : String)
  | hintGiven (shown : String)
  | badPattern (what : String)
  -- unsupported operands
  | foreignOperand (operation name : String)
  | twoOrders
  | notOutcome (step name : String)
  | frozen (operation : String)
  -- attributes
  | noAttribute (owner name : String)
  | noSuchName (name : String)
  | noClassAttribute (owner name : String)
  | noSetter (owner name : String)
  | noDeleter (owner name : String)
  | readOnlyAttribute (owner name : String)
  | assignField (name : String)
  | deleteField (name : String)
  -- operations on values
  | unhashable (name : String)
  | unordered (operator left right : String)
  | badOperands (operator left right : String)
  | badUnary (operator name : String)
  | concatenate (kind name : String)
  | concatenateBytes (kind name : String)
  | repeatBy (name : String)
  | notIterable (name : String)
  | notCallable (name : String)
  | noLength (name : String)
  | notSubscriptable (name : String)
  | classNotSubscriptable (name : String)
  | noItemAssignment (name : String)
  | noItemDeletion (name : String)
  | noIndexDeletion (name : String)
  | notContainer (name : String)
  | notSubstring (name : String)
  | notReversible (name : String)
  | badIndex (kind name : String)
  | badTextIndex (name : String)
  | notInteger (name : String)
  | badSlice
  | badSliceBound
  | assignNonIterable
  | assignNonIterableSlice
  | callShape (text : String)
  | noTruth
  | notInt (name : String)
  | mixedCalendar
  | binaryPattern
  | joinNonIterable
  | joinItem (place : Nat) (wanted name : String)
  | separatorKind (text : String)
  | notSearchable (name : String)
  | intArgument (name : String)
  | floatArgument (name : String)
  | classRefused (text : String)
  | notInstantiable (text : String)
  | pairShape (place : Nat)
  | stringWithoutEncoding
  | notBytes (kind name : String)
  | notBytesLike (name : String)
  | outOfMemory
  | notClassInfo
  | badLevelKind (shown : String)
  | badLevel (shown : String)
  | zeroStep
  | zeroRangeStep
  | sizeMismatch (given wanted : Nat)
  | notInList
  | absentFrom (text : String)
  | emptySeparator
  | notFound
  | badIntText (shown : String)
  | badFloatText (shown : String)
  | nanToInt
  | infinityToInt
  | hugeToFloat
  | hugeIndex (name : String)
  | hugeOffset
  | hugeFlag
  | hugeRepeat (name : String)
  | hugeRepetition
  | outOfRange (what : String)
  | byteOutOfRange
  | byteRange
  | bytesRange
  | negativeCount
  | pairLength (place length : Nat)
  | dayRange (text : String)
  | emptyPop (what : String)
  | keyMissing (shown : String)
  | emptyCollectionPop (what : String)
  -- what the zoo raises
  | boom
  | prickly
  | brokenProperty
  | hiddenProperty
  deriving DecidableEq

namespace Cause

/-- The class of the exception that a cause surfaces as. -/
def kind : Cause → Class
  | .noTypes _ | .noBase | .noField | .noMethod | .noStep | .noEvaluator | .notClass .. | .methodNames _
  | .notPredicate .. | .notThunk _ | .notRange _ | .hintGiven _ => .configurationError
  | .badPattern _ => .patternError
  | .outOfMemory => .internal "MemoryError"
  | .foreignOperand .. | .twoOrders | .notOutcome .. => .argumentError
  | .frozen _ => .immutableError
  | .noAttribute .. | .noSuchName _ | .noClassAttribute .. | .noSetter .. | .noDeleter .. | .readOnlyAttribute ..
  | .hiddenProperty =>
    .attributeError
  | .assignField _ | .deleteField _ => .frozenFieldError
  | .badLevel _ | .zeroStep | .zeroRangeStep | .sizeMismatch .. | .notInList | .absentFrom _ | .emptySeparator | .byteRange | .bytesRange | .negativeCount
  | .pairLength .. | .dayRange _ | .notFound
  | .badIntText _ | .badFloatText _ | .nanToInt | .boom | .prickly | .brokenProperty => .valueError
  | .infinityToInt | .hugeToFloat | .hugeOffset | .hugeFlag | .hugeRepeat _ | .hugeRepetition =>
    .overflowError
  | .hugeIndex _ | .outOfRange _ | .byteOutOfRange | .emptyPop _ => .indexError
  | .keyMissing _ | .emptyCollectionPop _ => .keyError
  | _ => .typeError

def message : Cause → String
  | .noTypes factory => factory ++ " requires at least one type"
  | .noBase => "Constraint requires at least one base type"
  | .noField => "Shape requires at least one field"
  | .noMethod => "Interface requires at least one method name"
  | .noStep => "lift requires at least one step"
  | .noEvaluator => "Pattern requires an evaluator"
  | .notClass who shown => who ++ " expects a class, got " ++ shown
  | .methodNames shown => "Interface method names must be strings, got " ++ shown
  | .notPredicate message shown => "Predicate " ++ message ++ " requires a callable, got " ++ shown
  | .notThunk shown => "Deferred requires a zero-argument callable, got " ++ shown
  | .notRange name => "Within expects a range or slice, got " ++ name
  | .hintGiven shown => shown ++ " is a typing annotation, not a descriptor. " ++
      "Use the castiron.types factories (e.g. ArrayOf, Union, Nilable) instead."
  | .badPattern what => what
  | .foreignOperand operation name => "Cannot perform " ++ operation ++ " with " ++ name ++ "."
  | .twoOrders => "Pass either a comparator or a key, not both."
  | .notOutcome step name => step ++ " must return a Success or Failure, got " ++ name
  | .frozen operation => "Cannot " ++ operation ++ " a frozen CheckedList"
  | .noSuchName name => "module 'castiron.types' has no attribute '" ++ name ++ "'"
  | .noAttribute owner name => "'" ++ owner ++ "' object has no attribute '" ++ name ++ "'"
  | .noClassAttribute owner name => "type object '" ++ owner ++ "' has no attribute '" ++ name ++ "'"
  | .noSetter owner name => "property '" ++ name ++ "' of '" ++ owner ++ "' object has no setter"
  | .noDeleter owner name => "property '" ++ name ++ "' of '" ++ owner ++ "' object has no deleter"
  | .readOnlyAttribute owner name => "'" ++ owner ++ "' object attribute '" ++ name ++ "' is read-only"
  | .assignField name => "cannot assign to field '" ++ name ++ "'"
  | .deleteField name => "cannot delete field '" ++ name ++ "'"
  | .unhashable name => "unhashable type: '" ++ name ++ "'"
  | .unordered operator left right =>
    "'" ++ operator ++ "' not supported between instances of '" ++ left ++ "' and '" ++ right ++ "'"
  | .badOperands operator left right =>
    "unsupported operand type(s) for " ++ operator ++ ": '" ++ left ++ "' and '" ++ right ++ "'"
  | .badUnary operator name => "bad operand type for unary " ++ operator ++ ": '" ++ name ++ "'"
  | .concatenate kind name =>
    "can only concatenate " ++ kind ++ " (not \"" ++ name ++ "\") to " ++ kind
  | .concatenateBytes kind name => "can't concat " ++ name ++ " to " ++ kind
  | .repeatBy name => "can't multiply sequence by non-int of type '" ++ name ++ "'"
  | .notIterable name => "'" ++ name ++ "' object is not iterable"
  | .notCallable name => "'" ++ name ++ "' object is not callable"
  | .noLength name => "object of type '" ++ name ++ "' has no len()"
  | .notSubscriptable name => "'" ++ name ++ "' object is not subscriptable"
  | .classNotSubscriptable name => "type '" ++ name ++ "' is not subscriptable"
  | .noItemAssignment name => "'" ++ name ++ "' object does not support item assignment"
  | .noIndexDeletion name => "'" ++ name ++ "' object doesn't support item deletion"
  | .noItemDeletion name => "'" ++ name ++ "' object does not support item deletion"
  | .notContainer name => "argument of type '" ++ name ++ "' is not iterable"
  | .notSubstring name => "'in <string>' requires string as left operand, not " ++ name
  | .notReversible name => "'" ++ name ++ "' object is not reversible"
  | .badIndex kind name => kind ++ " indices must be integers or slices, not " ++ name
  | .badTextIndex name => "string indices must be integers, not '" ++ name ++ "'"
  | .notInteger name => "'" ++ name ++ "' object cannot be interpreted as an integer"
  | .badSlice => "slice indices must be integers or None or have an __index__ method"
  | .badSliceBound => "slice indices must be integers or have an __index__ method"
  | .assignNonIterable => "can only assign an iterable"
  | .assignNonIterableSlice => "must assign iterable to extended slice"
  | .callShape text => text
  | .noTruth => "no truth value"
  | .notInt name => "not an int: " ++ name
  | .mixedCalendar => "can't compare datetime.datetime to datetime.date"
  | .binaryPattern => "cannot use a bytes pattern on a string-like object"
  | .joinNonIterable => "can only join an iterable"
  | .joinItem place wanted name => s!"sequence item {place}: expected {wanted}, {name} found"
  | .separatorKind text => text
  | .notSearchable name => "expected string or bytes-like object, got '" ++ name ++ "'"
  | .intArgument name =>
    "int() argument must be a string, a bytes-like object or a real number, not '" ++ name ++ "'"
  | .floatArgument name => "float() argument must be a string or a real number, not '" ++ name ++ "'"
  | .classRefused text => text
  | .notInstantiable text => text
  | .pairShape place => s!"cannot convert dictionary update sequence element #{place} to a sequence"
  | .stringWithoutEncoding => "string argument without an encoding"
  | .notBytes kind name => "cannot convert '" ++ name ++ "' object to " ++ kind
  | .notBytesLike name => "a bytes-like object is required, not '" ++ name ++ "'"
  | .outOfMemory => ""
  | .notClassInfo => "isinstance() arg 2 must be a type, a tuple of types, or a union"
  | .badLevelKind shown => "Level not an integer or a valid string: " ++ shown
  | .badLevel shown => "Invalid logging level: " ++ shown ++
      ". Expected one of ['CRITICAL', 'DEBUG', 'ERROR', 'INFO', 'WARNING']"
  | .zeroStep => "slice step cannot be zero"
  | .zeroRangeStep => "range() arg 3 must not be zero"
  | .sizeMismatch given wanted =>
    s!"attempt to assign sequence of size {given} to extended slice of size {wanted}"
  | .notInList => "list.remove(x): x not in list"
  | .absentFrom text => text
  | .emptySeparator => "empty separator"
  | .notFound => ""
  | .badIntText shown => "invalid literal for int() with base 10: " ++ shown
  | .badFloatText shown => "could not convert string to float: " ++ shown
  | .nanToInt => "cannot convert float NaN to integer"
  | .infinityToInt => "cannot convert float infinity to integer"
  | .hugeToFloat => "int too large to convert to float"
  | .hugeIndex name => "cannot fit '" ++ name ++ "' into an index-sized integer"
  | .hugeOffset => "Python int too large to convert to C ssize_t"
  | .hugeRepetition => "the repetition number is too large"
  | .hugeRepeat name => "cannot fit '" ++ name ++ "' into an index-sized integer"
  | .hugeFlag => "Python int too large to convert to C int"
  | .outOfRange what => what ++ " index out of range"
  | .byteRange => "byte must be in range(0, 256)"
  | .bytesRange => "bytes must be in range(0, 256)"
  | .negativeCount => "negative count"
  | .pairLength place length =>
    s!"dictionary update sequence element #{place} has length {length}; 2 is required"
  | .dayRange text => text
  | .byteOutOfRange => "index out of range"
  | .emptyPop what => "pop from empty " ++ what
  | .keyMissing shown => shown
  | .emptyCollectionPop what => "'" ++ what ++ "'"
  | .boom => "boom"
  | .prickly => "prickly"
  | .brokenProperty => "broken property"
  | .hiddenProperty => "hidden"

end Cause

inductive Fault where
  | cause (c : Cause)
  /-- An exception that was built as a value, or stored in an outcome, and then raised. -/
  | raised (e : Value)
  /-- The recursion went deeper than its bound. -/
  | exhausted

namespace Fault

/-- The class of the exception that a fault surfaces as. -/
def kind : Fault → Class
  | .cause c => c.kind
  | .raised e => e.classOf
  | .exhausted => .recursionError

/-- Whether a handler for a class of exceptions takes a fault. Running out of depth is taken by none. -/
def isA (f : Fault) (c : Class) : Bool :=
  match f with
  | .exhausted => false
  | _ => f.kind.mro.contains c

end Fault

end Conform
