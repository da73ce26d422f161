/-!
The classes of the values that descriptors talk about: their names, their linearised ancestors, and the
protocols and registrations by which abstract classes take in classes that do not derive from them.

Main definitions: `Class.mro`, `Class.isSubclass`, `Class.isInstance`.
-/
namespace Conform

/-- The variants of a type descriptor. -/
inductive Variant where
  | any | void | never
  | union | intersection | negation | nilable | constraint
  | range | tuple | shape | enumerable | array | set | mapping
  | instance_ | class_ | descendant | interface | predicate
  | unit | equal | within | regex
  | boolean | truthy | falsy | jsonData
  | deferred | checkedList
  deriving DecidableEq

/-- The name of the class of a variant. -/
def Variant.name : Variant → String
  | .any => "AnyType"
  | .void => "VoidType"
  | .never => "NeverType"
  | .union => "UnionType"
  | .intersection => "IntersectionType"
  | .negation => "NotType"
  | .nilable => "NilableType"
  | .constraint => "ConstraintType"
  | .range => "RangeType"
  | .tuple => "TupleType"
  | .shape => "ShapeType"
  | .enumerable => "EnumerableType"
  | .array => "ArrayType"
  | .set => "SetType"
  | .mapping => "MappingType"
  | .instance_ => "InstanceType"
  | .class_ => "ClassType"
  | .descendant => "DescendantType"
  | .interface => "InterfaceType"
  | .predicate => "PredicateType"
  | .unit => "UnitType"
  | .equal => "EqualType"
  | .within => "WithinType"
  | .regex => "RegexType"
  | .boolean => "BooleanType"
  | .truthy => "TruthyType"
  | .falsy => "FalsyType"
  | .jsonData => "JSONDataType"
  | .deferred => "DeferredType"
  | .checkedList => "CheckedListType"

inductive Class where
  -- plain data
  | object | type | int | bool | float | str | bytes | bytearray | list | tuple | dict | set | frozenset
  | range | slice | noneType | date | datetime
  -- exceptions
  | baseException | exception | valueError | typeError | runtimeError | arithmeticError | lookupError
  | keyError | indexError | zeroDivisionError | keyboardInterrupt | attributeError | overflowError
  | recursionError | frozenFieldError | patternError
  -- abstract classes
  | sized | hashable | iterable | iterator | container | reversible | collection | callable
  | sequence | mutableSequence | mapping | mutableMapping | setLike | mutableSet
  | number | complex | real | rational | integral
  | abstract | generic | abstractMeta | anything | anythingMeta
  -- descriptors, checked lists, outcomes and their errors
  | descriptor | variant (v : Variant)
  | outcome | success | failure | checkedList | checkContext | mismatch
  | libraryError | typeMismatchError | configurationError | argumentError | immutableError | outcomeError
  -- the zoo
  | thing | animal | dog | cat | mixin | puppy | point | coin | odd | noBool | prickly | ghost | bag
  | onlyIter | frozenMap | pair | myList | myStr | myDict | myInt | iter
  | grumpy | grumpyMeta | friendly | friendlyMeta | numbers | fn | bareFn | thunk
  /-- Classes that only ever show by name: functions, bound methods, iterators, views. -/
  | internal (name : String)
  deriving DecidableEq

namespace Class

/-- The bare name of a class. -/
def name : Class → String
  | .object => "object"
  | .type => "type"
  | .int => "int"
  | .bool => "bool"
  | .float => "float"
  | .str => "str"
  | .bytes => "bytes"
  | .bytearray => "bytearray"
  | .list => "list"
  | .tuple => "tuple"
  | .dict => "dict"
  | .set => "set"
  | .frozenset => "frozenset"
  | .range => "range"
  | .slice => "slice"
  | .noneType => "NoneType"
  | .date => "date"
  | .datetime => "datetime"
  | .baseException => "BaseException"
  | .exception => "Exception"
  | .valueError => "ValueError"
  | .typeError => "TypeError"
  | .runtimeError => "RuntimeError"
  | .arithmeticError => "ArithmeticError"
  | .lookupError => "LookupError"
  | .keyError => "KeyError"
  | .indexError => "IndexError"
  | .zeroDivisionError => "ZeroDivisionError"
  | .keyboardInterrupt => "KeyboardInterrupt"
  | .attributeError => "AttributeError"
  | .overflowError => "OverflowError"
  | .recursionError => "RecursionError"
  | .frozenFieldError => "FrozenInstanceError"
  | .patternError => "error"
  | .sized => "Sized"
  | .hashable => "Hashable"
  | .iterable => "Iterable"
  | .iterator => "Iterator"
  | .container => "Container"
  | .reversible => "Reversible"
  | .collection => "Collection"
  | .callable => "Callable"
  | .sequence => "Sequence"
  | .mutableSequence => "MutableSequence"
  | .mapping => "Mapping"
  | .mutableMapping => "MutableMapping"
  | .setLike => "Set"
  | .mutableSet => "MutableSet"
  | .number => "Number"
  | .complex => "Complex"
  | .real => "Real"
  | .rational => "Rational"
  | .integral => "Integral"
  | .abstract => "ABC"
  | .generic => "Generic"
  | .abstractMeta => "ABCMeta"
  | .anything => "Any"
  | .anythingMeta => "_AnyMeta"
  | .descriptor => "Descriptor"
  | .variant v => v.name
  | .outcome => "Outcome"
  | .success => "Success"
  | .failure => "Failure"
  | .checkedList => "CheckedList"
  | .checkContext => "CheckContext"
  | .mismatch => "Mismatch"
  | .libraryError => "CastironError"
  | .typeMismatchError => "TypeMismatchError"
  | .configurationError => "ConfigurationError"
  | .argumentError => "ArgumentError"
  | .immutableError => "ImmutableError"
  | .outcomeError => "OutcomeError"
  | .thing => "Thing"
  | .animal => "Animal"
  | .dog => "Dog"
  | .cat => "Cat"
  | .mixin => "Mixin"
  | .puppy => "Puppy"
  | .point => "Point"
  | .coin => "Coin"
  | .odd => "Odd"
  | .noBool => "NoBool"
  | .prickly => "Prickly"
  | .ghost => "Ghost"
  | .bag => "Bag"
  | .onlyIter => "OnlyIter"
  | .frozenMap => "FrozenMap"
  | .pair => "Pair"
  | .myList => "MyList"
  | .myStr => "MyStr"
  | .myDict => "MyDict"
  | .myInt => "MyInt"
  | .iter => "Iter"
  | .grumpy => "Grumpy"
  | .grumpyMeta => "GrumpyMeta"
  | .friendly => "Friendly"
  | .friendlyMeta => "FriendlyMeta"
  | .numbers => "Numbers"
  | .fn => "Fn"
  | .bareFn => "BareFn"
  | .thunk => "Thunk"
  | .internal n => n

/-- The module a class lives in; none for the built-in ones. -/
def module? : Class → Option String
  | .date | .datetime => some "datetime"
  | .sized | .hashable | .iterable | .iterator | .container | .reversible | .collection | .callable
  | .sequence | .mutableSequence | .mapping | .mutableMapping | .setLike | .mutableSet =>
    some "collections.abc"
  | .number | .complex | .real | .rational | .integral => some "numbers"
  | .abstract | .abstractMeta => some "abc"
  | .generic | .anything | .anythingMeta => some "typing"
  | .frozenFieldError => some "dataclasses"
  | .patternError => some "re"
  | .descriptor => some "castiron.descriptors"
  | .variant .checkedList => some "castiron.checked"
  | .variant _ => some "castiron.descriptors"
  | .outcome | .success | .failure => some "castiron.outcome"
  | .checkedList => some "castiron.checked"
  | .checkContext | .mismatch | .libraryError | .typeMismatchError | .configurationError
  | .argumentError | .immutableError | .outcomeError => some "castiron.error_utils"
  | .thing | .animal | .dog | .cat | .mixin | .puppy | .point | .coin | .odd | .noBool | .prickly
  | .ghost | .bag | .onlyIter | .frozenMap | .pair | .myList | .myStr | .myDict | .myInt | .iter
  | .grumpy | .grumpyMeta | .friendly | .friendlyMeta | .numbers | .fn | .bareFn | .thunk => some "zoo"
  | _ => none

/-- The name of a class with its module, as descriptors show it. -/
def qualifiedName (c : Class) : String :=
  match c.module? with
  | some m => m ++ "." ++ c.name
  | none => c.name

/-- The text of a class as a value. -/
def shown (c : Class) : String :=
  if c == .anything then "typing.Any" else "<class '" ++ c.qualifiedName ++ "'>"

/-- The name that failed operations give a class: calendar classes and patterns keep their module. -/
def operandName (c : Class) : String :=
  match c with
  | .date | .datetime => c.qualifiedName
  | .internal "Pattern" => "re.Pattern"
  | .internal "UnionType" => "types.UnionType"
  | .internal "GenericAlias" => "types.GenericAlias"
  | _ => c.name

/-- The classes that have a name in scripts. -/
def listed : Class → Bool
  | .reversible | .complex | .rational | .abstract | .generic | .abstractMeta | .anythingMeta
  | .checkContext | .mismatch | .attributeError | .overflowError | .recursionError | .frozenFieldError
  | .patternError | .grumpyMeta | .friendlyMeta | .internal _ => false
  | .variant v => v == .checkedList
  | _ => true

/-- The name of a class in scripts: abstract containers and number classes carry a short module. -/
def key (c : Class) : String :=
  match c.module? with
  | some "collections.abc" => "abc." ++ c.name
  | some "numbers" => "numbers." ++ c.name
  | _ => c.name

/-- The classes that a script can name. -/
def scripted : List Class :=
  [.object, .type, .int, .bool, .float, .str, .bytes, .bytearray, .list, .tuple, .dict, .set, .frozenset,
    .range, .slice, .noneType, .date, .datetime,
    .baseException, .exception, .valueError, .typeError, .runtimeError, .arithmeticError, .lookupError,
    .keyError, .indexError, .zeroDivisionError, .keyboardInterrupt,
    .sized, .hashable, .iterable, .iterator, .container, .collection, .callable, .sequence,
    .mutableSequence, .mapping, .mutableMapping, .setLike, .mutableSet, .number, .real, .integral,
    .descriptor, .variant .checkedList, .outcome, .success, .failure, .checkedList,
    .libraryError, .typeMismatchError, .configurationError, .argumentError, .immutableError,
    .outcomeError,
    .thing, .animal, .dog, .cat, .mixin, .puppy, .point, .coin, .odd, .noBool, .prickly, .ghost, .bag,
    .onlyIter, .frozenMap, .pair, .myList, .myStr, .myDict, .myInt, .iter, .grumpy, .friendly, .numbers,
    .fn, .bareFn, .thunk]

/-- The class that a script means by a name. -/
def ofKey? (name : String) : Option Class :=
  scripted.find? fun c => c.key == name

/-- A class and its ancestors, nearest first. -/
def mro : Class → List Class
  | .object => [.object]
  | .bool => [.bool, .int, .object]
  | .datetime => [.datetime, .date, .object]
  | .baseException => [.baseException, .object]
  | .exception => [.exception, .baseException, .object]
  | .keyboardInterrupt => [.keyboardInterrupt, .baseException, .object]
  | .valueError => [.valueError, .exception, .baseException, .object]
  | .typeError => [.typeError, .exception, .baseException, .object]
  | .runtimeError => [.runtimeError, .exception, .baseException, .object]
  | .recursionError => [.recursionError, .runtimeError, .exception, .baseException, .object]
  | .arithmeticError => [.arithmeticError, .exception, .baseException, .object]
  | .overflowError => [.overflowError, .arithmeticError, .exception, .baseException, .object]
  | .zeroDivisionError => [.zeroDivisionError, .arithmeticError, .exception, .baseException, .object]
  | .lookupError => [.lookupError, .exception, .baseException, .object]
  | .keyError => [.keyError, .lookupError, .exception, .baseException, .object]
  | .indexError => [.indexError, .lookupError, .exception, .baseException, .object]
  | .attributeError => [.attributeError, .exception, .baseException, .object]
  | .frozenFieldError => [.frozenFieldError, .attributeError, .exception, .baseException, .object]
  | .patternError => [.patternError, .exception, .baseException, .object]
  | .iterator => [.iterator, .iterable, .object]
  | .reversible => [.reversible, .iterable, .object]
  | .collection => [.collection, .sized, .iterable, .container, .object]
  | .sequence =>
    [.sequence, .reversible, .collection, .sized, .iterable, .container, .object]
  | .mutableSequence =>
    [.mutableSequence, .sequence, .reversible, .collection, .sized, .iterable, .container, .object]
  | .mapping => [.mapping, .collection, .sized, .iterable, .container, .object]
  | .mutableMapping =>
    [.mutableMapping, .mapping, .collection, .sized, .iterable, .container, .object]
  | .setLike => [.setLike, .collection, .sized, .iterable, .container, .object]
  | .mutableSet => [.mutableSet, .setLike, .collection, .sized, .iterable, .container, .object]
  | .complex => [.complex, .number, .object]
  | .real => [.real, .complex, .number, .object]
  | .rational => [.rational, .real, .complex, .number, .object]
  | .integral => [.integral, .rational, .real, .complex, .number, .object]
  | .abstractMeta => [.abstractMeta, .type, .object]
  | .anythingMeta => [.anythingMeta, .type, .object]
  | .grumpyMeta => [.grumpyMeta, .type, .object]
  | .friendlyMeta => [.friendlyMeta, .type, .object]
  | .descriptor => [.descriptor, .abstract, .object]
  | .variant .array => [.variant .array, .variant .enumerable, .descriptor, .abstract, .object]
  | .variant .set => [.variant .set, .variant .enumerable, .descriptor, .abstract, .object]
  | .variant .descendant => [.variant .descendant, .variant .class_, .descriptor, .abstract, .object]
  | .variant v => [.variant v, .descriptor, .abstract, .object]
  | .outcome => [.outcome, .abstract, .object]
  | .success => [.success, .outcome, .abstract, .generic, .object]
  | .failure => [.failure, .outcome, .abstract, .generic, .object]
  | .checkedList =>
    [.checkedList, .mutableSequence, .sequence, .reversible, .collection, .sized, .iterable, .container,
      .object]
  | .numbers =>
    [.numbers, .checkedList, .mutableSequence, .sequence, .reversible, .collection, .sized, .iterable,
      .container, .object]
  | .libraryError => [.libraryError, .exception, .baseException, .object]
  | .typeMismatchError =>
    [.typeMismatchError, .libraryError, .typeError, .exception, .baseException, .object]
  | .configurationError =>
    [.configurationError, .libraryError, .valueError, .exception, .baseException, .object]
  | .argumentError => [.argumentError, .libraryError, .typeError, .exception, .baseException, .object]
  | .immutableError => [.immutableError, .libraryError, .typeError, .exception, .baseException, .object]
  | .outcomeError => [.outcomeError, .libraryError, .exception, .baseException, .object]
  | .animal => [.animal, .thing, .object]
  | .dog => [.dog, .animal, .thing, .object]
  | .cat => [.cat, .animal, .thing, .object]
  | .puppy => [.puppy, .dog, .animal, .thing, .mixin, .object]
  | .point => [.point, .thing, .object]
  | .coin => [.coin, .thing, .object]
  | .odd => [.odd, .thing, .object]
  | .noBool => [.noBool, .thing, .object]
  | .prickly => [.prickly, .thing, .object]
  | .ghost => [.ghost, .thing, .object]
  | .bag => [.bag, .thing, .object]
  | .onlyIter => [.onlyIter, .thing, .object]
  | .frozenMap => [.frozenMap, .mapping, .collection, .sized, .iterable, .container, .object]
  | .pair => [.pair, .tuple, .object]
  | .myList => [.myList, .list, .object]
  | .myStr => [.myStr, .str, .object]
  | .myDict => [.myDict, .dict, .object]
  | .myInt => [.myInt, .int, .object]
  | .bareFn => [.bareFn, .object]
  | c => [c, .object]

/-- The methods that structural abstract classes ask for. -/
inductive Protocol where
  | length | iteration | advance | membership | reversal | calling
  deriving DecidableEq

/-- The protocol methods a class defines itself. -/
def defines : Class → List Protocol
  | .str | .bytes | .bytearray | .tuple | .set | .frozenset | .bag | .frozenMap | .checkedList =>
    [.length, .iteration, .membership]
  | .list | .dict | .range => [.length, .iteration, .membership, .reversal]
  | .sized => [.length]
  | .iterable => [.iteration]
  | .iterator => [.iteration, .advance]
  | .container => [.membership]
  | .reversible => [.reversal]
  | .sequence => [.iteration, .membership, .reversal]
  | .mapping => [.membership]
  | .callable => [.calling]
  | .onlyIter => [.iteration]
  | .iter => [.iteration, .advance]
  | .type | .fn | .bareFn | .thunk | .variant .checkedList => [.calling]
  | .internal n =>
    if n == "dict_keys" then [.length, .iteration, .membership, .reversal]
    else if n == "KeysView" then [.length, .iteration, .membership]
    else if n.endsWith "iterator" || n == "generator" then [.iteration, .advance]
    else if n == "function" || n == "method" || n == "builtin_function_or_method" ||
        n == "method-wrapper" || n == "method_descriptor" || n == "wrapper_descriptor" then [.calling]
    else []
  | _ => []

/-- Whether a class or one of its ancestors defines a protocol method. -/
def provides (c : Class) (p : Protocol) : Bool :=
  c.mro.any fun d => d.defines.contains p

/-- The classes that take hashing away from their instances. -/
def refusesHash : Class → Bool
  | .list | .dict | .set | .bytearray | .slice | .checkedList | .odd | .mapping | .setLike
  | .number | .checkContext | .internal "dict_keys" | .internal "KeysView" => true
  | _ => false

def isHashable (c : Class) : Bool :=
  !c.mro.any refusesHash

/-- The classes that an abstract class takes in by registration, its subclasses' included. -/
def registered : Class → List Class
  | .reversible | .sequence => [.tuple, .str, .range, .bytes, .bytearray, .list]
  | .mutableSequence => [.list, .bytearray]
  | .mapping => [.dict]
  | .mutableMapping => [.dict]
  | .setLike => [.set, .frozenset, .internal "dict_keys", .internal "KeysView"]
  | .mutableSet => [.set]
  | .number | .complex | .real => [.int, .float]
  | .rational | .integral => [.int]
  | .internal "KeysView" => [.internal "dict_keys"]
  | _ => []

/-- Whether an abstract class takes in a class for the methods it has. -/
def structural (abstract_ c : Class) : Bool :=
  match abstract_ with
  | .sized => c.provides .length
  | .hashable => c.isHashable
  | .iterable => c.provides .iteration
  | .iterator => c.provides .iteration && c.provides .advance
  | .container => c.provides .membership
  | .collection => c.provides .length && c.provides .iteration && c.provides .membership
  | .reversible => c.provides .reversal && c.provides .iteration
  | .callable => c.provides .calling
  | _ => false

/-- Whether a class is taken in by another without the other's own say: by descent, by its methods or
by registration. -/
def conforms (c d : Class) : Bool :=
  c.mro.contains d || d.structural c || d.registered.any c.mro.contains

/-- How a class check may end: with an answer, or refused by the class that is asked. -/
abbrev Verdict := Except String Bool

/-- Whether `c` is a subclass of `d`. Two classes decide for themselves: one refuses to answer, one
takes in exactly the integers and the texts. -/
def isSubclass (c d : Class) : Verdict :=
  match d with
  | .grumpy => .error "grumpy subclasscheck"
  | .friendly => .ok (c == .int || c == .str)
  | _ => .ok (c.conforms d)

/-- Whether an instance of exactly `c` is an instance of `d`. -/
def isInstance (c d : Class) : Verdict :=
  if c == d then .ok true
  else match d with
    | .grumpy => .error "grumpy instancecheck"
    | .friendly => .ok (c.mro.contains .int || c.mro.contains .str)
    | .anything => .error "typing.Any cannot be used with isinstance()"
    | _ => .ok (c.conforms d)

/-- The class of a class. -/
def metaclass : Class → Class
  | .sized | .hashable | .iterable | .iterator | .container | .reversible | .collection | .callable
  | .sequence | .mutableSequence | .mapping | .mutableMapping | .setLike | .mutableSet
  | .number | .complex | .real | .rational | .integral
  | .abstract | .descriptor | .variant _ | .outcome | .success | .failure | .checkedList | .numbers
  | .frozenMap => .abstractMeta
  | .grumpy => .grumpyMeta
  | .friendly => .friendlyMeta
  | .anything => .anythingMeta
  | _ => .type

/-- Whether instances of a class are exceptions. -/
def isException (c : Class) : Bool :=
  c.mro.contains .baseException

end Class

end Conform
