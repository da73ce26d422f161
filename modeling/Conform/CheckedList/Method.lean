import Conform.CheckedList.Operation
import Conform.Signature

/-!
The operations of a checked list by the names of its methods.
-/
namespace Conform.CheckedList

/-- The signature of a method. Some are inherited from the general sequences. -/
def signature? (name : String) : Option Signature :=
  let own (required : List String) : Signature := { name := "CheckedList." ++ name, required }
  let order : List (String × Value) := [("key", .nil), ("reverse", .bool false)]
  match name with
  | "__len__" | "__iter__" | "shift" | "clear" | "reverse" | "freeze" | "to_list" => some (own [])
  | "__contains__" | "append" | "prepend" | "remove" => some (own ["value"])
  | "__getitem__" | "__delitem__" => some (own ["index"])
  | "__setitem__" | "insert" => some (own ["index", "value"])
  | "extend" => some (own ["values"])
  | "push" => some { own [] with variadic := true }
  | "pop" => some { own [] with optional := [("index", .int .base 0 (-1))] }
  | "filter" | "reject" | "filter_in_place" | "reject_in_place" => some (own ["predicate"])
  | "sort" | "sort_in_place" => some { own [] with optional := [("comparator", .nil)], named := order }
  | "max" | "min" => some { own [] with optional := [("n", .nil)], named := [("key", .nil)] }
  | "minmax" => some { own [] with named := [("key", .nil)] }
  | "map" | "transform" => some { name := "CheckedList.map", required := ["element_type", "fn"] }
  | "__and__" | "__sub__" | "__or__" | "__add__" => some (own ["other"])
  | "__iadd__" => some { name := "MutableSequence.__iadd__", required := ["values"] }
  | "__reversed__" => some { name := "Sequence.__reversed__", required := [] }
  | "count" => some { name := "Sequence.count", required := ["value"] }
  | "index" =>
    some { name := "Sequence.index", required := ["value"],
           optional := [("start", .int .base 0 0), ("stop", .nil)] }
  | _ => none

def operation? (name : String) (b : Bound) : Option Op :=
  match name with
  | "__len__" => some .length
  | "__iter__" => some .iterate
  | "__contains__" => some (.contains (b.get "value"))
  | "__getitem__" => some (.getItem (b.get "index"))
  | "__setitem__" => some (.setItem (b.get "index") (b.get "value"))
  | "__delitem__" => some (.deleteItem (b.get "index"))
  | "__reversed__" => some .reversed
  | "__iadd__" => some (.addInPlace (b.get "values"))
  | "__and__" => some (.and (b.get "other"))
  | "__sub__" => some (.sub (b.get "other"))
  | "__or__" => some (.or (b.get "other"))
  | "__add__" => some (.add (b.get "other"))
  | "append" => some (.append (b.get "value"))
  | "prepend" => some (.prepend (b.get "value"))
  | "insert" => some (.insert (b.get "index") (b.get "value"))
  | "extend" => some (.extend (b.get "values"))
  | "push" => some (.push b.rest)
  | "pop" => some (.pop (b.get "index"))
  | "shift" => some .shift
  | "remove" => some (.remove (b.get "value"))
  | "clear" => some .clear
  | "reverse" => some .reverse
  | "filter" => some (.filter (b.get "predicate"))
  | "reject" => some (.reject (b.get "predicate"))
  | "filter_in_place" => some (.filterInPlace (b.get "predicate"))
  | "reject_in_place" => some (.rejectInPlace (b.get "predicate"))
  | "sort" => some (.sort (b.get "comparator") (b.get "key") (b.get "reverse"))
  | "sort_in_place" => some (.sortInPlace (b.get "comparator") (b.get "key") (b.get "reverse"))
  | "max" => some (.extreme .largest (b.get "n") (b.get "key"))
  | "min" => some (.extreme .smallest (b.get "n") (b.get "key"))
  | "minmax" => some (.minmax (b.get "key"))
  | "map" | "transform" => some (.map (b.get "element_type") (b.get "fn"))
  | "freeze" => some .freeze
  | "to_list" => some .toList
  | "index" => some (.indexOf (b.get "value") (b.get "start") (b.get "stop"))
  | "count" => some (.count (b.get "value"))
  | _ => none

/-- Calls a method of a checked list by name. -/
def invoke? (e : Engine) (self : Self) (name : String) (args : List Value) (keywords : Keywords) :
    Option (Act Value) :=
  (signature? name).map fun s => do
    let bound ← s.accept args keywords
    match operation? name bound with
    | some op => op.run e self
    | none => return .nil

end Conform.CheckedList
