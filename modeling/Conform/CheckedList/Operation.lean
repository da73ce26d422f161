import Conform.CheckedList.Ordering
import Conform.Transforms

/-!
The operations of a checked list. Writes are checked first; copies that only drop or reorder elements
share the types of their source and are not checked again; mapping changes the element type.
-/
namespace Conform.CheckedList

/-- A public operation with its arguments. -/
inductive Op where
  -- reading
  | length
  | iterate
  | contains (value : Value)
  | getItem (index : Value)
  | toList
  | indexOf (value start stop : Value)
  | count (value : Value)
  | reversed
  -- single writes
  | setItem (index value : Value)
  | insert (index value : Value)
  | append (value : Value)
  | prepend (value : Value)
  -- bulk writes
  | extend (values : Value)
  | push (values : List Value)
  | addInPlace (values : Value)
  -- removal
  | deleteItem (index : Value)
  | pop (index : Value)
  | shift
  | remove (value : Value)
  | clear
  -- changes in place
  | reverse
  | filterInPlace (predicate : Value)
  | rejectInPlace (predicate : Value)
  | sortInPlace (comparator key reverse : Value)
  -- copies
  | filter (predicate : Value)
  | reject (predicate : Value)
  | sort (comparator key reverse : Value)
  | extreme (side : Extreme) (count key : Value)
  | minmax (key : Value)
  | map (element fn : Value)
  -- operators
  | and (other : Value)
  | sub (other : Value)
  | or (other : Value)
  | add (other : Value)
  | freeze

/-- How the storage of a list is called in messages about subscripts. -/
def storage (l : CheckedList) : String :=
  if l.frozen then "tuple" else "list"

/-- The items that a predicate accepts, or those that it does not. -/
def keepIf (e : Engine) (predicate : Value) (wanted : Bool) (items : List Value) : Act (List Value) :=
  items.filterM fun v => do
    return (← (← e.call predicate [v] []).truth) == wanted

/-- The items that occur in none of the others. -/
def keepAbsent (others items : List Value) : Look (List Value) :=
  items.filterM fun v => do return !(← Value.memberOf Value.isAlike v others)

/-- Adds an item unless an equal one is there already. -/
def addUnique (kept : List Value) (v : Value) : Look (List Value) := do
  if ← Value.memberOf Value.isAlike v kept then return kept else return kept ++ [v]

/-- The first of each group of equal items. -/
def unique (items : List Value) : Look (List Value) :=
  items.foldlM addUnique []

/-- The first of each group of equal items that occurs among the others. -/
def uniqueCommon (others items : List Value) : Look (List Value) :=
  items.foldlM (fun kept v => do
    if ← Value.memberOf Value.isAlike v others then addUnique kept v else return kept) []

/-- Removes the first item that is equal to a value. -/
def removeFirst (value : Value) : List Value → Look (List Value)
  | [] => Look.fail .notInList
  | v :: rest => do
    if ← Value.isAlike v value then return rest
    return v :: (← removeFirst value rest)

/-- A bound counted from the end. -/
def fromEnd (bound : Value) (length : Nat) : Act Value :=
  match bound with
  | .float _ x => do return ← Act.newFloat (x.add ((Binary64.ofInt? length).getD .zero))
  | _ => Act.newInt (bound.int?.getD 0 + length)

/-- Looks for an item from a position on. The fuel exceeds the number of items. -/
def searchFrom (storage : String) (items : List Value) (value stop : Value) : Nat → Value → Act Value
  | 0, _ => Act.fail .notFound
  | fuel + 1, i => do
    let before ← match stop with
      | .nil => pure true
      | _ => Value.ordered .lt i stop
    if !before then Act.fail .notFound
    match ← Act.handle .indexError (do return some (← Value.itemAt storage items i)) fun _ => return none with
    | none => Act.fail .notFound
    | some v =>
      if ← Value.isAlike v value then return i
      let next ← Act.newInt (i.int?.getD 0 + 1)
      searchFrom storage items value stop fuel next

/-- The position of the first item that is equal to a value, between two bounds. -/
def search (storage : String) (items : List Value) (value start stop : Value) : Act Value := do
  let zero : Value := .int .base 0 0
  let negative (v : Value) : Look Bool := if v.same .nil then return false else Value.ordered .lt v zero
  let first ← if ← negative start then do
      let s ← fromEnd start items.length
      if ← Value.ordered .gt zero s then pure zero else pure s
    else pure start
  let last ← if ← negative stop then fromEnd stop items.length else pure stop
  searchFrom storage items value last (items.length + 1) first

namespace Op

/-- What an operation that changes the list does, for the refusal of a frozen one; nothing for the
others. -/
def change? : Op → Option String
  | .setItem .. => some "assign to"
  | .insert .. => some "insert into"
  | .append _ => some "append to"
  | .prepend _ => some "prepend to"
  | .extend _ | .addInPlace _ => some "extend"
  | .push _ => some "push to"
  | .deleteItem _ => some "delete from"
  | .pop _ => some "pop from"
  | .shift => some "shift"
  | .remove _ => some "remove from"
  | .clear => some "clear"
  | .reverse => some "reverse"
  | .filterInPlace _ => some "filter"
  | .rejectInPlace _ => some "reject from"
  | .sortInPlace .. => some "sort"
  | _ => none

/-- Appends what a list, a checked list or another source of items holds. -/
def runExtend (e : Engine) (self : Self) (values : Value) : Act Unit := do
  let incoming ← match values with
    | .checked .. => self.foreignValues e values "extend"
    | _ => self.collect e values "extend" (some 0)
  self.write (some "extend") ((← self.state).items ++ incoming)

/-- Assigns to a subscript: a slice takes a bulk of values. -/
def runSetItem (e : Engine) (self : Self) (index value : Value) : Act Unit := do
  match index with
  | .slice _ start stop step =>
    let incoming ← self.collect e value "__setitem__" (some 1)
    self.write none (← Value.assignedSlice (← self.state).items start stop step incoming)
  | _ =>
    self.vetElement e value "__setitem__" 1
    self.write none (← Value.assignedAt (← self.state).items index value)

/-- Maps the items to a new element type. A declared transform whose result type is a subtype of the
target makes a check of the results unnecessary. -/
def runMap (e : Engine) (self : Self) (element fn : Value) : Act Value := do
  let target ← Descriptor.ofValue element
  let items := (← self.state).items
  let fast ← match ← Transforms.lookup (.descriptor (← self.state).element) fn with
    | none => pure false
    | some declared => do
      let below ← e.subtype declared target
      if below then
        Logging.trace (do return "checked.CheckedList.map: Fast path, " ++ (← declared.describe) ++
          " <= " ++ (← target.describe))
      pure below
  if fast then
    let mapped ← items.mapM fun v => e.call fn [v] []
    let collection := Descriptor.collection (← Act.fresh) .array target
    Act.newChecked self.cls { items := mapped, element := target, collection, frozen := false }
  else
    Logging.trace (do return "checked.CheckedList.map: Validating mapped values against " ++
      (← target.describe))
    let collection := Descriptor.collection (← Act.fresh) .array target
    let mapped ← items.mapM fun v => e.call fn [v] []
    let whole ← Act.newList mapped
    self.vet e whole collection "map" none
    Act.newChecked self.cls
      { items := ← whole.items, element := target, collection, frozen := false }

/-- What an operation does once it is known to be allowed. -/
def perform (e : Engine) (self : Self) (op : Op) : Act Value := do
  let l ← self.state
  match op with
  | .length => Act.newInt l.items.length
  | .iterate => return .other (← Act.fresh) (.internal (l.storage ++ "_iterator"))
  | .contains value => return .bool (← Value.memberOf Value.isAlike value l.items)
  | .getItem (.slice _ start stop step) =>
    self.with ((← Value.asSlice l.items.length start stop step).read l.items)
  | .getItem index => Value.itemAt l.storage l.items index
  | .toList => Act.newList l.items
  | .indexOf value start stop => search l.storage l.items value start stop
  | .count value =>
    let found ← l.items.filterM fun v => do return ← Value.isAlike v value
    Act.newInt found.length
  | .reversed => return .other (← Act.fresh) (.internal "generator")
  | .setItem index value =>
    runSetItem e self index value
    return .nil
  | .insert index value =>
    self.vetElement e value "insert" 1
    self.write (some "insert") (← Value.insertedAt (← self.state).items index value)
    return .nil
  | .append value =>
    self.vetElement e value "append" 0
    self.write (some "append") ((← self.state).items ++ [value])
    return .nil
  | .prepend value =>
    self.vetElement e value "prepend" 0
    self.write (some "insert") (value :: (← self.state).items)
    return .nil
  | .extend values =>
    runExtend e self values
    return .nil
  | .push values =>
    let whole ← Act.newList values
    self.vet e whole l.collection "push" none
    self.write (some "extend") ((← self.state).items ++ values)
    return self.value
  | .addInPlace values =>
    runExtend e self values
    return self.value
  | .deleteItem index =>
    self.write none (← Value.deletedAt l.items index)
    return .nil
  | .pop index =>
    let (item, rest) ← Value.poppedAt l.items index
    self.write (some "pop") rest
    return item
  | .shift =>
    let (item, rest) ← Value.poppedAt l.items (.int .base 0 0)
    self.write (some "pop") rest
    return item
  | .remove value =>
    self.write (some "remove") (← removeFirst value l.items)
    return .nil
  | .clear =>
    self.write (some "clear") []
    return .nil
  | .reverse =>
    self.write (some "reverse") l.items.reverse
    return .nil
  | .filterInPlace predicate =>
    self.write none (← keepIf e predicate true l.items)
    return self.value
  | .rejectInPlace predicate =>
    self.write none (← keepIf e predicate false l.items)
    return self.value
  | .sortInPlace comparator key falling =>
    self.write (some "sort") (← sortItems e comparator key falling l.items (self.write (some "sort")))
    return self.value
  | .filter predicate => self.with (← keepIf e predicate true l.items)
  | .reject predicate => self.with (← keepIf e predicate false l.items)
  | .sort comparator key falling =>
    self.with (← sortItems e comparator key falling l.items fun _ => return ())
  | .extreme side .nil key => return (← best? e side key l.items).getD .nil
  | .extreme side n key => self.with (← extremes e side n key l.items)
  | .minmax key =>
    let low ← best? e .smallest key l.items
    let high ← best? e .largest key l.items
    Act.newTuple [low.getD .nil, high.getD .nil]
  | .map element fn => runMap e self element fn
  | .and other => self.with (← uniqueCommon (← operandValues other "&") l.items)
  | .sub other => self.with (← keepAbsent (← operandValues other "-") l.items)
  | .or other =>
    let incoming ← self.foreignValues e other "|"
    self.with (← unique ((← self.state).items ++ incoming))
  | .add other =>
    let incoming ← self.foreignValues e other "+"
    self.with ((← self.state).items ++ incoming)
  | .freeze =>
    Act.setChecked self.at_ { l with frozen := true }
    return self.value

/-- Runs an operation. Changes of a frozen list are refused before anything else happens. -/
def run (e : Engine) (self : Self) (op : Op) : Act Value := do
  match op.change? with
  | some what => self.ensureMutable what
  | none => pure ()
  op.perform e self

end Op

end Conform.CheckedList
