import Conform.CheckedList.Admission
import Conform.Selection
import Conform.Value.Order

/-!
Sorting and extremes of lists of values, by their natural order, by a key, or by a comparator.
-/
namespace Conform.CheckedList

/-- An item with the key that stands for it in comparisons. -/
structure Keyed where
  key : Value
  item : Value

/-- The key of an item: the item itself if there is no key function. -/
def keyOf (e : Engine) (key item : Value) : Act Value :=
  match key with
  | .nil => return item
  | _ => e.call key [item] []

def keyed (e : Engine) (key : Value) (items : List Value) : Act (List Keyed) :=
  items.mapM fun item => do return ⟨← keyOf e key item, item⟩

/-- Whether an item goes before another: the comparator says less than zero, or the keys are in order. -/
def goesBefore (e : Engine) (comparator : Value) (a b : Keyed) : Act Bool := do
  match comparator with
  | .nil => Value.ordered .lt a.key b.key
  | _ => Value.ordered .lt (← e.call comparator [a.item, b.item] []) (.int .base 0 0)

/-- Sorts items; `report` is told how they stand before each comparison that could leave them so. A
falling sort sorts the reversed items and reverses the result, which keeps equal items in order. -/
def sortItems (e : Engine) (comparator key reverse : Value) (items : List Value)
    (report : List Value → Act Unit) : Act (List Value) := do
  if !comparator.same .nil && !key.same .nil then Act.fail .twoOrders
  let falling ← reverse.asFlag
  let arrange (xs : List Keyed) : List Value :=
    (if falling then xs.reverse else xs).map (·.item)
  let entries ← keyed e key items
  let sorted ← Sorting.sortReporting (goesBefore e comparator) (fun xs => report (arrange xs))
    (if falling then entries.reverse else entries)
  return arrange sorted

/-- The two ends of an order. -/
inductive Extreme where
  | largest
  | smallest
  deriving DecidableEq

/-- How a better item compares with a worse one. -/
def Extreme.beats : Extreme → Comparison
  | .largest => .gt
  | .smallest => .lt

/-- The best of the items so far and the items still to come. -/
def bestFrom (e : Engine) (side : Extreme) (key : Value) : Keyed → List Value → Act Value
  | champion, [] => return champion.item
  | champion, item :: rest => do
    let k ← keyOf e key item
    if ← Value.ordered side.beats k champion.key then bestFrom e side key ⟨k, item⟩ rest
    else bestFrom e side key champion rest

/-- The first item that no other beats. -/
def best? (e : Engine) (side : Extreme) (key : Value) : List Value → Act (Option Value)
  | [] => return none
  | item :: rest => do
    let k ← keyOf e key item
    return some (← bestFrom e side key ⟨k, item⟩ rest)

/-- An item on its way through a selection. The rank keeps items with equal keys apart: the earlier of
them is the better one. -/
structure Candidate where
  key : Value
  rank : Int
  item : Value

/-- Whether a candidate is less than another: by key, and by rank where the keys are equal. -/
def Candidate.less (a b : Candidate) : Act Bool := do
  if ← Value.isAlike a.key b.key then return a.rank < b.rank
  Value.ordered .lt a.key b.key

/-- Whether a candidate stands nearer to the top of the heap: the worst is on top. -/
def Candidate.above (side : Extreme) (a b : Candidate) : Act Bool :=
  match side with
  | .largest => a.less b
  | .smallest => b.less a

/-- The rank of the item that comes as number `n`. -/
def Extreme.rank (side : Extreme) (n : Nat) : Int :=
  match side with
  | .largest => -(n : Int)
  | .smallest => n

/-- Takes the remaining items into the heap as far as they beat its top. -/
def selectRest (e : Engine) (side : Extreme) (key : Value) :
    List Value → Nat → Array Candidate → Act (Array Candidate)
  | [], _, heap => return heap
  | item :: rest, n, heap => do
    let k ← keyOf e key item
    match heap[0]? with
    | none => return heap
    | some top =>
      let better ← match side with
        | .largest => Value.ordered .lt top.key k
        | .smallest => Value.ordered .lt k top.key
      if better then
        let heap ← Selection.replaceTop (Candidate.above side) heap ⟨k, side.rank n, item⟩
        selectRest e side key rest (n + 1) heap
      else selectRest e side key rest n heap

/-- The best `count` of more items than that, best first. -/
def select (e : Engine) (side : Extreme) (key : Value) (count : Nat) (items : List Value) :
    Act (List Value) := do
  let firsts ← keyed e key (items.take count)
  let candidates := firsts.mapIdx fun n k => (⟨k.key, side.rank n, k.item⟩ : Candidate)
  if candidates.isEmpty then return []
  let heap ← Selection.heapify (Candidate.above side) candidates.toArray
  let heap ← selectRest e side key (items.drop count) count heap
  let sorted ← match side with
    | .largest => Sorting.sortDown Candidate.less heap.toList
    | .smallest => Sorting.sort Candidate.less heap.toList
  return sorted.map (·.item)

/-- The best `count` items, best first; equal items in their order. One item is looked for directly, all
items are sorted, and a number in between is selected. -/
def extremes (e : Engine) (side : Extreme) (count key : Value) (items : List Value) :
    Act (List Value) := do
  if ← (← count.equal (.int .base 0 1)).truth then
    return (← best? e side key items).toList
  let size ← Act.newInt items.length
  if ← Value.ordered .ge count size then
    let sorted ← sortItems e .nil key (.bool (side == .largest)) items fun _ => return ()
    return (← Value.asSlice sorted.length .nil count .nil).read sorted
  let n ← count.asCount
  select e side key n.toNat items

end Conform.CheckedList
