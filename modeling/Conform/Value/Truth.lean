import Conform.Session

/-!
Lengths and truth values.
-/
namespace Conform

namespace Span

/-- The number of integers in a progression. -/
def length (r : Span) : Nat :=
  if 0 < r.step then ((r.stop - r.start + r.step - 1) / r.step).toNat
  else if r.step < 0 then ((r.start - r.stop - r.step - 1) / (-r.step)).toNat
  else 0

/-- The integer at a position. -/
def get (r : Span) (i : Nat) : Int :=
  r.start + r.step * i

def toList (r : Span) : List Int :=
  (List.range r.length).map r.get

/-- Whether an integer is one of the progression's, decided without walking through it. -/
def contains (r : Span) (n : Int) : Bool :=
  if 0 < r.step then r.start ≤ n && n < r.stop && (n - r.start) % r.step == 0
  else if r.step < 0 then r.stop < n && n ≤ r.start && (r.start - n) % (-r.step) == 0
  else false

end Span

/-- The depth to which comparisons and texts of values are followed. -/
def valueDepth : Nat := 2000

namespace Value

/-- An attribute that an object carries itself. -/
def ownAttribute? (h : Heap) (at_ : Handle) (name : String) : Option Value :=
  (h.thing at_).find? (·.1 == name) |>.map (·.2)

/-- An attribute that the methods of an object rely on. -/
def needAttribute (c : Class) (at_ : Handle) (name : String) : Look Value := do
  match ownAttribute? (← read) at_ name with
  | some v => return v
  | none => Look.fail (.noAttribute c.name name)

/-- The entries of a mapping. -/
def entries? (h : Heap) : Value → Option (List (Value × Value))
  | .dict _ i => some (h.dict i)
  | .frozenMap _ entries => some entries
  | _ => none

/-- The number of items of a value that has a length. -/
def lengthAt : Nat → Value → Look Nat
  | 0, _ => throw .exhausted
  | fuel + 1, v => do
    let h ← read
    match v with
    | .str _ _ s => return s.length
    | .bytes _ bs => return bs.length
    | .bytearray i => return (h.buffer i).length
    | .tuple _ items => return items.length
    | .pair .. => return 2
    | .list _ i => return (h.list i).length
    | .dict _ i => return (h.dict i).length
    | .frozenMap _ entries => return entries.length
    | .set i => return (h.set i).length
    | .frozenset _ items => return items.length
    | .range _ r => return r.length
    | .checked _ i => return (h.checkedList i).items.length
    | .keys _ owner => lengthAt fuel owner
    | .thing .bag i => lengthAt fuel (← needAttribute .bag i "items")
    | _ => Look.fail (.noLength v.operandName)

def length (v : Value) : Look Nat :=
  lengthAt valueDepth v

/-- Whether a value counts as true. Empty containers and zeros do not. -/
def truth (v : Value) : Look Bool := do
  match v with
  | .nil => return false
  | .bool b => return b
  | .int _ _ n => return n != 0
  | .float _ x => return !x.isZero
  | .thing .noBool _ => Look.fail .noTruth
  | .str .. | .bytes .. | .bytearray _ | .tuple .. | .list .. | .dict .. | .frozenMap .. | .set _
  | .frozenset .. | .range .. | .checked .. | .keys .. | .thing .bag _ => return (← length v) != 0
  | _ => return true

end Value

end Conform
