import Conform.Value.Equality

/-!
The order of values: numbers by size, texts and sequences lexicographically, sets by inclusion, days and
moments by time. Operands that have no order between them are an error.
-/
namespace Conform

inductive Comparison where
  | lt
  | le
  | gt
  | ge
  deriving DecidableEq

namespace Comparison

def symbol : Comparison → String
  | .lt => "<"
  | .le => "<="
  | .gt => ">"
  | .ge => ">="

/-- The comparison with its sides exchanged. -/
def flip : Comparison → Comparison
  | .lt => .gt
  | .le => .ge
  | .gt => .lt
  | .ge => .le

/-- Whether an ordering of two things satisfies the comparison. -/
def holds (c : Comparison) (o : Ordering) : Bool :=
  match c, o with
  | .lt, .lt => true
  | .le, .lt => true
  | .le, .eq => true
  | .gt, .gt => true
  | .ge, .gt => true
  | .ge, .eq => true
  | _, _ => false

end Comparison

namespace Value

/-- The first two items that differ, or nothing if one sequence is the start of the other. -/
def firstDifference (test : Value → Value → Look Bool) :
    List Value → List Value → Look (Option (Value × Value))
  | a :: as, b :: bs => do
    if ← test a b then firstDifference test as bs else return some (a, b)
  | _, _ => return none

/-- Lexicographic order: the first difference decides, then the lengths. -/
def lexicographic (order : Value → Value → Look Bool) (c : Comparison) (as bs : List Value) :
    Look Bool := do
  match ← firstDifference (alike equal) as bs with
  | some (a, b) => order a b
  | none => return c.holds (compare as.length bs.length)

/-- The order of two sets is inclusion. -/
def inclusion (c : Comparison) (as bs : List Value) : Look Bool := do
  match c with
  | .le => subset isAlike as bs
  | .lt => if as.length < bs.length then subset isAlike as bs else return false
  | .ge => subset isAlike bs as
  | .gt => if bs.length < as.length then subset isAlike bs as else return false

/-- What the first value says about its order to the second, or nothing. -/
def ownOrder? (order : Comparison → Value → Value → Look Bool) (c : Comparison) (a b : Value) :
    Look (Option Bool) := do
  let h ← read
  match a with
  | .bool _ | .int .. | .float .. =>
    match a.number?, b.number? with
    | some x, some y => return some ((x.compare? y).any c.holds)
    | _, _ => return none
  | .str _ _ s => return b.text?.map fun t => c.holds (compare s t)
  | .bytes .. | .bytearray _ =>
    match bytes? h a, bytes? h b with
    | some x, some y => return some (c.holds (compare (x.map UInt8.toNat) (y.map UInt8.toNat)))
    | _, _ => return none
  | .tuple .. | .pair .. =>
    match a.tuple?, b.tuple? with
    | some x, some y => return some (← lexicographic (order c) c x y)
    | _, _ => return none
  | .list _ i =>
    match list? h b with
    | some items => return some (← lexicographic (order c) c (h.list i) items)
    | none => return none
  | .slice _ s t p =>
    match b with
    | .slice _ s' t' p' => return some (← lexicographic (order c) c [s, t, p] [s', t', p'])
    | _ => return none
  | .set _ | .frozenset .. =>
    match set? h a, set? h b with
    | some x, some y => return some (← inclusion c x y)
    | _, _ => return none
  | .day _ d =>
    match b with
    | .day _ e => return some (c.holds (compare d.numbers e.numbers))
    | .moment .. => Look.fail .mixedCalendar
    | _ => return none
  | .moment _ m =>
    match b with
    | .moment _ n => return some (c.holds (compare m.numbers n.numbers))
    | .day .. => Look.fail .mixedCalendar
    | _ => return none
  | .thing .prickly _ => Look.fail .prickly
  | .thing .coin i =>
    match b with
    | .thing .coin j =>
      if c == .lt || c == .le then
        return some (← order c (← needAttribute .coin i "value") (← needAttribute .coin j "value"))
      return none
    | _ => return none
  | _ => return none

/-- Whether two values stand in an order. -/
def orderedAt : Nat → Comparison → Value → Value → Look Bool
  | 0, _, _, _ => throw .exhausted
  | fuel + 1, c, a, b => do
    let (d, x, y) := if reflectedFirst a b then (c.flip, b, a) else (c, a, b)
    match ← ownOrder? (orderedAt fuel) d x y with
    | some r => return r
    | none =>
      match ← ownOrder? (orderedAt fuel) d.flip y x with
      | some r => return r
      | none => Look.fail (.unordered c.symbol a.operandName b.operandName)

def ordered (c : Comparison) (a b : Value) : Look Bool :=
  orderedAt valueDepth c a b

end Value

end Conform
