import Conform.Sequence
import Conform.Value.Truth

/-!
Values as indices into sequences. An index must be an integer; a bound of a slice may also be absent.
-/
namespace Conform.Value

/-- The greatest size that a sequence can have. -/
def sizeLimit : Int := 0x7fffffffffffffff

/-- Whether an integer can be the size of something. -/
def fitsSize (n : Int) : Bool :=
  -sizeLimit - 1 ≤ n && n ≤ sizeLimit

/-- An integer that a subscript of a sequence denotes. -/
def asSubscript (kind : String) (v : Value) : Look Int :=
  match v.int? with
  | none => Look.fail (if kind == "string" then .badTextIndex v.operandName else .badIndex kind v.operandName)
  | some n => if fitsSize n then return n else Look.fail (.hugeIndex v.operandName)

/-- An integer that an argument denotes. -/
def asOffset (v : Value) : Look Int :=
  match v.int? with
  | none => Look.fail (.notInteger v.operandName)
  | some n => if fitsSize n then return n else Look.fail .hugeOffset

/-- An integer of any size that an argument denotes. -/
def asCount (v : Value) : Look Int :=
  match v.int? with
  | none => Look.fail (.notInteger v.operandName)
  | some n => return n

/-- A flag that is given as an integer. -/
def asFlag (v : Value) : Look Bool :=
  match v.int? with
  | none => Look.fail (.notInteger v.operandName)
  | some n => if -0x80000000 ≤ n && n < 0x80000000 then return n != 0 else Look.fail .hugeFlag

/-- A bound of a slice. -/
def asBound (v : Value) : Look (Option Int) :=
  match v, v.int? with
  | .nil, _ => return none
  | _, some n => return some n
  | _, none => Look.fail .badSlice

/-- A slice for a sequence of a given length. The step is looked at first. -/
def asSlice (length : Nat) (start stop step : Value) : Look Sequence.Slice := do
  let by_ := (← asBound step).getD 1
  if by_ == 0 then Look.fail .zeroStep
  let low ← asBound start
  let high ← asBound stop
  return Sequence.slice length low high by_

/-- The item of a sequence at a subscript. -/
def itemAt {α : Type} (kind : String) (xs : List α) (subscript : Value) : Look α := do
  match Sequence.get? xs (← asSubscript kind subscript) with
  | some x => return x
  | none => Look.fail (.outOfRange kind)

/-- A list with a subscript assigned to; a slice takes a whole list. -/
def assignedAt (xs : List Value) (subscript : Value) (value : Value) : Look (List Value) := do
  match Sequence.set? xs (← asSubscript "list" subscript) value with
  | some ys => return ys
  | none => Look.fail (.outOfRange "list assignment")

def assignedSlice (xs : List Value) (start stop step : Value) (values : List Value) :
    Look (List Value) := do
  match (← asSlice xs.length start stop step).assign xs values with
  | .ok ys => return ys
  | .error cause => Look.fail cause

/-- A list without what a subscript denotes. -/
def deletedAt (xs : List Value) (subscript : Value) : Look (List Value) := do
  match subscript with
  | .slice _ start stop step => return (← asSlice xs.length start stop step).delete xs
  | _ =>
    match Sequence.delete? xs (← asSubscript "list" subscript) with
    | some ys => return ys
    | none => Look.fail (.outOfRange "list assignment")

/-- An item and the list without it. The index is looked at before the list. -/
def poppedAt (xs : List Value) (index : Value) : Look (Value × List Value) := do
  let i ← asOffset index
  if xs.isEmpty then Look.fail (.emptyPop "list")
  match Sequence.get? xs i, Sequence.delete? xs i with
  | some x, some ys => return (x, ys)
  | _, _ => Look.fail (.outOfRange "pop")

/-- A list with an item inserted before an index. -/
def insertedAt (xs : List Value) (index value : Value) : Look (List Value) := do
  return Sequence.insert xs (← asOffset index) value

end Conform.Value
