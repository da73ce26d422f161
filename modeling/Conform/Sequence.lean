import Conform.Fault

/-!
Positions in a sequence. A negative index counts from the end; a slice picks every `step`-th position
between two bounds that are brought into range first. Reading, writing and deleting a slice all go
through `Slice.positions`.
-/
namespace Conform.Sequence

variable {α : Type}

/-- The position that an index denotes in a sequence of a given length. -/
def position? (length : Nat) (i : Int) : Option Nat :=
  let j := if i < 0 then i + length else i
  if 0 ≤ j && j < length then some j.toNat else none

def get? (xs : List α) (i : Int) : Option α :=
  (position? xs.length i).bind fun j => xs[j]?

def set? (xs : List α) (i : Int) (v : α) : Option (List α) :=
  (position? xs.length i).map fun j => xs.set j v

def delete? (xs : List α) (i : Int) : Option (List α) :=
  (position? xs.length i).map fun j => xs.eraseIdx j

/-- Inserts before an index that is brought into range first. -/
def insert (xs : List α) (i : Int) (v : α) : List α :=
  let j := if i < 0 then max (i + xs.length) 0 else min i xs.length
  xs.insertIdx j.toNat v

/-- A slice with its step known and its bounds in range for one length. -/
structure Slice where
  start : Int
  stop : Int
  step : Int
  deriving DecidableEq

/-- Brings a bound into range. -/
def clip (length : Nat) (step bound : Int) : Int :=
  if bound < 0 then
    let b := bound + length
    if b < 0 then (if step < 0 then -1 else 0) else b
  else if (length : Int) ≤ bound then (if step < 0 then (length : Int) - 1 else length)
  else bound

/-- A slice for a sequence of a given length; a bound that is absent reaches as far as it can. -/
def slice (length : Nat) (start stop : Option Int) (step : Int) : Slice :=
  { start := match start with
      | some b => clip length step b
      | none => if step < 0 then (length : Int) - 1 else 0
    stop := match stop with
      | some b => clip length step b
      | none => if step < 0 then -1 else length
    step }

namespace Slice

/-- The number of positions that a slice picks. -/
def count (s : Slice) : Nat :=
  if s.step < 0 then
    if s.stop < s.start then ((s.start - s.stop - 1) / (-s.step) + 1).toNat else 0
  else if s.start < s.stop then ((s.stop - s.start - 1) / s.step + 1).toNat
  else 0

/-- The positions that a slice picks, in its own order. -/
def positions (s : Slice) : List Nat :=
  (List.range s.count).map fun (k : Nat) => (s.start + s.step * k).toNat

def read (s : Slice) (xs : List α) : List α :=
  s.positions.filterMap fun i => xs[i]?

/-- Replaces a run of positions by any number of items. -/
def splice (s : Slice) (xs vs : List α) : List α :=
  xs.take s.start.toNat ++ vs ++ xs.drop (max s.start s.stop).toNat

/-- Puts items at the picked positions, one each. -/
def put (s : Slice) (xs vs : List α) : List α :=
  (s.positions.zip vs).foldl (fun ys (i, v) => ys.set i v) xs

/-- Assigns to a slice. Only a slice of step one may change the length. -/
def assign (s : Slice) (xs vs : List α) : Except Cause (List α) :=
  if s.step == 1 then .ok (s.splice xs vs)
  else if vs.length == s.count then .ok (s.put xs vs)
  else .error (.sizeMismatch vs.length s.count)

/-- Deletes the picked positions. -/
def delete (s : Slice) (xs : List α) : List α :=
  let gone := s.positions
  (xs.zipIdx.filter fun (_, i) => !gone.contains i).map (·.1)

end Slice

end Conform.Sequence
