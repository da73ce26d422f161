/-!
Double-precision numbers as bit patterns, and the exact numbers they denote. Comparisons between a
double and an integer go through the exact number, so they are right at every size.
-/
namespace Conform

/-- A double, by its bits. -/
structure Binary64 where
  bits : UInt64
  deriving DecidableEq, Inhabited

/-- The exact number behind an integer or a double: `scaled m e` is `m · 2^e`. -/
inductive Exact where
  | nan
  | infinite (negative : Bool)
  | scaled (mantissa exponent : Int)
  deriving DecidableEq

namespace Exact

def ofInt (n : Int) : Exact :=
  .scaled n 0

/-- Brings two scaled numbers to a common exponent and returns their mantissas. -/
def align (m₁ e₁ m₂ e₂ : Int) : Int × Int :=
  let low := min e₁ e₂
  (m₁ <<< (e₁ - low).toNat, m₂ <<< (e₂ - low).toNat)

/-- Numeric order; anything against a NaN is unordered. -/
def compare? : Exact → Exact → Option Ordering
  | .nan, _ => none
  | _, .nan => none
  | .infinite a, .infinite b =>
    some (if a == b then .eq else if a then .lt else .gt)
  | .infinite a, .scaled .. => some (if a then .lt else .gt)
  | .scaled .., .infinite b => some (if b then .gt else .lt)
  | .scaled m₁ e₁, .scaled m₂ e₂ =>
    let (a, b) := align m₁ e₁ m₂ e₂
    some (compare a b)

def beq (a b : Exact) : Bool :=
  compare? a b == some .eq

/-- The modulus of numeric hashing. -/
def hashModulus : Nat :=
  1 <<< 61 - 1

/-- Equal numbers hash alike: the number is reduced modulo a Mersenne prime, dividing by powers of two
where the exponent is negative. The result −1 is kept free. -/
def hash? : Exact → Option Int
  | .nan => none
  | .infinite negative => some (if negative then -314159 else 314159)
  | .scaled m e =>
    -- Two is a 61st root of one under this modulus, so exponents count modulo 61.
    let shift := (e % 61).toNat
    let size := (m.natAbs % hashModulus) <<< shift % hashModulus
    let signed : Int := if m < 0 then -(size : Int) else size
    some (if signed == -1 then -2 else signed)

/-- Rounds toward zero. -/
def truncate? : Exact → Option Int
  | .scaled m e =>
    if 0 ≤ e then some (m <<< e.toNat) else some (m.tdiv ((1 : Int) <<< (-e).toNat))
  | _ => none

def isIntegral : Exact → Bool
  | .scaled m e => 0 ≤ e || m % (1 : Int) <<< (-e).toNat == 0
  | _ => false

end Exact

namespace Binary64

def negative (x : Binary64) : Bool :=
  x.bits >>> 63 == 1

def exponentField (x : Binary64) : Nat :=
  ((x.bits >>> 52) &&& 0x7ff).toNat

def fractionField (x : Binary64) : Nat :=
  (x.bits &&& 0xfffffffffffff).toNat

/-- The mantissa of a finite double, its leading bit included. -/
def mantissa (x : Binary64) : Nat :=
  if x.exponentField == 0 then x.fractionField else x.fractionField + 1 <<< 52

/-- The power of two that the mantissa is scaled by. -/
def exponent (x : Binary64) : Int :=
  (max x.exponentField 1 : Nat) - 1075

def exact (x : Binary64) : Exact :=
  if x.exponentField == 0x7ff then
    if x.fractionField == 0 then .infinite x.negative else .nan
  else
    .scaled (if x.negative then -(x.mantissa : Int) else x.mantissa) x.exponent

def isNaN (x : Binary64) : Bool :=
  x.exponentField == 0x7ff && x.fractionField != 0

def isZero (x : Binary64) : Bool :=
  x.bits <<< 1 == 0

def ofFloat (x : Float) : Binary64 :=
  ⟨x.toBits⟩

def toFloat (x : Binary64) : Float :=
  Float.ofBits x.bits

def add (x y : Binary64) : Binary64 :=
  ofFloat (x.toFloat + y.toFloat)

def mul (x y : Binary64) : Binary64 :=
  ofFloat (x.toFloat * y.toFloat)

def neg (x : Binary64) : Binary64 :=
  ⟨x.bits ^^^ 0x8000000000000000⟩

def abs (x : Binary64) : Binary64 :=
  ⟨x.bits &&& 0x7fffffffffffffff⟩

def zero : Binary64 := ⟨0⟩

def infinity : Binary64 := ⟨0x7ff0000000000000⟩

def nan : Binary64 := ⟨0x7ff8000000000000⟩

/-- The nearest double to `digits · 10^exponent`, ties to even. -/
def ofDecimal (negative : Bool) (digits : Nat) (exponent : Int) : Binary64 :=
  let size :=
    if digits == 0 then zero
    else if 400 < exponent then infinity
    else ofFloat (Float.ofScientific digits (exponent < 0) exponent.natAbs)
  if negative then size.neg else size

/-- The nearest double to an integer, if it is in range. -/
def ofInt? (n : Int) : Option Binary64 :=
  let x := ofDecimal (n < 0) n.natAbs 0
  if x.exponentField == 0x7ff then none else some x

end Binary64

end Conform
