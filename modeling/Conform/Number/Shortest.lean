import Conform.Number.Binary64

/-!
The fewest decimal digits that read back as the same double, and the text built from them.
-/
namespace Conform

namespace Shortest

/-- Decimal digits, most significant first, with the power of ten of the first digit. -/
structure Digits where
  digits : List Nat
  power : Int
  deriving DecidableEq

/-- The least `k ≤ fuel` with `den ≤ num · 10^k`, or `fuel`. -/
def scaleUp (num den : Nat) : Nat → Nat → Nat
  | 0, k => k
  | fuel + 1, k => if den ≤ num * Nat.pow 10 k then k else scaleUp num den fuel (k + 1)

/-- The power of ten of the leading digit of a positive quotient. -/
def leadingPower (num den : Nat) : Int :=
  if den ≤ num then ((Nat.toDigits 10 (num / den)).length : Int) - 1
  else -(scaleUp num den 400 1 : Int)

/-- The decimal digits of a number, without trailing zeros. -/
def significant (n : Nat) : List Nat :=
  ((Nat.toDigits 10 n).map fun c => c.toNat - '0'.toNat).reverse.dropWhile (· == 0) |>.reverse

/-- Where a positive double lies: `(low, value, high)` over a common denominator. A decimal strictly
between `low` and `high` rounds to the value, and so do the ends when the mantissa is even. -/
structure Span where
  low : Nat
  value : Nat
  high : Nat
  den : Nat
  closed : Bool

def spanOf (x : Binary64) : Span :=
  let m := x.mantissa
  let e := x.exponent - 2
  let below := if x.fractionField == 0 && 1 < x.exponentField then 1 else 2
  let up := 1 <<< e.toNat
  let down := 1 <<< (-e).toNat
  { low := (4 * m - below) * up, value := 4 * m * up, high := (4 * m + 2) * up,
    den := down, closed := m % 2 == 0 }

/-- Whether `n / d` lies in the span. -/
def Span.holds (s : Span) (n d : Nat) : Bool :=
  let a := s.low * d
  let b := n * s.den
  let c := s.high * d
  if s.closed then a ≤ b && b ≤ c else a < b && b < c

/-- The nearest point of the grid `10^unit` that reads back, if one of the two neighbours does. An
exact tie goes to the even neighbour. -/
def onGrid (s : Span) (unit : Int) : Option Nat :=
  let up := Nat.pow 10 unit.toNat
  let down := Nat.pow 10 (-unit).toNat
  let num := s.value * down
  let den := s.den * up
  let q := num / den
  let rest := num % den
  let lowHit := 0 < q && s.holds (q * up) down
  let highHit := s.holds ((q + 1) * up) down
  match lowHit, highHit with
  | false, false => none
  | true, false => some q
  | false, true => some (q + 1)
  | true, true =>
    if 2 * rest < den then some q
    else if den < 2 * rest then some (q + 1)
    else some (if q % 2 == 0 then q else q + 1)

/-- Tries ever finer grids, starting with one significant digit. -/
def search (s : Span) (lead : Int) : Nat → Nat → Digits
  | 0, _ => ⟨[], lead⟩
  | fuel + 1, count =>
    let unit := lead - count + 1
    match onGrid s unit with
    | some q =>
      ⟨significant q, unit + ((Nat.toDigits 10 q).length : Int) - 1⟩
    | none => search s lead fuel (count + 1)

/-- The shortest digits of a finite, nonzero double. -/
def digitsOf (x : Binary64) : Digits :=
  let s := spanOf x
  search s (leadingPower s.value s.den) 17 1

def digitText (ds : List Nat) : String :=
  String.ofList (ds.map Nat.digitChar)

/-- How the digits of a double are laid out. -/
structure Layout where
  /-- Least power of ten of the first digit that is still written positionally. -/
  leastPower : Int
  /-- Least power of ten of the first digit that is written with an exponent. -/
  exponentFrom : Int
  /-- Least number of exponent digits. -/
  exponentWidth : Nat

/-- Positional from `0.0001` up to, but not including, `10^16`; a positional number always has a
fraction; exponents have a sign and two digits at least. -/
def layout : Layout := ⟨-4, 16, 2⟩

def exponentText (width : Nat) (e : Int) : String :=
  let digits := toString e.natAbs
  (if e < 0 then "e-" else "e+") ++ "".pushn '0' (width - digits.length) ++ digits

def place (l : Layout) (d : Digits) : String :=
  if l.leastPower ≤ d.power && d.power < l.exponentFrom then
    if 0 ≤ d.power then
      let whole := d.power.toNat + 1
      let shown := d.digits ++ List.replicate (whole - d.digits.length) 0
      let fraction := shown.drop whole
      digitText (shown.take whole) ++ "." ++ (if fraction.isEmpty then "0" else digitText fraction)
    else
      "0." ++ "".pushn '0' ((-d.power).toNat - 1) ++ digitText d.digits
  else
    let rest := d.digits.drop 1
    digitText (d.digits.take 1) ++ (if rest.isEmpty then "" else "." ++ digitText rest) ++
      exponentText l.exponentWidth d.power

end Shortest

/-- The text of a double. -/
def Binary64.text (x : Binary64) : String :=
  if x.isNaN then "nan"
  else
    let size :=
      if x.exponentField == 0x7ff then "inf"
      else if x.isZero then "0.0"
      else Shortest.place Shortest.layout (Shortest.digitsOf x)
    if x.negative then "-" ++ size else size

end Conform
