import Conform.Number.Binary64
import Conform.Text.Alphabet

/-!
Reading numbers from text: optional sign, digits that single underscores may part, white space around.
-/
namespace Conform.Reading

/-- Drops white space at both ends. -/
def trim (cs : List Char) : List Char :=
  ((cs.dropWhile Text.isSpace).reverse.dropWhile Text.isSpace).reverse

/-- A run of digits in which an underscore may stand between two digits, with the rest. The flag says
whether the previous character was a digit. -/
def digitRun : Bool → List Char → Option (List Nat × List Char)
  | after, c :: rest =>
    match Text.decimalValue? c with
    | some d => do
      let (ds, left) ← digitRun true rest
      return (d :: ds, left)
    | none =>
      if c == '_' && after then
        match rest with
        | d :: _ => if Text.isDecimal d then digitRun false rest else none
        | [] => none
      else some ([], c :: rest)
  | _, [] => some ([], [])

def value (ds : List Nat) : Nat :=
  ds.foldl (fun n d => 10 * n + d) 0

/-- Splits off a sign; true means negative. -/
def sign : List Char → Bool × List Char
  | '-' :: rest => (true, rest)
  | '+' :: rest => (false, rest)
  | cs => (false, cs)

/-- A decimal integer. -/
def int? (s : String) : Option Int := do
  let (negative, body) := sign (trim s.toList)
  let (ds, rest) ← digitRun false body
  guard (!ds.isEmpty && rest.isEmpty)
  return if negative then -(value ds : Int) else value ds

/-- The fraction after a point. -/
def fraction : List Char → Option (List Nat × List Char)
  | '.' :: rest => digitRun false rest
  | cs => some ([], cs)

/-- The exponent after its mark. -/
def exponent : List Char → Option (Int × List Char)
  | c :: rest =>
    if c == 'e' || c == 'E' then do
      let (negative, body) := sign rest
      let (ds, left) ← digitRun false body
      guard (!ds.isEmpty)
      return (if negative then -(value ds : Int) else value ds, left)
    else some (0, c :: rest)
  | [] => some (0, [])

/-- A decimal fraction with optional exponent, an infinity or a NaN. -/
def float? (s : String) : Option Binary64 := do
  let (negative, body) := sign (trim s.toList)
  let word := String.ofList (body.map Char.toLower)
  if word == "inf" || word == "infinity" then
    return if negative then Binary64.infinity.neg else Binary64.infinity
  if word == "nan" then return .nan
  let (whole, rest) ← digitRun false body
  let (part, rest) ← fraction rest
  guard (!(whole.isEmpty && part.isEmpty))
  let (e, rest) ← exponent rest
  guard rest.isEmpty
  return Binary64.ofDecimal negative (value (whole ++ part)) (e - part.length)

end Conform.Reading
