import Conform.Text.Printable

/-!
Quoted text. A text stands between apostrophes, or between quotation marks if it holds an apostrophe
and no quotation mark; what is not printable is escaped.
-/
namespace Conform.Text

/-- A number in base sixteen, filled up with zeros. -/
def hex (width n : Nat) : String :=
  let digits := String.ofList (Nat.toDigits 16 n)
  "".pushn '0' (width - digits.length) ++ digits

/-- The mark that encloses a text. -/
def quoteMark (holds : Char → Bool) : Char :=
  if holds '\'' && !holds '"' then '"' else '\''

def escapeCode (n : Nat) : String :=
  if n < 0x100 then "\\x" ++ hex 2 n
  else if n < 0x10000 then "\\u" ++ hex 4 n
  else "\\U" ++ hex 8 n

/-- The escapes that text and bytes share. -/
def commonEscape? (mark c : Char) : Option String :=
  if c == mark || c == '\\' then some (String.ofList ['\\', c])
  else if c == '\n' then some "\\n"
  else if c == '\r' then some "\\r"
  else if c == '\t' then some "\\t"
  else none

def quotedChar (mark c : Char) : String :=
  match commonEscape? mark c with
  | some s => s
  | none => if isPrintable c then c.toString else escapeCode c.toNat

def enclose (mark : Char) (body : String) : String :=
  mark.toString ++ body ++ mark.toString

def quoted (s : String) : String :=
  let mark := quoteMark fun c => s.toList.contains c
  enclose mark (String.join (s.toList.map (quotedChar mark)))

def quotedByte (mark : Char) (b : UInt8) : String :=
  let c := Char.ofNat b.toNat
  match commonEscape? mark c with
  | some s => s
  | none => if 0x20 ≤ b.toNat && b.toNat < 0x7f then c.toString else escapeCode b.toNat

/-- Bytes, as text with a leading `b`. -/
def quotedBytes (bs : List UInt8) : String :=
  let mark := quoteMark fun c => bs.contains c.toNat.toUInt8
  "b" ++ enclose mark (String.join (bs.map (quotedByte mark)))

/-- What a class, a message or a report shows of a long text: at most `limit` characters, then dots. -/
def truncated (limit : Nat) (s : String) : String :=
  if limit < s.length then String.ofList (s.toList.take limit) ++ "..." else s

end Conform.Text
