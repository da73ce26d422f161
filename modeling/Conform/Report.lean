import Conform.Text.Quoted

/-!
Reports: what a script answers, as a tree of texts, numbers, lists and records, and the text that carries
it. The text is plain ASCII, and the fields of a record are sorted by name, so equal reports have equal
texts.
-/
namespace Conform

inductive Report where
  | null
  | bool (b : Bool)
  | int (n : Int)
  | text (s : String)
  | list (items : List Report)
  | record (fields : List (String × Report))

namespace Report

/-- A code unit as an escape. -/
def unitEscape (n : Nat) : String :=
  "\\u" ++ Text.hex 4 n

/-- A character as it stands in a quoted text. Characters beyond the basic plane take two units. -/
def escapedChar (c : Char) : String :=
  let n := c.toNat
  if c == '"' then "\\\""
  else if c == '\\' then "\\\\"
  else if c == '\n' then "\\n"
  else if c == '\r' then "\\r"
  else if c == '\t' then "\\t"
  else if n == 8 then "\\b"
  else if n == 12 then "\\f"
  else if 32 ≤ n && n < 127 then c.toString
  else if n < 0x10000 then unitEscape n
  else unitEscape (0xd800 + (n - 0x10000) / 0x400) ++ unitEscape (0xdc00 + (n - 0x10000) % 0x400)

def quoted (s : String) : String :=
  "\"" ++ String.join (s.toList.map escapedChar) ++ "\""

/-- A record from the texts of its fields. -/
def recordText (fields : List (String × String)) : String :=
  let sorted := fields.mergeSort fun a b => decide (a.1 ≤ b.1)
  "\x7b" ++ String.intercalate ", " (sorted.map fun (n, t) => quoted n ++ ": " ++ t) ++ "\x7d"

mutual

/-- The text of a report. -/
def render : Report → String
  | .null => "null"
  | .bool b => if b then "true" else "false"
  | .int n => toString n
  | .text s => quoted s
  | .list items => "[" ++ String.intercalate ", " (renderAll items) ++ "]"
  | .record fields => recordText (renderFields fields)

def renderAll : List Report → List String
  | [] => []
  | r :: rest => render r :: renderAll rest

def renderFields : List (String × Report) → List (String × String)
  | [] => []
  | (n, r) :: rest => (n, render r) :: renderFields rest

end

/-- A record that names its kind. -/
def tagged (kind : String) (fields : List (String × Report)) : Report :=
  .record (("$", .text kind) :: fields)

/-- Adds fields to a record. -/
def extend (more : List (String × Report)) : Report → Report
  | .record fields => .record (fields ++ more)
  | r => r

/-- Sorts reports by their texts. -/
def sortByText (rs : List Report) : List Report :=
  ((rs.map fun r => (render r, r)).mergeSort fun a b => decide (a.1 ≤ b.1)).map (·.2)

end Report

end Conform
