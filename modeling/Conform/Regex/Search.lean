import Conform.Regex.Syntax
import Conform.Text.Alphabet
import Conform.Text.Case

/-!
Searching with a pattern, by backtracking. The text is an array of code points; a match carries the
span of every group that took part in it.
-/
namespace Conform.Regex

/-- The spans of the groups, numbered from one; the first entry is not used. -/
abbrev Captures := Array (Option (Nat × Nat))

def ClassKind.holds (kind : ClassKind) (ascii : Bool) (code : Nat) : Bool :=
  let c := Char.ofNat code
  if ascii && 0x80 ≤ code then false
  else match kind with
    | .digit => Text.isDecimal c
    | .space => Text.isSpace c && (!ascii || !(0x1c ≤ code && code ≤ 0x1f))
    | .word => c == '_' || Text.isAlphanumeric c

def SetItem.holds (code : Nat) : SetItem → Bool
  | .one c => c == code
  | .span low high => low ≤ code && code ≤ high
  | .cls kind negated ascii => kind.holds ascii code != negated

/-- The one character that a character becomes in lower case, or itself. -/
def lowered (code : Nat) : Nat :=
  match Text.lowerChars (Char.ofNat code) with
  | [c] => c.toNat
  | _ => code

def raised (code : Nat) : Nat :=
  match Text.upperChars (Char.ofNat code) with
  | [c] => c.toNat
  | _ => code

/-- The forms that count as the same character when case is ignored. -/
def foldForms (code : Nat) : List Nat :=
  [code, lowered code, raised code, raised (lowered code), lowered (raised code)]

def sameFolded (a b : Nat) : Bool :=
  a == b || (foldForms a).contains (lowered b) || (foldForms a).contains b

def setHolds (fold : Bool) (items : List SetItem) (code : Nat) : Bool :=
  if fold then items.any fun item => (foldForms code).any item.holds
  else items.any (·.holds code)

def isWordAt (text : Array Nat) (ascii : Bool) (pos : Nat) : Bool :=
  match text[pos]? with
  | some code => ClassKind.word.holds ascii code
  | none => false

def Edge.holds (text : Array Nat) (pos : Nat) : Edge → Bool
  | .textStart => pos == 0
  | .textEnd => pos == text.size
  | .lineStart => pos == 0 || text[pos - 1]? == some 10
  | .lineEnd => pos == text.size || text[pos]? == some 10
  | .lastLineEnd => pos == text.size || (pos + 1 == text.size && text[pos]? == some 10)
  | .word inside ascii =>
    let before := 0 < pos && isWordAt text ascii (pos - 1)
    0 < text.size && (before != isWordAt text ascii pos) != inside

/-- What the rest of the pattern makes of a position. -/
abbrev Rest := Nat → Captures → Option (Nat × Captures)

/-- Whether the text repeats a captured span at a position, and how far that reaches. -/
def repeats (text : Array Nat) (fold : Bool) (span : Nat × Nat) (pos : Nat) : Option Nat :=
  let width := span.2 - span.1
  let hit := (List.range width).all fun i =>
    match text[span.1 + i]?, text[pos + i]? with
    | some a, some b => if fold then sameFolded a b else a == b
    | _, _ => false
  if hit then some (pos + width) else none

/-- Matches a node at a position and hands every way to do so to the rest, until the rest accepts. The
first argument bounds nesting and repetition; `budget` is large enough for every pattern and text. -/
def run (text : Array Nat) : Nat → Node → Nat → Captures → Rest → Option (Nat × Captures)
  | 0, _, _, _, _ => none
  | _ + 1, .char fold code, pos, caps, rest =>
    match text[pos]? with
    | some c => if (if fold then sameFolded c code else c == code) then rest (pos + 1) caps else none
    | none => none
  | _ + 1, .set fold negated items, pos, caps, rest =>
    match text[pos]? with
    | some c => if setHolds fold items c != negated then rest (pos + 1) caps else none
    | none => none
  | _ + 1, .any newlines, pos, caps, rest =>
    match text[pos]? with
    | some c => if newlines || c != 10 then rest (pos + 1) caps else none
    | none => none
  | _ + 1, .edge e, pos, caps, rest => if e.holds text pos then rest pos caps else none
  | _ + 1, .seq [], pos, caps, rest => rest pos caps
  | fuel + 1, .seq (item :: items), pos, caps, rest =>
    run text fuel item pos caps fun p c => run text fuel (.seq items) p c rest
  | _ + 1, .alt [], _, _, _ => none
  | fuel + 1, .alt (branch :: branches), pos, caps, rest =>
    match run text fuel branch pos caps rest with
    | some found => some found
    | none => run text fuel (.alt branches) pos caps rest
  | fuel + 1, .group index body, pos, caps, rest =>
    run text fuel body pos caps fun p c => rest p (c.setIfInBounds index (some (pos, p)))
  | fuel + 1, .times (least + 1) most how body, pos, caps, rest =>
    match how with
    | .possessive =>
      match run text fuel (.times (least + 1) most .greedy body) pos caps fun p c => some (p, c) with
      | some (p, c) => rest p c
      | none => none
    | _ =>
      run text fuel body pos caps fun p c =>
        run text fuel (.times least (most.map (· - 1)) how body) p c rest
  | fuel + 1, .times 0 most how body, pos, caps, rest =>
    let more (_ : Unit) : Option (Nat × Captures) :=
      if most == some 0 then none
      else run text fuel body pos caps fun p c =>
        if p == pos then rest p c
        else run text fuel (.times 0 (most.map (· - 1)) how body) p c rest
    match how with
    | .greedy =>
      match more () with
      | some found => some found
      | none => rest pos caps
    | .reluctant =>
      match rest pos caps with
      | some found => some found
      | none => more ()
    | .possessive =>
      match run text fuel (.times 0 most .greedy body) pos caps fun p c => some (p, c) with
      | some (p, c) => rest p c
      | none => none
  | _ + 1, .backReference fold index, pos, caps, rest =>
    match (caps[index]?).join with
    | some span =>
      match repeats text fold span pos with
      | some p => rest p caps
      | none => none
    | none => none
  | fuel + 1, .ahead negated body, pos, caps, rest =>
    match run text fuel body pos caps (fun p c => some (p, c)), negated with
    | some (_, c), false => rest pos c
    | none, true => rest pos caps
    | _, _ => none
  | fuel + 1, .behind negated width body, pos, caps, rest =>
    let found :=
      if width ≤ pos then run text fuel body (pos - width) caps fun p c => some (p, c) else none
    match found, negated with
    | some (_, c), false => rest pos c
    | none, true => rest pos caps
    | _, _ => none
  | fuel + 1, .atomic body, pos, caps, rest =>
    match run text fuel body pos caps fun p c => some (p, c) with
    | some (p, c) => rest p c
    | none => none
  | fuel + 1, .conditional index yes no, pos, caps, rest =>
    if (caps[index]?).join.isSome then run text fuel yes pos caps rest
    else run text fuel no pos caps rest

mutual

/-- The number of nodes, with the demanded repetitions counted. -/
def Node.size : Node → Nat
  | .char .. => 1
  | .set .. => 1
  | .any _ => 1
  | .edge _ => 1
  | .seq items => 1 + sizes items
  | .alt branches => 1 + sizes branches
  | .group _ body => 1 + body.size
  | .times least _ _ body => 2 + least + body.size
  | .backReference .. => 1
  | .ahead _ body => 1 + body.size
  | .behind _ _ body => 1 + body.size
  | .atomic body => 1 + body.size
  | .conditional _ yes no => 1 + yes.size + no.size

def sizes : List Node → Nat
  | [] => 0
  | n :: ns => 1 + n.size + sizes ns

end

def budget (node : Node) (length : Nat) : Nat :=
  (node.size + 2) * (length + 3)

/-- The first position from `pos` on at which the pattern matches. -/
def searchFrom (text : Array Nat) (program : Node) (fuel : Nat) (caps : Captures) :
    Nat → Nat → Option (Nat × Nat × Captures)
  | 0, _ => none
  | left + 1, pos =>
    match run text fuel program pos caps fun p c => some (p, c) with
    | some (p, c) => some (pos, p, c)
    | none => searchFrom text program fuel caps left (pos + 1)

end Conform.Regex

namespace Conform

/-- A match: its span and the text of each group that took part. -/
structure Regex.Found where
  span : Nat × Nat
  groups : List (Option String)

/-- The leftmost match of a pattern in a text. -/
def Regex.search (r : Regex) (s : String) : Option Regex.Found :=
  let chars := s.toList
  let text := (chars.map Char.toNat).toArray
  let none_ : Regex.Captures := Array.replicate (r.groupCount + 1) none
  match Regex.searchFrom text r.program (Regex.budget r.program text.size) none_ (text.size + 1) 0 with
  | none => none
  | some (start, stop, caps) =>
    some {
      span := (start, stop)
      groups := (caps.toList.drop 1).map fun span =>
        span.map fun (a, b) => String.ofList ((chars.drop a).take (b - a)) }

end Conform
