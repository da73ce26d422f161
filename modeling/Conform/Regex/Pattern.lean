import Conform.Regex.Syntax
import Conform.Text.Quoted
import Conform.Text.Alphabet

/-!
Reading a pattern. The reader goes token by token, where an escape is one token, and reports the first
thing that is wrong together with its place.
-/
namespace Conform.Regex

/-- What is wrong with a pattern. -/
inductive Defect where
  | malformed (what : String) (place : Option Nat)
  /-- A counted repetition beyond what the matcher counts. -/
  | hugeCount

inductive Token where
  | plain (c : Char)
  | escaped (c : Char)
  /-- A backslash with nothing after it. -/
  | dangling
  deriving DecidableEq

def Token.width : Token → Nat
  | .plain _ => 1
  | .escaped _ => 2
  | .dangling => 1

def Token.text : Token → String
  | .plain c => c.toString
  | .escaped c => String.ofList ['\\', c]
  | .dangling => "\\"

def tokens : List Char → List Token
  | [] => []
  | '\\' :: c :: rest => .escaped c :: tokens rest
  | '\\' :: [] => [.dangling]
  | c :: rest => .plain c :: tokens rest

/-- Least and greatest width of what a node can cover; none is no bound. -/
abbrev Width := Nat × Option Nat

/-- Where the reader stands. -/
structure Cursor where
  toks : List Token
  pos : Nat
  flags : Flags
  /-- Bytes patterns know ASCII classes only. -/
  binary : Bool
  nextGroup : Nat := 1
  names : List (String × Nat) := []
  /-- Groups that are complete, with their widths. -/
  closed : List (Nat × Width) := []
  /-- Inside a look-behind: the first group number that belongs to it. -/
  behindFrom : Option Nat := none
  /-- Groups that conditions name, with the place of the first mention. -/
  conditions : List (Nat × Nat) := []
  /-- Whether some look-behind covers no fixed width. -/
  looseBehind : Bool := false

abbrev Reader := StateT Cursor (Except Defect)

def failAt {α : Type} (place : Nat) (what : String) : Reader α :=
  fun _ => .error (.malformed what (some place))

/-- Fails at a place counted back from where the reader stands. -/
def failBack {α : Type} (offset : Nat) (what : String) : Reader α := do
  failAt ((← get).pos - offset) what

def peek : Reader (Option Token) := do
  return (← get).toks.head?

/-- Takes the next token. Coming to stand before a lone backslash is an error at once. -/
def take : Reader (Option Token) := do
  let s ← get
  match s.toks with
  | [] => return none
  | t :: rest =>
    set { s with toks := rest, pos := s.pos + t.width }
    if rest.head? == some .dangling then failAt (s.pos + t.width) "bad escape (end of pattern)"
    return some t

/-- Takes the next token if it is the given character. -/
def accept (c : Char) : Reader Bool := do
  if (← peek) == some (.plain c) then
    let _ ← take
    return true
  return false

/-- Takes at most `n` characters that satisfy the test. -/
def takeWhile (test : Char → Bool) : Nat → Reader (List Char)
  | 0 => return []
  | n + 1 => do
    match ← peek with
    | some (.plain c) =>
      if test c then
        let _ ← take
        return c :: (← takeWhile test n)
      return []
    | _ => return []

def isOctal (c : Char) : Bool :=
  '0' ≤ c && c ≤ '7'

def isHex (c : Char) : Bool :=
  c.isDigit || ('a' ≤ c && c ≤ 'f') || ('A' ≤ c && c ≤ 'F')

def digitValue (c : Char) : Nat :=
  if c.isDigit then c.toNat - '0'.toNat
  else if 'a' ≤ c then c.toNat - 'a'.toNat + 10
  else c.toNat - 'A'.toNat + 10

def numeral (base : Nat) (cs : List Char) : Nat :=
  cs.foldl (fun n c => base * n + digitValue c) 0

/-- Everything up to a closing character, which is taken too. -/
def takeUntil (close : Char) (name : String) : Nat → List Char → Reader String
  | 0, _ => failBack 0 ("missing " ++ name)
  | fuel + 1, seen => do
    match ← take with
    | none =>
      if seen.isEmpty then failBack 0 ("missing " ++ name)
      else failBack seen.length s!"missing {close}, unterminated name"
    | some (.plain c) =>
      if c == close then
        if seen.isEmpty then failBack 1 ("missing " ++ name)
        return String.ofList seen
      takeUntil close name fuel (seen ++ [c])
    | some t => takeUntil close name fuel (seen ++ t.text.toList)

def isNameStart (c : Char) : Bool :=
  c == '_' || (Text.isAlphanumeric c && !Text.isDigit c)

def isName (s : String) : Bool :=
  match s.toList with
  | [] => false
  | c :: rest => isNameStart c && rest.all fun d => d == '_' || Text.isAlphanumeric d

/-- Escapes of single characters. -/
def simpleEscape? : Char → Option Nat
  | 'a' => some 7
  | 'b' => some 8
  | 'f' => some 12
  | 'n' => some 10
  | 'r' => some 13
  | 't' => some 9
  | 'v' => some 11
  | '\\' => some 92
  | _ => none

def classEscape? (ascii : Bool) : Char → Option SetItem
  | 'd' => some (.cls .digit false ascii)
  | 'D' => some (.cls .digit true ascii)
  | 's' => some (.cls .space false ascii)
  | 'S' => some (.cls .space true ascii)
  | 'w' => some (.cls .word false ascii)
  | 'W' => some (.cls .word true ascii)
  | _ => none

def edgeEscape? (ascii : Bool) : Char → Option Edge
  | 'A' => some .textStart
  | 'Z' => some .textEnd
  | 'b' => some (.word false ascii)
  | 'B' => some (.word true ascii)
  | _ => none

/-- Escapes that spell a code in base sixteen: the mark and the number of digits. -/
def hexWidth? (binary : Bool) : Char → Option Nat
  | 'x' => some 2
  | 'u' => if binary then none else some 4
  | 'U' => if binary then none else some 8
  | _ => none

def hexEscape (mark : Char) (width : Nat) : Reader Nat := do
  let ds ← takeWhile isHex width
  let shown := "\\" ++ mark.toString ++ String.ofList ds
  if ds.length != width then failBack shown.length ("incomplete escape " ++ shown)
  let code := numeral 16 ds
  if 0x10ffff < code then failBack shown.length ("bad escape " ++ shown)
  return code

def badEscape {α : Type} (c : Char) : Reader α :=
  failBack 2 ("bad escape \\" ++ c.toString)

/-- An escape inside a character set. -/
def setEscape (c : Char) : Reader SetItem := do
  let s ← get
  match simpleEscape? c, classEscape? s.flags.ascii c, hexWidth? s.binary c with
  | some code, _, _ => return .one code
  | none, some item, _ => return item
  | none, none, some width => return .one (← hexEscape c width)
  | none, none, none =>
    if isOctal c then
      let ds := c :: (← takeWhile isOctal 2)
      let code := numeral 8 ds
      if 0o377 < code then
        let shown := "\\" ++ String.ofList ds
        failBack shown.length s!"octal escape value {shown} outside of range 0-0o377"
      return .one code
    else if c.isAlphanum then badEscape c
    else return .one c.toNat

def checkBehind (index : Nat) : Reader Unit := do
  let s ← get
  match s.behindFrom with
  | none => return ()
  | some from_ =>
    unless s.closed.any (·.1 == index) do failBack 0 "cannot refer to an open group"
    if from_ ≤ index then
      failBack 0 "cannot refer to group defined in the same lookbehind subpattern"

/-- A reference to a group by its number. -/
def groupReference (index shownWidth : Nat) : Reader Node := do
  let s ← get
  if s.nextGroup ≤ index then failBack (shownWidth - 1) s!"invalid group reference {index}"
  unless s.closed.any (·.1 == index) do failBack shownWidth "cannot refer to an open group"
  checkBehind index
  return .backReference s.flags.ignoreCase index

/-- An escape outside character sets. -/
def escape (c : Char) : Reader Node := do
  let s ← get
  let lit (code : Nat) : Node := .char s.flags.ignoreCase code
  match edgeEscape? s.flags.ascii c, classEscape? s.flags.ascii c, simpleEscape? c, hexWidth? s.binary c with
  | some e, _, _, _ => return .edge e
  | none, some item, _, _ => return .set false false [item]
  | none, none, some code, _ => return lit code
  | none, none, none, some width => return lit (← hexEscape c width)
  | none, none, none, none =>
    if c == '0' then
      return lit (numeral 8 (c :: (← takeWhile isOctal 2)))
    else if c.isDigit then
      let more ← takeWhile Char.isDigit 1
      let last ← match more with
        | [d] => if isOctal c && isOctal d then takeWhile isOctal 1 else pure []
        | _ => pure []
      if last.isEmpty then
        let ds := c :: more
        groupReference (numeral 10 ds) (ds.length + 1)
      else
        let ds := c :: (more ++ last)
        let code := numeral 8 ds
        if 0o377 < code then
          let shown := "\\" ++ String.ofList ds
          failBack shown.length s!"octal escape value {shown} outside of range 0-0o377"
        return lit code
    else if c.isAlphanum then badEscape c
    else return lit c.toNat

/-- One end of a range, or an item of its own. -/
def setMember : Token → Reader SetItem
  | .plain c => return .one c.toNat
  | .escaped c => setEscape c
  | .dangling => return .one 92

/-- The items of a character set up to its closing bracket; `start` is where the set opens. -/
def setItems (start : Nat) : Nat → List SetItem → Reader (List SetItem)
  | 0, _ => failAt start "unterminated character set"
  | fuel + 1, items => do
    match ← take with
    | none => failAt start "unterminated character set"
    | some t =>
      if t == .plain ']' && !items.isEmpty then return items
      let first ← setMember t
      if ← accept '-' then
        match ← take with
        | none => failAt start "unterminated character set"
        | some u =>
          if u == .plain ']' then return items ++ [first, .one 45]
          let second ← setMember u
          let bad : Reader (List SetItem) :=
            failBack (t.width + 1 + u.width) s!"bad character range {t.text}-{u.text}"
          match first, second with
          | .one low, .one high =>
            if high < low then bad else setItems start fuel (items ++ [.span low high])
          | _, _ => bad
      else setItems start fuel (items ++ [first])

/-- A counted repetition stays below this. -/
def countLimit : Nat := 0xffffffff

/-- The bounds of a counted repetition, if what follows the brace is one. -/
def bounds : Reader (Option (Nat × Option Nat)) := do
  let saved ← get
  if saved.toks.head? == some (.plain '\x7d') then return none
  let low ← takeWhile Char.isDigit saved.toks.length
  let high ← if ← accept ',' then takeWhile Char.isDigit saved.toks.length else pure low
  if ← accept '\x7d' then
    let least := numeral 10 low
    let most := if high.isEmpty then none else some (numeral 10 high)
    if countLimit ≤ least || countLimit ≤ most.getD 0 then fun _ => .error .hugeCount
    match most with
    | some m => if m < least then failAt saved.pos "min repeat greater than max repeat"
    | none => pure ()
    return some (least, most)
  else
    set saved
    return none

def widthAdd : Option Nat → Option Nat → Option Nat
  | some a, some b => some (a + b)
  | _, _ => none

/-- The widths a node can cover. -/
def nodeWidth (closed : List (Nat × Width)) : Nat → Node → Width
  | 0, _ => (0, none)
  | _ + 1, .char .. => (1, some 1)
  | _ + 1, .set .. => (1, some 1)
  | _ + 1, .any _ => (1, some 1)
  | _ + 1, .edge _ => (0, some 0)
  | fuel + 1, .seq items =>
    items.foldl (fun w n =>
      let v := nodeWidth closed fuel n
      (w.1 + v.1, widthAdd w.2 v.2)) (0, some 0)
  | fuel + 1, .alt branches =>
    match branches.map (nodeWidth closed fuel) with
    | [] => (0, some 0)
    | w :: ws => ws.foldl (fun a b =>
        (min a.1 b.1, match a.2, b.2 with
          | some x, some y => some (max x y)
          | _, _ => none)) w
  | fuel + 1, .group _ body => nodeWidth closed fuel body
  | fuel + 1, .times least most _ body =>
    let w := nodeWidth closed fuel body
    (least * w.1, match most, w.2 with
      | some m, some h => some (m * h)
      | none, some 0 => some 0
      | _, _ => none)
  | _ + 1, .backReference _ index =>
    match closed.find? (·.1 == index) with
    | some entry => entry.2
    | none => (0, none)
  | _ + 1, .ahead .. => (0, some 0)
  | _ + 1, .behind .. => (0, some 0)
  | fuel + 1, .atomic body => nodeWidth closed fuel body
  | fuel + 1, .conditional _ yes no =>
    let a := nodeWidth closed fuel yes
    let b := nodeWidth closed fuel no
    (min a.1 b.1, match a.2, b.2 with
      | some x, some y => some (max x y)
      | _, _ => none)

/-- The letters that name an option. -/
def optionLetters : List Char := ['i', 'L', 'm', 's', 'x', 'a', 't', 'u']

/-- The options that say which characters are letters: at most one of them holds. -/
def alphabetLetters : List Char := ['a', 'L', 'u']

def Token.option? : Token → Option Char
  | .plain c => if optionLetters.contains c then some c else none
  | _ => none

def Token.isLetter : Token → Bool
  | .plain c => Text.isAlphanumeric c && !Text.isDigit c
  | _ => false

def Flags.turn (on : Bool) (f : Flags) : Char → Flags
  | 'i' => { f with ignoreCase := on }
  | 'm' => { f with multiline := on }
  | 's' => { f with dotAll := on }
  | 'x' => { f with verbose := on }
  | 'a' => { f with ascii := on }
  | 'u' => { f with ascii := !on }
  | _ => f

/-- What ends a run of options that are turned on. -/
inductive OptionEnd where
  | wholePattern | group | turnedOff
  deriving DecidableEq

/-- Options to turn on, from the letter just read up to what ends them. -/
def optionsOn : Nat → Char → List Char → Reader (List Char × OptionEnd)
  | 0, _, _ => failBack 0 "missing -, : or )"
  | fuel + 1, c, before => do
    let binary := (← get).binary
    if c == 'L' && !binary then
      failBack 0 "bad inline flags: cannot use 'L' flag with a str pattern"
    if c == 'u' && binary then
      failBack 0 "bad inline flags: cannot use 'u' flag with a bytes pattern"
    if alphabetLetters.contains c && before.any fun d => alphabetLetters.contains d && d != c then
      failBack 0 "bad inline flags: flags 'a', 'u' and 'L' are incompatible"
    let letters := before ++ [c]
    match ← take with
    | none => failBack 0 "missing -, : or )"
    | some (.plain ')') => return (letters, .wholePattern)
    | some (.plain ':') => return (letters, .group)
    | some (.plain '-') => return (letters, .turnedOff)
    | some t =>
      match t.option? with
      | some d => optionsOn fuel d letters
      | none => failBack t.width (if t.isLetter then "unknown flag" else "missing -, : or )")

/-- Options to turn off, from the letter just read up to the colon. -/
def optionsOff : Nat → Char → List Char → Reader (List Char)
  | 0, _, _ => failBack 0 "missing :"
  | fuel + 1, c, before => do
    if alphabetLetters.contains c then
      failBack 0 "bad inline flags: cannot turn off flags 'a', 'u' and 'L'"
    let letters := before ++ [c]
    match ← take with
    | none => failBack 0 "missing :"
    | some (.plain ':') => return letters
    | some t =>
      match t.option? with
      | some d => optionsOff fuel d letters
      | none => failBack t.width (if t.isLetter then "unknown flag" else "missing :")

/-- An inline option group, from its first letter or minus sign. Answers the changed options and whether
they hold for a group only. -/
def inlineOptions (fuel : Nat) (c : Char) : Reader (Flags × Bool) := do
  let (on, ending) ← if c == '-' then pure ([], .turnedOff) else optionsOn fuel c []
  let flags := on.foldl (Flags.turn true) (← get).flags
  if ending == .wholePattern then return (flags, false)
  if on.contains 't' then failBack 1 "bad inline flags: cannot turn on global flag"
  let off ←
    if ending == .turnedOff then
      match ← take with
      | none => failBack 0 "missing flag"
      | some t =>
        match t.option? with
        | some d => optionsOff fuel d []
        | none => failBack t.width (if t.isLetter then "unknown flag" else "missing flag")
    else pure []
  if off.contains 't' then failBack 1 "bad inline flags: cannot turn off global flag"
  if on.any off.contains then failBack 1 "bad inline flags: flag turned on and off"
  return (off.foldl (Flags.turn false) flags, true)

/-- Skips a comment up to its closing parenthesis. -/
def skipComment (start : Nat) : Nat → Reader Unit
  | 0 => failAt start "missing ), unterminated comment"
  | fuel + 1 => do
    match ← peek with
    | none => failAt start "missing ), unterminated comment"
    | some t =>
      let _ ← take
      if t == .plain ')' then return ()
      skipComment start fuel

/-- Skips the rest of a line in a verbose pattern. -/
def skipLine : Nat → Reader Unit
  | 0 => return ()
  | fuel + 1 => do
    match ← take with
    | none => return ()
    | some t => if t == .plain '\n' then return () else skipLine fuel

/-- How a group opens. -/
inductive Opening where
  | capture (name : Option String)
  | plain (flags : Option Flags)
  | atomic
  | look (behind negated : Bool)
  | condition (index : Nat)
  /-- Read whole already: a comment, options for the rest, a named reference. -/
  | done (node : Option Node)

def checkName (name : String) : Reader Unit := do
  unless isName name do
    failBack (name.length + 1) ("bad character in group name " ++ Text.quoted name)

/-- Reads the number or name of the group that a condition tests. -/
def conditionIndex : Reader Nat := do
  let fuel := (← get).toks.length + 1
  let name ← takeUntil ')' "group name" fuel []
  let s ← get
  if isName name then
    match s.names.find? (·.1 == name) with
    | some entry =>
      checkBehind entry.2
      return entry.2
    | none => failBack (name.length + 1) ("unknown group name " ++ Text.quoted name)
  else if !name.isEmpty && name.toList.all Char.isDigit then
    let index := numeral 10 name.toList
    if index == 0 then failBack (name.length + 1) "bad group number"
    unless s.conditions.any (·.1 == index) do
      modify fun s => { s with conditions := s.conditions ++ [(index, s.pos - name.length - 1)] }
    checkBehind index
    return index
  else failBack (name.length + 1) ("bad character in group name " ++ Text.quoted name)

/-- Reads what follows an opening parenthesis. `atStart` says whether options for the whole pattern may
stand here. -/
def opening (start : Nat) (atStart : Bool) : Reader Opening := do
  unless ← accept '?' do return .capture none
  let fuel := (← get).toks.length + 1
  match ← take with
  | none => failBack 0 "unexpected end of pattern"
  | some (.plain 'P') =>
    if ← accept '<' then
      let name ← takeUntil '>' "group name" fuel []
      checkName name
      return .capture (some name)
    else if ← accept '=' then
      let name ← takeUntil ')' "group name" fuel []
      checkName name
      let s ← get
      match s.names.find? (·.1 == name) with
      | none => failBack (name.length + 1) ("unknown group name " ++ Text.quoted name)
      | some entry =>
        unless s.closed.any (·.1 == entry.2) do
          failBack (name.length + 1) "cannot refer to an open group"
        checkBehind entry.2
        return .done (some (.backReference s.flags.ignoreCase entry.2))
    else
      match ← take with
      | none => failBack 0 "unexpected end of pattern"
      | some t => failBack (t.width + 2) ("unknown extension ?P" ++ t.text)
  | some (.plain ':') => return .plain none
  | some (.plain '#') =>
    skipComment start fuel
    return .done none
  | some (.plain '=') => return .look false false
  | some (.plain '!') => return .look false true
  | some (.plain '<') =>
    match ← take with
    | none => failBack 0 "unexpected end of pattern"
    | some (.plain '=') => return .look true false
    | some (.plain '!') => return .look true true
    | some t => failBack (t.width + 2) ("unknown extension ?<" ++ t.text)
  | some (.plain '(') => return .condition (← conditionIndex)
  | some (.plain '>') => return .atomic
  | some (.plain c) =>
    if optionLetters.contains c || c == '-' then
      let (changed, forGroup) ← inlineOptions fuel c
      if forGroup then return .plain (some changed)
      unless atStart do failAt start "global flags not at the start of the expression"
      modify fun s => { s with flags := changed }
      return .done none
    else failBack 2 ("unknown extension ?" ++ c.toString)
  | some t => failBack (t.width + 1) ("unknown extension ?" ++ t.text)

def openGroup (name : Option String) : Reader Nat := do
  let s ← get
  let index := s.nextGroup
  match name with
  | none => set { s with nextGroup := index + 1 }
  | some n =>
    match s.names.find? (·.1 == n) with
    | some entry =>
      failBack (n.length + 1)
        s!"redefinition of group name {Text.quoted n} as group {index}; was group {entry.2}"
    | none => set { s with nextGroup := index + 1, names := s.names ++ [(n, index)] }
  return index

def closeParen (start : Nat) : Reader Unit := do
  unless ← accept ')' do failAt start "missing ), unterminated subpattern"

def isEdge : Node → Bool
  | .edge _ => true
  | _ => false

def isTimes : Node → Bool
  | .times .. => true
  | _ => false

/-- The mark after a quantifier. -/
def eagerness : Reader Eagerness := do
  if ← accept '?' then return .reluctant
  if ← accept '+' then return .possessive
  return .greedy

/-- Repeats the last item. `before` is where the quantifier starts. -/
def quantify (before : Nat) (items : List Node) (least : Nat) (most : Option Nat) :
    Reader (List Node) := do
  match items.getLast? with
  | none => failAt before "nothing to repeat"
  | some item =>
    if isEdge item then failAt before "nothing to repeat"
    if isTimes item then failAt before "multiple repeat"
    return items.dropLast ++ [.times least most (← eagerness) item]

mutual

/-- Alternatives up to a closing parenthesis or the end. -/
def alternatives (fuel : Nat) (top : Bool) : Reader Node :=
  match fuel with
  | 0 => failBack 0 "pattern too deep"
  | fuel + 1 => do
    let first ← sequence fuel top []
    let rest ← moreAlternatives fuel
    return if rest.isEmpty then first else .alt (first :: rest)

def moreAlternatives (fuel : Nat) : Reader (List Node) :=
  match fuel with
  | 0 => return []
  | fuel + 1 => do
    unless ← accept '|' do return []
    let next ← sequence fuel false []
    return next :: (← moreAlternatives fuel)

/-- Items one after the other. `top` says whether this is the first branch of the whole pattern. -/
def sequence (fuel : Nat) (top : Bool) (items : List Node) : Reader Node :=
  match fuel with
  | 0 => failBack 0 "pattern too deep"
  | fuel + 1 => do
    let s ← get
    match s.toks.head? with
    | none => return .seq items
    | some (.plain '|') => return .seq items
    | some (.plain ')') => return .seq items
    | some t =>
      let here := s.pos
      let _ ← take
      match t with
      | .dangling => failAt here "bad escape (end of pattern)"
      | .escaped c => sequence fuel top (items ++ [← escape c])
      | .plain c =>
        if s.flags.verbose && (c.isWhitespace || c == '\x0b' || c == '\x0c') then
          sequence fuel top items
        else if s.flags.verbose && c == '#' then
          skipLine s.toks.length
          sequence fuel top items
        else if c == '.' then sequence fuel top (items ++ [.any s.flags.dotAll])
        else if c == '^' then
          sequence fuel top (items ++ [.edge (if s.flags.multiline then .lineStart else .textStart)])
        else if c == '$' then
          sequence fuel top (items ++ [.edge (if s.flags.multiline then .lineEnd else .lastLineEnd)])
        else if c == '[' then
          let negated ← accept '^'
          let members ← setItems here (s.toks.length + 1) []
          sequence fuel top (items ++ [.set s.flags.ignoreCase negated members])
        else if c == '*' then sequence fuel top (← quantify here items 0 none)
        else if c == '+' then sequence fuel top (← quantify here items 1 none)
        else if c == '?' then sequence fuel top (← quantify here items 0 (some 1))
        else if c == '\x7b' then
          match ← bounds with
          | none => sequence fuel top (items ++ [.char s.flags.ignoreCase c.toNat])
          | some (least, most) => sequence fuel top (← quantify here items least most)
        else if c == '(' then
          match ← opening here (top && items.isEmpty) with
          | .done none => sequence fuel top items
          | .done (some node) => sequence fuel top (items ++ [node])
          | .capture name =>
            let index ← openGroup name
            let body ← alternatives fuel false
            closeParen here
            modify fun s => { s with
              closed := s.closed ++ [(index, nodeWidth s.closed (s.pos + 1) body)] }
            sequence fuel top (items ++ [.group index body])
          | .plain flags =>
            let outer := (← get).flags
            modify fun s => { s with flags := flags.getD outer }
            let body ← alternatives fuel false
            modify fun s => { s with flags := outer }
            closeParen here
            sequence fuel top (items ++ [.seq [body]])
          | .atomic =>
            let body ← alternatives fuel false
            closeParen here
            sequence fuel top (items ++ [.atomic body])
          | .look behind negated =>
            let outer := (← get).behindFrom
            if behind && outer.isNone then
              modify fun s => { s with behindFrom := some s.nextGroup }
            let body ← alternatives fuel false
            modify fun s => { s with behindFrom := outer }
            closeParen here
            if behind then
              let s ← get
              let width := nodeWidth s.closed (s.pos + 1) body
              if width.2 != some width.1 then set { s with looseBehind := true }
              sequence fuel top (items ++ [.behind negated width.1 body])
            else sequence fuel top (items ++ [.ahead negated body])
          | .condition index =>
            let yes ← sequence fuel false []
            let no ←
              if ← accept '|' then
                let branch ← sequence fuel false []
                if (← peek) == some (.plain '|') then
                  failBack 0 "conditional backref with more than two branches"
                pure branch
              else pure (.seq [])
            closeParen here
            sequence fuel top (items ++ [.conditional index yes no])
        else sequence fuel top (items ++ [.char s.flags.ignoreCase c.toNat])

end

/-- The whole pattern: nothing may be left over, and every group that a condition names must exist. -/
def whole (fuel : Nat) : Reader Node := do
  let s ← get
  if s.toks.head? == some .dangling then failAt s.pos "bad escape (end of pattern)"
  let node ← alternatives fuel true
  if (← peek).isSome then failBack 0 "unbalanced parenthesis"
  let s ← get
  match s.conditions.find? fun entry => s.nextGroup ≤ entry.1 with
  | some entry => failAt entry.2 s!"invalid group reference {entry.1}"
  | none =>
    if s.looseBehind then fun _ => .error (.malformed "look-behind requires fixed-width pattern" none)
    else return node

/-- The message of a defect. A pattern of several lines also gets a line and a column. -/
def Defect.message (source : String) : Defect → String
  | .hugeCount => "the repetition number is too large"
  | .malformed what none => what
  | .malformed what (some place) =>
    let before := source.toList.take place
    let lines := before.filter (· == '\n') |>.length
    let column := (before.reverse.takeWhile (· != '\n')).length
    what ++ s!" at position {place}" ++
      (if source.toList.contains '\n' then s!" (line {lines + 1}, column {column + 1})" else "")

end Conform.Regex

namespace Conform

/-- Compiles a pattern. -/
def Regex.compile (source : String) (binary ignoreCase : Bool) : Except Regex.Defect Regex :=
  let toks := Regex.tokens source.toList
  let start : Regex.Cursor :=
    { toks, pos := 0, flags := { ignoreCase, ascii := binary }, binary }
  match (Regex.whole (4 * toks.length + 16)).run start with
  | .error d => .error d
  | .ok (program, s) =>
    .ok { source, binary, flags := s.flags, program, groupCount := s.nextGroup - 1, names := s.names }

end Conform
