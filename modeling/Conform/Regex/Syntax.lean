/-!
Regular expressions: the tree of a pattern. Options such as case folding are resolved while the pattern
is read, so a node carries what it needs and a search consults nothing else.
-/
namespace Conform.Regex

/-- The classes that have an escape of their own. -/
inductive ClassKind where
  | digit
  | space
  | word
  deriving DecidableEq

/-- An item of a character set. -/
inductive SetItem where
  | one (code : Nat)
  | span (low high : Nat)
  | cls (kind : ClassKind) (negated ascii : Bool)
  deriving DecidableEq

/-- Places between characters. -/
inductive Edge where
  | textStart
  | textEnd
  | lineStart
  | lineEnd
  /-- The end of the text, or before a newline that ends it. -/
  | lastLineEnd
  | word (inside ascii : Bool)
  deriving DecidableEq

/-- How a repetition gives way. -/
inductive Eagerness where
  | greedy
  | reluctant
  | possessive
  deriving DecidableEq

inductive Node where
  | char (fold : Bool) (code : Nat)
  | set (fold negated : Bool) (items : List SetItem)
  | any (newlines : Bool)
  | edge (e : Edge)
  | seq (items : List Node)
  | alt (branches : List Node)
  | group (index : Nat) (body : Node)
  | times (least : Nat) (most : Option Nat) (how : Eagerness) (body : Node)
  | backReference (fold : Bool) (index : Nat)
  | ahead (negated : Bool) (body : Node)
  | behind (negated : Bool) (width : Nat) (body : Node)
  | atomic (body : Node)
  | conditional (index : Nat) (yes no : Node)

/-- Options of a pattern. -/
structure Flags where
  ignoreCase : Bool := false
  multiline : Bool := false
  dotAll : Bool := false
  verbose : Bool := false
  ascii : Bool := false
  deriving DecidableEq

end Conform.Regex

namespace Conform

/-- A compiled pattern. -/
structure Regex where
  source : String
  /-- Whether the pattern is written in bytes. -/
  binary : Bool
  flags : Regex.Flags
  program : Regex.Node
  groupCount : Nat
  /-- Named groups, in order of appearance. -/
  names : List (String × Nat)

/-- Two patterns are the same if they read the same and have the same options. -/
def Regex.same (a b : Regex) : Bool :=
  a.source == b.source && a.binary == b.binary && a.flags == b.flags

end Conform
