import Conform.Class
import Conform.Number.Binary64

/-!
Expressions: how a script writes down the values that it works on.
-/
namespace Conform

/-- A day of the calendar. -/
structure Day where
  year : Nat
  month : Nat
  day : Nat
  deriving DecidableEq

/-- A day and a time of day. -/
structure Moment where
  day : Day
  hour : Nat
  minute : Nat
  second : Nat
  micro : Nat
  deriving DecidableEq

/-- The numbers of a day, largest unit first. -/
def Day.numbers (d : Day) : List Nat :=
  [d.year, d.month, d.day]

/-- The numbers of a moment, largest unit first. -/
def Moment.numbers (m : Moment) : List Nat :=
  m.day.numbers ++ [m.hour, m.minute, m.second, m.micro]

/-- A function of the surroundings, by name. A traced one records its calls; a bare one does not know
its own name. -/
structure NamedFunction where
  name : String
  traced : Bool
  bare : Bool
  deriving DecidableEq

/-- A built-in kind of value, or the subclass of it that adds nothing. -/
inductive Flavour where
  | base
  | derived
  deriving DecidableEq

inductive Expr where
  | nil
  | ellipsis
  | notImplemented
  | bool (b : Bool)
  | int (kind : Flavour) (n : Int)
  | float (x : Binary64)
  | str (kind : Flavour) (s : String)
  | bytes (bs : List UInt8)
  | bytearray (bs : List UInt8)
  | list (kind : Flavour) (items : List Expr)
  | tuple (items : List Expr)
  | pair (left right : Expr)
  | set (items : List Expr)
  | frozenset (items : List Expr)
  | dict (kind : Flavour) (entries : List (Expr × Expr))
  | frozenMap (entries : List (Expr × Expr))
  | iter (items : List Expr)
  | range (bounds : List Expr)
  | slice (bounds : List Expr)
  | day (d : Day)
  | moment (m : Moment)
  | regex (source : String) (binary ignoreCase : Bool)
  | cls (c : Class)
  | typeHint (name : String)
  | fn (f : NamedFunction)
  | thunk (label : String) (body : Expr)
  | thing (c : Class) (attributes : List (String × Expr))
  | exception (c : Class) (args : List Expr)
  | success (value : Expr)
  | failure (error : Expr)
  | checked (c : Class) (values element : Expr) (frozen : Bool)
  | constant (name : String)
  | factory (name : String) (args : List Expr) (keywords : List (String × Expr))
  | ref (name : String)

instance : Inhabited Expr := ⟨.nil⟩

end Conform
