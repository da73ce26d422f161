import Conform.Session

/-!
Signatures: which arguments a function takes, and the complaint when a call does not fit.
-/
namespace Conform

/-- The parameters of a function. Those with a default follow those without. -/
structure Signature where
  name : String
  required : List String
  optional : List (String × Value) := []
  /-- Whether further positional arguments are taken. -/
  variadic : Bool := false
  /-- Parameters that can only be given by name. -/
  named : List (String × Value) := []
  /-- Whether the receiver counts as a positional argument. -/
  receiver : Bool := true

/-- Arguments that fit: each parameter with its value, and the surplus positional ones. -/
structure Bound where
  values : List (String × Value)
  rest : List Value

namespace Signature

def parameters (s : Signature) : List String :=
  s.required ++ s.optional.map (·.1)

/-- One for the receiver. -/
def own (s : Signature) : Nat :=
  if s.receiver then 1 else 0

/-- Names in quotes, joined as in a sentence. -/
def listing : List String → String
  | [] => ""
  | [a] => "'" ++ a ++ "'"
  | [a, b] => "'" ++ a ++ "' and '" ++ b ++ "'"
  | names => String.join (names.dropLast.map fun n => "'" ++ n ++ "', ") ++ "and '" ++
      names.getLastD "" ++ "'"

/-- The ending of a noun after a count. -/
def plural (n : Nat) : String :=
  if n == 1 then "" else "s"

/-- The complaint about too many positional arguments. -/
def surplus (s : Signature) (given namedGiven : Nat) : String :=
  let most := s.parameters.length + s.own
  let least := s.required.length + s.own
  let takes :=
    if s.optional.isEmpty then toString most ++ " positional argument" ++ plural most
    else s!"from {least} to {most} positional arguments"
  let total := given + s.own
  let mention :=
    if namedGiven == 0 then toString total ++ (if total == 1 then " was" else " were")
    else
      toString total ++ " positional argument" ++ plural total ++ " (and " ++ toString namedGiven ++
        " keyword-only argument" ++ plural namedGiven ++ ") were"
  s.name ++ "() takes " ++ takes ++ " but " ++ mention ++ " given"

/-- Adds the arguments given by name. -/
def addNamed (s : Signature) : Keywords → List (String × Value) → Except String (List (String × Value))
  | [], bound => .ok bound
  | (n, v) :: rest, bound =>
    if !(s.parameters.contains n || s.named.any (·.1 == n)) then
      .error (s.name ++ "() got an unexpected keyword argument '" ++ n ++ "'")
    else if bound.any (·.1 == n) then
      .error (s.name ++ "() got multiple values for argument '" ++ n ++ "'")
    else addNamed s rest (bound ++ [(n, v)])

/-- Matches arguments with parameters. A bad name is reported before a surplus, a surplus before an
omission. -/
def bind (s : Signature) (args : List Value) (keywords : Keywords) : Except String Bound := do
  let positional := s.parameters.zip args
  let bound ← s.addNamed keywords positional
  let namedGiven := (bound.filter fun (n, _) => s.named.any (·.1 == n)).length
  if s.parameters.length < args.length && !s.variadic then
    throw (s.surplus args.length namedGiven)
  let absent := s.required.filter fun n => !bound.any (·.1 == n)
  unless absent.isEmpty do
    throw (s.name ++ "() missing " ++ toString absent.length ++ " required positional argument" ++
      plural absent.length ++ ": " ++ listing absent)
  let defaults := (s.optional ++ s.named).filter fun (n, _) => !bound.any (·.1 == n)
  return { values := bound ++ defaults, rest := args.drop s.parameters.length }

/-- Binds arguments or fails with the complaint. -/
def accept (s : Signature) (args : List Value) (keywords : Keywords) : Act Bound :=
  match s.bind args keywords with
  | .ok b => return b
  | .error text => Act.fail (.callShape text)

end Signature

namespace Bound

/-- The value of a parameter. -/
def get (b : Bound) (name : String) : Value :=
  (b.values.find? (·.1 == name)).elim .nil (·.2)

end Bound

end Conform
