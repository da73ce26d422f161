import Conform.Descriptor.Coercion
import Conform.Engine
import Conform.Logging
import Conform.Signature

/-!
Outcomes: success with a value or failure with an error. The chaining operations run on a success and
pass a failure through; lifting works the other way round, and recovers from an error by a chain of
steps.
-/
namespace Conform.Outcome

def isOutcome : Value → Bool
  | .success .. | .failure .. => true
  | _ => false

/-- A step must answer an outcome, which is passed on as it is. -/
def ensure (result step : Value) : Act Value := do
  if isOutcome result then return result
  let name ← Descriptor.functionName step
  Act.fail (.notOutcome name result.className)

/-- The error for a payload that is no exception. -/
def payloadError (payload : Value) : Act Value := do
  let shown ← payload.shownBriefly
  return .outcomeError (← Act.fresh) payload ("Outcome failed with " ++ shown)

/-- Raises the error of a failure: an exception as it is, an exception class as a new instance, and
anything else wrapped. -/
def raise (e : Engine) (error : Value) : Act Value := do
  if error.isException then throw (.raised error)
  match error with
  | .cls c => if c.isException then throw (.raised (← e.call error [] []))
  | _ => pure ()
  throw (.raised (← payloadError error))

/-- The operations of an outcome. -/
inductive Op where
  | isSuccess
  | isFailure
  | map (fn : Value)
  | bind (fn : Value)
  | filter (predicate onReject : Value)
  | valueOr (fallback : Value)
  | raiseOrValue
  | lift (steps : List Value)
  | liftOrRaise (steps : List Value)

/-- Runs recovery steps: the first gets the error, each later one the value of the success before it.
The first failure ends the chain, and is raised if the caller wants that. -/
def runSteps (e : Engine) (raising : Bool) : Nat → Value → List Value → Value → Act Value
  | _, _, [], last => return last
  | index, current, step :: rest, _ => do
    let result ← ensure (← e.call step [current] []) step
    match result with
    | .failure _ error =>
      Logging.trace (do
        return s!"outcome._run_lift: Step {index} failed with " ++ (← error.shown))
      if raising then raise e error else return result
    | .success _ value => runSteps e raising (index + 1) value rest result
    | _ => return result

def liftFrom (e : Engine) (raising : Bool) (error : Value) (steps : List Value) : Act Value :=
  if steps.isEmpty then Act.fail .noStep else runSteps e raising 0 error steps .nil

/-- What an operation answers on a success. -/
def Op.onSuccess (e : Engine) (self value : Value) : Op → Act Value
  | .isSuccess => return .bool true
  | .isFailure => return .bool false
  | .map fn => do
    let mapped ← e.call fn [value] []
    return .success (← Act.fresh) mapped
  | .bind fn => do ensure (← e.call fn [value] []) fn
  | .filter predicate onReject => do
    if ← (← e.call predicate [value] []).truth then return self
    let error ← match onReject with
      | .nil => payloadError value
      | _ => e.call onReject [value] []
    return .failure (← Act.fresh) error
  | .valueOr _ => return value
  | .raiseOrValue => return value
  | .lift _ => return self
  | .liftOrRaise _ => return self

/-- What an operation answers on a failure. -/
def Op.onFailure (e : Engine) (self error : Value) : Op → Act Value
  | .isSuccess => return .bool false
  | .isFailure => return .bool true
  | .map _ => return self
  | .bind _ => return self
  | .filter .. => return self
  | .valueOr fallback => e.call fallback [error] []
  | .raiseOrValue => raise e error
  | .lift steps => liftFrom e false error steps
  | .liftOrRaise steps => liftFrom e true error steps

def Op.run (e : Engine) (self : Value) (op : Op) : Act Value :=
  match self with
  | .success _ value => op.onSuccess e self value
  | .failure _ error => op.onFailure e self error
  | _ => return .nil

/-- The signature of a method by its name; the shared ones are inherited. -/
def signature? (owner name : String) : Option Signature :=
  let own (required : List String) : Signature := { name := owner ++ "." ++ name, required }
  let inherited (required : List String) : Signature := { name := "Outcome." ++ name, required }
  match name with
  | "is_success" | "is_failure" | "raise_or_value" => some (own [])
  | "map" | "bind" => some (own ["fn"])
  | "filter" => some { own ["predicate"] with optional := [("on_reject", .nil)] }
  | "value_or" => some (own ["fallback"])
  | "lift" | "lift_or_raise" => some { own [] with variadic := true }
  | "fmap" | "then" => some (inherited ["fn"])
  | "value_or_raise" => some (inherited [])
  | _ => none

def operation? (name : String) (b : Bound) : Option Op :=
  match name with
  | "is_success" => some .isSuccess
  | "is_failure" => some .isFailure
  | "map" | "fmap" => some (.map (b.get "fn"))
  | "bind" | "then" => some (.bind (b.get "fn"))
  | "filter" => some (.filter (b.get "predicate") (b.get "on_reject"))
  | "value_or" => some (.valueOr (b.get "fallback"))
  | "raise_or_value" | "value_or_raise" => some .raiseOrValue
  | "lift" => some (.lift b.rest)
  | "lift_or_raise" => some (.liftOrRaise b.rest)
  | _ => none

/-- Calls a method of an outcome by name. -/
def invoke? (e : Engine) (self : Value) (name : String) (args : List Value) (keywords : Keywords) :
    Option (Act Value) :=
  (signature? self.className name).map fun s => do
    let bound ← s.accept args keywords
    match operation? name bound with
    | some op => op.run e self
    | none => return .nil

end Conform.Outcome
