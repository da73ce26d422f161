import Conform.Script.Operation
import Conform.Snapshot

/-!
Scripts: steps that share one session. Each step answers the result of its action or the error that
stopped it; a result can be bound to a name for the steps that follow. The calls of traced functions and
the lines of the log are reported with the step that caused them.
-/
namespace Conform.Script

/-- What a step does. -/
inductive Action where
  | eval (value : Expr)
  | build (c : Class) (values element : Expr)
  | call (on : Expr) (method : String) (args : List Expr) (keywords : List (String × Expr))
  | operate (on : Expr) (operator : String) (args : List Expr)
  | read (on : Expr) (name : String)
  | write (on : Expr) (name : String) (value : Expr)
  | delete (on : Expr) (name : String)
  | function (name : String) (args : List Expr) (keywords : List (String × Expr))

structure Step where
  action : Action
  /-- The name that the result is bound to. -/
  result? : Option String := none

/-- What a step works on, if it works on something. -/
def Action.subject? : Action → Option Expr
  | .call on .. | .operate on .. | .read on _ | .write on .. | .delete on _ => some on
  | _ => none

/-- Performs an action on the value of its subject. -/
def Action.perform (e : Engine) (on : Value) : Action → Act Value
  | .eval value => value.evaluate e
  | .build c values element => do
    let vs ← values.evaluate e
    CheckedList.construct e c vs (← element.evaluate e)
  | .call _ method args keywords => do
    let positional ← Expr.evaluateAll e args
    let named ← Expr.evaluateNamed e keywords []
    e.call (← on.getAttribute method) positional named
  | .operate _ operator args => do applyOperator e operator on (← Expr.evaluateAll e args)
  | .read _ name => on.getAttribute name
  | .write _ name value => do
    setAttribute on name (← value.evaluate e)
    return .nil
  | .delete _ name => do
    deleteAttribute on name
    return .nil
  | .function name args keywords => do
    let positional ← Expr.evaluateAll e args
    callFunction e name positional (← Expr.evaluateNamed e keywords [])

/-- What was recorded since the last time, which is forgotten now. -/
def drain : Act (List (String × Report)) := do
  let s ← get
  set { s with calls := [], log := [] }
  let calls ← s.calls.mapM fun c => (Snapshot.tracedCall c : Look Report)
  return (if calls.isEmpty then [] else [("calls", Report.list calls)]) ++
    (if s.log.isEmpty then [] else [("log", .list (s.log.map .text))])

/-- Runs an action and answers how it ended. What it did stays done. -/
def attempt {α : Type} (body : Act α) : Act (Except Fault α) := fun s =>
  match body s with
  | .ok a s => .ok (.ok a) s
  | .error f s => .ok (.error f) s

/-- Whether answers tell to which names a result is bound already. -/
def isTracked : Value → Bool
  | .checked .. | .success .. | .failure .. | .descriptor _ | .list .. | .context _ | .exception ..
  | .mismatchError .. | .outcomeError .. => true
  | _ => false

/-- The names that are bound to a value, sorted. -/
def namesOf (v : Value) : Act (List String) := do
  if !isTracked v then return []
  return Factory.sortedTexts (((← get).names.filter fun (_, w) => w.same v).map (·.1))

/-- The subject after a step, where it is a list. -/
def stateOf : Value → Look (List (String × Report))
  | .checked c i => do return [("state", ← Snapshot.value (.checked c i))]
  | .list kind i => do return [("state", ← Snapshot.value (.list kind i))]
  | _ => return []

/-- The fields that describe a result. -/
def resultFields (v : Value) : Act (List (String × Report)) := do
  let report ← Snapshot.value v
  let names ← namesOf v
  return ("ok", report) :: (if names.isEmpty then [] else [("is", .list (names.map .text))])

/-- Runs a step. -/
def Step.run (e : Engine) (step : Step) : Act Report := do
  let subject ← attempt (do
    match step.action.subject? with
    | some on => return some (← on.evaluate e)
    | none => return none)
  let outcome ← match subject with
    | .ok on => attempt (step.action.perform e (on.getD .nil))
    | .error f => pure (.error f)
  let state ← match subject with
    | .ok (some on) => (stateOf on : Look (List (String × Report)))
    | _ => pure []
  let fields ← match outcome with
    | .ok v => do
      let fields ← resultFields v
      match step.result? with
      | some name => bindName name v
      | none => pure ()
      pure fields
    | .error f => (Snapshot.fault f : Look (List (String × Report)))
  return .record (fields ++ state ++ (← drain))

/-- Runs the steps of a script one after the other. -/
def runSteps (e : Engine) (steps : List Step) : Act Report := do
  return .record [("steps", .list (← steps.mapM fun s => s.run e))]

end Conform.Script
