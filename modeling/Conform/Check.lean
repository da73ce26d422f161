import Conform.Descriptor.Subtyping

/-!
Checking a value against a descriptor. A mismatch is an error value with a context that tells the two
sides apart and that the caller fills in with who performed the check.
-/
namespace Conform.Check

/-- Who performed a check: the receiver, the operation, and the place or name of the argument. What is
nil leaves the context as it was. -/
structure Performer where
  receiver : Value
  operation : Value
  position : Value := .nil
  name : Value := .nil

/-- Records who performed a check. -/
def fillReceiver (at_ : Handle) (p : Performer) : Act Unit := do
  let c := (← Act.getHeap).context at_
  Act.setContext at_ { c with
    receiver := p.receiver
    operation := p.operation
    position := if p.position.same .nil then c.position else p.position
    name := if p.name.same .nil then c.name else p.name }

/-- The error of a mismatch. A message that does not count as true is replaced by the default one. -/
def mismatchError (expected actual context message : Value) : Act Value := do
  let given ← message.truth
  let text ← if given then pure message else do
    let default_ ← Value.mismatchMessage expected actual
    Act.newStr default_
  return .mismatchError (← Act.fresh) expected actual context text

/-- Checks a value: nothing if it matches, else the error. The callback is called once, on a mismatch,
before the error is built. -/
def verify (e : Engine) (actual : Value) (d : Descriptor) (enrich : Handle → Act Unit) :
    Act (Option Value) := do
  if ← e.accepts d actual then return none
  let at_ ← Act.newContext { expected := .descriptor d, actual }
  enrich at_
  let c := (← Act.getHeap).context at_
  Logging.trace (do
    return "checks.check: Mismatch against " ++ (← d.describe) ++ " (receiver=" ++
      c.receiver.className ++ ", operation=" ++ (← c.operation.shown) ++ ")")
  return some (← mismatchError (.descriptor d) actual (.context at_) .nil)

/-- Checks a value against anything that can be read as a descriptor, as an outcome. -/
def check (e : Engine) (actual expected : Value) (enrich : Handle → Act Unit) : Act Value := do
  let d ← Descriptor.ofValue expected
  match ← verify e actual d enrich with
  | none => return .success (← Act.fresh) actual
  | some error => return .failure (← Act.fresh) error

/-- Checks a value and raises the error of a mismatch. -/
def require (e : Engine) (actual : Value) (d : Descriptor) (enrich : Handle → Act Unit) : Act Unit := do
  match ← verify e actual d enrich with
  | none => return ()
  | some error => throw (.raised error)

/-- Whether a value matches anything that can be read as a descriptor. -/
def isMatch (e : Engine) (expected actual : Value) : Act Bool := do
  e.accepts (← Descriptor.ofValue expected) actual

/-- The subtyping judgement on anything that can be read as a descriptor. -/
def isSubtype (e : Engine) (candidate of_ : Value) : Act Bool := do
  let a ← Descriptor.ofValue candidate
  e.subtype a (← Descriptor.ofValue of_)

end Conform.Check
