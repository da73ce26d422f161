import Conform.Logging
import Conform.Value.Shown
import Conform.Value.Hash

/-!
Class checks. The ancestors of a class are worked out once and remembered; a class found among them
settles a check, and the class that is asked decides the rest. A refusal counts as no.
-/
namespace Conform.Nominal

/-- The ancestors of a class, remembered from the first request on. -/
def ancestors (c : Class) : Act (List Class) := do
  match (← get).ancestors.find? (·.1 == c) with
  | some entry => return entry.2
  | none =>
    Logging.trace (return "type_utils.get_cached_mro_set: Cache miss for " ++ c.shown ++
      ". Calculating MRO.")
    modify fun s => { s with ancestors := s.ancestors ++ [(c, c.mro)] }
    return c.mro

/-- What is remembered as the ancestors of a value that is no class: the value itself. -/
def strayAncestors (v : Value) : Act (List Value) := do
  let _ ← v.hash
  let known ← (← get).strayAncestors.filterM fun w => do return ← Value.isAlike w v
  match known with
  | w :: _ => return [w]
  | [] =>
    Logging.trace (do return "type_utils.get_cached_mro_set: Cache miss for " ++ (← v.shown) ++
      ". Calculating MRO.")
    let shown ← v.shown
    Logging.record .warning ("Failed to calculate MRO for " ++ shown ++ ": '" ++ v.operandName ++
      "' object has no attribute '__mro__'. Performance may be affected.")
    modify fun s => { s with strayAncestors := s.strayAncestors ++ [v] }
    return [v]

/-- Whether a value is an instance of a class. -/
def isInstance (v : Value) (c : Class) : Act Bool := do
  if v.classOf == c then return true
  if (← ancestors v.classOf).contains c then return true
  match v.classOf.isInstance c with
  | .ok answer => return answer
  | .error refusal =>
    Logging.trace (return "type_utils.is_instance_optimized: isinstance(" ++ v.className ++ ", " ++
      c.shown ++ ") raised TypeError(" ++ Text.quoted refusal ++ "). Result: False")
    return false

/-- Whether a value is a class that is another class or derives from it. -/
def isSubclass (v : Value) (c : Class) : Act Bool := do
  match v with
  | .cls b =>
    if (← ancestors b).contains c then return true
    match b.isSubclass c with
    | .ok answer => return answer
    | .error _ => return false
  | _ => return false

end Conform.Nominal
