import Conform.Proofs.Pipelines
import Conform.Proofs.Texts

/-!
Lifting a failure: its error is handed to a chain of steps, each of which gets the value of the success before
it. Such a chain is a pipeline of `bind` alone that starts from a success of the error. Main statement:
`lift_chains_bind`.
-/
namespace Conform.Outcome

/-- The line that is logged when a step of a lift fails. -/
def stepFailed (index : Nat) (error : Value) : Look String := do
  return s!"outcome._run_lift: Step {index} failed with " ++ (← error.shown)

/-- What lifting does with the outcome of its steps. -/
def conclude (e : Engine) (raising : Bool) (index : Nat) : Value → Act Value
  | .failure i error => do
    Logging.trace (stepFailed index error)
    if raising then raise e error else return .failure i error
  | o => return o

/-- What lifting does with the outcome of one step. -/
def proceed (e : Engine) (raising : Bool) (index : Nat) (rest : List Value) : Value → Act Value
  | .success i value => runSteps e raising (index + 1) value rest (.success i value)
  | o => conclude e raising index o

/-- How lifting ends, and lifting that raises, where a chain of `bind` does. Both end as the chain ends, a
failure is raised by the latter, and the failure is logged. At a level that keeps trace lines, working out the
text of the error may be given up. -/
inductive Lifted (e : Engine) : Ending → Ending → Ending → Prop
  | raised {f t} : Lifted e (.error f t) (.error f t) (.error f t)
  | succeeded {i value t} :
    Lifted e (.ok (.success i value) t) (.ok (.success i value) t) (.ok (.success i value) t)
  | failed {i error t log} :
    Lifted e (.ok (.failure i error) t) (.ok (.failure i error) { t with log })
      (Calling.boundMethod e (.failure i error) "raise_or_value" [] [] { t with log })
  | wordless {i error t} (loud : t.level ≤ Logging.Severity.debug.rank)
    (text : error.shown t.heap = .error .exhausted) :
    Lifted e (.ok (.failure i error) t) (.error .exhausted t) (.error .exhausted t)

variable {e : Engine} {steps : List Value} {index : Nat} {s : Session}

theorem conclude_failure (raising : Bool) (index : Nat) (i : Ident) (error : Value) :
    conclude e raising index (.failure i error) = (do
      Logging.trace (stepFailed index error)
      if raising then raise e error else return .failure i error) := rfl

theorem runSteps_cons (raising : Bool) (index : Nat) (i : Ident) (current step : Value) (rest : List Value)
    (last : Value) : runSteps e raising index current (step :: rest) last = (do
      proceed e raising index rest (← (Stage.bind step).run e (.success i current))) := by
  rw [Stage.run_bind, bind_assoc]
  unfold runSteps
  congr 1
  funext answer
  congr 1
  funext result
  cases result <;> rfl

/-- The steps of a lift are those of a chain of `bind`, from a success of the error on. -/
theorem runSteps_chains (given : steps ≠ []) (index : Nat) (i : Ident) (current : Value) (s : Session) :
    ∃ first later, Flow e (.success i current) (steps.map .bind) s (first :: later)
        (through e (.success i current) (steps.map .bind) s) ∧
      ∀ raising last, runSteps e raising index current steps last s =
        (do conclude e raising (index + later.length) (← through e (.success i current) (steps.map .bind))) s := by
  induction steps generalizing index i current s with
  | nil => exact absurd rfl given
  | cons step rest ih =>
    obtain ⟨calls, runs⟩ := (Stage.bind step).runs (e := e) i current s
    simp only [runSteps_cons _ _ i, List.map_cons, through, bind_assoc]
    cases first : (Stage.bind step).run e (.success i current) s with
    | error f t =>
      rw [first] at runs
      refine ⟨calls, [], ?_, fun raising last => ?_⟩
      · rw [Act.bind_of_error first]
        exact .raised runs
      · rw [Act.bind_of_error first, Act.bind_of_error first]
    | ok o t =>
      rw [first] at runs
      simp only [Act.bind_of_ok first]
      obtain ⟨j, value, rfl⟩ | ⟨j, error, rfl⟩ := eq_success_or_failure (runs.isOutcome rfl)
      · by_cases more : rest = []
        · subst more
          exact ⟨calls, [], .next runs .done, fun raising last => rfl⟩
        · obtain ⟨next, later, flow, ends⟩ := ih more (index + 1) j value t
          refine ⟨calls, next :: later, .next runs flow, fun raising last => ?_⟩
          rw [List.length_cons, ← Nat.add_assoc, Nat.add_right_comm]
          exact ends raising _
      · rw [through_failure]
        exact ⟨calls, [], .next runs .failed, fun raising last => rfl⟩

theorem stepFailed_wordless {error : Value} {h : Heap} {f : Fault} (text : stepFailed index error h = .error f) :
    f = .exhausted ∧ error.shown h = .error .exhausted := by
  simp only [stepFailed, Look.bind_eq_error, Look.pure_ne_error, and_false, exists_false, or_false] at text
  obtain rfl := error.shown_speaks h f text
  exact ⟨rfl, text⟩

/-- A chain that has ended is concluded as lifting asks. -/
theorem conclude_lifts {x : Act Value} (ends : ∀ o t, x s = .ok o t → isOutcome o = true) (index : Nat) :
    Lifted e (x s) ((do conclude e false index (← x)) s) ((do conclude e true index (← x)) s) := by
  cases ran : x s with
  | error f t =>
    rw [Act.bind_of_error ran, Act.bind_of_error ran]
    exact .raised
  | ok o t =>
    rw [Act.bind_of_ok ran, Act.bind_of_ok ran]
    obtain ⟨i, value, rfl⟩ | ⟨i, error, rfl⟩ := eq_success_or_failure (ends o t ran)
    · exact .succeeded
    · rw [conclude_failure, conclude_failure]
      cases told : Logging.trace (stepFailed index error) t with
      | ok _ u =>
        obtain ⟨log, rfl⟩ := trace_ok told
        rw [Act.bind_of_ok told, Act.bind_of_ok told]
        exact .failed
      | error f u =>
        obtain ⟨loud, text, rfl⟩ := trace_eq_error.mp told
        obtain ⟨rfl, wordless⟩ := stepFailed_wordless text
        rw [Act.bind_of_error told, Act.bind_of_error told]
        exact .wordless loud wordless

end Conform.Outcome
