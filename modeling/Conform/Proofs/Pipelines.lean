import Mathlib.Data.List.Forall2
import Conform.Proofs.Likeness

/-!
Pipelines of outcomes. A stage of a pipeline is a call of `map`, `bind` or `filter`; a pipeline runs an
outcome through its stages. `Flow` describes such a run together with the calls that it makes.

A pipeline can be cut in two and each part wrapped in a function that is bound, without a difference but in
which object the success is that comes out: `pipelines_regroup`.
-/
namespace Conform.Outcome

/-- One stage of a pipeline: the method that is called on an outcome, and what it is given. -/
inductive Stage where
  | map (fn : Value)
  | bind (fn : Value)
  | filter (predicate onReject : Value)

namespace Stage

/-- The function that a stage always calls on a success. -/
def main : Stage → Value
  | .map fn | .bind fn => fn
  | .filter predicate _ => predicate

/-- Calls the method of a stage. -/
def run (e : Engine) (o : Value) : Stage → Act Value
  | .map fn => Calling.boundMethod e o "map" [fn] []
  | .bind fn => Calling.boundMethod e o "bind" [fn] []
  | .filter predicate onReject => Calling.boundMethod e o "filter" [predicate, onReject] []

end Stage

/-- Runs an outcome through a pipeline. -/
def through (e : Engine) (o : Value) : List Stage → Act Value
  | [] => return o
  | stage :: rest => do through e (← stage.run e o) rest

/-- A new failure with an error that is worked out first. -/
def failing (error : Act Value) : Act Value := do
  let error ← error
  return .failure (← Act.fresh) error

/-- The error for a value that a filter rejects. -/
def rejection (e : Engine) (value onReject : Value) : Act Value :=
  match onReject with
  | .nil => payloadError value
  | _ => e.call onReject [value] []

/-- How a call with one argument ends, and where. -/
abbrev Ending := EStateM.Result Fault Session Value

section Flow

variable (e : Engine)

/-- How a stage goes on a success that holds a value, with the calls it makes: each is a function with its
argument, and each starts in the session where the one before it ended. -/
inductive Stage.Runs (self value : Value) : Stage → Session → List (Value × Value) → Ending → Prop
  | raised {stage s f t} (call : e.call stage.main [value] [] s = .error f t) :
    Runs self value stage s [(stage.main, value)] (.error f t)
  | mapped {fn s w t} (call : e.call fn [value] [] s = .ok w t) :
    Runs self value (.map fn) s [(fn, value)]
      (.ok (.success t.nextIdent w) { t with nextIdent := t.nextIdent + 1 })
  | bound {fn s o t} (call : e.call fn [value] [] s = .ok o t) (outcome : isOutcome o = true) :
    Runs self value (.bind fn) s [(fn, value)] (.ok o t)
  | refused {fn s w t f u} (call : e.call fn [value] [] s = .ok w t) (other : isOutcome w = false)
    (refusal : ensure w fn t = .error f u) : Runs self value (.bind fn) s [(fn, value)] (.error f u)
  | unclear {predicate onReject s w t f} (call : e.call predicate [value] [] s = .ok w t)
    (truth : w.truth t.heap = .error f) :
    Runs self value (.filter predicate onReject) s [(predicate, value)] (.error f t)
  | kept {predicate onReject s w t} (call : e.call predicate [value] [] s = .ok w t)
    (truth : w.truth t.heap = .ok true) :
    Runs self value (.filter predicate onReject) s [(predicate, value)] (.ok self t)
  | dropped {predicate s w t} (call : e.call predicate [value] [] s = .ok w t)
    (truth : w.truth t.heap = .ok false) :
    Runs self value (.filter predicate .nil) s [(predicate, value)] (failing (payloadError value) t)
  | rejected {predicate onReject s w t} (call : e.call predicate [value] [] s = .ok w t)
    (truth : w.truth t.heap = .ok false) (given : onReject ≠ .nil) :
    Runs self value (.filter predicate onReject) s [(predicate, value), (onReject, value)]
      (failing (e.call onReject [value] []) t)

/-- How a pipeline goes, with the calls of each stage that comes to run. A failure ends it: no later stage
calls anything, and the failure itself comes out. -/
inductive Flow : Value → List Stage → Session → List (List (Value × Value)) → Ending → Prop
  | done {o s} : Flow o [] s [] (.ok o s)
  | failed {i error stages s} : Flow (.failure i error) stages s [] (.ok (.failure i error) s)
  | raised {i value stage rest s calls f t} (run : stage.Runs e (.success i value) value s calls (.error f t)) :
    Flow (.success i value) (stage :: rest) s [calls] (.error f t)
  | next {i value stage rest s calls o t later r} (run : stage.Runs e (.success i value) value s calls (.ok o t))
    (flow : Flow o rest t later r) : Flow (.success i value) (stage :: rest) s (calls :: later) r

end Flow

/-- The calls of a stage are one of its function, followed by one of what a filter has for rejected values at
most. -/
inductive Stage.Calls : Stage → List (Value × Value) → Prop
  | main {stage value} : Calls stage [(stage.main, value)]
  | rejecting {predicate onReject value} :
    Calls (.filter predicate onReject) [(predicate, value), (onReject, value)]

/-- The same outcome but for which object a success is. -/
inductive Same : Value → Value → Prop
  | success {i j value} : Same (.success i value) (.success j value)
  | failure {i error} : Same (.failure i error) (.failure i error)

/-- The same outcome or the same exception, in the same session. -/
inductive Agree : Ending → Ending → Prop
  | ok {o o' t} (same : Same o o') : Agree (.ok o t) (.ok o' t)
  | error {f t} : Agree (.error f t) (.error f t)

/-- A function that runs what it is given through a pipeline, from a success of its own. -/
def Wraps (e : Engine) (fn : Value) (stages : List Stage) : Prop :=
  ∀ value s, ∃ i, e.call fn [value] [] s = through e (.success i value) stages s

/-- A function that binds the second of two functions to what the first one answers. -/
def Joins (e : Engine) (fn first second : Value) : Prop :=
  ∀ value s, e.call fn [value] [] s = (do (Stage.bind second).run e (← e.call first [value] [])) s

variable {e : Engine} {o o' : Value} {i j : Ident} {value error : Value} {stage : Stage} {stages : List Stage}
  {s t : Session} {r r' : Ending}

theorem eq_success_or_failure (ho : isOutcome o = true) :
    (∃ i value, o = .success i value) ∨ ∃ i error, o = .failure i error := by
  unfold isOutcome at ho
  split at ho
  · exact .inl ⟨_, _, rfl⟩
  · exact .inr ⟨_, _, rfl⟩
  · cases ho

theorem ensure_outcome (ho : isOutcome o = true) {step : Value} : ensure o step = pure o := by
  simp [ensure, ho]

theorem ensure_other (ho : isOutcome o = false) (step : Value) (s : Session) :
    ∃ f, ensure o step s = .error f s := by
  unfold ensure
  simp only [ho]
  cases name : Descriptor.functionName step s.heap with
  | error f => exact ⟨f, Act.bind_of_error (Act.lift_eq_error.mpr ⟨name, rfl⟩)⟩
  | ok text => exact ⟨_, Act.bind_of_ok (Act.lift_eq_ok.mpr ⟨name, rfl⟩)⟩

theorem rejection_given {onReject : Value} (given : onReject ≠ .nil) :
    rejection e value onReject = e.call onReject [value] [] := by
  unfold rejection
  split
  · exact absurd rfl given
  · rfl

namespace Stage

theorem run_failure (stage : Stage) : stage.run e (.failure i error) = pure (.failure i error) := by
  cases stage <;> rfl

theorem run_map (fn : Value) : (Stage.map fn).run e (.success i value) = (do
    let mapped ← e.call fn [value] []
    return .success (← Act.fresh) mapped) := rfl

theorem run_bind (fn : Value) : (Stage.bind fn).run e (.success i value) = (do
    ensure (← e.call fn [value] []) fn) := rfl

theorem run_filter (predicate onReject : Value) :
    (Stage.filter predicate onReject).run e (.success i value) = (do
      let verdict ← e.call predicate [value] []
      if ← verdict.truth then return .success i value else failing (rejection e value onReject)) := by
  cases onReject <;> rfl

theorem runs_map (fn : Value) (i : Ident) (value : Value) (s : Session) :
    ∃ calls, (Stage.map fn).Runs e (.success i value) value s calls ((Stage.map fn).run e (.success i value) s) := by
  rw [run_map]
  cases called : e.call fn [value] [] s with
  | error f t =>
    rw [Act.bind_of_error called]
    exact ⟨_, .raised called⟩
  | ok w t =>
    rw [Act.bind_of_ok called]
    exact ⟨_, .mapped called⟩

theorem runs_bind (fn : Value) (i : Ident) (value : Value) (s : Session) :
    ∃ calls, (Stage.bind fn).Runs e (.success i value) value s calls ((Stage.bind fn).run e (.success i value) s) := by
  rw [run_bind]
  cases called : e.call fn [value] [] s with
  | error f t =>
    rw [Act.bind_of_error called]
    exact ⟨_, .raised called⟩
  | ok w t =>
    rw [Act.bind_of_ok called]
    cases kind : isOutcome w with
    | true =>
      rw [ensure_outcome kind]
      exact ⟨_, .bound called kind⟩
    | false =>
      obtain ⟨f, refusal⟩ := ensure_other kind fn t
      rw [refusal]
      exact ⟨_, .refused called kind refusal⟩

theorem runs_filter (predicate onReject : Value) (i : Ident) (value : Value) (s : Session) :
    ∃ calls, (Stage.filter predicate onReject).Runs e (.success i value) value s calls
      ((Stage.filter predicate onReject).run e (.success i value) s) := by
  rw [run_filter]
  cases called : e.call predicate [value] [] s with
  | error f t =>
    rw [Act.bind_of_error called]
    exact ⟨_, .raised called⟩
  | ok w t =>
    rw [Act.bind_of_ok called]
    cases truth : w.truth t.heap with
    | error f =>
      rw [Act.bind_of_error (Act.lift_eq_error.mpr ⟨truth, rfl⟩)]
      exact ⟨_, .unclear called truth⟩
    | ok b =>
      rw [Act.bind_of_ok (Act.lift_eq_ok.mpr ⟨truth, rfl⟩)]
      cases b with
      | true => exact ⟨_, .kept called truth⟩
      | false =>
        by_cases given : onReject = .nil
        · subst given
          exact ⟨_, .dropped called truth⟩
        · rw [rejection_given given]
          exact ⟨_, .rejected called truth given⟩

/-- Every stage goes in one of the ways listed. -/
theorem runs (stage : Stage) (i : Ident) (value : Value) (s : Session) :
    ∃ calls, stage.Runs e (.success i value) value s calls (stage.run e (.success i value) s) := by
  cases stage with
  | map fn => exact runs_map fn i value s
  | bind fn => exact runs_bind fn i value s
  | filter predicate onReject => exact runs_filter predicate onReject i value s

/-- A stage answers an outcome or raises. -/
theorem Runs.isOutcome {calls : List (Value × Value)} {self : Value} (hs : Outcome.isOutcome self = true)
    (runs : stage.Runs e self value s calls (.ok o t)) : Outcome.isOutcome o = true := by
  have failed {x : Act Value} {u : Session} (run : failing x u = .ok o t) : Outcome.isOutcome o = true := by
    simp only [failing, Act.bind_eq_ok, Act.pure_eq_ok] at run
    obtain ⟨w, _, -, _, _, -, rfl, -⟩ := run
    rfl
  generalize ended : (EStateM.Result.ok o t : Ending) = r at runs
  cases runs with
  | raised | refused | unclear => cases ended
  | mapped =>
    cases ended
    rfl
  | bound _ outcome =>
    cases ended
    exact outcome
  | kept =>
    cases ended
    exact hs
  | dropped => exact failed ended.symm
  | rejected => exact failed ended.symm

/-- The description is exact: a stage that is said to go in a way does. -/
theorem Runs.eq_run {calls : List (Value × Value)} (runs : stage.Runs e (.success i value) value s calls r) :
    stage.run e (.success i value) s = r := by
  cases runs with
  | raised call =>
    cases stage with
    | map fn => exact (congrFun (run_map fn) s).trans (Act.bind_of_error call)
    | bind fn => exact (congrFun (run_bind fn) s).trans (Act.bind_of_error call)
    | filter predicate onReject => exact (congrFun (run_filter predicate onReject) s).trans (Act.bind_of_error call)
  | mapped call =>
    rw [run_map, Act.bind_of_ok call]
    rfl
  | bound call outcome => rw [run_bind, Act.bind_of_ok call, ensure_outcome outcome]; rfl
  | refused call _ refusal => rw [run_bind, Act.bind_of_ok call, refusal]
  | unclear call truth =>
    rw [run_filter, Act.bind_of_ok call, Act.bind_of_error (Act.lift_eq_error.mpr ⟨truth, rfl⟩)]
  | kept call truth =>
    rw [run_filter, Act.bind_of_ok call, Act.bind_of_ok (Act.lift_eq_ok.mpr ⟨truth, rfl⟩)]
    rfl
  | dropped call truth =>
    rw [run_filter, Act.bind_of_ok call, Act.bind_of_ok (Act.lift_eq_ok.mpr ⟨truth, rfl⟩)]
    rfl
  | rejected call truth given =>
    rw [run_filter, Act.bind_of_ok call, Act.bind_of_ok (Act.lift_eq_ok.mpr ⟨truth, rfl⟩), rejection_given given]
    rfl

theorem Runs.calls {calls : List (Value × Value)} {self : Value} (runs : stage.Runs e self value s calls r) :
    stage.Calls calls := by
  cases runs with
  | rejected => exact .rejecting
  | _ => exact .main

end Stage

theorem through_failure : through e (.failure i error) stages = pure (.failure i error) := by
  induction stages with
  | nil => rfl
  | cons stage rest ih =>
    unfold through
    rw [stage.run_failure, pure_bind, ih]

theorem through_append (p q : List Stage) :
    through e o (p ++ q) = (do through e (← through e o p) q) := by
  induction p generalizing o with
  | nil => rfl
  | cons stage rest ih =>
    simp only [List.cons_append, through, ih, bind_assoc]

/-- A pipeline answers an outcome or raises. -/
theorem isOutcome_of_through (ho : isOutcome o = true) (run : through e o stages s = .ok o' t) :
    isOutcome o' = true := by
  induction stages generalizing o s with
  | nil =>
    obtain ⟨rfl, -⟩ := Act.pure_eq_ok.mp run
    exact ho
  | cons stage rest ih =>
    obtain ⟨next, u, first, later⟩ := Act.bind_eq_ok.mp run
    refine ih ?_ later
    obtain ⟨i, value, rfl⟩ | ⟨i, error, rfl⟩ := eq_success_or_failure ho
    · obtain ⟨calls, runs⟩ := stage.runs (e := e) i value s
      rw [first] at runs
      exact runs.isOutcome rfl
    · rw [stage.run_failure] at first
      obtain ⟨rfl, -⟩ := Act.pure_eq_ok.mp first
      rfl

/-- Every run of a pipeline is described. -/
theorem flows (ho : isOutcome o = true) (stages : List Stage) (s : Session) :
    ∃ calls, Flow e o stages s calls (through e o stages s) := by
  induction stages generalizing o s with
  | nil => exact ⟨[], .done⟩
  | cons stage rest ih =>
    obtain ⟨i, value, rfl⟩ | ⟨i, error, rfl⟩ := eq_success_or_failure ho
    · obtain ⟨calls, runs⟩ := stage.runs (e := e) i value s
      unfold through
      cases first : stage.run e (.success i value) s with
      | error f t =>
        rw [first] at runs
        rw [Act.bind_of_error first]
        exact ⟨[calls], .raised runs⟩
      | ok next t =>
        rw [first] at runs
        rw [Act.bind_of_ok first]
        obtain ⟨later, flow⟩ := ih (runs.isOutcome rfl) t
        exact ⟨calls :: later, .next runs flow⟩
    · rw [through_failure]
      exact ⟨[], .failed⟩

/-- The description is exact: a pipeline that is said to go in a way does. -/
theorem Flow.eq_through {calls : List (List (Value × Value))} (flow : Flow e o stages s calls r) :
    through e o stages s = r := by
  induction flow with
  | done => rfl
  | failed =>
    rw [through_failure]
    rfl
  | raised run => exact Act.bind_of_error run.eq_run
  | next run _ ih => exact (Act.bind_of_ok run.eq_run).trans ih

/-- A pipeline that raises goes no further. -/
theorem Flow.append_raised {p : List Stage} {calls : List (List (Value × Value))} {f : Fault}
    (flow : Flow e o p s calls (.error f t)) (q : List Stage) : Flow e o (p ++ q) s calls (.error f t) := by
  generalize ended : (EStateM.Result.error f t : Ending) = r at flow
  induction flow with
  | done | failed => cases ended
  | raised run =>
    cases ended
    exact .raised run
  | next run _ ih => exact .next run (ih ended)

/-- A pipeline goes on with what comes out of a part of it. -/
theorem Flow.append {p q : List Stage} {front back : List (List (Value × Value))}
    (flow : Flow e o p s front (.ok o' t)) (rest : Flow e o' q t back r) :
    Flow e o (p ++ q) s (front ++ back) r := by
  generalize ended : (EStateM.Result.ok o' t : Ending) = r' at flow
  induction flow with
  | done =>
    cases ended
    exact rest
  | failed =>
    cases ended
    cases rest <;> exact .failed
  | raised => cases ended
  | next run _ ih => exact .next run (ih ended)

/-- The stages that come to run are the first ones, and each of them makes its calls once. -/
theorem Flow.calls {calls : List (List (Value × Value))} (flow : Flow e o stages s calls r) :
    ∃ ran later, stages = ran ++ later ∧ List.Forall₂ Stage.Calls ran calls := by
  induction flow with
  | done => exact ⟨[], [], rfl, .nil⟩
  | @failed _ _ stages => exact ⟨[], stages, rfl, .nil⟩
  | @raised _ _ stage rest _ _ _ _ run => exact ⟨[stage], rest, rfl, .cons run.calls .nil⟩
  | @next _ _ stage _ _ _ _ _ _ _ run _ ih =>
    obtain ⟨ran, later, rfl, all⟩ := ih
    exact ⟨stage :: ran, later, rfl, .cons run.calls all⟩

theorem Same.refl (ho : isOutcome o = true) : Same o o := by
  obtain ⟨i, value, rfl⟩ | ⟨i, error, rfl⟩ := eq_success_or_failure ho
  · exact .success
  · exact .failure

theorem Agree.bind {x y : Act Value} {f g : Value → Act Value} (first : Agree (x s) (y s))
    (rest : ∀ o o' t, Same o o' → Agree (f o t) (g o' t)) : Agree ((x >>= f) s) ((y >>= g) s) := by
  generalize hx : x s = rx at first
  generalize hy : y s = ry at first
  cases first with
  | ok same =>
    rw [Act.bind_of_ok hx, Act.bind_of_ok hy]
    exact rest _ _ _ same
  | error =>
    rw [Act.bind_of_error hx, Act.bind_of_error hy]
    exact .error

/-- Which success a stage starts from shows at most in which success comes out. -/
theorem Stage.Runs.same {calls : List (Value × Value)} {self : Value} (runs : stage.Runs e self value s calls r)
    (self' : Value) : ∃ r', stage.Runs e self' value s calls r' ∧
      (r' = r ∨ ∃ t, r = .ok self t ∧ r' = .ok self' t) := by
  cases runs with
  | raised call => exact ⟨_, .raised call, .inl rfl⟩
  | mapped call => exact ⟨_, .mapped call, .inl rfl⟩
  | bound call outcome => exact ⟨_, .bound call outcome, .inl rfl⟩
  | refused call other refusal => exact ⟨_, .refused call other refusal, .inl rfl⟩
  | unclear call truth => exact ⟨_, .unclear call truth, .inl rfl⟩
  | kept call truth => exact ⟨_, .kept call truth, .inr ⟨_, rfl, rfl⟩⟩
  | dropped call truth => exact ⟨_, .dropped call truth, .inl rfl⟩
  | rejected call truth given => exact ⟨_, .rejected call truth given, .inl rfl⟩

theorem Flow.same {calls : List (List (Value × Value))} (flow : Flow e o stages s calls r) (same : Same o o') :
    ∃ r', Flow e o' stages s calls r' ∧ Agree r r' := by
  induction flow generalizing o' with
  | done => exact ⟨_, .done, .ok same⟩
  | failed =>
    cases same
    exact ⟨_, .failed, .ok .failure⟩
  | raised run =>
    cases same with
    | @success _ j =>
      obtain ⟨r', run', rfl | ⟨_, raised, -⟩⟩ := run.same (.success j _)
      · exact ⟨_, .raised run', .error⟩
      · cases raised
  | @next i value stage rest s calls o t later r run flow ih =>
    cases same with
    | @success _ j =>
      obtain ⟨r', run', rfl | ⟨_, kept, rfl⟩⟩ := run.same (.success j _)
      · obtain ⟨r'', flow', agree⟩ := ih (.refl (run.isOutcome rfl))
        exact ⟨r'', .next run' flow', agree⟩
      · cases kept
        have same : Same (.success i value) (.success j value) := .success
        obtain ⟨r'', flow', agree⟩ := ih same
        exact ⟨r'', .next run' flow', agree⟩

theorem through_same (same : Same o o') (stages : List Stage) (s : Session) :
    Agree (through e o stages s) (through e o' stages s) := by
  have ho : isOutcome o = true := by cases same <;> rfl
  obtain ⟨calls, flow⟩ := flows (e := e) ho stages s
  obtain ⟨r', flow', agree⟩ := flow.same same
  rw [flow'.eq_through]
  exact agree

/-- What agrees with an outcome passes for one. -/
theorem Agree.ensured {x : Act Value} (agree : Agree r (x s)) (step : Value) :
    Agree r ((do ensure (← x) step) s) := by
  generalize ran : x s = r' at agree
  cases agree with
  | @ok _ o' _ same =>
    have ho : isOutcome o' = true := by cases same <;> rfl
    rw [Act.bind_of_ok ran, ensure_outcome ho]
    exact .ok same
  | error =>
    rw [Act.bind_of_error ran]
    exact .error

namespace Wraps

variable {fn first second : Value} {p q : List Stage}

variable (wraps : Wraps e first p)
include wraps

theorem call (i : Ident) (value : Value) (s : Session) :
    Agree (through e (.success i value) p s) (e.call first [value] [] s) := by
  obtain ⟨k, called⟩ := wraps value s
  rw [called]
  exact through_same .success p s

/-- Binding a wrapped pipeline is running through it. -/
theorem bind (same : Same o o') (s : Session) : Agree (through e o p s) ((Stage.bind first).run e o' s) := by
  cases same with
  | failure =>
    rw [through_failure, Stage.run_failure]
    exact .ok .failure
  | success =>
    rw [Stage.run_bind]
    exact (wraps.call _ _ s).ensured first

theorem bind_bind (wraps' : Wraps e second q) (ho : isOutcome o = true) (s : Session) :
    Agree (through e o (p ++ q) s) (through e o [.bind first, .bind second] s) := by
  have chain : through e o [.bind first, .bind second] =
      (do (Stage.bind second).run e (← (Stage.bind first).run e o)) := by
    simp only [through, bind_pure]
  rw [through_append, chain]
  exact .bind (wraps.bind (.refl ho) s) fun _ _ t same => wraps'.bind same t

theorem bind_join (wraps' : Wraps e second q) (joins : Joins e fn first second) (ho : isOutcome o = true)
    (s : Session) : Agree (through e o (p ++ q) s) (through e o [.bind fn] s) := by
  obtain ⟨i, value, rfl⟩ | ⟨i, error, rfl⟩ := eq_success_or_failure ho
  · have single : through e (.success i value) [.bind fn] = (do ensure (← e.call fn [value] []) fn) := by
      simp only [through, bind_pure, Stage.run_bind]
    rw [through_append, single]
    apply Agree.ensured
    rw [joins value s]
    exact .bind (wraps.call i value s) fun _ _ t same => wraps'.bind same t
  · rw [through_failure, through_failure]
    exact .ok .failure

/-- The calls inside a wrapped pipeline are those of the pipeline. -/
theorem flow {calls : List (List (Value × Value))} (flow : Flow e (.success i value) p s calls r) :
    ∃ k, Flow e (.success k value) p s calls (e.call first [value] [] s) := by
  obtain ⟨k, called⟩ := wraps value s
  have same : Same (.success i value) (.success k value) := .success
  obtain ⟨r', flow', -⟩ := flow.same same
  rw [called, flow'.eq_through]
  exact ⟨k, flow'⟩

/-- A pipeline in two parts makes the calls of the first, and those of the second if a success comes out of
the first. -/
theorem flows (wraps' : Wraps e second q) (i : Ident) (value : Value) (s : Session) :
    ∃ front back, Flow e (.success i value) (p ++ q) s (front ++ back) (through e (.success i value) (p ++ q) s) ∧
      (∃ k, Flow e (.success k value) p s front (e.call first [value] [] s)) ∧
      ∀ j value' t, e.call first [value] [] s = .ok (.success j value') t →
        ∃ k, Flow e (.success k value') q t back (e.call second [value'] [] t) := by
  obtain ⟨front, flow⟩ := Outcome.flows (e := e) (o := .success i value) rfl p s
  have agree := wraps.call i value s
  have inside := wraps.flow flow
  rw [through_append]
  cases ran : through e (.success i value) p s with
  | error f t =>
    rw [ran] at flow agree
    refine ⟨front, [], ?_, inside, ?_⟩
    · rw [List.append_nil, Act.bind_of_error ran]
      exact flow.append_raised q
    · intro j value' t called
      rw [called] at agree
      cases agree
  | ok o t =>
    rw [ran] at flow agree
    obtain ⟨back, flow'⟩ := Outcome.flows (e := e) (isOutcome_of_through rfl ran) q t
    refine ⟨front, back, ?_, inside, ?_⟩
    · rw [Act.bind_of_ok ran]
      exact flow.append flow'
    · intro j value' t' called
      rw [called] at agree
      cases agree with
      | ok same =>
        cases same
        exact wraps'.flow flow'

end Wraps

/-- A pipeline short-circuits and regroups. From a failure it calls nothing and that failure comes out. From a
success its stages run in order, each once, up to the first that fails or raises. A pipeline in two parts goes as
its parts do when they are bound one after the other, or together: the same outcome comes out, or the same
exception, in the same session, after the same calls. -/
theorem pipelines_regroup (e : Engine) {o : Value} (ho : isOutcome o = true) (s : Session) :
    (∀ i error stages, o = .failure i error →
      through e o stages s = .ok o s ∧ Flow e o stages s [] (.ok o s)) ∧
    (∀ stages, ∃ calls, Flow e o stages s calls (through e o stages s) ∧
      ∃ ran later, stages = ran ++ later ∧ List.Forall₂ Stage.Calls ran calls) ∧
    ∀ p q first second joint, Wraps e first p → Wraps e second q → Joins e joint first second →
      Agree (through e o (p ++ q) s) (through e o [.bind first, .bind second] s) ∧
      Agree (through e o (p ++ q) s) (through e o [.bind joint] s) ∧
      ∀ i value, o = .success i value →
        ∃ front back, Flow e o (p ++ q) s (front ++ back) (through e o (p ++ q) s) ∧
          (∃ k, Flow e (.success k value) p s front (e.call first [value] [] s)) ∧
          ∀ j value' t, e.call first [value] [] s = .ok (.success j value') t →
            ∃ k, Flow e (.success k value') q t back (e.call second [value'] [] t) := by
  refine ⟨?_, ?_, ?_⟩
  · rintro i error stages rfl
    rw [through_failure]
    exact ⟨rfl, .failed⟩
  · intro stages
    obtain ⟨calls, flow⟩ := flows (e := e) ho stages s
    exact ⟨calls, flow, flow.calls⟩
  · intro p q first second joint wraps wraps' joins
    refine ⟨wraps.bind_bind wraps' ho s, wraps.bind_join wraps' joins ho s, ?_⟩
    rintro i value rfl
    exact wraps.flows wraps' i value s

section Flags

/-- A function of flags; the calls of the traced ones are recorded. -/
def flagFunction (name : String) (traced : Bool) : Value := .fn ⟨name, traced, false⟩

/-- A flag is turned around … -/
def turning : List Stage := [.map (flagFunction "turn" true)]

/-- … and then kept if it is set. -/
def sieving : List Stage := [.filter (flagFunction "same" true) (flagFunction "refuse" true)]

/-- The functions of the two pipelines, and the pipelines as functions. -/
def flagStages : Library := fun e name args _ =>
  let given := args.headD .nil
  match name with
  | "turn" => return .bool (given matches .bool false)
  | "same" => return given
  | "refuse" => return .nil
  | "turning" => through e (.success 0 given) turning
  | "sieving" => through e (.success 0 given) sieving
  | _ => do (Stage.bind (flagFunction "sieving" false)).run e (← e.call (flagFunction "turning" false) [given] [])

/-- The plain functions go the same way at every depth. -/
theorem flag_call {name : String} (plain : name ∈ ["turn", "same", "refuse"]) (n : Nat) (v : Value) :
    (Engine.ofDepth flagStages (n + 2)).call (flagFunction name true) [v] [] =
      (Engine.ofDepth flagStages (n + 1)).call (flagFunction name true) [v] [] := by
  simp only [List.mem_cons, List.not_mem_nil, or_false] at plain
  obtain rfl | rfl | rfl := plain <;> rfl

theorem turning_call (n : Nat) (v : Value) :
    (Engine.ofDepth flagStages (n + 2)).call (flagFunction "turning" false) [v] [] =
      through (Engine.ofDepth flagStages (n + 2)) (.success 0 v) turning := by
  change through (Engine.ofDepth flagStages (n + 1)) (.success 0 v) turning = _
  simp only [turning, through, Stage.run_map, flag_call, List.mem_cons, true_or]

theorem sieving_call (n : Nat) (v : Value) :
    (Engine.ofDepth flagStages (n + 2)).call (flagFunction "sieving" false) [v] [] =
      through (Engine.ofDepth flagStages (n + 2)) (.success 0 v) sieving := by
  change through (Engine.ofDepth flagStages (n + 1)) (.success 0 v) sieving = _
  simp only [sieving, through, Stage.run_filter, flag_call, List.mem_cons, true_or, or_true, rejection]

/-- So do the pipelines as functions. -/
theorem turning_deeper (n : Nat) (v : Value) :
    (Engine.ofDepth flagStages (n + 3)).call (flagFunction "turning" false) [v] [] =
      (Engine.ofDepth flagStages (n + 2)).call (flagFunction "turning" false) [v] [] := by
  simp only [turning_call, turning, through, Stage.run_map, flag_call, List.mem_cons, true_or]

theorem sieving_deeper (n : Nat) (v : Value) :
    (Engine.ofDepth flagStages (n + 3)).call (flagFunction "sieving" false) [v] [] =
      (Engine.ofDepth flagStages (n + 2)).call (flagFunction "sieving" false) [v] [] := by
  simp only [sieving_call, sieving, through, Stage.run_filter, flag_call, List.mem_cons, true_or, or_true, rejection]

theorem both_joins (n : Nat) : Joins (Engine.ofDepth flagStages (n + 3)) (flagFunction "both" false)
    (flagFunction "turning" false) (flagFunction "sieving" false) := by
  intro v s
  cases ran : (Engine.ofDepth flagStages (n + 3)).call (flagFunction "turning" false) [v] [] s with
  | error f t => cases ran
  | ok o t =>
    obtain ⟨i, w, rfl⟩ : ∃ i w, o = .success i w := by
      cases ran
      exact ⟨_, _, rfl⟩
    have ran' := turning_deeper n v ▸ ran
    calc (Engine.ofDepth flagStages (n + 3)).call (flagFunction "both" false) [v] [] s
      _ = (Stage.bind (flagFunction "sieving" false)).run (Engine.ofDepth flagStages (n + 2)) (.success i w) t :=
        Act.bind_of_ok ran'
      _ = (Stage.bind (flagFunction "sieving" false)).run (Engine.ofDepth flagStages (n + 3)) (.success i w) t := by
        rw [Stage.run_bind, Stage.run_bind, sieving_deeper]
      _ = _ := by rw [Act.bind_of_ok ran]

/-- The flag is turned and then refused, on each of the three ways. -/
theorem flags_regroup :
    Agree (through (Engine.ofDepth flagStages 3) (.success 7 (.bool true)) (turning ++ sieving) {})
      (through (Engine.ofDepth flagStages 3) (.success 7 (.bool true))
        [.bind (flagFunction "turning" false), .bind (flagFunction "sieving" false)] {}) ∧
    Agree (through (Engine.ofDepth flagStages 3) (.success 7 (.bool true)) (turning ++ sieving) {})
      (through (Engine.ofDepth flagStages 3) (.success 7 (.bool true)) [.bind (flagFunction "both" false)] {}) ∧
    ∃ ran later calls, turning ++ sieving = ran ++ later ∧ List.Forall₂ Stage.Calls ran calls ∧
      Flow (Engine.ofDepth flagStages 3) (.success 7 (.bool true)) (turning ++ sieving) {} calls
        (through (Engine.ofDepth flagStages 3) (.success 7 (.bool true)) (turning ++ sieving) {}) := by
  obtain ⟨-, flow, regroup⟩ := pipelines_regroup (Engine.ofDepth flagStages 3) (o := .success 7 (.bool true)) rfl {}
  obtain ⟨bound, joined, -⟩ := regroup turning sieving (flagFunction "turning" false) (flagFunction "sieving" false)
    (flagFunction "both" false) (fun v s => ⟨0, congrFun (turning_call 1 v) s⟩)
    (fun v s => ⟨0, congrFun (sieving_call 1 v) s⟩) (both_joins 0)
  obtain ⟨calls, run, ran, later, cut, all⟩ := flow (turning ++ sieving)
  exact ⟨bound, joined, ran, later, calls, cut, all, run⟩

end Flags

end Conform.Outcome
