import Conform.Proofs.Likeness
import Conform.Proofs.Scripts

/-!
The level of the log changes nothing but the log. Two runs of a script that start at different levels go
through sessions that are alike, step by step: what is read is the same, so what is answered, raised, written,
resolved, declared and called is the same. The runs part only where the louder one gives up on a text for the
log.

Main statement: `Script.runSteps_at_any_level`.
-/
namespace Conform

namespace Act.Echoing

theorem ancestors (c : Class) : (Nominal.ancestors c).Echoing true := by
  refine get (fun s t alike => by rw [alike.ancestors rfl]) fun s => ?_
  split
  · exact pure _
  · refine bind (plain (trace_plain (.pure _))) fun _ => bind (modify fun s t alike => ?_) fun _ => pure _
    exact { alike with ancestors := fun h => congrArg (· ++ [(c, c.mro)]) (alike.ancestors h) }

theorem resolve {e : Engine} (call : ∀ f args keywords, (e.call f args keywords).Echoing true) (id : Ident)
    (thunk : Value) : (Descriptor.resolve e id thunk).Echoing true := by
  refine get (fun s t alike => by rw [alike.resolved rfl]) fun s => ?_
  split
  · exact pure _
  · refine bind (call thunk [] []) fun v => bind (plain (ofValue_plain v)) fun d => ?_
    refine get (fun s t alike => by rw [alike.resolved rfl]) fun s => ?_
    split
    · exact pure _
    · refine bind (plain (trace_plain (by grind))) fun _ => bind (modify fun s t alike => ?_) fun _ => pure _
      exact { alike with resolved := fun h => congrArg (· ++ [(id, d)]) (alike.resolved h) }

theorem declare (table : List Transform) :
    (MonadState.modifyGet fun s => (⟨⟩, { s with transforms := table }) : Act PUnit).Echoing true :=
  modify fun _ _ alike => { alike with transforms := fun _ => rfl }

theorem register (element fn result : Value) : (Transforms.register element fn result).Echoing true := by
  refine bind (plain (ofValue_plain element)) fun source => bind (plain (ofValue_plain result)) fun target => ?_
  refine bind (plain (keyOf_plain source)) fun key => bind (plain (.lift _)) fun _ => ?_
  refine get (fun s t alike => by rw [alike.transforms rfl]) fun s => bind (plain (.lift _)) fun table => ?_
  exact bind (declare table) fun _ => plain (trace_plain (by grind))

theorem unregister (element fn : Value) : (Transforms.unregister element fn).Echoing true := by
  refine bind (plain (query_plain element fn)) fun key => ?_
  refine get (fun s t alike => by rw [alike.transforms rfl]) fun s => bind (plain (.lift _)) fun found => ?_
  refine get (fun s t alike => by rw [alike.transforms rfl]) fun s => bind (plain (.lift _)) fun table => ?_
  exact bind (declare table) fun _ => pure _

theorem recordCall (name : String) (args : List Value) (keywords : Keywords) :
    (Calling.recordCall name args keywords).Echoing true :=
  modify fun _ _ alike => { alike with calls := fun h => congrArg (· ++ [⟨name, args, keywords⟩]) (alike.calls h) }

end Act.Echoing

/-- Not to depend on the log is a habit. -/
def deafness : Habit where
  inv _ := True
  holds := Act.Echoing true
  reach := .all
  types _ := True
  callees _ := True
  receivers _ := True
  secret _ := False
  plain hx _ := .plain hx
  reading _ hf := .bind (.plain .getHeap) fun h => hf { heap := h } trivial
  andThen hx hf s t alike := .bind (hx s t alike) fun a s' t' run => hf s a s' trivial run s' t'
  remembered := .ancestors
  made _ _ _ := .newChecked _ _
  written _ := .write _
  frozen _ e := .freeze e _
  apart _ := id
  children _ _ _ := trivial
  predicates _ := trivial
  attributes _ _ _ v := .plain (v.attribute?_plain fun _ => rfl)
  methods _ _ _ := fun _ _ => trivial
  fields _ _ _ v := .plain (v.field?_plain fun _ => rfl)
  responds _ _ _ v := .bind (.plain (v.attribute?_plain fun _ => rfl)) fun found => by
    cases found <;> exact .pure _
  elements _ _ := ⟨trivial, trivial⟩
  newcomers _ := trivial
  lookups _ _ _ _ := trivial
  arrays _ _ := trivial

theorem deafness_open : deafness.Open where
  types _ := trivial
  callees _ := trivial
  receivers _ := trivial
  reach := rfl
  resolve := Act.Echoing.resolve
  recorded := Act.Echoing.recordCall
  register := Act.Echoing.register
  unregister := Act.Echoing.unregister
  clear := Act.Echoing.declare []

/-- A report without what was logged. -/
def Report.unlogged : Report → Report
  | .record fields => .record (fields.filter fun field => field.1 != "log")
  | report => report

/-- A session without its log. -/
def Session.muted (s : Session) : Session :=
  { s with level := 0, log := [] }

theorem Session.Alike.muted_eq {s t : Session} (alike : s.Alike true t) : t.muted = s.muted := by
  obtain ⟨heap, nextIdent, names, -, resolved, ancestors, stray, transforms, enabled, calls⟩ := alike
  simp only [muted, heap, nextIdent, names, resolved rfl, ancestors rfl, stray rfl, transforms rfl, enabled rfl,
    calls rfl]

namespace Script

variable {e : Engine} {s s' t : Session}

/-- What a step works on. -/
def Step.subject (e : Engine) (step : Step) : Act (Option Value) :=
  match step.action.subject? with
  | some on => do return some (← on.evaluate e)
  | none => return none

/-- Whether a step gives up. -/
def Step.givesUp (e : Engine) (step : Step) (s : Session) : Bool :=
  match step.subject e s with
  | .error .exhausted _ => true
  | .error .. => false
  | .ok on t =>
    match step.action.perform e (on.getD .nil) t with
    | .error .exhausted _ => true
    | _ => false

/-- Whether a script gives up at no step. -/
def finishes (e : Engine) : List Step → Session → Bool
  | [], _ => true
  | step :: rest, s =>
    !step.givesUp e s &&
      match step.run e s with
      | .ok _ t => finishes e rest t
      | .error .. => false

theorem attempt_echoes {α : Type} {x : Act α} (deaf : x.Echoing true) (alike : s.Alike true t)
    (finished : ∀ u, x s ≠ .error .exhausted u) {r : Except Fault α} (run : attempt x s = .ok r s') :
    ∃ t', attempt x t = .ok r t' ∧ s'.Alike true t' := by
  have echoes := deaf s t alike
  unfold attempt at run ⊢
  cases first : x s with
  | ok a u =>
    rw [first] at run echoes
    cases run
    obtain ⟨t', second, alike⟩ := echoes.ok
    rw [second]
    exact ⟨t', rfl, alike⟩
  | error f u =>
    rw [first] at run echoes
    cases run
    cases f with
    | exhausted => exact absurd first (finished _)
    | _ =>
      cases second : x t with
      | ok b t' =>
        rw [second] at echoes
        exact echoes.elim
      | error g t' =>
        rw [second] at echoes
        obtain ⟨rfl, alike⟩ := echoes
        exact ⟨t', rfl, alike⟩

/-- What was recorded is reported the same, apart from the log. -/
theorem drain_echoes (alike : s.Alike true t) {fields : List (String × Report)} (run : drain s = .ok fields s') :
    ∃ fields' t', drain t = .ok fields' t' ∧ s'.Alike true t' ∧
      fields'.filter (fun field => field.1 != "log") = fields.filter (fun field => field.1 != "log") := by
  have cleared : Session.Alike true { s with calls := [], log := [] } { t with calls := [], log := [] } :=
    { alike with calls := fun _ => rfl }
  have told : (s.calls.mapM fun c => Act.look (Snapshot.tracedCall c)).Echoing true := .plain (.mapM fun _ => .lift _)
  have spelled (u : Session) : drain u =
      (do
        let calls ← u.calls.mapM fun c => Act.look (Snapshot.tracedCall c)
        return (if calls.isEmpty then [] else [("calls", Report.list calls)]) ++
          (if u.log.isEmpty then [] else [("log", .list (u.log.map .text))]) : Act (List (String × Report)))
        { u with calls := [], log := [] } := rfl
  rw [spelled] at run ⊢
  obtain ⟨calls, u, first, run⟩ := Act.bind_eq_ok.mp run
  obtain ⟨rfl, rfl⟩ := Act.pure_eq_ok.mp run
  obtain ⟨v, second, same⟩ := (first ▸ told _ _ cleared).ok
  rw [← alike.calls rfl] at second
  refine ⟨_, v, Act.bind_eq_ok.mpr ⟨calls, v, second, rfl⟩, same, ?_⟩
  simp only [List.filter_append]
  congr 1
  split <;> split <;> simp

/-- How a step went. -/
def Step.outcome (e : Engine) (step : Step) : Except Fault (Option Value) → Act (Except Fault Value)
  | .ok on => attempt (step.action.perform e (on.getD .nil))
  | .error f => pure (.error f)

/-- What a step tells of the way it went. -/
def Step.told (step : Step) (subject : Except Fault (Option Value)) (outcome : Except Fault Value) :
    Act (List (String × Report)) := do
  let state ← match subject with
    | .ok (some on) => (stateOf on : Look (List (String × Report)))
    | _ => pure []
  let fields ← match outcome with
    | .ok v => do
      let fields ← resultFields v
      match step.result? with
      | some name => bindName name v
      | none => pure ()
      pure fields
    | .error f => (Snapshot.fault f : Look (List (String × Report)))
  return fields ++ state

theorem Step.run_eq (step : Step) : step.run e = do
    let subject ← attempt (step.subject e)
    let outcome ← step.outcome e subject
    let fields ← step.told subject outcome
    return .record (fields ++ (← drain)) := by
  unfold Step.run Step.subject Step.outcome Step.told
  congr 1
  funext subject
  cases subject with
  | ok on =>
    dsimp only
    congr 1
    funext outcome
    cases on <;> cases outcome <;> cases step.result? <;> simp only [bind_assoc, pure_bind]
  | error f => simp only [bind_assoc, pure_bind]

theorem Step.told_plain (step : Step) (subject : Except Fault (Option Value)) (outcome : Except Fault Value) :
    (step.told subject outcome).Plain .all := by
  unfold Step.told
  repeat' first
    | with_reducible refine Act.Plain.bind ?_ fun _ => ?_
    | split
  all_goals grind

/-- A step that does not give up has a subject, or an error to tell, and does not give up on it. -/
theorem Step.givesUp_eq_false {step : Step} (finished : step.givesUp e s = false) :
    (∀ u, step.subject e s ≠ .error .exhausted u) ∧
      ∀ on s₁, attempt (step.subject e) s = .ok (.ok on) s₁ →
        ∀ u, step.action.perform e (on.getD .nil) s₁ ≠ .error .exhausted u := by
  unfold Step.givesUp at finished
  unfold attempt
  constructor
  · intro u gaveUp
    simp [gaveUp] at finished
  · intro on s₁ first u gaveUp
    cases read : step.subject e s with
    | ok on' t =>
      rw [read] at first finished
      cases first
      simp [gaveUp] at finished
    | error f t =>
      rw [read] at first
      cases first

/-- A step that does not set the level, and does not give up, is reported the same at a higher level. -/
theorem step_echoes (kept : deafness.Kept e) {step : Step} (level : step.action.setsLevel = false)
    (finished : step.givesUp e s = false) (alike : s.Alike true t) {r : Report} (run : step.run e s = .ok r s') :
    ∃ r' t', step.run e t = .ok r' t' ∧ s'.Alike true t' ∧ r'.unlogged = r.unlogged := by
  have evaluated : (step.subject e).Echoing true := by
    unfold Step.subject
    split
    · exact .bind (Habit.evaluate_has deafness_open.toWide kept _) fun _ => .pure _
    · exact .pure _
  have performed (on : Value) : (step.action.perform e on).Echoing true :=
    Habit.perform_has deafness_open kept (by simp [level]) on
  obtain ⟨found, finished⟩ := Step.givesUp_eq_false finished
  rw [Step.run_eq] at run ⊢
  obtain ⟨subject, s₁, first, run⟩ := Act.bind_eq_ok.mp run
  obtain ⟨outcome, s₂, second, run⟩ := Act.bind_eq_ok.mp run
  obtain ⟨fields, s₃, third, run⟩ := Act.bind_eq_ok.mp run
  obtain ⟨recorded, s₄, last, run⟩ := Act.bind_eq_ok.mp run
  obtain ⟨rfl, rfl⟩ := Act.pure_eq_ok.mp run
  obtain ⟨t₁, first', alike₁⟩ := attempt_echoes evaluated alike found first
  have went : ∃ t₂, step.outcome e subject t₁ = .ok outcome t₂ ∧ s₂.Alike true t₂ := by
    cases subject with
    | ok on => exact attempt_echoes (performed _) alike₁ (finished on s₁ first) second
    | error f =>
      obtain ⟨rfl, rfl⟩ := Act.pure_eq_ok.mp second
      exact ⟨t₁, rfl, alike₁⟩
  obtain ⟨t₂, second', alike₂⟩ := went
  obtain ⟨t₃, third', alike₃⟩ := (third ▸ (step.told_plain subject outcome).echoes s₂ t₂ alike₂).ok
  obtain ⟨recorded', t₄, last', alike₄, same⟩ := drain_echoes alike₃ last
  refine ⟨.record (fields ++ recorded'), t₄, ?_, alike₄, ?_⟩
  · exact Act.bind_eq_ok.mpr ⟨_, _, first', Act.bind_eq_ok.mpr ⟨_, _, second', Act.bind_eq_ok.mpr
      ⟨_, _, third', Act.bind_eq_ok.mpr ⟨_, _, last', rfl⟩⟩⟩⟩
  · simp only [Report.unlogged, List.filter_append, same]

/-- The reports of a script are the same at a higher level, step by step. -/
theorem steps_echo (kept : deafness.Kept e) {steps : List Step}
    (level : ∀ step ∈ steps, step.action.setsLevel = false) (finished : finishes e steps s = true)
    (alike : s.Alike true t) :
    ∃ rs s' rs' t', steps.mapM (·.run e) s = .ok rs s' ∧ steps.mapM (·.run e) t = .ok rs' t' ∧
      s'.Alike true t' ∧ rs'.map Report.unlogged = rs.map Report.unlogged := by
  induction steps generalizing s t with
  | nil => exact ⟨[], s, [], t, rfl, rfl, alike, rfl⟩
  | cons step rest ih =>
    obtain ⟨now, later⟩ := Bool.and_eq_true_iff.mp finished
    cases run : step.run e s with
    | error f s₁ => simp [run] at later
    | ok r s₁ =>
      rw [run] at later
      obtain ⟨r', t₁, run', alike₁, same⟩ :=
        step_echoes kept (level step (by simp)) (by simpa using now) alike run
      obtain ⟨rs, s', rs', t', runs, runs', alike', sames⟩ :=
        ih (fun step mem => level step (List.mem_cons_of_mem _ mem)) later alike₁
      refine ⟨r :: rs, s', r' :: rs', t', ?_, ?_, alike', by simp [same, sames]⟩
      · rw [List.mapM_cons]
        exact Act.bind_eq_ok.mpr ⟨r, s₁, run, Act.bind_eq_ok.mpr ⟨rs, s', runs, rfl⟩⟩
      · rw [List.mapM_cons]
        exact Act.bind_eq_ok.mpr ⟨r', t₁, run', Act.bind_eq_ok.mpr ⟨rs', t', runs', rfl⟩⟩

/-- A script that does not set the level goes the same way from any two of them, as long as the louder run does
not give up on what it logs: its steps answer the same, raise the same and call the same functions, and they
leave the same lists, transforms, resolutions and names. The runs differ in their logs alone. -/
theorem runSteps_at_any_level {functions : Library} (suits : deafness.Suits functions) (n : Nat) (steps : List Step)
    (level : ∀ step ∈ steps, step.action.setsLevel = false) (s : Session) (a b : Int)
    (finished : finishes (Engine.ofDepth functions n) steps { s with level := min a b } = true) :
    ∃ rs s' rs' t',
      runSteps (Engine.ofDepth functions n) steps { s with level := a } = .ok (.record [("steps", .list rs)]) s' ∧
      runSteps (Engine.ofDepth functions n) steps { s with level := b } = .ok (.record [("steps", .list rs')]) t' ∧
      rs'.map Report.unlogged = rs.map Report.unlogged ∧ t'.muted = s'.muted := by
  have kept := deafness_open.kept suits n
  have run {c : Int} {rs : List Report} {u : Session}
      (ran : steps.mapM (·.run (Engine.ofDepth functions n)) { s with level := c } = .ok rs u) :
      runSteps (Engine.ofDepth functions n) steps { s with level := c } = .ok (.record [("steps", .list rs)]) u :=
    Act.bind_eq_ok.mpr ⟨rs, u, ran, rfl⟩
  have raised {c d : Int} (le : c ≤ d) : Session.Alike true { s with level := c } { s with level := d } := by
    constructor <;> simp [le]
  rcases Int.le_total a b with le | le
  · rw [Int.min_eq_left le] at finished
    obtain ⟨rs, s', rs', t', first, second, alike, same⟩ := steps_echo kept level finished (raised le)
    exact ⟨rs, s', rs', t', run first, run second, same, alike.muted_eq⟩
  · rw [Int.min_eq_right le] at finished
    obtain ⟨rs, s', rs', t', first, second, alike, same⟩ := steps_echo kept level finished (raised le)
    exact ⟨rs', t', rs, s', run second, run first, same.symm, alike.muted_eq.symm⟩

/-- The integers are asked for through a deferred descriptor; resolving it is logged at a low level alone. -/
def deferredMatch : List Step :=
  [{ action := .function "matches" [.factory "Deferred" [.thunk "int" (.cls .int)] [], .int .base 1] [] }]

theorem deferredMatch_at_any_level :
    ∃ rs s' rs' t',
      runSteps (Engine.ofDepth Zoo.library 6) deferredMatch { level := 10 } = .ok (.record [("steps", .list rs)]) s' ∧
      runSteps (Engine.ofDepth Zoo.library 6) deferredMatch { level := 30 } = .ok (.record [("steps", .list rs')]) t' ∧
      rs'.map Report.unlogged = rs.map Report.unlogged ∧ t'.muted = s'.muted :=
  runSteps_at_any_level deafness_open.suits 6 deferredMatch (by decide) {} 10 30 (by decide +kernel)

end Script

end Conform
