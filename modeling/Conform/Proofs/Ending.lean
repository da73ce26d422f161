import Conform.Proofs.History

/-!
Runs that come to an end. An engine of a given depth gives up below it, so an action is looked at on the
engines of all depths at once: it ends if from some depth on it has one result, which no greater depth
changes, and that result is an answer or a fault that counts as an end.

What may come up on the way is said by an outlook: where it goes out from, the family of descriptors, what
the deferred ones among them may stand for, and the faults that count. Actions that end one after another end
as a whole. Main statement: `Resolves.resolve`, by which a deferred descriptor is resolved to what it may stand
for.
-/
namespace Conform

/-- What may come up in a run. -/
structure Outlook where
  functions : Library
  /-- The session that everything goes out from. -/
  start : Session
  family : Descriptor → Prop
  /-- What a deferred descriptor may stand for. -/
  stands : Descriptor → Descriptor → Prop
  /-- The faults that count as an end. -/
  faults : Fault → Prop

namespace Outlook

variable {O : Outlook} {α β : Type} {s t u : Session}

abbrev engine (O : Outlook) (n : Nat) : Engine :=
  .ofDepth O.functions n

/-- A sound moment at which the deferred descriptors are resolved to what they may stand for. -/
structure Moment (O : Outlook) (s : Session) : Prop where
  since : O.start.Before s
  sound : s.Sound O.family
  stands : ∀ {id thunk d}, O.family (.deferred id thunk) → s.resolution? id = some d →
    O.stands (.deferred id thunk) d

structure Later (O : Outlook) (s t : Session) : Prop where
  before : s.Before t
  moment : O.Moment t

theorem Moment.refl (moment : O.Moment s) : O.Later s s :=
  ⟨.refl s, moment⟩

theorem Later.trans (st : O.Later s t) (tu : O.Later t u) : O.Later s u :=
  ⟨st.before.trans tu.before, tu.moment⟩

/-- A change of the records that nothing is read from. -/
theorem Moment.aside (moment : O.Moment s) (heap : t.heap = s.heap) (resolved : t.resolved = s.resolved)
    (ancestors : ∀ e ∈ t.ancestors, e.2 = e.1.mro) : O.Later s t := by
  have same (id : Ident) : t.resolution? id = s.resolution? id := by
    simp only [Session.resolution?, resolved]
  have sound : t.Sound O.family := {
    closed := heap ▸ moment.sound.closed
    ancestors := ancestors
    resolved := fun id thunk d hd hr => heap ▸ moment.sound.resolved id thunk d hd (same id ▸ hr)
    elements := heap ▸ moment.sound.elements }
  have before : s.Before t := ⟨heap ▸ .refl _, fun id d hr => (same id).trans hr⟩
  exact ⟨before, moment.since.trans before, sound, fun hd hr => moment.stands hd (same _ ▸ hr)⟩

/-- An action, given for every depth, ends: from some depth on it has one result, which is an answer at a
later moment or a fault that counts as an end. -/
def Ends (O : Outlook) (x : Nat → Act α) (s : Session) (Q : α → Session → Prop) : Prop :=
  ∃ n r, (∀ m, n ≤ m → x m s = r) ∧
    match r with
    | .ok a t => O.Later s t ∧ Q a t
    | .error f _ => O.faults f

/-- An action ends, whatever it answers. -/
abbrev Stops (O : Outlook) (x : Nat → Act α) (s : Session) : Prop :=
  O.Ends x s fun _ _ => True

namespace Ends

variable {x : Nat → Act α} {Q P : α → Session → Prop}

theorem ok {y : Act α} {a : α} (run : y s = .ok a t) (later : O.Later s t) (hq : Q a t) :
    O.Ends (fun _ => y) s Q :=
  ⟨0, .ok a t, fun _ _ => run, later, hq⟩

theorem pure (moment : O.Moment s) {a : α} (hq : Q a s) : O.Ends (fun _ => Pure.pure a) s Q :=
  ok rfl moment.refl hq

theorem fault {y : Act α} {f : Fault} (run : y s = .error f t) (hf : O.faults f) :
    O.Ends (fun _ => y) s Q :=
  ⟨0, .error f t, fun _ _ => run, hf⟩

theorem mono (hx : O.Ends x s Q) (hQ : ∀ a t, O.Later s t → Q a t → P a t) : O.Ends x s P := by
  obtain ⟨n, r, same, ends⟩ := hx
  refine ⟨n, r, same, ?_⟩
  cases r with
  | ok a t => exact ⟨ends.1, hQ a t ends.1 ends.2⟩
  | error f t => exact ends

theorem bind {f : Nat → α → Act β} {P : β → Session → Prop} (hx : O.Ends x s Q)
    (hf : ∀ a t, O.Later s t → Q a t → O.Ends (fun n => f n a) t P) :
    O.Ends (fun n => x n >>= f n) s P := by
  obtain ⟨n, r, same, ends⟩ := hx
  cases r with
  | error e t =>
    refine ⟨n, .error e t, fun m hm => ?_, ends⟩
    exact Act.bind_eq_error.mpr (.inl (same m hm))
  | ok a t =>
    obtain ⟨k, r, same', ends'⟩ := hf a t ends.1 ends.2
    refine ⟨max n k, r, fun m hm => ?_, ?_⟩
    · have first := same m (by omega)
      have second := same' m (by omega)
      change EStateM.bind (x m) (f m) s = r
      unfold EStateM.bind
      rw [first]
      exact second
    · cases r with
      | ok b u => exact ⟨ends.1.trans ends'.1, ends'.2⟩
      | error e u => exact ends'

theorem assoc {γ : Type} {y : Nat → α → Act β} {f : Nat → β → Act γ} {P : γ → Session → Prop}
    (h : O.Ends (fun n => (x n >>= y n) >>= f n) s P) :
    O.Ends (fun n => x n >>= fun a => y n a >>= f n) s P := by
  simpa only [bind_assoc] using h

/-- An action that depends on the session as it is when the action starts. -/
theorem get {f : Nat → Session → Act α} (hf : O.Ends (fun n => f n s) s Q) :
    O.Ends (fun n => MonadState.get >>= f n) s Q :=
  hf

theorem getHeap {f : Nat → Heap → Act α} (hf : O.Ends (fun n => f n s.heap) s Q) :
    O.Ends (fun n => Act.getHeap >>= f n) s Q :=
  hf

theorem look (moment : O.Moment s) {l : Look α} (answers : ∀ a, l s.heap = .ok a → Q a s)
    (fails : ∀ f, l s.heap = .error f → O.faults f) : O.Ends (fun _ => liftM l) s Q := by
  cases h : l s.heap with
  | ok a => exact ok (Act.lift_eq_ok.mpr ⟨h, rfl⟩) moment.refl (answers a h)
  | error f => exact fault (Act.lift_eq_error.mpr ⟨h, rfl⟩) (fails f h)

theorem ite {c : Prop} [Decidable c] {y : Nat → Act α} (hx : c → O.Ends x s Q)
    (hy : ¬c → O.Ends y s Q) : O.Ends (fun n => if c then x n else y n) s Q := by
  by_cases h : c
  · simpa only [h, if_true] using hx h
  · simpa only [h, if_false] using hy h

/-- What ends one level further down ends. -/
theorem deepen (hx : O.Ends (fun n => x (n + 1)) s Q) : O.Ends x s Q := by
  obtain ⟨n, r, same, ends⟩ := hx
  refine ⟨n + 1, r, fun m hm => ?_, ends⟩
  obtain ⟨k, rfl⟩ : ∃ k, m = k + 1 := ⟨m - 1, by omega⟩
  exact same k (by omega)

/-- Tests that end one by one, at whatever moment they are made, end together. -/
theorem allM {p : Nat → α → Act Bool} {xs : List α} (moment : O.Moment s)
    (hp : ∀ x ∈ xs, ∀ t, O.Later s t → O.Stops (fun n => p n x) t) :
    O.Stops (fun n => xs.allM (p n)) s := by
  induction xs generalizing s with
  | nil => exact pure moment trivial
  | cons x xs ih =>
    simp only [List.forall_mem_cons] at hp
    refine bind (hp.1 s moment.refl) fun r t st _ => ?_
    cases r with
    | false => exact pure st.moment trivial
    | true => exact ih st.moment fun y hy u tu => hp.2 y hy u (st.trans tu)

theorem anyM {p : Nat → α → Act Bool} {xs : List α} (moment : O.Moment s)
    (hp : ∀ x ∈ xs, ∀ t, O.Later s t → O.Stops (fun n => p n x) t) :
    O.Stops (fun n => xs.anyM (p n)) s := by
  induction xs generalizing s with
  | nil => exact pure moment trivial
  | cons x xs ih =>
    simp only [List.forall_mem_cons] at hp
    refine bind (hp.1 s moment.refl) fun r t st _ => ?_
    cases r with
    | true => exact pure st.moment trivial
    | false => exact ih st.moment fun y hy u tu => hp.2 y hy u (st.trans tu)

/-- A trace line is written, if its text can be worked out. -/
theorem trace (moment : O.Moment s) {message : Look String}
    (fails : ∀ f, message s.heap = .error f → O.faults f) :
    O.Ends (fun _ => Logging.trace message) s fun _ t => t.heap = s.heap ∧ t.resolved = s.resolved := by
  have written {a : Unit} {t : Session} (run : Logging.trace message s = .ok a t) :
      O.Later s t ∧ t.heap = s.heap ∧ t.resolved = s.resolved := by
    obtain ⟨log, rfl⟩ := trace_ok run
    exact ⟨moment.aside rfl rfl moment.sound.ancestors, rfl, rfl⟩
  cases run : Logging.trace message s with
  | ok a t => exact ok run (written run).1 (written run).2
  | error f t => exact fault run (fails f (trace_error run).1)

theorem ancestors (moment : O.Moment s) (c : Class) :
    O.Stops (fun _ => Nominal.ancestors c) s := by
  refine get ?_
  split
  · exact pure moment trivial
  · refine bind (trace moment nofun) fun _ t st _ => ?_
    have remembered : O.Later t { t with ancestors := t.ancestors ++ [(c, c.mro)] } :=
      st.moment.aside rfl rfl (ancestors_append st.moment.sound.ancestors c)
    exact ok rfl remembered trivial

/-- Class checks end: the classes decide. -/
theorem isSubclass (moment : O.Moment s) (v : Value) (c : Class) :
    O.Stops (fun _ => Nominal.isSubclass v c) s := by
  cases v with
  | cls k =>
    refine bind (ancestors moment k) fun known t st _ => ite (fun _ => pure st.moment trivial) fun _ => ?_
    split <;> exact pure st.moment trivial
  | _ => exact pure moment trivial

end Ends

/-- A family that can be unfolded: it has the parts of its members, the deferred ones are known by their
identity, their thunks end and answer members that they may stand for, and members can be described. -/
structure Resolves (O : Outlook) : Prop where
  children : ∀ {d}, O.family d → ∀ c ∈ d.children, O.family c
  identity : ∀ {id thunk thunk'}, O.family (.deferred id thunk) → O.family (.deferred id thunk') →
    thunk = thunk'
  thunks : ∀ {id thunk}, O.family (.deferred id thunk) → ∀ s, O.Moment s →
    O.Ends (fun n => do Descriptor.ofValue (← (O.engine n).call thunk [] [])) s fun d t =>
      O.family d ∧ d.Live t.heap ∧ O.stands (.deferred id thunk) d
  texts : ∀ {d}, O.family d → ∀ s, O.Moment s → d.Live s.heap → ∀ f, d.describe s.heap = .error f →
    O.faults f

namespace Resolves

variable {id : Ident} {thunk : Value} {d : Descriptor}

/-- A moment stays one when a deferred descriptor is resolved to what it may stand for. -/
theorem settle (resolves : O.Resolves) (moment : O.Moment s) (hd : O.family (.deferred id thunk))
    (unresolved : s.resolution? id = none) (dd : O.family d) (live : d.Live s.heap)
    (stands : O.stands (.deferred id thunk) d) :
    O.Later s { s with resolved := s.resolved ++ [(id, d)] } := by
  have sound : Session.Sound O.family { s with resolved := s.resolved ++ [(id, d)] } := by
    refine ⟨moment.sound.closed, moment.sound.ancestors, fun id' thunk' e he hr => ?_,
      moment.sound.elements⟩
    rw [resolution?_append unresolved] at hr
    split at hr
    · cases hr
      exact ⟨dd, live⟩
    · exact moment.sound.resolved id' thunk' e he hr
  have before : s.Before { s with resolved := s.resolved ++ [(id, d)] } := ⟨.refl _, fun id' e => append_resolved unresolved id'⟩
  refine ⟨before, moment.since.trans before, sound, fun {id' thunk' e} he hr => ?_⟩
  rw [resolution?_append unresolved] at hr
  split at hr
  · next same =>
    subst same
    cases hr
    exact resolves.identity hd he ▸ stands
  · exact moment.stands he hr

/-- A deferred descriptor is resolved to a member that it may stand for. -/
theorem resolve (resolves : O.Resolves) (moment : O.Moment s) (hd : O.family (.deferred id thunk)) :
    O.Ends (fun n => Descriptor.resolve (O.engine n) id thunk) s fun d t =>
      O.family d ∧ d.Live t.heap ∧ O.stands (.deferred id thunk) d := by
  have known {s : Session} (moment : O.Moment s) {entry : Ident × Descriptor}
      (found : s.resolved.find? (·.1 == id) = some entry) :
      O.family entry.2 ∧ entry.2.Live s.heap ∧ O.stands (.deferred id thunk) entry.2 := by
    have hr : s.resolution? id = some entry.2 := by simp [Session.resolution?, found]
    obtain ⟨dd, live⟩ := moment.sound.resolved id thunk entry.2 hd hr
    exact ⟨dd, live, moment.stands hd hr⟩
  refine .get ?_
  cases found : s.resolved.find? (·.1 == id) with
  | some entry => exact .pure moment (known moment found)
  | none =>
    refine .assoc (.bind (resolves.thunks hd s moment) ?_)
    rintro d t st ⟨dd, live, stands⟩
    refine .get ?_
    cases found : t.resolved.find? (·.1 == id) with
    | some entry => exact .pure st.moment (known st.moment found)
    | none =>
      refine .bind (.trace st.moment fun f hf => ?_) ?_
      · have fails : d.describe t.heap = .error f := by simpa using hf
        exact resolves.texts dd t st.moment live f fails
      · rintro - u tu ⟨heap, resolved⟩
        have live := heap ▸ live
        have unresolved : u.resolution? id = none := by simp [Session.resolution?, resolved, found]
        have later := resolves.settle tu.moment hd unresolved dd live stands
        exact .ok rfl later ⟨dd, live, stands⟩

end Resolves

end Outlook

end Conform
