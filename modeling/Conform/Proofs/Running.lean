import Mathlib.Order.Defs.Unbundled
import Conform.Proofs.Flags

/-!
What a run tells about its parts. An action that answers has run its parts one after another, each from
where the one before it ended; reading the heap leaves the session as it was.

An action leads along a preorder of sessions if it ends, by an answer or by a failure, in a session that
is related to the one it started from. What leads along a preorder part by part leads along it as a whole.
-/
namespace Conform

variable {α β : Type} {s t u : Session} {h : Heap}

namespace Act

@[simp] theorem pure_eq_ok {a b : α} : (pure a : Act α) s = .ok b t ↔ a = b ∧ s = t := by
  change (EStateM.Result.ok a s : EStateM.Result Fault Session α) = _ ↔ _
  simp

@[simp] theorem bind_eq_ok {x : Act α} {f : α → Act β} {b : β} :
    (x >>= f) s = .ok b u ↔ ∃ a t, x s = .ok a t ∧ f a t = .ok b u := by
  change EStateM.bind x f s = _ ↔ _
  unfold EStateM.bind
  cases x s <;> simp [and_assoc]

@[simp] theorem map_eq_ok {x : Act α} {f : α → β} {b : β} :
    (f <$> x) s = .ok b t ↔ ∃ a, x s = .ok a t ∧ f a = b := by
  change EStateM.map f x s = _ ↔ _
  unfold EStateM.map
  cases x s <;> grind

@[simp] theorem lift_eq_ok {l : Look α} {a : α} :
    (liftM l : Act α) s = .ok a t ↔ l s.heap = .ok a ∧ s = t := by
  change Act.look l s = _ ↔ _
  unfold Act.look
  cases l s.heap <;> simp

@[simp] theorem get_eq_ok {a : Session} : (get : Act Session) s = .ok a t ↔ s = a ∧ s = t := by
  change (EStateM.Result.ok s s : EStateM.Result Fault Session Session) = _ ↔ _
  simp

@[simp] theorem modify_eq_ok {f : Session → Session} {a : PUnit} :
    (modify f : Act PUnit) s = .ok a t ↔ f s = t := by
  change (EStateM.Result.ok PUnit.unit (f s) : EStateM.Result Fault Session PUnit) = _ ↔ _
  simp

@[simp] theorem throw_ne_ok {f : Fault} {a : α} : (throw f : Act α) s = .ok a t ↔ False := by
  change (EStateM.Result.error f s : EStateM.Result Fault Session α) = _ ↔ _
  simp

@[simp] theorem fail_ne_ok {c : Cause} {a : α} : (Act.fail c : Act α) s = .ok a t ↔ False :=
  throw_ne_ok

@[simp] theorem getHeap_eq_ok {a : Heap} : Act.getHeap s = .ok a t ↔ s.heap = a ∧ s = t := by
  simp [Act.getHeap, and_comm]

@[simp] theorem fresh_eq_ok {i : Ident} :
    Act.fresh s = .ok i t ↔ s.nextIdent = i ∧ { s with nextIdent := s.nextIdent + 1 } = t := by
  simp [Act.fresh]

@[simp] theorem bind_eq_error {x : Act α} {f : α → Act β} {e : Fault} :
    (x >>= f) s = .error e u ↔ x s = .error e u ∨ ∃ a t, x s = .ok a t ∧ f a t = .error e u := by
  change EStateM.bind x f s = _ ↔ _
  unfold EStateM.bind
  cases x s <;> simp [and_assoc]

theorem bind_of_ok {x : Act α} {f : α → Act β} {a : α} (run : x s = .ok a t) :
    (x >>= f) s = f a t := by
  change EStateM.bind x f s = _
  unfold EStateM.bind
  rw [run]

theorem bind_of_error {x : Act α} {f : α → Act β} {e : Fault} (run : x s = .error e t) :
    (x >>= f) s = .error e t :=
  bind_eq_error.mpr (.inl run)

/-- What goes on after an action depends on how it ends only. -/
theorem bind_congr_run {x y : Act α} {f : α → Act β} (run : x s = y t) : (x >>= f) s = (y >>= f) t := by
  simp only [bind, EStateM.bind, run]

@[simp] theorem map_eq_error {x : Act α} {f : α → β} {e : Fault} :
    (f <$> x) s = .error e t ↔ x s = .error e t := by
  change EStateM.map f x s = _ ↔ _
  unfold EStateM.map
  cases x s <;> simp

@[simp] theorem pure_ne_error {a : α} {e : Fault} : (pure a : Act α) s = .error e t ↔ False := by
  change (EStateM.Result.ok a s : EStateM.Result Fault Session α) = _ ↔ _
  simp

@[simp] theorem throw_eq_error {f e : Fault} :
    (throw f : Act α) s = .error e t ↔ f = e ∧ s = t := by
  change (EStateM.Result.error f s : EStateM.Result Fault Session α) = _ ↔ _
  simp

@[simp] theorem fail_eq_error {c : Cause} {e : Fault} :
    (Act.fail c : Act α) s = .error e t ↔ .cause c = e ∧ s = t :=
  throw_eq_error

@[simp] theorem lift_eq_error {l : Look α} {e : Fault} :
    (liftM l : Act α) s = .error e t ↔ l s.heap = .error e ∧ s = t := by
  change Act.look l s = _ ↔ _
  unfold Act.look
  cases l s.heap <;> simp

@[simp] theorem get_ne_error {e : Fault} : (get : Act Session) s = .error e t ↔ False := by
  change (EStateM.Result.ok s s : EStateM.Result Fault Session Session) = _ ↔ _
  simp

@[simp] theorem modify_ne_error {f : Session → Session} {e : Fault} :
    (modify f : Act PUnit) s = .error e t ↔ False := by
  change (EStateM.Result.ok PUnit.unit (f s) : EStateM.Result Fault Session PUnit) = _ ↔ _
  simp

@[simp] theorem getHeap_ne_error {e : Fault} : Act.getHeap s = .error e t ↔ False := by
  simp [Act.getHeap]

/-- Where an action leaves the session, whether it answers or fails. -/
def after (x : Act α) (s : Session) : Session :=
  match x s with
  | .ok _ t => t
  | .error _ t => t

theorem after_of_ok {x : Act α} {a : α} (run : x s = .ok a t) : x.after s = t := by
  simp only [after, run]

theorem after_of_error {x : Act α} {e : Fault} (run : x s = .error e t) : x.after s = t := by
  simp only [after, run]

theorem after_congr {x y : Act α} (run : x s = y t) : x.after s = y.after t := by
  simp only [after, run]

/-- The same answer or the same failure in another session. -/
def elsewhere (g : Session → Session) : EStateM.Result Fault Session α → EStateM.Result Fault Session α
  | .ok a t => .ok a (g t)
  | .error f t => .error f (g t)

section Elsewhere

variable {g : Session → Session}

theorem lift_elsewhere {l : Look α} (same : l (g s).heap = l s.heap) :
    (liftM l : Act α) (g s) = elsewhere g ((liftM l : Act α) s) := by
  change Act.look l (g s) = elsewhere g (Act.look l s)
  unfold Act.look
  rw [same]
  cases l s.heap <;> rfl

theorem bind_elsewhere {x : Act α} {f : α → Act β} (first : x (g s) = elsewhere g (x s))
    (rest : ∀ a t, x s = .ok a t → f a (g t) = elsewhere g (f a t)) :
    (x >>= f) (g s) = elsewhere g ((x >>= f) s) := by
  cases run : x s with
  | ok a t =>
    rw [run] at first
    rw [bind_of_ok first, bind_of_ok run]
    exact rest a t run
  | error e t =>
    rw [run] at first
    rw [bind_of_error first, bind_of_error run]
    rfl

theorem handle_elsewhere {k : Class} {x : Act α} {f : Fault → Act α} (first : x (g s) = elsewhere g (x s))
    (rest : ∀ e t, f e (g t) = elsewhere g (f e t)) :
    Act.handle k x f (g s) = elsewhere g (Act.handle k x f s) := by
  unfold Act.handle
  rw [first]
  cases x s with
  | ok a t => rfl
  | error e t =>
    dsimp only [elsewhere]
    split
    · exact rest e t
    · rfl

end Elsewhere

/-- A property of actions that passes from the parts of an action to the whole. It is not claimed of what looks
whether a list is frozen. -/
structure Passes (P : ∀ {α : Type}, Act α → Prop) : Prop where
  pure : ∀ {α : Type} (a : α), P (pure a)
  throw : ∀ {α : Type} (f : Fault), P (throw f : Act α)
  lift : ∀ {α : Type} {l : Look α}, l.Overlooks → P (liftM l : Act α)
  reading : ∀ {α : Type} {f : Heap → Act α}, (∀ h c b, f (h.flagged c b) = f h) → (∀ h, P (f h)) →
    P (Act.getHeap >>= f)
  bind : ∀ {α β : Type} {x : Act α} {f : α → Act β}, P x → (∀ a, P (f a)) → P (x >>= f)

namespace Passes

variable {P : ∀ {α : Type}, Act α → Prop} (passes : Passes P)

include passes

theorem allM {p : α → Act Bool} {xs : List α} (hp : ∀ x ∈ xs, P (p x)) : P (xs.allM p) := by
  induction xs with
  | nil => exact passes.pure true
  | cons x xs ih =>
    simp only [List.forall_mem_cons] at hp
    refine passes.bind hp.1 fun r => ?_
    cases r with
    | true => exact ih hp.2
    | false => exact passes.pure false

theorem anyM {p : α → Act Bool} {xs : List α} (hp : ∀ x ∈ xs, P (p x)) : P (xs.anyM p) := by
  induction xs with
  | nil => exact passes.pure false
  | cons x xs ih =>
    simp only [List.forall_mem_cons] at hp
    refine passes.bind hp.1 fun r => ?_
    cases r with
    | true => exact passes.pure true
    | false => exact ih hp.2

omit passes in
theorem ite {c : Prop} [Decidable c] {x y : Act α} (_ : Passes P) (hx : P x) (hy : P y) : P (if c then x else y) := by
  split
  · exact hx
  · exact hy

theorem mapM {f : α → Act β} {xs : List α} (hf : ∀ x ∈ xs, P (f x)) : P (xs.mapM f) := by
  induction xs with
  | nil => exact passes.pure []
  | cons x xs ih =>
    simp only [List.forall_mem_cons] at hf
    rw [List.mapM_cons]
    exact passes.bind hf.1 fun y => passes.bind (ih hf.2) fun ys => passes.pure (y :: ys)

theorem filterM {p : α → Act Bool} {xs : List α} (hp : ∀ x ∈ xs, P (p x)) : P (xs.filterM p) := by
  have aux (kept : List α) : P (xs.filterAuxM p kept) := by
    induction xs generalizing kept with
    | nil => exact passes.pure kept
    | cons x xs ih =>
      simp only [List.forall_mem_cons] at hp
      exact passes.bind hp.1 fun keep => ih hp.2 (cond keep (x :: kept) kept)
  exact passes.bind (aux []) fun ys => passes.pure ys.reverse

end Passes

/-- An action that ends in a session related to the one it started from, whether it answers or fails. -/
def Leads (R : Session → Session → Prop) (x : Act α) : Prop :=
  ∀ s, R s (x.after s)

namespace Leads

variable {R : Session → Session → Prop}

theorem ok {x : Act α} (hx : x.Leads R) {a : α} (run : x s = .ok a t) : R s t :=
  after_of_ok run ▸ hx s

theorem error {x : Act α} (hx : x.Leads R) {e : Fault} (run : x s = .error e t) : R s t :=
  after_of_error run ▸ hx s

theorem mk {x : Act α} (ok : ∀ s a t, x s = .ok a t → R s t)
    (error : ∀ s e t, x s = .error e t → R s t) : x.Leads R := by
  intro s
  unfold after
  split
  · next run => exact ok _ _ _ run
  · next run => exact error _ _ _ run

theorem mono {S : Session → Session → Prop} {x : Act α} (hRS : ∀ s t, R s t → S s t) (hx : x.Leads R) :
    x.Leads S :=
  fun s => hRS s _ (hx s)

theorem modify {f : Session → Session} (hf : ∀ s, R s (f s)) : (modify f : Act PUnit).Leads R :=
  hf

theorem ite {c : Prop} [Decidable c] {x y : Act α} (hx : x.Leads R) (hy : y.Leads R) :
    (if c then x else y).Leads R := by
  split
  · exact hx
  · exact hy

theorem handle {c : Class} {x : Act α} {f : Fault → Act α} [IsTrans Session R] (hx : x.Leads R)
    (hf : ∀ e, (f e).Leads R) : (Act.handle c x f).Leads R := by
  intro s
  cases first : x s with
  | ok a t =>
    have ends : (Act.handle c x f).after s = t := by simp only [after, Act.handle, first]
    rw [ends]
    exact hx.ok first
  | error e t =>
    by_cases he : e.isA c = true
    · have ends : (Act.handle c x f).after s = (f e).after t := by
        simp only [after, Act.handle, first, he, if_true]
      rw [ends]
      exact trans_of R (hx.error first) (hf e t)
    · have ends : (Act.handle c x f).after s = t := by
        simp only [after, Act.handle, first, he, Bool.false_eq_true, if_false]
      rw [ends]
      exact hx.error first

variable [IsPreorder Session R]

theorem pure (a : α) : (pure a : Act α).Leads R :=
  fun s => refl_of R s

theorem throw (f : Fault) : (throw f : Act α).Leads R :=
  fun s => refl_of R s

theorem fail (c : Cause) : (Act.fail c : Act α).Leads R :=
  fun s => refl_of R s

theorem get : (get : Act Session).Leads R :=
  fun s => refl_of R s

theorem lift (l : Look α) : (liftM l : Act α).Leads R := by
  intro s
  change R s (after (Act.look l) s)
  unfold after Act.look
  cases l s.heap <;> exact refl_of R s

theorem bind {x : Act α} {f : α → Act β} (hx : x.Leads R) (hf : ∀ a, (f a).Leads R) :
    (x >>= f).Leads R := by
  refine .mk (fun s b u run => ?_) (fun s e u run => ?_)
  · obtain ⟨a, t, hs, ht⟩ := bind_eq_ok.mp run
    exact trans_of R (hx.ok hs) ((hf a).ok ht)
  · obtain hs | ⟨a, t, hs, ht⟩ := bind_eq_error.mp run
    · exact hx.error hs
    · exact trans_of R (hx.ok hs) ((hf a).error ht)

/-- An action that depends on the heap as it is when the action starts. -/
theorem getHeap {f : Heap → Act α} (hf : ∀ h, (f h).Leads R) : (Act.getHeap >>= f).Leads R :=
  bind (bind get fun s => pure s.heap) hf

theorem passes : Passes fun x => x.Leads R :=
  ⟨pure, throw, fun _ => lift _, fun _ => getHeap, bind⟩

theorem allM {p : α → Act Bool} {xs : List α} (hp : ∀ x ∈ xs, (p x).Leads R) : (xs.allM p).Leads R :=
  passes.allM hp

theorem mapM {f : α → Act β} {xs : List α} (hf : ∀ x ∈ xs, (f x).Leads R) : (xs.mapM f).Leads R :=
  passes.mapM hf

theorem anyM {p : α → Act Bool} {xs : List α} (hp : ∀ x ∈ xs, (p x).Leads R) : (xs.anyM p).Leads R :=
  passes.anyM hp

theorem filterM {p : α → Act Bool} {xs : List α} (hp : ∀ x ∈ xs, (p x).Leads R) : (xs.filterM p).Leads R :=
  passes.filterM hp

end Leads

end Act

namespace Look

@[simp] theorem pure_eq_ok {a b : α} : (pure a : Look α) h = .ok b ↔ a = b := by
  change (Except.ok a : Except Fault α) = _ ↔ _
  simp

@[simp] theorem bind_eq_ok {x : Look α} {f : α → Look β} {b : β} :
    (x >>= f) h = .ok b ↔ ∃ a, x h = .ok a ∧ f a h = .ok b := by
  change Except.bind (x h) (fun a => f a h) = _ ↔ _
  unfold Except.bind
  cases x h <;> simp

theorem bind_of_ok {x : Look α} {f : α → Look β} {a : α} (read : x h = .ok a) : (x >>= f) h = f a h := by
  change (x h >>= fun a => f a h) = f a h
  rw [read]
  rfl

/-- Readings of two heaps that go on alike from the same answer. -/
theorem bind_congr {g : Heap} {x y : Look α} {f f' : α → Look β} (hx : x g = y h)
    (hf : ∀ a, f a g = f' a h) : (x >>= f) g = (y >>= f') h := by
  change Except.bind (x g) (fun a => f a g) = Except.bind (y h) (fun a => f' a h)
  rw [hx, funext hf]

@[simp] theorem map_eq_ok {x : Look α} {f : α → β} {b : β} :
    (f <$> x) h = .ok b ↔ ∃ a, x h = .ok a ∧ f a = b := by
  change Except.map f (x h) = _ ↔ _
  unfold Except.map
  cases x h <;> simp

@[simp] theorem read_eq_ok {a : Heap} : (read : Look Heap) h = .ok a ↔ h = a := by
  change (Except.ok h : Except Fault Heap) = _ ↔ _
  simp

@[simp] theorem throw_ne_ok {f : Fault} {a : α} : (throw f : Look α) h = .ok a ↔ False := by
  change (Except.error f : Except Fault α) = _ ↔ _
  simp

@[simp] theorem fail_ne_ok {c : Cause} {a : α} : (Look.fail c : Look α) h = .ok a ↔ False :=
  throw_ne_ok

@[simp] theorem bind_eq_error {x : Look α} {f : α → Look β} {e : Fault} :
    (x >>= f) h = .error e ↔ x h = .error e ∨ ∃ a, x h = .ok a ∧ f a h = .error e := by
  change Except.bind (x h) (fun a => f a h) = _ ↔ _
  unfold Except.bind
  cases x h <;> simp

@[simp] theorem map_eq_error {x : Look α} {f : α → β} {e : Fault} :
    (f <$> x) h = .error e ↔ x h = .error e := by
  change Except.map f (x h) = _ ↔ _
  unfold Except.map
  cases x h <;> simp

@[simp] theorem pure_ne_error {a : α} {e : Fault} : (pure a : Look α) h = .error e ↔ False := by
  change (Except.ok a : Except Fault α) = _ ↔ _
  simp

@[simp] theorem read_ne_error {e : Fault} : (read : Look Heap) h = .error e ↔ False := by
  change (Except.ok h : Except Fault Heap) = _ ↔ _
  simp

@[simp] theorem throw_eq_error {f e : Fault} : (throw f : Look α) h = .error e ↔ f = e := by
  change (Except.error f : Except Fault α) = _ ↔ _
  simp

@[simp] theorem fail_eq_error {c : Cause} {e : Fault} :
    (Look.fail c : Look α) h = .error e ↔ .cause c = e :=
  throw_eq_error

end Look

end Conform
