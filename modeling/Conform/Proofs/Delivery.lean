import Conform.Proofs.Running

/-!
Actions that are bound to answer. An action delivers if it answers from every session of a kind, with an answer
of a kind, and leaves a session of the same kind behind. An action that answers yes or no decides a statement if
it delivers the truth of it.
-/
namespace Conform

/-- A step that does not lead out of the sessions of a kind. -/
def Session.Keeping (inv : Session → Prop) (s t : Session) : Prop :=
  inv s → inv t

instance {inv : Session → Prop} : IsPreorder Session (Session.Keeping inv) where
  refl _ := id
  trans _ _ _ st tu hs := tu (st hs)

namespace Act

variable {α β : Type} {inv : Session → Prop}

/-- From every session of a kind the action answers, the answer is of a kind, and the session is again. -/
def Delivers (inv : Session → Prop) (x : Act α) (Q : α → Prop) : Prop :=
  ∀ s, inv s → ∃ a t, x s = .ok a t ∧ inv t ∧ Q a

namespace Delivers

variable {x : Act α} {f : α → Act β} {P Q : α → Prop} {R : β → Prop}

theorem pure {a : α} (h : Q a) : (pure a : Act α).Delivers inv Q :=
  fun s hs => ⟨a, s, rfl, hs, h⟩

theorem mono (hx : x.Delivers inv P) (h : ∀ a, P a → Q a) : x.Delivers inv Q := by
  intro s hs
  obtain ⟨a, t, run, ht, ha⟩ := hx s hs
  exact ⟨a, t, run, ht, h a ha⟩

theorem bind (hx : x.Delivers inv P) (hf : ∀ a, P a → (f a).Delivers inv R) : (x >>= f).Delivers inv R := by
  intro s hs
  obtain ⟨a, t, first, ht, ha⟩ := hx s hs
  obtain ⟨b, u, second, hu, hb⟩ := hf a ha t ht
  exact ⟨b, u, (bind_of_ok first).trans second, hu, hb⟩

theorem ite {c : Prop} [Decidable c] {y : Act α} (hx : c → x.Delivers inv Q) (hy : ¬c → y.Delivers inv Q) :
    (if c then x else y).Delivers inv Q := by
  split
  · next h => exact hx h
  · next h => exact hy h

theorem of_exists {ι : Type} {inv : ι → Session → Prop} (hx : ∀ i, x.Delivers (inv i) Q) :
    x.Delivers (fun s => ∃ i, inv i s) Q := by
  rintro s ⟨i, hs⟩
  obtain ⟨a, t, run, ht, ha⟩ := hx i s hs
  exact ⟨a, t, run, ⟨i, ht⟩, ha⟩

theorem of_leads (answers : ∀ s, inv s → ∃ a t, x s = .ok a t ∧ Q a) (leads : x.Leads (Session.Keeping inv)) :
    x.Delivers inv Q := by
  intro s hs
  obtain ⟨a, t, run, ha⟩ := answers s hs
  exact ⟨a, t, run, leads.ok run hs, ha⟩

theorem lift {l : Look α} (hl : ∀ s, inv s → ∃ a, l s.heap = .ok a ∧ Q a) : (liftM l : Act α).Delivers inv Q := by
  intro s hs
  obtain ⟨a, read, ha⟩ := hl s hs
  exact ⟨a, s, lift_eq_ok.mpr ⟨read, rfl⟩, hs, ha⟩

theorem getHeap {h : Heap} {f : Heap → Act β} (heap : ∀ s, inv s → s.heap = h) (hf : (f h).Delivers inv R) :
    (Act.getHeap >>= f).Delivers inv R := by
  intro s hs
  obtain ⟨b, t, run, ht, hb⟩ := hf s hs
  have read : Act.getHeap s = .ok s.heap s := rfl
  exact ⟨b, t, (bind_of_ok read).trans (heap s hs ▸ run), ht, hb⟩

end Delivers

/-- The action answers whether a statement holds. -/
abbrev Decides (inv : Session → Prop) (x : Act Bool) (P : Prop) : Prop :=
  x.Delivers inv fun b => b = true ↔ P

namespace Decides

variable {x y : Act Bool} {P Q : Prop}

theorem pure {b : Bool} (h : b = true ↔ P) : (pure b : Act Bool).Decides inv P :=
  Delivers.pure h

theorem congr (hx : x.Decides inv P) (h : P ↔ Q) : x.Decides inv Q :=
  hx.mono fun _ ha => ha.trans h

/-- The second question is asked only where the answer to the first is yes. -/
theorem and (hx : x.Decides inv P) (hy : P → y.Decides inv Q) :
    (do if ← x then y else return false : Act Bool).Decides inv (P ∧ Q) := by
  refine Delivers.bind hx fun b hb => ?_
  cases b with
  | false => exact .pure (by simp [← hb])
  | true => exact (hy (hb.mp rfl)).congr (by simp [← hb])

theorem allM_cons {p : α → Act Bool} {z : α} {zs : List α} (hz : (p z).Decides inv P)
    (hzs : P → (zs.allM p).Decides inv Q) : ((z :: zs).allM p).Decides inv (P ∧ Q) := by
  refine Delivers.bind hz fun b hb => ?_
  cases b with
  | false => exact .pure (by simp [← hb])
  | true => exact (hzs (hb.mp rfl)).congr (by simp [← hb])

theorem anyM_cons {p : α → Act Bool} {z : α} {zs : List α} (hz : (p z).Decides inv P)
    (hzs : (zs.anyM p).Decides inv Q) : ((z :: zs).anyM p).Decides inv (P ∨ Q) := by
  refine Delivers.bind hz fun b hb => ?_
  cases b with
  | false => exact hzs.congr (by simp [← hb])
  | true => exact .pure (by simp [← hb])

theorem allM_singleton {p : α → Act Bool} {z : α} (hz : (p z).Decides inv P) : ([z].allM p).Decides inv P :=
  (allM_cons hz fun _ => .pure (iff_of_true rfl trivial)).congr (and_iff_left trivial)

theorem anyM_singleton {p : α → Act Bool} {z : α} (hz : (p z).Decides inv P) : ([z].anyM p).Decides inv P :=
  (anyM_cons hz (.pure (iff_of_false Bool.false_ne_true id))).congr (or_iff_left id)

theorem allM {p : α → Act Bool} {P : α → Prop} {zs : List α} (hp : ∀ z ∈ zs, (p z).Decides inv (P z)) :
    (zs.allM p).Decides inv (∀ z ∈ zs, P z) := by
  induction zs with
  | nil => exact .pure (by simp)
  | cons z zs ih =>
    simp only [List.forall_mem_cons] at hp ⊢
    exact .allM_cons hp.1 fun _ => ih hp.2

theorem anyM {p : α → Act Bool} {P : α → Prop} {zs : List α} (hp : ∀ z ∈ zs, (p z).Decides inv (P z)) :
    (zs.anyM p).Decides inv (∃ z ∈ zs, P z) := by
  induction zs with
  | nil => exact .pure (by simp)
  | cons z zs ih =>
    simp only [List.forall_mem_cons] at hp
    exact (anyM_cons hp.1 (ih hp.2)).congr (by simp)

end Decides

end Act

end Conform
