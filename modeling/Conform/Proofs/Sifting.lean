import Conform.Proofs.Identity
import Conform.Proofs.Ranking

/-!
Checked lists as sets. What is common to a checked list and another list, what is left of it without the other, and
what both have together are told by membership, that is by identity or equality. As long as that is an equivalence of
the items and is told, each operator keeps certain items and drops the others, in the order in which they stand, and
the three of them go together as they do for sets.

Main statement: `CheckedList.operators_sift`.
-/
namespace Conform

namespace Sequence

variable {α : Type} {P Q : List α → α → Prop} {before xs ys zs : List α} {v : α}

/-- Whether some items of a list are those that pass a test, in order. The test sees what stands before an item. -/
inductive Sifts (P : List α → α → Prop) : List α → List α → List α → Prop
  | nil {before : List α} : Sifts P before [] []
  | keep {before xs ys : List α} {v : α} (passes : P before v) (rest : Sifts P (before ++ [v]) xs ys) :
    Sifts P before (v :: xs) (v :: ys)
  | drop {before xs ys : List α} {v : α} (fails : ¬P before v) (rest : Sifts P (before ++ [v]) xs ys) :
    Sifts P before (v :: xs) ys

namespace Sifts

theorem unique (first : Sifts P before xs ys) (second : Sifts P before xs zs) : ys = zs := by
  induction first generalizing zs with
  | nil =>
    cases second
    rfl
  | keep passes _ ih =>
    cases second with
    | keep _ rest => rw [ih rest]
    | drop fails => exact absurd passes fails
  | drop fails _ ih =>
    cases second with
    | keep passes => exact absurd passes fails
    | drop _ rest => exact ih rest

theorem sublist (sifts : Sifts P before xs ys) : ys.Sublist xs := by
  induction sifts with
  | nil => exact .slnil
  | keep _ _ ih => exact .cons_cons _ ih
  | drop _ _ ih => exact .cons _ ih

/-- What is kept has passed the test where it stands. -/
theorem passed (sifts : Sifts P before xs ys) (hv : v ∈ ys) : ∃ between, P (before ++ between) v := by
  induction sifts with
  | nil => cases hv
  | keep passes _ ih =>
    obtain rfl | hv := List.mem_cons.mp hv
    · exact ⟨[], by rwa [List.append_nil]⟩
    · obtain ⟨between, passes⟩ := ih hv
      exact ⟨_, by rwa [List.append_assoc] at passes⟩
  | drop _ _ ih =>
    obtain ⟨between, passes⟩ := ih hv
    exact ⟨_, by rwa [List.append_assoc] at passes⟩

/-- One list after the other is sifted as both together. -/
theorem append {as bs : List α} (first : Sifts P before xs as) (second : Sifts P (before ++ xs) ys bs) :
    Sifts P before (xs ++ ys) (as ++ bs) := by
  induction first with
  | nil => simpa using second
  | keep passes _ ih => exact .keep passes (ih (by simpa using second))
  | drop fails _ ih => exact .drop fails (ih (by simpa using second))

/-- Two tests that agree keep the same items. -/
theorem congr {before' : List α} (sifts : Sifts P before xs ys)
    (same : ∀ between, ∀ v ∈ xs, P (before ++ between) v ↔ Q (before' ++ between) v) : Sifts Q before' xs ys := by
  induction sifts generalizing before' with
  | nil => exact .nil
  | @keep before xs ys w passes _ ih =>
    have here : P before w ↔ Q before' w := by simpa using same [] w List.mem_cons_self
    refine .keep (here.mp passes) (ih fun between v hv => ?_)
    simpa using same (w :: between) v (List.mem_cons_of_mem _ hv)
  | @drop before xs ys w fails _ ih =>
    have here : P before w ↔ Q before' w := by simpa using same [] w List.mem_cons_self
    refine .drop (mt here.mpr fails) (ih fun between v hv => ?_)
    simpa using same (w :: between) v (List.mem_cons_of_mem _ hv)

/-- Where every item passes, every item is kept. -/
theorem whole (passes : ∀ as v bs, xs = as ++ v :: bs → P (before ++ as) v) : Sifts P before xs xs := by
  induction xs generalizing before with
  | nil => exact .nil
  | cons w xs ih =>
    refine .keep (by simpa using passes [] w xs rfl) (ih fun as v bs split => ?_)
    simpa using passes (w :: as) v bs (by rw [split, List.cons_append])

/-- Where no item passes, none is kept. -/
theorem none (fails : ∀ between, ∀ v ∈ xs, ¬P (before ++ between) v) : Sifts P before xs [] := by
  induction xs generalizing before with
  | nil => exact .nil
  | cons w xs ih =>
    refine .drop (by simpa using fails [] w List.mem_cons_self) (ih fun between v hv => ?_)
    simpa using fails (w :: between) v (List.mem_cons_of_mem _ hv)

end Sifts

theorem exists_sifts (P : List α → α → Prop) (before xs : List α) : ∃ ys, Sifts P before xs ys := by
  induction xs generalizing before with
  | nil => exact ⟨[], .nil⟩
  | cons v xs ih =>
    obtain ⟨ys, sifts⟩ := ih (before ++ [v])
    by_cases passes : P before v
    · exact ⟨v :: ys, .keep passes sifts⟩
    · exact ⟨ys, .drop passes sifts⟩

end Sequence

/-- Whether all lists that are there, plain ones and checked ones, stay as they are. -/
structure Session.Unmoved (s t : Session) : Prop where
  lists : ∀ i < s.heap.lists.size, t.heap.lists[i]? = s.heap.lists[i]?
  checked : ∀ i < s.heap.checked.size, t.heap.checked[i]? = s.heap.checked[i]?

namespace Session.Unmoved

variable {s t u : Session}

theorem refl (s : Session) : s.Unmoved s :=
  ⟨fun _ _ => rfl, fun _ _ => rfl⟩

theorem lists_size (st : s.Unmoved t) {i : Handle} (there : i < s.heap.lists.size) : i < t.heap.lists.size := by
  have same := st.lists i there
  rw [Array.getElem?_eq_getElem there] at same
  exact (Array.getElem?_eq_some_iff.mp same).1

theorem checked_size (st : s.Unmoved t) {i : Handle} (there : i < s.heap.checked.size) : i < t.heap.checked.size := by
  have same := st.checked i there
  rw [Array.getElem?_eq_getElem there] at same
  exact (Array.getElem?_eq_some_iff.mp same).1

theorem trans (st : s.Unmoved t) (tu : t.Unmoved u) : s.Unmoved u where
  lists i there := (tu.lists i (st.lists_size there)).trans (st.lists i there)
  checked i there := (tu.checked i (st.checked_size there)).trans (st.checked i there)

theorem list (st : s.Unmoved t) {i : Handle} (there : i < s.heap.lists.size) : t.heap.list i = s.heap.list i := by
  simp only [Heap.list, st.lists i there]

theorem checkedList (st : s.Unmoved t) {i : Handle} (there : i < s.heap.checked.size) :
    t.heap.checkedList i = s.heap.checkedList i := by
  simp only [Heap.checkedList, st.checked i there]

theorem newList (s : Session) (vs : List Value) : s.Unmoved { s with heap.lists := s.heap.lists.push vs } where
  lists _ there := Array.getElem?_push_lt there ▸ (Array.getElem?_eq_getElem there).symm
  checked _ _ := rfl

theorem newChecked (s : Session) (l : CheckedList) :
    s.Unmoved { s with heap.checked := s.heap.checked.push l } where
  lists _ _ := rfl
  checked _ there := Array.getElem?_push_lt there ▸ (Array.getElem?_eq_getElem there).symm

end Session.Unmoved

namespace CheckedList

open Value Sequence

/-- Whether a list holds an item that counts as a value. -/
def Within (R : Value → Value → Prop) (v : Value) (items : List Value) : Prop :=
  ∃ a ∈ items, R a v

/-- Whether identity or equality is told of all items in every session of a kind, and is an equivalence of them. -/
structure Equates (inv : Session → Prop) (items : List Value) (R : Value → Value → Prop) : Prop where
  told : ∀ a ∈ items, ∀ b ∈ items, ∀ s, inv s → ∃ r, isAlike a b s.heap = .ok r ∧ (r = true ↔ R a b)
  refl : ∀ a ∈ items, R a a
  symm : ∀ a ∈ items, ∀ b ∈ items, R a b → R b a
  trans : ∀ a ∈ items, ∀ b ∈ items, ∀ d ∈ items, R a b → R b d → R a d

variable {inv : Session → Prop} {R : Value → Value → Prop} {s t : Session} {items xs ys os before kept : List Value}
  {v : Value}

section Membership

theorem Within.append : Within R v (xs ++ ys) ↔ Within R v xs ∨ Within R v ys := by
  simp only [Within, List.mem_append, or_and_right, exists_or]

theorem Within.singleton {a : Value} : Within R v [a] ↔ R a v := by
  simp [Within]

theorem Within.cons {a : Value} : Within R v (a :: xs) ↔ R a v ∨ Within R v xs := by
  simp [Within]

theorem Within.mono (within : Within R v xs) (sub : ∀ a ∈ xs, a ∈ ys) : Within R v ys := by
  obtain ⟨a, ha, alike⟩ := within
  exact ⟨a, sub a ha, alike⟩

theorem Equates.mono (equates : Equates inv items R) (sub : ∀ a ∈ xs, a ∈ items) : Equates inv xs R where
  told a ha b hb := equates.told a (sub a ha) b (sub b hb)
  refl a ha := equates.refl a (sub a ha)
  symm a ha b hb := equates.symm a (sub a ha) b (sub b hb)
  trans a ha b hb d hd := equates.trans a (sub a ha) b (sub b hb) d (sub d hd)

theorem Equates.within (equates : Equates inv items R) (hv : v ∈ items) (sub : v ∈ xs) : Within R v xs :=
  ⟨v, sub, equates.refl v hv⟩

/-- What is alike a member is a member. -/
theorem Equates.within_of_alike (equates : Equates inv items R) {a : Value} (ha : a ∈ items) (hv : v ∈ items)
    (sub : ∀ b ∈ xs, b ∈ items) (alike : R a v) (within : Within R a xs) : Within R v xs := by
  obtain ⟨b, hb, same⟩ := within
  exact ⟨b, hb, equates.trans b (sub b hb) a ha v hv same alike⟩

/-- Membership is told. -/
theorem memberOf_told (equates : Equates inv items R) (hs : inv s) (hv : v ∈ items) (sub : ∀ b ∈ xs, b ∈ items) :
    ∃ r, memberOf isAlike v xs s.heap = .ok r ∧ (r = true ↔ Within R v xs) := by
  induction xs with
  | nil => exact ⟨false, rfl, by simp [Within]⟩
  | cons a xs ih =>
    rw [List.forall_mem_cons] at sub
    obtain ⟨r, told, tells⟩ := equates.told a sub.1 v hv s hs
    cases r with
    | true =>
      refine ⟨true, Look.bind_eq_ok.mpr ⟨true, told, rfl⟩, ?_⟩
      simp [Within.cons, tells.mp rfl]
    | false =>
      obtain ⟨r, rest, tells'⟩ := ih sub.2
      refine ⟨r, Look.bind_eq_ok.mpr ⟨false, told, rest⟩, ?_⟩
      simp [Within.cons, tells', ← tells]

end Membership

section Loops

/-- A loop that appends what passes a test sifts. The invariant ties what has been kept to what has been seen. -/
theorem foldlM_sifts {P : List Value → Value → Prop} {step : List Value → Value → Look (List Value)} {h : Heap}
    (ties : List Value → List Value → Prop)
    (stepped : ∀ v ∈ items, ∀ before kept, ties before kept → ∃ new, step kept v h = .ok (kept ++ new) ∧
      Sifts P before [v] new ∧ ties (before ++ [v]) (kept ++ new)) (tied : ties before kept) :
    ∃ new, items.foldlM step kept h = .ok (kept ++ new) ∧ Sifts P before items new := by
  induction items generalizing before kept with
  | nil =>
    refine ⟨[], ?_, .nil⟩
    rw [List.append_nil]
    rfl
  | cons v items ih =>
    rw [List.forall_mem_cons] at stepped
    obtain ⟨new, run, sifts, tied⟩ := stepped.1 before kept tied
    obtain ⟨more, rest, sifts'⟩ := ih stepped.2 tied
    refine ⟨new ++ more, ?_, sifts.append sifts'⟩
    rw [List.foldlM_cons, ← List.append_assoc]
    exact Look.bind_eq_ok.mpr ⟨_, run, rest⟩

/-- What ties the items that have been kept to those that have been seen: they are among them, and whatever is wanted
of the latter counts as one of the former. -/
structure Represents (R : Value → Value → Prop) (wanted : Value → Prop) (items before kept : List Value) : Prop where
  known : ∀ a ∈ before, a ∈ items
  seen : ∀ a ∈ kept, a ∈ before
  stands : ∀ a ∈ before, wanted a → Within R a kept

variable {wanted : Value → Prop}

/-- What is wanted and new goes to the others that are kept. -/
theorem Represents.keep (equates : Equates inv items R) (ties : Represents R wanted items before kept)
    (hv : v ∈ items) : Represents R wanted items (before ++ [v]) (kept ++ [v]) where
  known := by simpa [or_imp, forall_and] using ⟨ties.known, hv⟩
  seen a ha := by
    obtain ha | ha := List.mem_append.mp ha
    · exact List.mem_append_left _ (ties.seen a ha)
    · exact List.mem_append_right _ ha
  stands a ha wants := by
    rw [Within.append]
    obtain ha | ha := List.mem_append.mp ha
    · exact .inl (ties.stands a ha wants)
    · obtain rfl := List.mem_singleton.mp ha
      exact .inr (equates.within hv ha)

/-- What is not wanted, or counts as one that is kept, is left out. -/
theorem Represents.drop (ties : Represents R wanted items before kept) (hv : v ∈ items)
    (out : wanted v → Within R v kept) : Represents R wanted items (before ++ [v]) kept where
  known := by simpa [or_imp, forall_and] using ⟨ties.known, hv⟩
  seen a ha := List.mem_append_left _ (ties.seen a ha)
  stands a ha wants := by
    obtain ha | ha := List.mem_append.mp ha
    · exact ties.stands a ha wants
    · obtain rfl := List.mem_singleton.mp ha
      exact out wants

/-- Of what is wanted, what counts as one that has been seen counts as one that has been kept. -/
theorem Represents.within_iff (equates : Equates inv items R) (ties : Represents R wanted items before kept)
    (lasts : ∀ a ∈ items, ∀ b ∈ items, R a b → wanted b → wanted a) (hv : v ∈ items) (wants : wanted v) :
    Within R v kept ↔ Within R v before := by
  constructor
  · intro within
    exact within.mono ties.seen
  · rintro ⟨a, ha, alike⟩
    have ha' := ties.known a ha
    have sub (b : Value) (hb : b ∈ kept) := ties.known b (ties.seen b hb)
    exact equates.within_of_alike ha' hv sub alike (ties.stands a ha (lasts a ha' v hv alike wants))

/-- An item is added to what is kept if it is new. -/
theorem addUnique_told (equates : Equates inv items R) (hs : inv s) (hv : v ∈ items) (sub : ∀ b ∈ kept, b ∈ items) :
    Within R v kept ∧ addUnique kept v s.heap = .ok kept ∨
      ¬Within R v kept ∧ addUnique kept v s.heap = .ok (kept ++ [v]) := by
  obtain ⟨r, told, tells⟩ := memberOf_told equates hs hv sub
  cases r with
  | true => exact .inl ⟨tells.mp rfl, Look.bind_eq_ok.mpr ⟨true, told, rfl⟩⟩
  | false => exact .inr ⟨by simp [← tells], Look.bind_eq_ok.mpr ⟨false, told, rfl⟩⟩

/-- One turn of the loop over items of which some are wanted. -/
theorem turn_sifts {step : List Value → Value → Look (List Value)} (equates : Equates inv items R) (hs : inv s)
    (lasts : ∀ a ∈ items, ∀ b ∈ items, R a b → wanted b → wanted a) (hv : v ∈ items)
    (ties : Represents R wanted items before kept)
    (turned : wanted v ∧ step kept v s.heap = addUnique kept v s.heap ∨ ¬wanted v ∧ step kept v s.heap = .ok kept) :
    ∃ new, step kept v s.heap = .ok (kept ++ new) ∧
      Sifts (fun before v => wanted v ∧ ¬Within R v before) before [v] new ∧
      Represents R wanted items (before ++ [v]) (kept ++ new) := by
  obtain ⟨wants, turned⟩ | ⟨unwanted, turned⟩ := turned
  · have same := ties.within_iff equates lasts hv wants
    obtain ⟨within, added⟩ | ⟨new, added⟩ := addUnique_told equates hs hv fun b hb => ties.known b (ties.seen b hb)
    · refine ⟨[], ?_, .drop (fun passes => passes.2 (same.mp within)) .nil, ?_⟩
      · rw [turned, added, List.append_nil]
      · rw [List.append_nil]
        exact ties.drop hv fun _ => within
    · exact ⟨[v], turned.trans added, .keep ⟨wants, mt same.mpr new⟩ .nil, ties.keep equates hv⟩
  · refine ⟨[], ?_, .drop (fun passes => unwanted passes.1) .nil, ?_⟩
    · rw [turned, List.append_nil]
    · rw [List.append_nil]
      exact ties.drop hv fun wants => absurd wants unwanted

theorem represents_nil : Represents R wanted items [] [] :=
  ⟨by simp, by simp, by simp⟩

theorem unique_sifts (equates : Equates inv items R) (hs : inv s) (sub : ∀ a ∈ xs, a ∈ items) :
    ∃ new, unique xs s.heap = .ok new ∧ Sifts (fun before v => ¬Within R v before) [] xs new := by
  have turned : ∀ v ∈ xs, ∀ before kept, Represents R (fun _ => True) items before kept →
      ∃ new, addUnique kept v s.heap = .ok (kept ++ new) ∧ Sifts _ before [v] new ∧ Represents R _ items _ _ :=
    fun v hv before kept ties =>
      turn_sifts equates hs (fun _ _ _ _ _ => id) (sub v hv) ties (.inl ⟨trivial, rfl⟩)
  obtain ⟨new, run, sifts⟩ := foldlM_sifts _ turned represents_nil
  exact ⟨new, run, sifts.congr fun between v hv => by simp⟩

theorem uniqueCommon_sifts (equates : Equates inv items R) (hs : inv s) (sub : ∀ a ∈ xs, a ∈ items)
    (sub' : ∀ a ∈ os, a ∈ items) :
    ∃ new, uniqueCommon os xs s.heap = .ok new ∧
      Sifts (fun before v => Within R v os ∧ ¬Within R v before) [] xs new := by
  apply foldlM_sifts (Represents R (fun v => Within R v os) items) _ represents_nil
  intro v hv before kept ties
  apply turn_sifts equates hs _ (sub v hv) ties
  · obtain ⟨r, told, tells⟩ := memberOf_told equates hs (sub v hv) sub'
    cases r with
    | true => exact .inl ⟨tells.mp rfl, Look.bind_of_ok told⟩
    | false => exact .inr ⟨by simp [← tells], Look.bind_eq_ok.mpr ⟨false, told, rfl⟩⟩
  · intro a ha b hb alike
    exact equates.within_of_alike hb ha sub' (equates.symm a ha b hb alike)

/-- To filter by a test that is told sifts. -/
theorem filterM_sifts {test : Value → Look Bool} {P : Value → Prop} {h : Heap}
    (told : ∀ v ∈ xs, ∃ r, test v h = .ok r ∧ (r = true ↔ P v)) :
    ∃ new, xs.filterM test h = .ok new ∧ Sifts (fun _ => P) before xs new := by
  have kept (before ys : List Value) :
      ∃ new, xs.filterAuxM test ys h = .ok (new.reverse ++ ys) ∧ Sifts (fun _ => P) before xs new := by
    induction xs generalizing before ys with
    | nil => exact ⟨[], rfl, .nil⟩
    | cons v xs ih =>
      rw [List.forall_mem_cons] at told
      obtain ⟨r, tested, tells⟩ := told.1
      obtain ⟨new, run, sifts⟩ := ih told.2 (before ++ [v]) (cond r (v :: ys) ys)
      rw [List.filterAuxM, Look.bind_of_ok tested, run]
      cases r with
      | true => exact ⟨v :: new, by simp, .keep (tells.mp rfl) sifts⟩
      | false => exact ⟨new, rfl, .drop (by simp [← tells]) sifts⟩
  obtain ⟨new, run, sifts⟩ := kept before []
  refine ⟨new, ?_, sifts⟩
  rw [List.filterM, Look.bind_of_ok run]
  simp

theorem keepAbsent_sifts (equates : Equates inv items R) (hs : inv s) (sub : ∀ a ∈ xs, a ∈ items)
    (sub' : ∀ a ∈ os, a ∈ items) :
    ∃ new, keepAbsent os xs s.heap = .ok new ∧ Sifts (fun _ v => ¬Within R v os) [] xs new := by
  apply filterM_sifts
  intro v hv
  obtain ⟨r, told, tells⟩ := memberOf_told equates hs (sub v hv) sub'
  refine ⟨!r, Look.bind_of_ok told, ?_⟩
  rw [← tells]
  cases r <;> simp

end Loops

section Laws

variable {wanted : Value → Prop} {l : List Value}

/-- What is kept only while it is new is kept once. -/
theorem distinct_of_sifts {P : List Value → Value → Prop} (sifts : Sifts P before xs ys)
    (new : ∀ before v, P before v → ¬Within R v before) : ys.Pairwise fun a b => ¬R a b := by
  induction sifts with
  | nil => exact .nil
  | drop _ _ ih => exact ih
  | @keep before xs ys v _ rest ih =>
    refine .cons (fun w hw alike => ?_) ih
    obtain ⟨between, passes⟩ := rest.passed hw
    exact new _ w passes ⟨v, by simp, alike⟩

/-- Whatever is wanted counts as something that is kept, unless it was seen before. -/
theorem sifts_represent (equates : Equates inv items R)
    (sifts : Sifts (fun before v => wanted v ∧ ¬Within R v before) before xs ys)
    (lasts : ∀ a ∈ items, ∀ b ∈ items, R a b → wanted b → wanted a) (sub : ∀ a ∈ before, a ∈ items)
    (sub' : ∀ a ∈ xs, a ∈ items) {w : Value} (hw : w ∈ items) (wants : wanted w) (within : Within R w xs) :
    Within R w ys ∨ Within R w before := by
  induction sifts with
  | nil =>
    obtain ⟨a, ha, -⟩ := within
    cases ha
  | @keep before xs ys v passes _ ih =>
    have here (alike : R v w) : Within R w (v :: ys) := ⟨v, List.mem_cons_self, alike⟩
    rw [Within.cons] at within
    obtain alike | within := within
    · exact .inl (here alike)
    · rw [List.forall_mem_cons] at sub'
      obtain within | within := ih (by simpa [or_imp, forall_and] using ⟨sub, sub'.1⟩) sub'.2 within
      · exact .inl (Within.cons.mpr (.inr within))
      · rw [Within.append, Within.singleton] at within
        exact within.symm.imp here id
  | @drop before xs ys v fails _ ih =>
    rw [List.forall_mem_cons] at sub'
    have here (alike : R v w) : Within R w before := by
      have seen : Within R v before := by
        by_contra unseen
        exact fails ⟨lasts v sub'.1 w hw alike wants, unseen⟩
      exact equates.within_of_alike sub'.1 hw sub alike seen
    rw [Within.cons] at within
    obtain alike | within := within
    · exact .inr (here alike)
    · obtain within | within := ih (by simpa [or_imp, forall_and] using ⟨sub, sub'.1⟩) sub'.2 within
      · exact .inl within
      · rw [Within.append, Within.singleton] at within
        exact .inr (within.elim id here)

/-- What a list has in common with another one are the members of both. -/
theorem within_common (equates : Equates inv items R) (sub : ∀ a ∈ xs, a ∈ items) (sub' : ∀ a ∈ os, a ∈ items)
    (sifts : Sifts (fun before v => Within R v os ∧ ¬Within R v before) [] xs ys) {w : Value} (hw : w ∈ items) :
    Within R w ys ↔ Within R w xs ∧ Within R w os := by
  have kept (a : Value) (ha : a ∈ ys) : a ∈ xs := sifts.sublist.subset ha
  constructor
  · rintro ⟨a, ha, alike⟩
    obtain ⟨between, passes⟩ := sifts.passed ha
    exact ⟨⟨a, kept a ha, alike⟩, equates.within_of_alike (sub a (kept a ha)) hw sub' alike passes.1⟩
  · rintro ⟨within, common⟩
    have lasts (a : Value) (ha : a ∈ items) (b : Value) (hb : b ∈ items) (alike : R a b) (within : Within R b os) :
        Within R a os := equates.within_of_alike hb ha sub' (equates.symm a ha b hb alike) within
    obtain within | ⟨a, ha, -⟩ := sifts_represent equates sifts lasts (by simp) sub hw common within
    · exact within
    · cases ha

/-- What is left of a list without another one are the items that are no members of the other one. -/
theorem within_absent (equates : Equates inv items R) (sub : ∀ a ∈ xs, a ∈ items) (sub' : ∀ a ∈ os, a ∈ items)
    (sifts : Sifts (fun _ v => ¬Within R v os) before xs ys) {w : Value} (hw : w ∈ xs) :
    Within R w ys ↔ ¬Within R w os := by
  constructor
  · rintro ⟨a, ha, alike⟩ common
    obtain ⟨between, absent⟩ := sifts.passed ha
    have ha' := sub a (sifts.sublist.subset ha)
    have hw' := sub w hw
    exact absent (equates.within_of_alike hw' ha' sub' (equates.symm a ha' w hw' alike) common)
  · intro absent
    have kept : w ∈ ys := by
      clear sub
      induction sifts with
      | nil => exact hw
      | keep _ _ ih =>
        obtain rfl | hw := List.mem_cons.mp hw
        · exact List.mem_cons_self
        · exact List.mem_cons_of_mem _ (ih hw)
      | drop fails _ ih =>
        obtain rfl | hw := List.mem_cons.mp hw
        · exact absurd absent fails
        · exact ih hw
    exact equates.within (sub w hw) kept

/-- The first occurrences of two lists together: those of the first, and of the second those that the first one
does not have. -/
theorem sifts_union {firsts extra : List Value}
    (sifts : Sifts (fun before v => ¬Within R v before) [] xs firsts)
    (sifts' : Sifts (fun before v => ¬Within R v xs ∧ ¬Within R v before) [] ys extra) :
    Sifts (fun before v => ¬Within R v before) [] (xs ++ ys) (firsts ++ extra) := by
  apply sifts.append
  apply sifts'.congr
  intro between v _
  rw [List.nil_append, List.nil_append, Within.append, not_or]

/-- Once the members of a list have been added, to add them again changes nothing. -/
theorem sifts_again (equates : Equates inv items R) {all : List Value} (sub : ∀ a ∈ xs ++ os, a ∈ items)
    (sifts : Sifts (fun before v => ¬Within R v before) [] (xs ++ os) all) :
    Sifts (fun before v => ¬Within R v before) [] (all ++ os) all := by
  have distinct : all.Pairwise fun a b => ¬R a b := distinct_of_sifts sifts fun _ _ => id
  have first : Sifts (fun before v => ¬Within R v before) [] all all := by
    apply Sifts.whole
    rintro as v bs rfl ⟨a, ha, alike⟩
    rw [List.pairwise_append] at distinct
    exact distinct.2.2 a (by simpa using ha) v List.mem_cons_self alike
  have second : Sifts (fun before v => ¬Within R v before) all os [] := by
    apply Sifts.none
    intro between v hv new
    have there : v ∈ xs ++ os := List.mem_append_right _ hv
    have wanting : Sifts (fun before v => True ∧ ¬Within R v before) [] (xs ++ os) all :=
      sifts.congr fun between v _ => by simp
    obtain within | ⟨a, ha, -⟩ := sifts_represent equates wanting (fun _ _ _ _ _ => id) (by simp) sub (sub v there)
      trivial (equates.within (sub v there) there)
    · exact new (Within.append.mpr (.inl within))
    · cases ha
  simpa using first.append second

end Laws

/-- The lists that a checked list is combined with, plain ones and checked ones, and what they hold. -/
inductive Operand (os : List Value) (s : Session) : Value → Prop
  | plain {kind : Flavour} {i : Handle} (there : i < s.heap.lists.size) (held : s.heap.list i = os) :
    Operand os s (.list kind i)
  | checked {cls : Class} {i : Handle} (there : i < s.heap.checked.size) (held : (s.heap.checkedList i).items = os) :
    Operand os s (.checked cls i)

/-- Whether what a list holds is acceptable for a type in all sessions of a kind: its items match, the comparison of
the types comes to an answer if it is a checked list, and both leave the lists alone. New lists do not lead out of
the sessions. -/
structure Joinable (functions : Library) (n : Nat) (inv : Session → Prop) (d : Descriptor) (other : Value)
    (os : List Value) : Prop where
  newList : ∀ s vs, inv s → inv { s with heap.lists := s.heap.lists.push vs }
  newChecked : ∀ s l, inv s → inv { s with heap.checked := s.heap.checked.push l }
  accepted : ∀ v ∈ os, ∀ s, inv s →
    ∃ t, (Engine.ofDepth functions n).accepts d v s = .ok true t ∧ inv t ∧ s.Unmoved t
  compared : ∀ cls i, other = .checked cls i → ∀ s, inv s →
    ∃ below t, (Engine.ofDepth functions (n + 1)).subtype (s.heap.checkedList i).element d s = .ok below t ∧
      inv t ∧ s.Unmoved t

section Joining

variable {functions : Library} {n : Nat} {inv : Session → Prop} {c : Self} {l : CheckedList} {id : Ident}
  {s t : Session} {d : Descriptor} {other : Value} {os vs : List Value} {operation : String}

theorem Operand.unmoved (operand : Operand os s other) (st : s.Unmoved t) : Operand os t other := by
  cases operand with
  | plain there held => exact .plain (st.lists_size there) ((st.list there).trans held)
  | checked there held => exact .checked (st.checked_size there) (by rw [st.checkedList there, held])

theorem Operand.values (operand : Operand os s other) : operandValues other operation s = .ok os s := by
  cases operand with
  | plain _ held | checked _ held =>
    subst held
    rfl

theorem allM_accepted (accepted : ∀ v ∈ vs, ∀ s, inv s →
      ∃ t, (Engine.ofDepth functions n).accepts d v s = .ok true t ∧ inv t ∧ s.Unmoved t) (hs : inv s) :
    ∃ t, vs.allM ((Engine.ofDepth functions n).accepts d) s = .ok true t ∧ inv t ∧ s.Unmoved t := by
  induction vs generalizing s with
  | nil => exact ⟨s, rfl, hs, .refl s⟩
  | cons v vs ih =>
    rw [List.forall_mem_cons] at accepted
    obtain ⟨t, asked, ht, st⟩ := accepted.1 s hs
    obtain ⟨u, rest, hu, tu⟩ := ih accepted.2 ht
    exact ⟨u, (Act.bind_of_ok asked).trans rest, hu, st.trans tu⟩

/-- A copy of acceptable items is let in. -/
theorem copy_joined (joinable : Joinable functions n inv l.element other os) (here : Holding c l inv s)
    (typed : l.collection = .collection id .array l.element) :
    ∃ t, (do
      let whole ← Act.newList os
      c.vet (Engine.ofDepth functions (n + 1)) whole (← c.state).collection operation (some 0)
      whole.items : Act (List Value)) s = .ok os t ∧ inv t ∧ s.Unmoved t := by
  obtain ⟨hs, there, held⟩ := here
  let s' : Session := { s with heap.lists := s.heap.lists.push os }
  have ss' : s.Unmoved s' := .newList s os
  have new : s.heap.lists.size < s'.heap.lists.size := by simp [s']
  have copy : s'.heap.list s.heap.lists.size = os := by simp [s', list_push]
  obtain ⟨t, asked, ht, s't⟩ := allM_accepted joinable.accepted (joinable.newList s os hs)
  have accepted : (Engine.ofDepth functions (n + 1)).accepts l.collection (.list .base s.heap.lists.size) s' =
      .ok true t := by
    have question : Op.askList functions n l.element s.heap.lists.size s' =
        (s'.heap.list s.heap.lists.size).allM ((Engine.ofDepth functions n).accepts l.element) s' := rfl
    rw [accepts_list typed .base, question, copy, asked]
  have state : c.state s' = .ok l s' := by
    rw [← held, ← ss'.checkedList there]
    rfl
  have made : Act.newList os s = .ok (.list .base s.heap.lists.size) s' := rfl
  refine ⟨t, ?_, ht, ss'.trans s't⟩
  rw [Act.bind_of_ok made, Act.bind_of_ok state, Act.bind_of_ok (Self.vet_passed accepted)]
  change EStateM.Result.ok (t.heap.list s.heap.lists.size) t = _
  rw [s't.list new, copy]

/-- Acceptable items are let in. -/
theorem foreign_joined (joinable : Joinable functions n inv l.element other os) (here : Holding c l inv s)
    (typed : l.collection = .collection id .array l.element) (operand : Operand os s other) :
    ∃ t, c.foreignValues (Engine.ofDepth functions (n + 1)) other operation s = .ok os t ∧ inv t ∧ s.Unmoved t := by
  unfold Self.foreignValues
  rw [Act.bind_of_ok operand.values]
  cases operand with
  | plain => exact copy_joined joinable here typed
  | @checked cls i there held =>
    obtain ⟨below, t, compared, ht, st⟩ := joinable.compared cls i rfl s here.1
    have trusts : c.trusts (Engine.ofDepth functions (n + 1)) (.checked cls i) s = .ok below t := by
      rw [← here.2.2] at compared
      exact compared
    rw [Act.bind_of_ok trusts]
    cases below with
    | true => exact ⟨t, rfl, ht, st⟩
    | false =>
      have there' : Holding c l inv t :=
        ⟨ht, st.checked_size here.2.1, (st.checkedList here.2.1).trans here.2.2⟩
      obtain ⟨u, joined, hu, tu⟩ := copy_joined joinable there' typed
      exact ⟨u, joined, hu, st.trans tu⟩

end Joining

section Equality

variable {h : Heap} {vs : List Value}

theorem allAlike_refl {eq : Value → Value → Look Value} : allAlike (alike eq) vs vs h = .ok true := by
  induction vs with
  | nil => rfl
  | cons v vs ih =>
    rw [allAlike, Look.bind_of_ok (alike_refl v)]
    exact ih

/-- Checked lists of the same items are equal, whether or not the items are equal to themselves. -/
theorem equal_of_same {cls : Class} {i j : Handle} (first : (h.checkedList i).items = vs)
    (second : (h.checkedList j).items = vs) :
    Value.equal (.checked cls i) (.checked cls j) h = .ok (.bool true) := by
  have asked : reflectedFirst (.checked cls i) (.checked cls j) = false := by simp [reflectedFirst, classOf]
  have alike (eq : Value → Value → Look Value) :
      sameItems (alike eq) (h.checkedList i).items (h.checkedList j).items h = .ok true := by
    rw [first, second, sameItems, if_neg (by simp)]
    exact allAlike_refl
  have own (eq : Value → Value → Look Value) :
      ownEqual? eq (.checked cls i) (.checked cls j) h = .ok (some (.bool true)) :=
    Look.bind_of_ok (alike eq)
  rw [equal, valueDepth, equalAt, askBoth, asked]
  exact Look.bind_of_ok (own _)

end Equality

/-- Whether a new list of some items has been made from a list, which is still as it was. -/
structure Made (c : Self) (l : CheckedList) (ys : List Value) (i : Handle) (t : Session) : Prop where
  new : i ≠ c.at_
  made : t.heap.checkedList i = { l with items := ys, frozen := false }
  kept : t.heap.checkedList c.at_ = l

section Running

variable {e : Engine} {c : Self} {l : CheckedList} {inv : Session → Prop} {s : Session}

theorem made_with (here : Holding c l inv s) (ys : List Value) :
    ∃ t, c.with ys s = .ok (.checked c.cls s.heap.checked.size) t ∧ Made c l ys s.heap.checked.size t ∧
      t = { s with heap.checked := s.heap.checked.push { l with items := ys, frozen := false } } := by
  obtain ⟨-, there, rfl⟩ := here
  refine ⟨_, rfl, ⟨Nat.ne_of_gt there, ?_, ?_⟩, rfl⟩
  · rw [checkedList_push, if_pos rfl]
  · rw [checkedList_push, if_neg (Nat.ne_of_lt there)]

end Running

/-- How the operators that take lists for sets sift the items of a checked list and those of another list. The items
are told apart by `R`; those that come out of the operators are `both`, `rest`, and `firsts` with `extra`.

- `common`: what both lists have is a new list of the first occurrences in the one of what the other one has.
- `left`: what is left without the other list is a new list of all items that the other one does not have.
- `united`: what both have together is a new list of the first occurrences in the one, and then of those in the other
  that the one does not have. To add the other list once more gives an equal list.
- `parted`: each item is a member of either what both have or what is left, and of one of them only. -/
structure Operates (functions : Library) (n : Nat) (inv : Session → Prop) (c : Self) (l : CheckedList) (s : Session)
    (other : Value) (os : List Value) (R : Value → Value → Prop) (both rest firsts extra : List Value) : Prop where
  common : ∃ i t, (Op.and other).run (Engine.ofDepth functions (n + 1)) c s = .ok (.checked c.cls i) t ∧
    Made c l both i t
  commonFirsts : Sifts (fun before v => Within R v os ∧ ¬Within R v before) [] l.items both
  commonSublist : both.Sublist l.items
  commonDistinct : both.Pairwise fun a b => ¬R a b
  commonMembers : ∀ v ∈ l.items ++ os, Within R v both ↔ Within R v l.items ∧ Within R v os
  left : ∃ i t, (Op.sub other).run (Engine.ofDepth functions (n + 1)) c s = .ok (.checked c.cls i) t ∧
    Made c l rest i t
  leftAll : Sifts (fun _ v => ¬Within R v os) [] l.items rest
  leftSublist : rest.Sublist l.items
  united : Joinable functions n inv l.element other os →
    ∃ i t, (Op.or other).run (Engine.ofDepth functions (n + 1)) c s = .ok (.checked c.cls i) t ∧
      Made c l (firsts ++ extra) i t ∧
      ∃ j u, (Op.or other).run (Engine.ofDepth functions (n + 1)) ⟨c.cls, i⟩ t = .ok (.checked c.cls j) u ∧
        Made ⟨c.cls, i⟩ { l with items := firsts ++ extra, frozen := false } (firsts ++ extra) j u ∧
        Value.equal (.checked c.cls j) (.checked c.cls i) u.heap = .ok (.bool true)
  unitedFirsts : Sifts (fun before v => ¬Within R v before) [] l.items firsts
  unitedExtra : Sifts (fun before v => ¬Within R v l.items ∧ ¬Within R v before) [] os extra
  unitedDistinct : (firsts ++ extra).Pairwise fun a b => ¬R a b
  parted : ∀ v ∈ l.items, Xor (Within R v both) (Within R v rest)

section Operators

variable {functions : Library} {n : Nat} {inv : Session → Prop} {c : Self} {l : CheckedList} {id : Ident}
  {s : Session} {other : Value} {os : List Value} {R : Value → Value → Prop}

section Adding

variable {all : List Value} (equates : Equates inv (l.items ++ os) R)
  (joinable : Joinable functions n inv l.element other os) (here : Holding c l inv s)
  (typed : l.collection = .collection id .array l.element) (operand : Operand os s other)
  (sifts : Sifts (fun before v => ¬Within R v before) [] (l.items ++ os) all)
include equates joinable here typed operand sifts

/-- Acceptable items are added to those of a list, all without repetitions. -/
theorem run_or :
    ∃ i t, (Op.or other).run (Engine.ofDepth functions (n + 1)) c s = .ok (.checked c.cls i) t ∧ Made c l all i t ∧
      i < t.heap.checked.size ∧ inv t ∧ s.Unmoved t := by
  obtain ⟨t, joined, ht, st⟩ :
      ∃ t, c.foreignValues (Engine.ofDepth functions (n + 1)) other "|" s = .ok os t ∧ inv t ∧ s.Unmoved t :=
    foreign_joined joinable here typed operand
  have there : Holding c l inv t := ⟨ht, st.checked_size here.2.1, (st.checkedList here.2.1).trans here.2.2⟩
  have known : c.state s = .ok (s.heap.checkedList c.at_) s := rfl
  obtain ⟨all', found, sifts'⟩ := unique_sifts equates ht fun a ha => ha
  obtain rfl := sifts'.unique sifts
  have united : (liftM (unique (l.items ++ os)) : Act (List Value)) t = .ok all' t := Act.lift_eq_ok.mpr ⟨found, rfl⟩
  obtain ⟨u, run, made, rfl⟩ := made_with there all'
  refine ⟨_, _, ?_, made, by simp, joinable.newChecked t _ ht, st.trans (.newChecked t _)⟩
  change (c.state >>= fun _ => c.foreignValues (Engine.ofDepth functions (n + 1)) other "|" >>= fun incoming =>
    c.state >>= fun l => liftM (unique (l.items ++ incoming)) >>= c.with) s = _
  rw [Act.bind_of_ok known, Act.bind_of_ok joined, Act.bind_of_ok there.state, Act.bind_of_ok united]
  exact run

/-- To add acceptable items, and to add them once more. -/
theorem run_or_again :
    ∃ i t, (Op.or other).run (Engine.ofDepth functions (n + 1)) c s = .ok (.checked c.cls i) t ∧ Made c l all i t ∧
      ∃ j u, (Op.or other).run (Engine.ofDepth functions (n + 1)) ⟨c.cls, i⟩ t = .ok (.checked c.cls j) u ∧
        Made ⟨c.cls, i⟩ { l with items := all, frozen := false } all j u ∧
        Value.equal (.checked c.cls j) (.checked c.cls i) u.heap = .ok (.bool true) := by
  obtain ⟨i, t, run, made, there, ht, st⟩ := run_or equates joinable here typed operand sifts
  have kept (a : Value) (ha : a ∈ all) : a ∈ l.items ++ os := sifts.sublist.subset ha
  have sub : ∀ a ∈ all ++ os, a ∈ l.items ++ os := by
    intro a ha
    obtain ha | ha := List.mem_append.mp ha
    · exact kept a ha
    · exact List.mem_append_right _ ha
  obtain ⟨j, u, run', made', -⟩ := run_or (c := ⟨c.cls, i⟩) (l := { l with items := all, frozen := false })
    (equates.mono sub) joinable ⟨ht, there, made.made⟩ typed (operand.unmoved st)
    (sifts_again equates (fun _ ha => ha) sifts)
  have first : (u.heap.checkedList j).items = all := congrArg CheckedList.items made'.made
  have second : (u.heap.checkedList i).items = all := congrArg CheckedList.items made'.kept
  exact ⟨i, t, run, made, j, u, run', made', equal_of_same first second⟩

end Adding

/-- **Set operators.** Combined with a plain or a checked list of acceptable items, a checked list obeys the algebra of
sets as far as identity or equality is an equivalence of the items. -/
theorem operators_sift (functions : Library) (n : Nat) (inv : Session → Prop) (c : Self) (l : CheckedList)
    (s : Session) (other : Value) (os : List Value) (R : Value → Value → Prop) (here : Holding c l inv s)
    (typed : ∃ id, l.collection = .collection id .array l.element) (operand : Operand os s other)
    (equates : Equates inv (l.items ++ os) R) :
    ∃ both rest firsts extra, Operates functions n inv c l s other os R both rest firsts extra := by
  obtain ⟨id, typed⟩ := typed
  have sub (a : Value) (ha : a ∈ l.items) : a ∈ l.items ++ os := List.mem_append_left _ ha
  have sub' (a : Value) (ha : a ∈ os) : a ∈ l.items ++ os := List.mem_append_right _ ha
  obtain ⟨both, shared, commonFirsts⟩ := uniqueCommon_sifts equates here.1 sub sub'
  obtain ⟨rest, spared, leftAll⟩ := keepAbsent_sifts equates here.1 sub sub'
  obtain ⟨firsts, unitedFirsts⟩ := exists_sifts (fun before v => ¬Within R v before) [] l.items
  obtain ⟨extra, unitedExtra⟩ := exists_sifts (fun before v => ¬Within R v l.items ∧ ¬Within R v before) [] os
  have unitedAll := sifts_union unitedFirsts unitedExtra
  have commonMembers (v : Value) (hv : v ∈ l.items ++ os) := within_common equates sub sub' commonFirsts hv
  refine ⟨both, rest, firsts, extra, ?_⟩
  constructor
  case common =>
    have found : (liftM (uniqueCommon os l.items) : Act _) s = .ok both s := Act.lift_eq_ok.mpr ⟨shared, rfl⟩
    obtain ⟨t, run, made, -⟩ := made_with here both
    refine ⟨_, t, ?_, made⟩
    change (c.state >>= fun l => operandValues other "&" >>= fun os => liftM (uniqueCommon os l.items) >>= c.with) s = _
    rw [Act.bind_of_ok here.state, Act.bind_of_ok operand.values, Act.bind_of_ok found]
    exact run
  case left =>
    have found : (liftM (keepAbsent os l.items) : Act _) s = .ok rest s := Act.lift_eq_ok.mpr ⟨spared, rfl⟩
    obtain ⟨t, run, made, -⟩ := made_with here rest
    refine ⟨_, t, ?_, made⟩
    change (c.state >>= fun l => operandValues other "-" >>= fun os => liftM (keepAbsent os l.items) >>= c.with) s = _
    rw [Act.bind_of_ok here.state, Act.bind_of_ok operand.values, Act.bind_of_ok found]
    exact run
  case united => exact fun joinable => run_or_again equates joinable here typed operand unitedAll
  case commonFirsts => exact commonFirsts
  case commonSublist => exact commonFirsts.sublist
  case commonDistinct => exact distinct_of_sifts commonFirsts fun _ _ => And.right
  case commonMembers => exact commonMembers
  case leftAll => exact leftAll
  case leftSublist => exact leftAll.sublist
  case unitedFirsts => exact unitedFirsts
  case unitedExtra => exact unitedExtra
  case unitedDistinct => exact distinct_of_sifts unitedAll fun _ _ new => new
  case parted =>
    intro v hv
    have inside : Within R v l.items := equates.within (sub v hv) hv
    rw [commonMembers v (sub v hv), within_absent equates sub sub' leftAll hv, Xor]
    by_cases common : Within R v os
    · exact .inl ⟨⟨inside, common⟩, not_not_intro common⟩
    · exact .inr ⟨common, fun both => common both.2⟩

/-- What the values of the mixture count as: a one, what is not a number, a text, or nothing. -/
def sortOf : Value → Nat
  | .float 5 _ => 1
  | .str .. => 2
  | .nil => 3
  | _ => 0

/-- A frozen list of a one as an integer and as a flag, of what is not a number, and of a text twice. -/
def mixture : CheckedList where
  items := [.int .base 1 1, .float 5 ⟨0x7ff8000000000000⟩, .bool true, .str .base 6 "a", .str .base 7 "a"]
  element := .void
  collection := .collection 8 .array .void
  frozen := true

/-- A one as a double, the same that is not a number, and nothing. -/
def others : List Value :=
  [.float 9 ⟨0x3ff0000000000000⟩, .float 5 ⟨0x7ff8000000000000⟩, .nil]

def mixed : Session :=
  { heap.checked := #[mixture], heap.lists := #[others] }

theorem mixture_equates : Equates (fun _ => True) (mixture.items ++ others) fun a b => sortOf a = sortOf b where
  told := by
    simp only [mixture, others, List.cons_append, List.nil_append, List.mem_cons, List.not_mem_nil, or_false]
    rintro a (rfl | rfl | rfl | rfl | rfl | rfl | rfl | rfl) b (rfl | rfl | rfl | rfl | rfl | rfl | rfl | rfl) s -
    all_goals exact ⟨_, rfl, by decide⟩
  refl _ _ := rfl
  symm _ _ _ _ := Eq.symm
  trans _ _ _ _ _ _ := Eq.trans

theorem others_joinable : Joinable Zoo.library 2 (fun _ => True) mixture.element (.list .base 0) others where
  newList _ _ := id
  newChecked _ _ := id
  accepted _ _ s _ := ⟨s, rfl, trivial, .refl s⟩
  compared := by simp

/-- The mixture and the others obey the algebra of sets, and can be united. -/
theorem mixture_operators_sift : ∃ both rest firsts extra,
    Operates Zoo.library 2 (fun _ => True) shelved mixture mixed (.list .base 0) others
      (fun a b => sortOf a = sortOf b) both rest firsts extra ∧
    ∃ i t, (Op.or (.list .base 0)).run reader shelved mixed = .ok (.checked .checkedList i) t ∧
      (t.heap.checkedList i).items = firsts ++ extra := by
  obtain ⟨both, rest, firsts, extra, operates⟩ := operators_sift Zoo.library 2 (fun _ => True) shelved mixture mixed
    (.list .base 0) others (fun a b => sortOf a = sortOf b) ⟨trivial, by decide, rfl⟩ ⟨8, rfl⟩
    (.plain (by decide) rfl) mixture_equates
  obtain ⟨i, t, run, made, -⟩ := operates.united others_joinable
  exact ⟨both, rest, firsts, extra, operates, i, t, run, congrArg CheckedList.items made.made⟩

end Operators

end CheckedList

end Conform
