import Conform.Proofs.Heaping
import Conform.Proofs.Numbers
import Conform.Proofs.Sifting
import Conform.Proofs.Slicing

/-!
The extremes of a checked list. The best items are found in three ways: one item by looking through the list once, a few
of many by a heap that holds the best so far, and all of them by a sort. As long as the keys compare as a total preorder
has it, all three come to the first items of the sorted list, those that are tied as they stood before.

Main statement: `CheckedList.extremes_like_sort`.
-/
namespace Conform

namespace Sorting

variable {α : Type} {R : α → α → Prop} {xs ys before behind js ks : List α} {x top : α}

/-- An element belongs between what may stand before it and what may not. -/
theorem Sorts.insert_between (sorts : Sorts R xs (before ++ behind)) (ranks : Ranks R (xs ++ [x]))
    (first : ∀ a ∈ before, R a x) (last : ∀ a ∈ behind, ¬R a x) : Sorts R (xs ++ [x]) (before ++ x :: behind) := by
  have bound : before.length ≤ (before ++ behind).length := by simp
  have inserted := sorts.insert ranks bound (by simpa using first) (by simpa using last)
  simpa [Sorts.insertIdx_eq bound] using inserted

/-- A list in order has a place for an element. -/
theorem exists_between (ranks : Ranks R (x :: ys)) (ordered : ys.Pairwise R) :
    ∃ before behind, ys = before ++ behind ∧ (∀ a ∈ before, R a x) ∧ ∀ a ∈ behind, ¬R a x := by
  induction ys with
  | nil => exact ⟨[], [], rfl, by simp, by simp⟩
  | cons b ys ih =>
    rw [List.pairwise_cons] at ordered
    by_cases first : R b x
    · have known : Ranks R (x :: ys) := ranks.mono (List.cons_subset_cons x (List.subset_cons_self b ys))
      obtain ⟨before, behind, rfl, hb, hd⟩ := ih known ordered.2
      exact ⟨b :: before, behind, rfl, List.forall_mem_cons.mpr ⟨first, hb⟩, hd⟩
    · refine ⟨[], b :: ys, rfl, by simp, List.forall_mem_cons.mpr ⟨first, fun a ha goes => first ?_⟩⟩
      exact ranks.trans b (by simp) a (by simp [ha]) x (by simp) (ordered.1 a ha) goes

theorem Ranks.flip (ranks : Ranks R xs) : Ranks (fun a b => R b a) xs where
  total a ha b hb := ranks.total b hb a ha
  trans a ha b hb c hc ab bc := ranks.trans c hc b hb a ha bc ab

theorem Sorts.known (sorts : Sorts R xs ys) {a : α} (ha : a ∈ ys) : a ∈ xs ++ [x] :=
  List.mem_append_left _ (sorts.perm.subset ha)

/-- An element that the first ones may all stand before leaves them the first ones. -/
theorem Sorts.keep_first (sorts : Sorts R xs (ks ++ js)) (ranks : Ranks R (xs ++ [x])) (first : ∀ a ∈ ks, R a x) :
    ∃ js', Sorts R (xs ++ [x]) (ks ++ js') := by
  have ordered := (List.pairwise_append.mp sorts.ordered).2.1
  have known : Ranks R (x :: js) := by
    apply ranks.mono
    rintro a (_ | ⟨_, ha⟩)
    · simp
    · exact sorts.known (List.mem_append_right _ ha)
  obtain ⟨before, behind, rfl, hb, hd⟩ := exists_between known ordered
  rw [← List.append_assoc] at sorts
  refine ⟨before ++ x :: behind, ?_⟩
  rw [← List.append_assoc]
  refine sorts.insert_between ranks (fun a ha => ?_) hd
  obtain ha | ha := List.mem_append.mp ha
  · exact first a ha
  · exact hb a ha

/-- An element that the last of the first ones may not stand before comes to be one of the first ones. -/
theorem Sorts.enter_first (sorts : Sorts R xs (ks ++ top :: js)) (ranks : Ranks R (xs ++ [x])) (last : ¬R top x) :
    ∃ before behind, ks = before ++ behind ∧ (∀ a ∈ before, R a x) ∧ (∀ a ∈ behind, ¬R a x) ∧
      Sorts R (xs ++ [x]) ((before ++ x :: behind) ++ top :: js) := by
  obtain ⟨ordered, rest, -⟩ := List.pairwise_append.mp sorts.ordered
  rw [List.pairwise_cons] at rest
  have known : Ranks R (x :: ks) := by
    apply ranks.mono
    rintro a (_ | ⟨_, ha⟩)
    · simp
    · exact sorts.known (List.mem_append_left _ ha)
  obtain ⟨before, behind, rfl, hb, hd⟩ := exists_between known ordered
  refine ⟨before, behind, rfl, hb, hd, ?_⟩
  have later : ∀ a ∈ behind ++ top :: js, ¬R a x := by
    intro a ha goes
    obtain ha | ha := List.mem_append.mp ha
    · exact hd a ha goes
    · obtain rfl | ha := List.mem_cons.mp ha
      · exact last goes
      · have ha' : a ∈ xs ++ [x] := sorts.known (by simp [ha])
        exact last (ranks.trans top (sorts.known (by simp)) a ha' x (by simp) (rest.1 a ha) goes)
  rw [List.append_assoc] at sorts
  simpa using sorts.insert_between ranks hb later

end Sorting

namespace CheckedList

open Act Sorting

/-- Whether the keys of items are compared as a total preorder of the items has it. An item may get a new key each time
that it is asked for one. -/
structure Scales (e : Engine) (key : Value) (inv : Session → Prop) (items : List Value)
    (keys le : Value → Value → Prop) : Prop where
  keyed : ∀ a ∈ items, (keyOf e key a).Delivers inv (keys a)
  less : ∀ a ∈ items, ∀ b ∈ items, ∀ k k', keys a k → keys b k' →
    (liftM (Value.ordered .lt k k') : Act Bool).Decides inv (¬le b a)
  greater : ∀ a ∈ items, ∀ b ∈ items, ∀ k k', keys a k → keys b k' →
    (liftM (Value.ordered .gt k k') : Act Bool).Decides inv (¬le a b)

/-- Whether the keys of items are equal just where the items are tied. -/
def TiesEqual (inv : Session → Prop) (items : List Value) (keys le : Value → Value → Prop) : Prop :=
  ∀ a ∈ items, ∀ b ∈ items, ∀ k k', keys a k → keys b k' →
    (liftM (Value.isAlike k k') : Act Bool).Decides inv (le a b ∧ le b a)

variable {e : Engine} {c : Self} {inv : Session → Prop} {side : Extreme} {key : Value} {items seen rest : List Value}
  {keys le R : Value → Value → Prop}

theorem Scales.compares (scales : Scales e key inv items keys le) :
    Compares e .nil key inv items keys fun a b r => r = true ↔ ¬le b a :=
  ⟨.inl rfl, scales.keyed, fun a b ha hb ka kb => scales.less a.item ha b.item hb a.key b.key ka kb⟩

section Scan

/-- A better item may not stand behind a worse one. -/
theorem Scales.beats (scales : Scales e key inv items keys le) {a b k k' : Value} (ha : a ∈ items) (hb : b ∈ items)
    (ka : keys a k) (kb : keys b k') :
    (liftM (Value.ordered side.beats k k') : Act Bool).Decides inv (¬along (side == .largest) le b a) := by
  cases side with
  | largest => exact scales.greater a ha b hb k k' ka kb
  | smallest => exact scales.less a ha b hb k k' ka kb

/-- The best item so far is the first of the sorted ones. -/
theorem bestFrom_delivers (scales : Scales e key inv items keys le) (ranks : Ranks le items)
    (whole : items = seen ++ rest) {champion : Keyed} (known : keys champion.item champion.key) {js : List Value}
    (sorts : Sorts (along (side == .largest) le) seen (champion.item :: js)) :
    (bestFrom e side key champion rest).Delivers inv
      fun v => ∃ js, Sorts (along (side == .largest) le) items (v :: js) := by
  induction rest generalizing champion seen js with
  | nil =>
    rw [List.append_nil] at whole
    exact .pure ⟨js, whole ▸ sorts⟩
  | cons x rest ih =>
    have split : items = (seen ++ [x]) ++ rest := by simp [whole]
    have sub : seen ++ [x] ⊆ items := split ▸ List.subset_append_left _ _
    have ranks' : Ranks (along (side == .largest) le) (seen ++ [x]) := (ranks_along ranks).mono sub
    have hx : x ∈ items := sub (by simp)
    have hc : champion.item ∈ items := sub (sorts.known (by simp))
    refine .bind (scales.keyed x hx) fun k kx => ?_
    refine .bind (scales.beats hx hc kx known) fun better told => .ite (fun yes => ?_) fun no => ?_
    · have first : Sorts (along (side == .largest) le) seen ([] ++ champion.item :: js) := sorts
      obtain ⟨before, behind, none, -, -, sorts'⟩ := first.enter_first ranks' (told.mp yes)
      obtain ⟨rfl, rfl⟩ := List.append_eq_nil_iff.mp none.symm
      exact ih split kx sorts'
    · have first : Sorts (along (side == .largest) le) seen ([champion.item] ++ js) := sorts
      have stays : along (side == .largest) le champion.item x := not_not.mp (mt told.mpr no)
      obtain ⟨js', sorts'⟩ := first.keep_first ranks' (by simpa using stays)
      exact ih split known sorts'

theorem best?_delivers (scales : Scales e key inv items keys le) (ranks : Ranks le items) {ys : List Value}
    (sorts : Sorts (along (side == .largest) le) items ys) : (best? e side key items).Delivers inv (· = ys.head?) := by
  cases items with
  | nil =>
    obtain rfl := List.perm_nil.mp sorts.perm
    exact .pure rfl
  | cons x rest =>
    refine .bind (scales.keyed x (by simp)) fun k kx => ?_
    have alone : Sorts (along (side == .largest) le) [x] [x] := .self (List.pairwise_singleton _ _)
    refine .bind (bestFrom_delivers scales ranks rfl kx alone) fun v ⟨js, sorts'⟩ => .pure ?_
    rw [sorts.unique (ranks_along ranks) sorts']
    rfl

end Scan

namespace Candidate

/-- The number of a candidate in the order in which they have come. -/
def age (a : Candidate) : Nat :=
  a.rank.natAbs

/-- Whether a candidate may stand before another one: of two that are tied, the one that came first. -/
def Before (R : Value → Value → Prop) (a b : Candidate) : Prop :=
  R a.item b.item ∧ (R b.item a.item → a.age ≤ b.age)

theorem age_ranked (k v : Value) (n : Nat) : age ⟨k, side.rank n, v⟩ = n := by
  cases side <;> simp [age, Extreme.rank]

/-- Whether a candidate is an item with a key that it may have got and a rank of its age. -/
structure Stands (side : Extreme) (items : List Value) (keys : Value → Value → Prop) (a : Candidate) : Prop where
  item : a.item ∈ items
  key : keys a.item a.key
  rank : a.rank = side.rank a.age

variable {a b : Candidate} {cs ds : List Candidate}

theorem ranks_before (ranks : Ranks R items) (known : ∀ a ∈ cs, a.item ∈ items) : Ranks (Before R) cs where
  total a ha b hb := by
    have total := ranks.total a.item (known a ha) b.item (known b hb)
    have ages := Nat.le_total a.age b.age
    unfold Before
    tauto
  trans a ha b hb d hd := by
    rintro ⟨ab, older⟩ ⟨bd, old⟩
    have trans := ranks.trans a.item (known a ha) b.item (known b hb) d.item (known d hd) ab bd
    refine ⟨trans, fun da => ?_⟩
    have ba := ranks.trans b.item (known b hb) d.item (known d hd) a.item (known a ha) bd da
    have db := ranks.trans d.item (known d hd) a.item (known a ha) b.item (known b hb) da ab
    exact Nat.le_trans (older ba) (old db)

/-- Candidates that have come in the order of a list are sorted as their items are. -/
theorem sorts_items (aging : cs.Pairwise fun a b => a.age < b.age) (sorts : Sorts (Before R) cs ds) :
    Sorts R (cs.map (·.item)) (ds.map (·.item)) := by
  apply Sorts.map
  refine ⟨sorts.perm, sorts.ordered.imp fun ab => ab.1, fun zs sub ordered => ?_⟩
  apply sorts.stable zs sub
  apply (ordered.and (aging.sublist sub)).imp
  exact fun ⟨ab, older⟩ => ⟨ab, fun _ => Nat.le_of_lt older⟩

theorem less_decides (scales : Scales e key inv items keys le) (ties : TiesEqual inv items keys le)
    (ha : a.Stands side items keys) (hb : b.Stands side items keys) :
    (a.less b).Decides inv (¬le b.item a.item ∨ le a.item b.item ∧ a.rank < b.rank) := by
  refine .bind (ties _ ha.item _ hb.item _ _ ha.key hb.key) fun tied told => .ite (fun yes => ?_) fun no => ?_
  · have both := told.mp yes
    exact Decides.pure (by simp [both])
  · have apart : ¬(le a.item b.item ∧ le b.item a.item) := mt told.mpr no
    refine (scales.less _ ha.item _ hb.item _ _ ha.key hb.key).congr ?_
    tauto

/-- The worse candidate is above. -/
theorem above_decides (scales : Scales e key inv items keys le) (ties : TiesEqual inv items keys le)
    (ha : a.Stands side items keys) (hb : b.Stands side items keys) :
    (above side a b).Decides inv (¬a.Before (along (side == .largest) le) b) := by
  have rankA := ha.rank
  have rankB := hb.rank
  cases side with
  | largest =>
    refine (less_decides scales ties ha hb).congr ?_
    have falls : a.rank < b.rank ↔ ¬a.age ≤ b.age := by
      simp only [Extreme.rank] at rankA rankB
      omega
    change _ ↔ ¬(le b.item a.item ∧ (le a.item b.item → a.age ≤ b.age))
    tauto
  | smallest =>
    refine (less_decides scales ties hb ha).congr ?_
    have rises : b.rank < a.rank ↔ ¬a.age ≤ b.age := by
      simp only [Extreme.rank] at rankA rankB
      omega
    change _ ↔ ¬(le a.item b.item ∧ (le b.item a.item → a.age ≤ b.age))
    tauto

/-- Candidates are sorted best first at either end. -/
theorem sort_delivers (scales : Scales e key inv items keys le) (ties : TiesEqual inv items keys le)
    (ranks : Ranks le items) (stand : ∀ a ∈ cs, a.Stands side items keys) :
    (match side with
      | .largest => sortDown Candidate.less cs
      | .smallest => Sorting.sort Candidate.less cs : Act (List Candidate)).Delivers inv
      (Sorts (Before (along (side == .largest) le)) cs) := by
  have ranks' : Ranks (along (side == .largest) le) items := ranks_along ranks
  have before := ranks_before ranks' fun a ha => (stand a ha).item
  have decides (a) (ha : a ∈ cs) (b) (hb : b ∈ cs) := above_decides scales ties (stand a ha) (stand b hb)
  cases side with
  | largest =>
    have turned := before.flip.mono (List.reverse_subset.mpr (List.Subset.refl cs))
    refine .bind (sortReporting_sorts turned (fun a ha b hb => ?_) fun _ => .pure trivial) fun ds sorts => .pure ?_
    · exact decides a (List.mem_reverse.mp ha) b (List.mem_reverse.mp hb)
    · exact sorts.reverse
  | smallest => exact sortReporting_sorts before (fun a ha b hb => decides b hb a ha) fun _ => .pure trivial

end Candidate

section Heap

/-- The heap while the items are looked through: it holds the first ones of the sorted items seen so far. -/
structure Shortlist (side : Extreme) (items : List Value) (keys R : Value → Value → Prop) (seen : List Value) (n : Nat)
    (heap : Array Candidate) (firsts : List Candidate) : Prop where
  heaped : Selection.HeapedFrom (fun a b => b.Before R a) 0 heap
  perm : heap.toList.Perm firsts
  ordered : firsts.Pairwise (Candidate.Before R)
  stand : ∀ a ∈ firsts, a.Stands side items keys
  young : ∀ a ∈ firsts, a.age < n
  distinct : ∀ a ∈ firsts, ∀ b ∈ firsts, a.age = b.age → a = b
  sorted : ∃ js, Sorts R seen (firsts.map (·.item) ++ js)

variable {n : Nat} {heap heap' : Array Candidate} {firsts : List Candidate} {top : Candidate} {x : Value}

section

variable (list : Shortlist side items keys R seen n heap firsts)
include list

/-- No two candidates may stand before each other. -/
theorem Shortlist.antisymm {a b : Candidate} (ha : a ∈ firsts) (hb : b ∈ firsts) (ab : a.Before R b)
    (ba : b.Before R a) : a = b :=
  list.distinct a ha b hb (Nat.le_antisymm (ab.2 ba.1) (ba.2 ab.1))

/-- The last of the first ones is on top of the heap. -/
theorem Shortlist.top_last (ranks : Ranks R items) (first : heap[0]? = some top) :
    ∃ others, firsts = others ++ [top] ∧ heap.toList.tail.Perm others := by
  have listed : heap.toList = top :: heap.toList.tail := by
    rw [← Array.getElem?_toList] at first
    exact List.eq_cons_of_mem_head? (by rw [List.head?_eq_getElem?, first]; rfl)
  have top_mem : top ∈ firsts := list.perm.subset (listed ▸ List.mem_cons_self)
  have worst : ∀ a ∈ firsts, a.Before R top := by
    intro a ha
    have known := Candidate.ranks_before ranks fun a ha => (list.stand a ha).item
    exact list.heaped.top known.flip (fun a ha => list.perm.subset ha) first a (list.perm.symm.subset ha)
  obtain ⟨others, last, rfl⟩ := (List.eq_nil_or_concat' firsts).resolve_left (List.ne_nil_of_mem top_mem)
  have last_mem : last ∈ others ++ [last] := by simp
  obtain rfl : top = last := by
    obtain before | same := List.mem_append.mp top_mem
    · have ordered := (List.pairwise_append.mp list.ordered).2.2 top before last (by simp)
      exact list.antisymm top_mem last_mem ordered (worst last last_mem)
    · exact List.mem_singleton.mp same
  refine ⟨others, rfl, List.Perm.cons_inv (a := top) ?_⟩
  rw [← listed]
  exact list.perm.trans (List.perm_append_singleton top others)

/-- An item that does not beat the top leaves the heap as it is. -/
theorem Shortlist.keep (ranks : Ranks R items) (sub : seen ++ [x] ⊆ items) (first : heap[0]? = some top)
    (worse : R top.item x) : Shortlist side items keys R (seen ++ [x]) n heap firsts := by
  obtain ⟨others, rfl, -⟩ := list.top_last ranks first
  obtain ⟨js, sorts⟩ := list.sorted
  refine { list with sorted := sorts.keep_first (ranks.mono sub) ?_ }
  intro v hv
  obtain ⟨a, ha, rfl⟩ := List.mem_map.mp hv
  have mem (b : Candidate) (hb : b ∈ others ++ [top]) : b.item ∈ items := (list.stand b hb).item
  obtain before | same := List.mem_append.mp ha
  · have ordered := (List.pairwise_append.mp list.ordered).2.2 a before top (by simp)
    exact ranks.trans a.item (mem a ha) top.item (mem top (by simp)) x (sub (by simp)) ordered.1 worse
  · rw [List.mem_singleton.mp same]
    exact worse

/-- An item that beats the top takes its place in the heap. -/
theorem Shortlist.enter (ranks : Ranks R items) (sub : seen ++ [x] ⊆ items) (first : heap[0]? = some top)
    (better : ¬R top.item x) {k : Value} (kx : keys x k)
    (perm : heap'.toList.Perm (⟨k, side.rank n, x⟩ :: heap.toList.tail))
    (heaped : Selection.HeapedFrom (fun a b => b.Before R a) 0 heap') :
    ∃ firsts', firsts'.length = firsts.length ∧
      Shortlist side items keys R (seen ++ [x]) (n + 1) heap' firsts' := by
  obtain ⟨others, rfl, same⟩ := list.top_last ranks first
  obtain ⟨js, sorts⟩ := list.sorted
  rw [List.map_append, List.append_assoc] at sorts
  obtain ⟨before, behind, split, may, mayNot, sorts'⟩ := sorts.enter_first (ranks.mono sub) better
  obtain ⟨front, back, rfl, rfl, rfl⟩ := List.map_eq_append_iff.mp split
  generalize new_eq : (⟨k, side.rank n, x⟩ : Candidate) = new at perm
  have item_eq : new.item = x := new_eq ▸ rfl
  have age_eq : new.age = n := new_eq ▸ Candidate.age_ranked k x n
  have hx : x ∈ items := sub (by simp)
  obtain ⟨ordered, -, -⟩ := List.pairwise_append.mp list.ordered
  obtain ⟨ordered₁, ordered₂, across⟩ := List.pairwise_append.mp ordered
  -- Every candidate of the new list is the new one or one of the old list.
  have cases_mem (P : Candidate → Prop) (fresh : P new) (old : ∀ a ∈ front ++ back ++ [top], P a) :
      ∀ a ∈ front ++ new :: back, P a := by
    intro a ha
    obtain rfl | ha := List.mem_cons.mp (List.perm_middle.subset ha)
    · exact fresh
    · exact old a (List.mem_append_left _ ha)
  refine ⟨front ++ new :: back, by simp, heaped, ?_, ?_, ?_, ?_, ?_, ?_⟩
  · exact perm.trans ((same.cons new).trans List.perm_middle.symm)
  · refine List.pairwise_append.mpr ⟨ordered₁, List.pairwise_cons.mpr ⟨fun b hb => ?_, ordered₂⟩, fun a ha => ?_⟩
    · have never : ¬R b.item x := mayNot b.item (List.mem_map_of_mem hb)
      have known : b.item ∈ items := (list.stand b (by simp [hb])).item
      rw [Candidate.Before, item_eq]
      exact ⟨(ranks.total x hx b.item known).resolve_right never, fun goes => absurd goes never⟩
    · rw [List.forall_mem_cons]
      refine ⟨⟨?_, fun _ => ?_⟩, across a ha⟩
      · rw [item_eq]
        exact may a.item (List.mem_map_of_mem ha)
      · rw [age_eq]
        exact Nat.le_of_lt (list.young a (by simp [ha]))
  · apply cases_mem _ _ list.stand
    refine ⟨item_eq ▸ hx, ?_, ?_⟩
    · rw [← new_eq]
      exact kx
    · rw [age_eq, ← new_eq]
  · apply cases_mem
    · omega
    · exact fun a ha => Nat.lt_succ_of_lt (list.young a ha)
  · refine cases_mem _ (cases_mem _ (fun _ => rfl) fun b hb ages => ?_) fun a ha => cases_mem _ (fun ages => ?_) ?_
    · have := list.young b hb
      omega
    · have := list.young a ha
      omega
    · exact list.distinct a ha
  · refine ⟨top.item :: js, ?_⟩
    rw [List.map_append, List.map_cons, item_eq]
    exact sorts'

end

theorem Shortlist.replaceTop_delivers (list : Shortlist side items keys (along (side == .largest) le) seen n heap firsts)
    (scales : Scales e key inv items keys le) (ties : TiesEqual inv items keys le) (ranks : Ranks le items)
    (hx : x ∈ items) {k : Value} (kx : keys x k) (inhabited : 0 < heap.size) :
    (Selection.replaceTop (Candidate.above side) heap ⟨k, side.rank n, x⟩).Delivers inv fun heap' =>
      heap'.toList.Perm (⟨k, side.rank n, x⟩ :: heap.toList.tail) ∧
        Selection.HeapedFrom (fun a b => b.Before (along (side == .largest) le) a) 0 heap' := by
  have ranks' : Ranks (along (side == .largest) le) items := ranks_along ranks
  have stand : ∀ a ∈ ⟨k, side.rank n, x⟩ :: firsts, a.Stands side items keys := by
    rw [List.forall_mem_cons]
    exact ⟨⟨hx, kx, by rw [Candidate.age_ranked]⟩, list.stand⟩
  have known := Candidate.ranks_before ranks' fun a ha => (stand a ha).item
  have decides (a) (ha : a ∈ _) (b) (hb : b ∈ _) := Candidate.above_decides scales ties (stand a ha) (stand b hb)
  apply Selection.replaceTop_delivers known.flip decides _ (List.mem_cons_self) inhabited list.heaped
  exact fun a ha => List.mem_cons_of_mem _ (list.perm.subset ha)

/-- What holds of the heap after some items holds of it after all of them. -/
theorem selectRest_delivers (scales : Scales e key inv items keys le) (ties : TiesEqual inv items keys le)
    (ranks : Ranks le items) (whole : items = seen ++ rest) (inhabited : firsts ≠ [])
    (list : Shortlist side items keys (along (side == .largest) le) seen n heap firsts) :
    (selectRest e side key rest n heap).Delivers inv fun heap' => ∃ n' firsts', firsts'.length = firsts.length ∧
      Shortlist side items keys (along (side == .largest) le) items n' heap' firsts' := by
  induction rest generalizing seen n heap firsts with
  | nil =>
    rw [List.append_nil] at whole
    exact .pure ⟨n, firsts, rfl, whole ▸ list⟩
  | cons x rest ih =>
    have split : items = (seen ++ [x]) ++ rest := by simp [whole]
    have sub : seen ++ [x] ⊆ items := split ▸ List.subset_append_left _ _
    have hx : x ∈ items := sub (by simp)
    have ranks' : Ranks (along (side == .largest) le) items := ranks_along ranks
    have nonempty : 0 < heap.size := by
      rw [← Array.length_toList, list.perm.length_eq]
      exact List.length_pos_iff.mpr inhabited
    have first : heap[0]? = some heap[0] := Array.getElem?_eq_getElem nonempty
    have top_mem : heap[0] ∈ firsts := list.perm.subset (Array.mem_toList_iff.mpr (Array.getElem_mem nonempty))
    have top := list.stand _ top_mem
    rw [selectRest, first]
    refine .bind (scales.keyed x hx) fun k kx => ?_
    -- What is done with the item once it is known whether it beats the top.
    have next (better : Bool) (told : better = true ↔ ¬along (side == .largest) le heap[0].item x) :
        (if better then
          Selection.replaceTop (Candidate.above side) heap ⟨k, side.rank n, x⟩ >>= selectRest e side key rest (n + 1)
        else selectRest e side key rest n heap).Delivers inv fun heap' => ∃ n' firsts',
          firsts'.length = firsts.length ∧
            Shortlist side items keys (along (side == .largest) le) items n' heap' firsts' := by
      refine .ite (fun yes => ?_) fun no => ?_
      · refine .bind (list.replaceTop_delivers scales ties ranks hx kx nonempty) fun heap' ⟨perm, heaped⟩ => ?_
        obtain ⟨firsts', size, list'⟩ := list.enter ranks' sub first (told.mp yes) kx perm heaped
        have inhabited' : firsts' ≠ [] := by
          rw [← List.length_pos_iff, size]
          exact List.length_pos_iff.mpr inhabited
        rw [← size]
        exact ih split inhabited' list'
      · exact ih split inhabited (list.keep ranks' sub first (not_not.mp (mt told.mpr no)))
    cases side with
    | largest => exact .bind (scales.less _ top.item x hx _ k top.key kx) next
    | smallest => exact .bind (scales.less x hx _ top.item k _ kx top.key) next

/-- The candidates that the first items make. -/
def numbered (side : Extreme) (entries : List Keyed) : List Candidate :=
  entries.mapIdx fun n k => ⟨k.key, side.rank n, k.item⟩

section Numbered

variable {entries : List Keyed}

theorem exists_of_mem_numbered {a : Candidate} (ha : a ∈ numbered side entries) :
    ∃ i, ∃ inside : i < entries.length, a = ⟨entries[i].key, side.rank i, entries[i].item⟩ ∧ a.age = i := by
  obtain ⟨i, inside, rfl⟩ := List.mem_mapIdx.mp ha
  exact ⟨i, inside, rfl, Candidate.age_ranked _ _ i⟩

theorem numbered_distinct : ∀ a ∈ numbered side entries, ∀ b ∈ numbered side entries, a.age = b.age → a = b := by
  intro a ha b hb same
  obtain ⟨i, _, rfl, hi⟩ := exists_of_mem_numbered ha
  obtain ⟨j, _, rfl, hj⟩ := exists_of_mem_numbered hb
  obtain rfl : i = j := hi.symm.trans (same.trans hj)
  rfl

theorem numbered_aging : (numbered side entries).Pairwise fun a b => a.age < b.age := by
  unfold numbered
  rw [List.pairwise_iff_getElem]
  intro i j hi hj before
  rw [List.getElem_mapIdx, List.getElem_mapIdx, Candidate.age_ranked, Candidate.age_ranked]
  exact before

theorem numbered_items : (numbered side entries).map (·.item) = entries.map (·.item) := by
  apply List.ext_getElem
  · simp [numbered]
  · simp [numbered]

theorem numbered_stand (got : Entries keys seen entries) (sub : seen ⊆ items) :
    ∀ a ∈ numbered side entries, a.Stands side items keys := by
  intro a ha
  obtain ⟨i, inside, rfl, hi⟩ := exists_of_mem_numbered ha
  have mem := List.getElem_mem inside
  exact ⟨sub (got.mem_items mem), got.2 _ mem, by rw [hi]⟩

/-- A heap of the first items is a list of the first ones. -/
theorem shortlist_start (got : Entries keys seen entries) (sub : seen ⊆ items) (ranks : Ranks R items)
    (perm : heap.toList.Perm (numbered side entries))
    (heaped : Selection.HeapedFrom (fun a b => b.Before R a) 0 heap) :
    ∃ firsts, firsts.length = entries.length ∧ Shortlist side items keys R seen entries.length heap firsts := by
  have stand : ∀ a ∈ numbered side entries, a.Stands side items keys := numbered_stand got sub
  have known := Candidate.ranks_before ranks fun a ha => (stand a ha).item
  obtain ⟨firsts, sorts⟩ := known.exists_sorts
  have mem (a : Candidate) (ha : a ∈ firsts) : a ∈ numbered side entries := sorts.perm.subset ha
  refine ⟨firsts, sorts.perm.length_eq.trans List.length_mapIdx, heaped, perm.trans sorts.perm.symm, sorts.ordered,
    fun a ha => stand a (mem a ha), fun a ha => ?_, fun a ha b hb => numbered_distinct a (mem a ha) b (mem b hb), [], ?_⟩
  · obtain ⟨i, inside, -, hi⟩ := exists_of_mem_numbered (mem a ha)
    rwa [hi]
  · have items_eq : (numbered side entries).map (·.item) = seen := numbered_items.trans got.1
    rw [List.append_nil, ← items_eq]
    exact Candidate.sorts_items numbered_aging sorts

end Numbered

/-- In the end the heap holds the first of the sorted items. -/
theorem Shortlist.items_eq (list : Shortlist side items keys R items n heap firsts) (ranks : Ranks R items)
    {ys : List Value} (sorts : Sorts R items ys) {sorted : List Candidate}
    (arranged : Sorts (Candidate.Before R) heap.toList sorted) : sorted.map (·.item) = ys.take firsts.length := by
  have same : sorted = firsts := by
    have perm := arranged.perm.trans list.perm
    exact perm.eq_of_pairwise (fun a b ha hb => list.antisymm (perm.subset ha) hb) arranged.ordered list.ordered
  obtain ⟨js, sorts'⟩ := list.sorted
  rw [same, sorts.unique ranks sorts', List.take_left' (List.length_map _)]

/-- As many of the best items as there are to be are the first of the sorted ones. -/
theorem select_delivers (scales : Scales e key inv items keys le) {count : Nat}
    (ties : 0 < count → TiesEqual inv items keys le) (ranks : Ranks le items) {ys : List Value}
    (sorts : Sorts (along (side == .largest) le) items ys) (fewer : count ≤ items.length) :
    (select e side key count items).Delivers inv (· = ys.take count) := by
  have ranks' : Ranks (along (side == .largest) le) items := ranks_along ranks
  have sub : items.take count ⊆ items := List.take_subset count items
  refine .bind (keyed_delivers fun a ha => scales.keyed a (sub ha)) fun entries got => ?_
  have size : entries.length = count := by
    have := congrArg List.length got.1
    simpa [fewer] using this
  change (if (numbered side entries).isEmpty then _ else _ : Act (List Value)).Delivers inv _
  refine .ite (fun empty => .pure ?_) fun inhabited => ?_
  · have none : entries = [] := List.mapIdx_eq_nil_iff.mp (List.isEmpty_iff.mp empty)
    rw [← size, none]
    rfl
  have some : entries ≠ [] := by
    rintro rfl
    exact inhabited rfl
  have ties := ties (size ▸ List.length_pos_iff.mpr some)
  have stand : ∀ a ∈ numbered side entries, a.Stands side items keys := numbered_stand got sub
  have known := Candidate.ranks_before ranks' fun a ha => (stand a ha).item
  have decides (a) (ha : a ∈ _) (b) (hb : b ∈ _) := Candidate.above_decides scales ties (stand a ha) (stand b hb)
  refine .bind (Selection.heapify_delivers known.flip decides) fun heap ⟨perm, heaped⟩ => ?_
  obtain ⟨firsts, length, list⟩ := shortlist_start got sub ranks' perm heaped
  have nonempty : firsts ≠ [] := by
    rw [← List.length_pos_iff, length]
    exact List.length_pos_iff.mpr some
  have whole : items = items.take count ++ items.drop count := (List.take_append_drop count items).symm
  rw [size] at list length
  refine .bind (selectRest_delivers scales ties ranks whole nonempty list) fun heap' ⟨n, firsts', length', list'⟩ => ?_
  have runs (a : Candidate) (ha : a ∈ heap'.toList) := list'.stand a (list'.perm.subset ha)
  have finish (sorted : List Candidate)
      (arranged : Sorts (Candidate.Before (along (side == .largest) le)) heap'.toList sorted) :
      sorted.map (·.item) = ys.take count := by
    rw [list'.items_eq ranks' sorts arranged, length', length]
  have sorted := Candidate.sort_delivers scales ties ranks runs
  cases side with
  | largest => exact .bind sorted fun ds arranged => .pure (finish ds arranged)
  | smallest => exact .bind sorted fun ds arranged => .pure (finish ds arranged)

end Heap

section Counts

variable {count : Value} {n : Int}

theorem equal_int (int : count.int? = some n) (id : Ident) (m : Int) (h : Heap) :
    count.equal (.int .base id m) h = .ok (.bool (n == m)) := by
  rw [Value.equal_number (Value.number?_of_int? int), Exact.ofInt_beq_ofInt]

theorem ordered_ge_int (int : count.int? = some n) (id : Ident) (m : Int) (h : Heap) :
    Value.ordered .ge count (.int .base id m) h = .ok (decide (m ≤ n)) := by
  rw [Value.ordered_int .ge int rfl, Comparison.ge_holds]

/-- The slice up to a bound that is not smaller than the length is all that there is. -/
theorem asSlice_all (int : count.int? = some n) {xs : List Value} (many : (xs.length : Int) ≤ n) (h : Heap) :
    ∃ s : Sequence.Slice, Value.asSlice xs.length .nil count .nil h = .ok s ∧ s.read xs = xs := by
  have sliced := Value.asSlice_bounds .absent (.number int) .absent (by decide) xs.length h
  refine ⟨_, sliced, ?_⟩
  have stands : Sequence.StandAt xs (Sequence.slice xs.length none (some n) 1).positions
      ((Sequence.slice xs.length none (some n) 1).read xs) := Sequence.read_standAt (by decide)
  have whole : Sequence.slice xs.length none (some n) 1 = ⟨0, xs.length, 1⟩ := by
    simp [Sequence.slice, Sequence.clip]
    omega
  obtain ⟨run, ends⟩ := Sequence.positions_run (s := ⟨0, xs.length, 1⟩) rfl (Int.le_refl 0)
  have counted : Sequence.Slice.count ⟨0, xs.length, 1⟩ = xs.length := by
    simpa using ends
  rw [whole, run, counted] at stands
  have all : Sequence.StandAt xs (List.range' 0 xs.length) ((xs.drop 0).take xs.length) :=
    Sequence.standAt_run (by omega)
  simpa [whole] using stands.unique all

/-- However many are wanted and however they are looked for, they are the first of the sorted items. -/
theorem extremes_delivers (fresh : ∀ s, inv s → inv { s with nextIdent := s.nextIdent + 1 })
    (scales : Scales e key inv items keys le) (ranks : Ranks le items) (int : count.int? = some n)
    (ties : 1 < n → n < items.length → TiesEqual inv items keys le) {ys : List Value}
    (sorts : Sorts (along (side == .largest) le) items ys) :
    (extremes e side count key items).Delivers inv (· = ys.take n.toNat) := by
  have size : (Act.newInt items.length).Delivers inv fun v => ∃ id, v = .int .base id items.length :=
    fun s hs => ⟨_, _, rfl, fresh s hs, _, rfl⟩
  have length : ys.length = items.length := sorts.perm.length_eq
  unfold extremes
  refine .bind (Delivers.lift fun s _ => ⟨_, equal_int int 0 1 s.heap, rfl⟩) ?_
  rintro _ rfl
  refine .bind (Delivers.lift fun s _ => ⟨n == 1, rfl, rfl⟩) ?_
  rintro _ rfl
  refine .ite (fun one => ?_) fun notOne => ?_
  · refine .bind (best?_delivers scales ranks sorts) fun best head => .pure ?_
    obtain rfl : n = 1 := eq_of_beq one
    rw [head]
    cases ys <;> rfl
  refine .bind size ?_
  rintro _ ⟨id, rfl⟩
  refine .bind (Delivers.lift fun s _ => ⟨_, ordered_ge_int int id items.length s.heap, rfl⟩) ?_
  rintro _ rfl
  refine .ite (fun many => ?_) fun few => ?_
  · have many : (items.length : Int) ≤ n := of_decide_eq_true many
    refine .bind (sortItems_sorts ranks scales.compares fun _ => .pure trivial) fun zs sorts' => ?_
    obtain rfl := sorts'.unique (ranks_along ranks) sorts
    have all : (liftM (Value.asSlice zs.length .nil count .nil) : Act Sequence.Slice).Delivers inv
        fun s => s.read zs = zs := .lift fun s _ => asSlice_all int (length.symm ▸ many) s.heap
    refine .bind all fun s read => .pure ?_
    rw [read, List.take_of_length_le (by omega)]
  · have few : n < items.length := by simpa using few
    have counted (h : Heap) : count.asCount h = .ok n := by
      rw [Value.asCount, int]
      rfl
    refine .bind (Delivers.lift fun s _ => ⟨n, counted s.heap, rfl⟩) ?_
    rintro _ rfl
    have : n ≠ 1 := by simpa using notOne
    exact select_delivers scales (fun positive => ties (by omega) few) ranks sorts (by omega)

end Counts

section Operations

variable {l : CheckedList} {s : Session} {ys : List Value}

/-- An operation that changes nothing makes a new list of what it has found. -/
theorem made_of_delivers {op : Op} (found : List Value → Act (List Value)) (here : Holding c l inv s)
    (runs : op.run e c = c.state >>= fun l => found l.items >>= c.with)
    (delivers : (found l.items).Delivers (Holding c l inv) (· = ys)) :
    ∃ i t, op.run e c s = .ok (.checked c.cls i) t ∧ Made c l ys i t := by
  obtain ⟨zs, t, run, there, rfl⟩ := delivers s here
  obtain ⟨u, answer, made, -⟩ := made_with there zs
  refine ⟨_, u, ?_, made⟩
  rw [runs, bind_of_ok here.state, bind_of_ok run, answer]

theorem run_best (scales : Scales e key (Holding c l inv) l.items keys le) (ranks : Ranks le l.items)
    (sorts : Sorts (along (side == .largest) le) l.items ys) (here : Holding c l inv s) :
    ∃ t, Op.run e c (.extreme side .nil key) s = .ok (ys.head?.getD .nil) t ∧ t.heap.checkedList c.at_ = l := by
  obtain ⟨_, t, run, there, rfl⟩ := best?_delivers scales ranks sorts s here
  refine ⟨t, ?_, there.2.2⟩
  change (c.state >>= fun l => best? e side key l.items >>= fun best => pure (best.getD .nil)) s = _
  rw [bind_of_ok here.state, bind_of_ok run]
  rfl

end Operations

section Texts

theorem lengthOf_scales : Scales reader lengthOf (Holding shelved texts fun _ => True) texts.items
    (fun a k => ∃ id, k = .int .base id (a.text?.getD "").length) noLonger where
  keyed := by
    simp only [texts, List.mem_cons, List.not_mem_nil, or_false]
    rintro a (rfl | rfl | rfl) s held
    all_goals exact ⟨_, _, rfl, held, _, rfl⟩
  less := by
    simp only [texts, List.mem_cons, List.not_mem_nil, or_false]
    rintro a (rfl | rfl | rfl) b (rfl | rfl | rfl) _ _ ⟨id, rfl⟩ ⟨id', rfl⟩
    all_goals exact .lift fun s _ => ⟨_, rfl, by decide⟩
  greater := by
    simp only [texts, List.mem_cons, List.not_mem_nil, or_false]
    rintro a (rfl | rfl | rfl) b (rfl | rfl | rfl) _ _ ⟨id, rfl⟩ ⟨id', rfl⟩
    all_goals exact .lift fun s _ => ⟨_, rfl, by decide⟩

theorem lengthOf_tiesEqual : TiesEqual (Holding shelved texts fun _ => True) texts.items
    (fun a k => ∃ id, k = .int .base id (a.text?.getD "").length) noLonger := by
  unfold TiesEqual
  simp only [texts, List.mem_cons, List.not_mem_nil, or_false]
  rintro a (rfl | rfl | rfl) b (rfl | rfl | rfl) _ _ ⟨id, rfl⟩ ⟨id', rfl⟩
  all_goals exact .lift fun s _ => ⟨_, rfl, by decide⟩

end Texts

end CheckedList

end Conform
