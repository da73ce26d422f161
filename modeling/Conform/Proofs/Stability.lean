import Conform.Proofs.Delivery
import Conform.Sorting
import Mathlib.Data.List.Perm.Basic
import Mathlib.Data.List.InsertIdx

/-!
What a sort makes of a list. Whatever the comparisons answer, as long as they answer, nothing is lost and nothing is
doubled. If they answer as a total preorder has it, the result is in order, and whatever stood in order before stands
in the same order afterwards: elements that are tied are not exchanged. Only one list is that.

Main statements: `Sorting.sortReporting_perm`, `Sorting.sortReporting_sorts`, `Sorting.Sorts.unique`.
-/
namespace Conform.Sorting

variable {α β : Type}

/-- Whether a relation is a total preorder of the elements of a list. -/
structure Ranks (R : α → α → Prop) (xs : List α) : Prop where
  total : ∀ a ∈ xs, ∀ b ∈ xs, R a b ∨ R b a
  trans : ∀ a ∈ xs, ∀ b ∈ xs, ∀ c ∈ xs, R a b → R b c → R a c

/-- Whether a list is what a stable sort makes of another one. -/
structure Sorts (R : α → α → Prop) (xs ys : List α) : Prop where
  perm : ys.Perm xs
  ordered : ys.Pairwise R
  /-- Whatever stands in order stays in its order. -/
  stable : ∀ zs : List α, zs.Sublist xs → zs.Pairwise R → zs.Sublist ys

variable {R : α → α → Prop} {xs ys : List α} {x : α}

namespace Ranks

theorem mono (ranks : Ranks R xs) (sub : ys ⊆ xs) : Ranks R ys where
  total a ha b hb := ranks.total a (sub ha) b (sub hb)
  trans a ha b hb c hc := ranks.trans a (sub ha) b (sub hb) c (sub hc)

theorem refl (ranks : Ranks R xs) {a : α} (ha : a ∈ xs) : R a a :=
  or_self_iff.mp (ranks.total a ha a ha)

theorem map {f : β → α} {xs : List β} (ranks : Ranks R (xs.map f)) : Ranks (fun a b => R (f a) (f b)) xs where
  total _ ha _ hb := ranks.total _ (List.mem_map_of_mem ha) _ (List.mem_map_of_mem hb)
  trans _ ha _ hb _ hc :=
    ranks.trans _ (List.mem_map_of_mem ha) _ (List.mem_map_of_mem hb) _ (List.mem_map_of_mem hc)

/-- Neither of the two kinds of run, rising or strictly falling, turns on its way. -/
theorem pairwise_of_chain (ranks : Ranks R xs) (down : Bool)
    (chain : xs.IsChain fun a b => down = true ↔ ¬R a b) : xs.Pairwise fun a b => down = true ↔ ¬R a b := by
  induction xs with
  | nil => exact .nil
  | cons a xs ih =>
    cases xs with
    | nil => exact List.pairwise_singleton _ a
    | cons b rest =>
      obtain ⟨ab, chain⟩ := List.isChain_cons_cons.mp chain
      have runs := ih (ranks.mono (List.subset_cons_self a _)) chain
      refine List.pairwise_cons.mpr ⟨List.forall_mem_cons.mpr ⟨ab, fun c hc => ?_⟩, runs⟩
      have bc := (List.pairwise_cons.mp runs).1 c hc
      have trans := ranks.trans a (by simp) b (by simp) c (by simp [hc])
      have back := ranks.trans a (by simp) c (by simp [hc]) b (by simp)
      cases down with
      | false => simpa using trans (by simpa using ab) (by simpa using bc)
      | true =>
        have cb : R c b := (ranks.total b (by simp) c (by simp [hc])).resolve_left (bc.mp rfl)
        simpa using fun ac => ab.mp rfl (back ac cb)

end Ranks

namespace Sorts

theorem reverse (sorts : Sorts R xs.reverse ys) : Sorts (fun a b => R b a) xs ys.reverse where
  perm := (List.reverse_perm ys).trans (sorts.perm.trans (List.reverse_perm xs))
  ordered := List.pairwise_reverse.mpr sorts.ordered
  stable zs sub ordered :=
    List.sublist_reverse_iff.mpr
      (sorts.stable zs.reverse (List.reverse_sublist.mpr sub) (List.pairwise_reverse.mpr ordered))

theorem map {f : β → α} {xs ys : List β} (sorts : Sorts (fun a b => R (f a) (f b)) xs ys) :
    Sorts R (xs.map f) (ys.map f) where
  perm := sorts.perm.map f
  ordered := List.pairwise_map.mpr sorts.ordered
  stable zs sub ordered := by
    obtain ⟨ws, within, rfl⟩ := List.sublist_map_iff.mp sub
    exact (sorts.stable ws within (List.pairwise_map.mp ordered)).map f

/-- A list that is in order is its own sort. -/
theorem self (ordered : xs.Pairwise R) : Sorts R xs xs :=
  ⟨.refl xs, ordered, fun _ sub _ => sub⟩

/-- A list in which nothing is in order is sorted by turning it around. -/
theorem turned (ranks : Ranks R xs) (falling : xs.Pairwise fun a b => ¬R a b) : Sorts R xs xs.reverse where
  perm := List.reverse_perm xs
  ordered := by
    apply List.pairwise_reverse.mpr
    apply falling.imp_of_mem
    intro a b ha hb strictly
    exact (ranks.total a ha b hb).resolve_left strictly
  stable zs sub ordered := by
    match zs with
    | [] => exact List.nil_sublist _
    | [a] => simpa using sub.subset
    | a :: b :: rest =>
      have strictly := falling.sublist sub
      simp only [List.pairwise_cons] at ordered strictly
      exact absurd (ordered.1 b (.head _)) (strictly.1 b (.head _))

theorem insertIdx_eq {place : Nat} (bound : place ≤ ys.length) :
    ys.insertIdx place x = ys.take place ++ x :: ys.drop place := by
  induction place generalizing ys with
  | zero => rfl
  | succ place ih =>
    cases ys with
    | nil => simp at bound
    | cons y ys => simp [ih (Nat.le_of_succ_le_succ bound)]

/-- Inserts an element behind everything that may stand before it. -/
theorem insert (sorts : Sorts R xs ys) (ranks : Ranks R (xs ++ [x])) {place : Nat}
    (bound : place ≤ ys.length) (before : ∀ a ∈ ys.take place, R a x) (behind : ∀ a ∈ ys.drop place, ¬R a x) :
    Sorts R (xs ++ [x]) (ys.insertIdx place x) where
  perm := by
    refine (List.perm_insertIdx x ys bound).trans ?_
    exact (sorts.perm.cons x).trans (List.perm_append_singleton x xs).symm
  ordered := by
    have parts : (ys.take place ++ ys.drop place).Pairwise R := by
      rw [List.take_append_drop]
      exact sorts.ordered
    obtain ⟨left, right, across⟩ := List.pairwise_append.mp parts
    rw [insertIdx_eq bound, List.pairwise_append, List.pairwise_cons]
    refine ⟨left, ⟨fun b hb => ?_, right⟩, fun a ha => ?_⟩
    · have known : b ∈ xs ++ [x] := List.mem_append_left _ (sorts.perm.subset (List.mem_of_mem_drop hb))
      exact (ranks.total x (by simp) b known).resolve_right (behind b hb)
    · rw [List.forall_mem_cons]
      exact ⟨before a ha, across a ha⟩
  stable zs sub ordered := by
    obtain ⟨us, vs, rfl, us_sub, vs_sub⟩ := List.sublist_append_iff.mp sub
    obtain ⟨us_ordered, -, across⟩ := List.pairwise_append.mp ordered
    have us_stay := sorts.stable us us_sub us_ordered
    obtain rfl | rfl := List.sublist_singleton.mp vs_sub
    · rw [List.append_nil]
      exact us_stay.trans (List.sublist_insertIdx ys place x)
    · -- What is to stay before the element stands before its place, since what stands behind may not.
      have before_place : us.Sublist (ys.take place) := by
        rw [← List.take_append_drop place ys] at us_stay
        obtain ⟨ls, rs, rfl, ls_sub, rs_sub⟩ := List.sublist_append_iff.mp us_stay
        have none_behind : rs = [] := by
          apply List.eq_nil_iff_forall_not_mem.mpr
          intro a ha
          exact behind a (rs_sub.subset ha) (across a (List.mem_append_right _ ha) x (.head _))
        rw [none_behind, List.append_nil]
        exact ls_sub
      rw [insertIdx_eq bound]
      exact before_place.append (List.singleton_sublist.mpr (.head _))

open Classical in
/-- The elements of a list that are tied with a given one, in their order. -/
noncomputable def tied (R : α → α → Prop) (a : α) (xs : List α) : List α :=
  xs.filter fun b => R a b ∧ R b a

theorem tied_tied {a : α} : tied R a (tied R a xs) = tied R a xs := by
  simp [tied]

/-- Elements that are tied stand after the sort as they stood before. -/
theorem tied_eq (sorts : Sorts R xs ys) (ranks : Ranks R xs) {a : α} (ha : a ∈ xs) : tied R a ys = tied R a xs := by
  have ordered : (tied R a xs).Pairwise R := by
    apply List.pairwise_of_forall_mem_list
    intro b hb c hc
    obtain ⟨hb, tb⟩ := by simpa [tied] using hb
    obtain ⟨hc, tc⟩ := by simpa [tied] using hc
    exact ranks.trans b hb a ha c hc tb.2 tc.1
  have stay : (tied R a xs).Sublist ys := sorts.stable _ List.filter_sublist ordered
  have within : (tied R a xs).Sublist (tied R a ys) := by
    rw [← tied_tied]
    exact stay.filter _
  exact (within.eq_of_length (sorts.perm.filter _).length_eq.symm).symm

/-- A list in order is known from its elements and from how those that are tied stand. -/
theorem eq_of_tied {zs : List α} (ranks : Ranks R ys) (perm : ys.Perm zs) (ordered : ys.Pairwise R)
    (ordered' : zs.Pairwise R) (ties : ∀ a ∈ ys, tied R a ys = tied R a zs) : ys = zs := by
  induction ys generalizing zs with
  | nil => exact (List.nil_perm.mp perm).symm
  | cons a ys ih =>
    cases zs with
    | nil => exact absurd perm.length_eq (by simp)
    | cons b zs =>
      rw [List.pairwise_cons] at ordered ordered'
      have refl {c : α} (hc : c ∈ a :: ys) : R c c := ranks.refl hc
      have ab : R a b := by
        obtain rfl | hb := List.mem_cons.mp (perm.symm.subset (.head _))
        · exact refl (.head _)
        · exact ordered.1 b hb
      have ba : R b a := by
        obtain rfl | ha := List.mem_cons.mp (perm.subset (.head _))
        · exact refl (.head _)
        · exact ordered'.1 a ha
      have heads := ties a (.head _)
      simp only [tied, refl (.head _), ab, ba, and_self, decide_true, List.filter_cons_of_pos] at heads
      obtain rfl : a = b := (List.cons.inj heads).1
      have tails : ys = zs := by
        apply ih (ranks.mono (List.subset_cons_self a ys)) (List.perm_cons a |>.mp perm) ordered.2 ordered'.2
        intro c hc
        have same := ties c (.tail _ hc)
        simp only [tied, List.filter_cons] at same ⊢
        split at same
        · exact (List.cons.inj same).2
        · exact same
      rw [tails]

/-- A stable sort leaves no choice. -/
theorem unique {zs : List α} (ranks : Ranks R xs) (first : Sorts R xs ys) (second : Sorts R xs zs) : ys = zs := by
  have sub := first.perm.subset
  apply eq_of_tied (ranks.mono sub) (first.perm.trans second.perm.symm) first.ordered second.ordered
  intro a ha
  rw [first.tied_eq ranks (sub ha), second.tied_eq ranks (sub ha)]

end Sorts

section Running

variable {inv : Session → Prop} {less : α → α → Act Bool} {report : List α → Act Unit} {zs : List α}
  {A : α → α → Bool → Prop}

/-- A run at the start is one by the answers that were given about it, each element compared with the one before. -/
theorem runLength_delivers (answers : ∀ a ∈ zs, ∀ b ∈ zs, (less a b).Delivers inv (A a b)) (down : Bool)
    (hx : x ∈ zs) (sub : xs ⊆ zs) :
    (runLength less down x xs).Delivers inv fun n => (x :: xs.take n).IsChain fun a b => A b a down := by
  induction xs generalizing x with
  | nil => exact .pure (.singleton x)
  | cons y xs ih =>
    obtain ⟨hy, sub⟩ := List.cons_subset.mp sub
    refine .bind (answers y hy x hx) fun b hb => .ite (fun goes => ?_) fun _ => .pure (.singleton x)
    obtain rfl : b = down := by simpa using goes
    refine .bind (ih hy sub) fun n hn => .pure ?_
    exact .cons_cons hb hn

theorem firstRun_delivers (answers : ∀ a ∈ xs, ∀ b ∈ xs, (less a b).Delivers inv (A a b)) :
    (firstRun less xs).Delivers inv fun r => (xs.take r.1).IsChain fun a b => A b a r.2 := by
  match xs with
  | [] => exact .pure .nil
  | [x] => exact .pure (.singleton x)
  | x :: y :: rest =>
    refine .bind (answers y (by simp) x (by simp)) fun down hb => ?_
    refine .bind (runLength_delivers answers down (by simp) (by simp)) fun n hn => .pure ?_
    exact .cons_cons hb hn

/-- Where a search between two ends can stop: whatever is next to the place inside of the ends was compared with the
pivot, and sent it there. -/
structure Lands (A : α → α → Bool → Prop) (pivot : α) (ys : List α) (low high place : Nat) : Prop where
  least : low ≤ place
  most : place ≤ high
  before : low < place → ∃ y, ys[place - 1]? = some y ∧ A pivot y false
  behind : place < high → ∃ y, ys[place]? = some y ∧ A pivot y true

theorem searchPlace_delivers (answers : ∀ a ∈ zs, ∀ b ∈ zs, (less a b).Delivers inv (A a b)) (hx : x ∈ zs)
    (sub : ys ⊆ zs) {fuel low high : Nat} (ends : low ≤ high) (bound : high ≤ ys.length) (enough : high - low ≤ fuel) :
    (searchPlace less ys.toArray x fuel low high).Delivers inv (Lands A x ys low high) := by
  induction fuel generalizing low high with
  | zero => exact .pure ⟨Nat.le_refl low, ends, by omega, by omega⟩
  | succ fuel ih =>
    refine .ite (fun still => ?_) fun _ => .pure ⟨Nat.le_refl low, ends, by omega, by omega⟩
    dsimp only
    generalize middle_eq : low + (high - low) / 2 = middle
    have inside : middle < ys.length := by omega
    rw [List.getElem?_toArray, List.getElem?_eq_getElem inside]
    have found : ys[middle]? = some ys[middle] := List.getElem?_eq_getElem inside
    refine .bind (answers x hx _ (sub (List.getElem_mem inside))) fun b hb => .ite (fun less => ?_) fun more => ?_
    · subst less
      refine (ih (by omega) (by omega) (by omega)).mono fun place lands => ?_
      refine ⟨lands.least, by have := lands.most; omega, lands.before, fun _ => ?_⟩
      by_cases end_ : place < middle
      · exact lands.behind end_
      · obtain rfl : place = middle := Nat.le_antisymm lands.most (Nat.le_of_not_lt end_)
        exact ⟨_, found, hb⟩
    · obtain rfl := Bool.eq_false_iff.mpr more
      refine (ih (by omega) bound (by omega)).mono fun place lands => ?_
      refine ⟨by have := lands.least; omega, lands.most, fun _ => ?_, lands.behind⟩
      by_cases end_ : middle + 1 < place
      · exact lands.before end_
      · obtain rfl : place = middle + 1 := Nat.le_antisymm (Nat.le_of_not_lt end_) lands.least
        exact ⟨_, found, hb⟩

/-- What holds of the run at the start, and goes on to hold where an element is inserted, holds of the sorted list. -/
theorem insertAll_delivers {I : List α → List α → Prop}
    (answers : ∀ a ∈ zs, ∀ b ∈ zs, (less a b).Delivers inv (A a b))
    (reports : ∀ ws, (report ws).Delivers inv fun _ => True)
    (step : ∀ done ys x place, done ++ [x] ⊆ zs → I done ys → Lands A x ys 0 ys.length place →
      I (done ++ [x]) (ys.insertIdx place x)) {done rest : List α} (known : done ++ rest ⊆ zs) (sub : ys ⊆ zs)
    (here : I done ys) : (insertAll less report ys rest).Delivers inv (I (done ++ rest)) := by
  induction rest generalizing done ys with
  | nil =>
    rw [List.append_nil]
    exact .pure here
  | cons x rest ih =>
    have hx : x ∈ zs := known (by simp)
    have next : done ++ x :: rest = (done ++ [x]) ++ rest := by simp
    refine .bind (reports _) fun _ _ => ?_
    refine .bind (searchPlace_delivers answers hx sub (Nat.zero_le _) (Nat.le_refl _) (by omega)) fun place lands => ?_
    rw [next] at known ⊢
    apply ih known
    · intro a ha
      obtain rfl | ha := List.eq_or_mem_of_mem_insertIdx ha
      · exact hx
      · exact sub ha
    · exact step done ys x place (fun a ha => known (List.mem_append_left _ ha)) here lands

theorem sortReporting_delivers {I : List α → List α → Prop}
    (answers : ∀ a ∈ xs, ∀ b ∈ xs, (less a b).Delivers inv (A a b))
    (reports : ∀ ws, (report ws).Delivers inv fun _ => True)
    (first : ∀ n down, ((xs.take n).IsChain fun a b => A b a down) →
      I (xs.take n) (if down then (xs.take n).reverse else xs.take n))
    (step : ∀ done ys x place, done ++ [x] ⊆ xs → I done ys → Lands A x ys 0 ys.length place →
      I (done ++ [x]) (ys.insertIdx place x)) : (sortReporting less report xs).Delivers inv (I xs) := by
  refine .bind (firstRun_delivers answers) fun r chain => ?_
  have inserted : (insertAll less report (if r.2 then (xs.take r.1).reverse else xs.take r.1)
      (xs.drop r.1)).Delivers inv (I (xs.take r.1 ++ xs.drop r.1)) := by
    apply insertAll_delivers answers reports step
    · rw [List.take_append_drop]
      exact List.Subset.refl xs
    · intro a ha
      split at ha
      · exact List.mem_of_mem_take (List.mem_reverse.mp ha)
      · exact List.mem_of_mem_take ha
    · exact first r.1 r.2 chain
  rwa [List.take_append_drop] at inserted

/-- Nothing is lost and nothing is doubled, whatever the comparisons answer. -/
theorem sortReporting_perm (answers : ∀ a ∈ xs, ∀ b ∈ xs, (less a b).Delivers inv fun _ => True)
    (reports : ∀ ws, (report ws).Delivers inv fun _ => True) :
    (sortReporting less report xs).Delivers inv (·.Perm xs) := by
  apply sortReporting_delivers (A := fun _ _ _ => True) (I := fun done ys => ys.Perm done) answers reports
  · intro n down _
    split
    · exact List.reverse_perm _
    · exact .refl _
  · intro done ys x place _ perm lands
    refine (List.perm_insertIdx x ys lands.most).trans ?_
    exact (perm.cons x).trans (List.perm_append_singleton x done).symm

section Landing

variable {place : Nat}

/-- Before the place where a search stops stands what may stand before the pivot. -/
theorem Lands.forall_take (lands : Lands (fun a b r => r = true ↔ ¬R b a) x ys 0 ys.length place)
    (ranks : Ranks R (x :: ys)) (ordered : ys.Pairwise R) : ∀ a ∈ ys.take place, R a x := by
  cases place with
  | zero => simp
  | succ p =>
    obtain ⟨y, found, goes⟩ := lands.before (Nat.succ_pos p)
    have hy : y ∈ ys := List.mem_of_getElem? found
    have yx : R y x := by simpa using goes
    have split : ys.take (p + 1) = ys.take p ++ [y] := by
      simpa [List.take_add_one] using congrArg Option.toList found
    have parts := ordered.sublist (List.take_sublist (p + 1) ys)
    rw [split] at parts ⊢
    intro a ha
    obtain ha | rfl := by simpa using ha
    · have ay : R a y := (List.pairwise_append.mp parts).2.2 a ha y (.head _)
      exact ranks.trans a (.tail _ (List.mem_of_mem_take ha)) y (.tail _ hy) x (.head _) ay yx
    · exact yx

/-- Behind it stands what may not. -/
theorem Lands.forall_drop (lands : Lands (fun a b r => r = true ↔ ¬R b a) x ys 0 ys.length place)
    (ranks : Ranks R (x :: ys)) (ordered : ys.Pairwise R) : ∀ a ∈ ys.drop place, ¬R a x := by
  by_cases inside : place < ys.length
  · obtain ⟨y, found, goes⟩ := lands.behind inside
    have hy : y ∈ ys := List.mem_of_getElem? found
    have yx : ¬R y x := goes.mp rfl
    obtain ⟨_, same⟩ := List.getElem?_eq_some_iff.mp found
    have parts := ordered.sublist (List.drop_sublist place ys)
    rw [List.drop_eq_getElem_cons inside, same] at parts ⊢
    refine List.forall_mem_cons.mpr ⟨yx, fun a ha ax => yx ?_⟩
    have ya : R y a := (List.pairwise_cons.mp parts).1 a ha
    exact ranks.trans y (.tail _ hy) a (.tail _ (List.mem_of_mem_drop ha)) x (.head _) ya ax
  · simp [List.drop_eq_nil_of_le (Nat.le_of_not_lt inside)]

end Landing

/-- Comparisons that answer as a total preorder has it sort the list by it. -/
theorem sortReporting_sorts (ranks : Ranks R xs)
    (decides : ∀ a ∈ xs, ∀ b ∈ xs, (less a b).Decides inv (¬R b a))
    (reports : ∀ ws, (report ws).Delivers inv fun _ => True) :
    (sortReporting less report xs).Delivers inv (Sorts R xs) := by
  apply sortReporting_delivers (A := fun a b r => r = true ↔ ¬R b a) (I := Sorts R) decides reports
  · intro n down chain
    have known := ranks.mono (List.take_subset n xs)
    have runs := known.pairwise_of_chain down chain
    cases down with
    | false => exact .self (by simpa using runs)
    | true => exact .turned known (by simpa using runs)
  · intro done ys x place sub sorts lands
    have known := ranks.mono sub
    have here : Ranks R (x :: ys) := by
      apply known.mono
      apply List.cons_subset.mpr
      exact ⟨by simp, fun a ha => List.mem_append_left _ (sorts.perm.subset ha)⟩
    exact sorts.insert known lands.most (lands.forall_take here sorts.ordered) (lands.forall_drop here sorts.ordered)

open Classical in
/-- A list can be sorted by every total preorder of its elements. -/
theorem Ranks.exists_sorts (ranks : Ranks R xs) : ∃ ys, Sorts R xs ys := by
  have sorted : (sortReporting (fun a b => Pure.pure (decide ¬R b a)) (fun _ => Pure.pure ()) xs : Act _).Delivers
      (fun _ => True) (Sorts R xs) :=
    sortReporting_sorts ranks (fun a _ b _ => .pure (by simp)) fun _ => .pure trivial
  obtain ⟨ys, _, _, _, sorts⟩ := sorted {} trivial
  exact ⟨ys, sorts⟩

end Running

end Conform.Sorting
