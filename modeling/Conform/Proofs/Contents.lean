import Conform.Proofs.Admission
import Mathlib.Data.List.InsertIdx

/-!
Operations that drop, move, pick or place items answer items that were there or came in. The loops that
ask callbacks on the way keep the session in order if the callbacks do.
-/
namespace Conform

open Value Descriptor

section Places

variable {α : Type} {xs ys vs : List α} {v : α}

namespace Sequence

theorem mem_of_get? {i : Int} (h : get? xs i = some v) : v ∈ xs := by
  obtain ⟨j, -, hj⟩ := Option.bind_eq_some_iff.mp h
  exact List.mem_of_getElem? hj

theorem set?_subset {i : Int} (h : set? xs i v = some ys) : ys ⊆ v :: xs := by
  obtain ⟨j, -, rfl⟩ := Option.map_eq_some_iff.mp h
  intro w hw
  obtain hw | rfl := List.mem_or_eq_of_mem_set hw
  · exact List.mem_cons_of_mem _ hw
  · exact List.mem_cons_self

theorem delete?_subset {i : Int} (h : delete? xs i = some ys) : ys ⊆ xs := by
  obtain ⟨j, -, rfl⟩ := Option.map_eq_some_iff.mp h
  exact (List.eraseIdx_sublist xs j).subset

theorem insert_subset {i : Int} : insert xs i v ⊆ v :: xs :=
  List.insertIdx_subset_cons _ v xs

namespace Slice

theorem read_subset (s : Slice) : s.read xs ⊆ xs := by
  intro w hw
  obtain ⟨i, -, hi⟩ := List.mem_filterMap.mp hw
  exact List.mem_of_getElem? hi

theorem delete_subset (s : Slice) : s.delete xs ⊆ xs := by
  intro w hw
  simp only [delete, List.mem_map, List.mem_filter] at hw
  obtain ⟨⟨x, i⟩, ⟨hx, -⟩, rfl⟩ := hw
  exact List.fst_mem_of_mem_zipIdx hx

theorem splice_subset (s : Slice) : s.splice xs vs ⊆ xs ++ vs := by
  intro w hw
  simp only [splice, List.mem_append] at hw
  obtain (hw | hw) | hw := hw
  · exact List.mem_append_left _ (List.mem_of_mem_take hw)
  · exact List.mem_append_right _ hw
  · exact List.mem_append_left _ (List.mem_of_mem_drop hw)

theorem foldl_set_subset (places : List (Nat × α)) :
    places.foldl (fun ys (i, v) => ys.set i v) xs ⊆ xs ++ places.map (·.2) := by
  induction places generalizing xs with
  | nil => simp
  | cons place places ih =>
    intro w hw
    obtain hw | hw := List.mem_append.mp (ih hw)
    · obtain hw | rfl := List.mem_or_eq_of_mem_set hw <;> simp [*]
    · exact List.mem_append_right _ (List.mem_cons_of_mem _ hw)

theorem put_subset (s : Slice) : s.put xs vs ⊆ xs ++ vs := by
  intro w hw
  obtain hw | hw := List.mem_append.mp (foldl_set_subset _ hw)
  · exact List.mem_append_left _ hw
  · obtain ⟨⟨i, x⟩, hx, rfl⟩ := List.mem_map.mp hw
    exact List.mem_append_right _ (List.of_mem_zip hx).2

theorem assign_subset {s : Slice} (h : s.assign xs vs = .ok ys) : ys ⊆ xs ++ vs := by
  unfold assign at h
  split at h
  · cases h
    exact s.splice_subset
  · split at h
    · cases h
      exact s.put_subset
    · cases h

end Slice

end Sequence

theorem mem_of_mem_swapIfInBounds {heap : Array α} {i j : Nat} (hv : v ∈ heap.swapIfInBounds i j) :
    v ∈ heap := by
  rw [Array.swapIfInBounds_def] at hv
  split at hv
  · split at hv
    · exact (Array.swap_perm _ _).mem_iff.mp hv
    · exact hv
  · exact hv

/-- An item that is moved or dropped. -/
theorem cond_subset {keep : Bool} : xs ++ cond keep (v :: vs) vs ⊆ v :: xs ++ vs := by
  cases keep with
  | true => exact List.perm_middle.subset
  | false => exact List.subset_cons_self v (xs ++ vs)

end Places

section Looks

variable {h : Heap} {xs ys vs : List Value} {v index value : Value}

theorem assignedAt_subset (run : assignedAt xs index value h = .ok ys) : ys ⊆ value :: xs := by
  obtain ⟨i, -, run⟩ := Look.bind_eq_ok.mp run
  cases set : Sequence.set? xs i value with
  | none => simp [set] at run
  | some zs =>
    simp only [set, Look.pure_eq_ok] at run
    exact run ▸ Sequence.set?_subset set

theorem assignedSlice_subset {start stop step : Value}
    (run : assignedSlice xs start stop step vs h = .ok ys) : ys ⊆ xs ++ vs := by
  obtain ⟨s, -, run⟩ := Look.bind_eq_ok.mp run
  cases assigned : s.assign xs vs with
  | error cause => simp [assigned] at run
  | ok zs =>
    simp only [assigned, Look.pure_eq_ok] at run
    exact run ▸ Sequence.Slice.assign_subset assigned

theorem insertedAt_subset (run : insertedAt xs index value h = .ok ys) : ys ⊆ value :: xs := by
  obtain ⟨i, -, run⟩ := Look.bind_eq_ok.mp run
  obtain rfl := Look.pure_eq_ok.mp run
  exact Sequence.insert_subset

theorem deletedAt_subset (run : deletedAt xs index h = .ok ys) : ys ⊆ xs := by
  unfold deletedAt at run
  split at run
  · obtain ⟨s, -, run⟩ := Look.bind_eq_ok.mp run
    obtain rfl := Look.pure_eq_ok.mp run
    exact s.delete_subset
  · obtain ⟨i, -, run⟩ := Look.bind_eq_ok.mp run
    cases deleted : Sequence.delete? xs i with
    | none => simp [deleted] at run
    | some zs =>
      simp only [deleted, Look.pure_eq_ok] at run
      exact run ▸ Sequence.delete?_subset deleted

theorem poppedAt_subset {item : Value} (run : poppedAt xs index h = .ok (item, ys)) :
    item ∈ xs ∧ ys ⊆ xs := by
  obtain ⟨i, -, run⟩ := Look.bind_eq_ok.mp run
  split at run
  · simp at run
  · split at run
    · next got deleted =>
      cases Look.pure_eq_ok.mp run
      exact ⟨Sequence.mem_of_get? got, Sequence.delete?_subset deleted⟩
    · simp at run

open CheckedList in
theorem removeFirst_subset (run : removeFirst value xs h = .ok ys) : ys ⊆ xs := by
  induction xs generalizing ys with
  | nil => simp [removeFirst] at run
  | cons x xs ih =>
    simp only [removeFirst, Look.bind_eq_ok] at run
    obtain ⟨found, -, run⟩ := run
    cases found with
    | true =>
      obtain rfl := Look.pure_eq_ok.mp run
      exact List.subset_cons_self x xs
    | false =>
      obtain ⟨rest, removed, run⟩ := Look.bind_eq_ok.mp run
      obtain rfl := Look.pure_eq_ok.mp run
      exact List.cons_subset_cons x (ih removed)

theorem filterAuxM_subset {p : Value → Look Bool} (run : xs.filterAuxM p vs h = .ok ys) :
    ys ⊆ xs ++ vs := by
  induction xs generalizing vs with
  | nil =>
    obtain rfl := Look.pure_eq_ok.mp run
    simp
  | cons x xs ih =>
    obtain ⟨keep, -, run⟩ := Look.bind_eq_ok.mp run
    exact List.Subset.trans (ih run) cond_subset

/-- Items that are taken up one by one, each or none. -/
theorem foldlM_subset {f : List Value → Value → Look (List Value)}
    (hf : ∀ kept v ys, f kept v h = .ok ys → ys ⊆ v :: kept)
    (run : xs.foldlM f vs h = .ok ys) : ys ⊆ xs ++ vs := by
  induction xs generalizing vs with
  | nil =>
    obtain rfl := Look.pure_eq_ok.mp run
    simp
  | cons x xs ih =>
    obtain ⟨kept, first, run⟩ := Look.bind_eq_ok.mp run
    intro w hw
    obtain hw | hw := List.mem_append.mp (ih run hw)
    · exact List.mem_append_left _ (List.mem_cons_of_mem _ hw)
    · have hw := hf _ _ _ first hw
      simp only [List.mem_cons, List.mem_append] at hw ⊢
      tauto

namespace CheckedList

theorem keepAbsent_subset (run : keepAbsent vs xs h = .ok ys) : ys ⊆ xs := by
  obtain ⟨zs, filtered, run⟩ := Look.bind_eq_ok.mp run
  obtain rfl := Look.pure_eq_ok.mp run
  simpa using filterAuxM_subset filtered

theorem addUnique_subset (run : addUnique xs v h = .ok ys) : ys ⊆ v :: xs := by
  obtain ⟨found, -, run⟩ := Look.bind_eq_ok.mp run
  cases found <;> obtain rfl := Look.pure_eq_ok.mp run
  · simp [List.subset_def, or_comm]
  · exact List.subset_cons_self v xs

theorem unique_subset (run : unique xs h = .ok ys) : ys ⊆ xs := by
  simpa using foldlM_subset (fun _ _ _ => addUnique_subset) run

theorem uniqueCommon_subset (run : uniqueCommon vs xs h = .ok ys) : ys ⊆ xs := by
  refine List.Subset.trans (foldlM_subset (fun kept v zs run => ?_) run) (by simp)
  obtain ⟨found, -, run⟩ := Look.bind_eq_ok.mp run
  cases found with
  | true => exact addUnique_subset run
  | false =>
    obtain rfl := Look.pure_eq_ok.mp run
    exact List.subset_cons_self v _

end CheckedList

end Looks

/-- Whether a callback, called at any later moment in order, leads on to order and answers a value that
is there. -/
def Regime.Obliges (R : Regime) (n : Nat) (s : Session) (f : Value) : Prop :=
  ∀ t args, R.Later s t → R.InOrder t → (∀ a ∈ args, a.Live t.heap) →
    R.Sure t ((R.engine n).call f args []) fun w u => w.Live u.heap

theorem Regime.Obliges.later {R : Regime} {n : Nat} {s t : Session} {f : Value} (hf : R.Obliges n s f)
    (st : R.Later s t) : R.Obliges n t f :=
  fun u args tu => hf u args (st.trans tu)

section Comparing

variable {R : Regime} {α : Type} {s t : Session} {P : α → Prop} {less : α → α → Act Bool}
  {report : List α → Act Unit}

/-- Whether comparisons of things in `P` lead from order to order at every later moment. -/
def Regime.Compares (R : Regime) (s : Session) (P : α → Prop) (less : α → α → Act Bool) : Prop :=
  ∀ t, R.Later s t → R.InOrder t → ∀ a b, P a → P b → R.Sure t (less a b) fun _ _ => True

theorem Regime.Compares.later (hless : R.Compares s P less) (st : R.Later s t) :
    R.Compares t P less :=
  fun u tu => hless u (st.trans tu)

/-- Whether reports of things in `P` lead from order to order at every later moment. -/
def Regime.Reports (R : Regime) (s : Session) (P : α → Prop) (report : List α → Act Unit) : Prop :=
  ∀ t, R.Later s t → R.InOrder t → ∀ ys, (∀ y ∈ ys, P y) → R.Sure t (report ys) fun _ _ => True

theorem Regime.Reports.later (hreport : R.Reports s P report) (st : R.Later s t) :
    R.Reports t P report :=
  fun u tu => hreport u (st.trans tu)

end Comparing

namespace Regime.Sure

open CheckedList

variable {R : Regime} {α : Type} {s : Session} {n : Nat} {f key comparator : Value}
  {items : List Value}

section

variable (order : R.InOrder s)
include order

/-- Calling a callback on a value. -/
theorem callOn (hf : R.Obliges n s f) {v : Value} (lv : v.Live s.heap) :
    R.Sure s ((R.engine n).call f [v] []) fun w t => w.Live t.heap :=
  hf s [v] (.refl s) order (by simpa using lv)

theorem filterAux {p : Value → Act Bool} {kept : List Value}
    (hp : ∀ t, R.Later s t → R.InOrder t → ∀ v ∈ items, R.Sure t (p v) fun _ _ => True) :
    R.Sure s (items.filterAuxM p kept) fun vs _ => vs ⊆ items ++ kept := by
  induction items generalizing s kept with
  | nil => exact .pure order (by simp)
  | cons v items ih =>
    refine .bind (hp s (.refl s) order v (by simp)) fun keep t st order _ => ?_
    exact (ih order fun u tu order w hw => hp u (st.trans tu) order w (by simp [hw])).mono
      fun vs _ _ _ among => List.Subset.trans among cond_subset

theorem keepIf {wanted : Bool} (hf : R.Obliges n s f) (live : ∀ v ∈ items, v.Live s.heap) :
    R.Sure s (keepIf (R.engine n) f wanted items) fun vs _ => vs ⊆ items := by
  refine .bind (filterAux order fun t st order v hv => ?_) fun vs t _ order among => ?_
  · refine .bind (callOn order (hf.later st) (st.live (live v hv))) fun w u _ order _ => ?_
    exact .bind (.reading order _) fun _ _ _ order _ => .pure order trivial
  · exact .pure order (by simpa using among)

theorem keyOf {v : Value} (hk : R.Obliges n s key) (lv : v.Live s.heap) :
    R.Sure s (keyOf (R.engine n) key v) fun _ _ => True := by
  unfold CheckedList.keyOf
  split
  · exact .pure order trivial
  · exact (callOn order hk lv).mono fun _ _ _ _ _ => trivial

theorem keyed (hk : R.Obliges n s key) (live : ∀ v ∈ items, v.Live s.heap) :
    R.Sure s (keyed (R.engine n) key items) fun ks _ => ∀ k ∈ ks, k.item ∈ items := by
  unfold CheckedList.keyed
  induction items generalizing s with
  | nil => exact .pure order (by simp)
  | cons v items ih =>
    rw [List.mapM_cons]
    refine .bind (.bind (keyOf order hk (live v (by simp))) fun k t _ order _ =>
      .pure (Q := fun (k : Keyed) _ => k.item = v) order rfl) fun k t st order hk' => ?_
    refine .bind (ih order (hk.later st) fun w hw => st.live (live w (by simp [hw]))) ?_
    intro ks u _ order hks
    refine .pure order (List.forall_mem_cons.mpr ⟨by simp [hk'], fun k hk => ?_⟩)
    exact List.mem_cons_of_mem _ (hks k hk)

end

/-- Nothing happens when what is no callback is called. -/
theorem nil_obliges : R.Obliges n s .nil := by
  intro t args _ order _
  cases n with
  | zero => exact .throw order _
  | succ n => exact .fail order _

theorem goesBefore {a b : Keyed} (order : R.InOrder s) (hc : R.Obliges n s comparator)
    (la : a.item.Live s.heap) (lb : b.item.Live s.heap) :
    R.Sure s (goesBefore (R.engine n) comparator a b) fun _ _ => True := by
  unfold CheckedList.goesBefore
  split
  · exact .reading order _
  · refine .bind (hc s [a.item, b.item] (.refl s) order (by simpa using ⟨la, lb⟩)) ?_
    exact fun w t _ order _ => .reading order _

section Sorting

open Sorting

variable {P : α → Prop} {less : α → α → Act Bool} {xs : List α}

section

variable (order : R.InOrder s) (hless : R.Compares s P less)
include order hless

theorem runLength {down : Bool} {x : α} (hx : P x) (hxs : ∀ y ∈ xs, P y) :
    R.Sure s (runLength less down x xs) fun _ _ => True := by
  induction xs generalizing s x with
  | nil => exact .pure order trivial
  | cons y xs ih =>
    simp only [List.forall_mem_cons] at hxs
    refine .bind (hless s (.refl s) order y x hxs.1 hx) fun b t st order _ => .ite (fun _ => ?_)
      fun _ => .pure order trivial
    refine .bind (ih order (hless.later st) hxs.1 hxs.2) ?_
    exact fun _ _ _ order _ => .pure order trivial

theorem firstRun (hxs : ∀ y ∈ xs, P y) : R.Sure s (firstRun less xs) fun _ _ => True := by
  unfold Sorting.firstRun
  split
  · exact .pure order trivial
  · exact .pure order trivial
  · simp only [List.forall_mem_cons] at hxs
    refine .bind (hless s (.refl s) order _ _ hxs.2.1 hxs.1) fun down t st order _ => ?_
    refine .bind (runLength order (hless.later st) hxs.2.1 hxs.2.2) ?_
    exact fun _ _ _ order _ => .pure order trivial

theorem searchPlace {sorted : Array α} {pivot : α} {fuel low high : Nat} (hp : P pivot)
    (hs : ∀ y ∈ sorted, P y) : R.Sure s (searchPlace less sorted pivot fuel low high) fun _ _ => True := by
  induction fuel generalizing s low high with
  | zero => exact .pure order trivial
  | succ fuel ih =>
    refine .ite (fun _ => ?_) fun _ => .pure order trivial
    dsimp only
    split
    · exact .pure order trivial
    · next x at_ =>
      refine .bind (hless s (.refl s) order _ _ hp (hs x (Array.mem_of_getElem? at_))) ?_
      intro b t st order _
      have rest {low high : Nat} :
          R.Sure t (Sorting.searchPlace less sorted pivot fuel low high) fun _ _ => True :=
        ih order (hless.later st)
      exact .ite (fun _ => rest) fun _ => rest

theorem insertAll {report : List α → Act Unit} {sorted : List α} (hreport : R.Reports s P report)
    (hs : ∀ y ∈ sorted, P y) (hxs : ∀ y ∈ xs, P y) :
    R.Sure s (insertAll less report sorted xs) fun ys _ => ∀ y ∈ ys, P y := by
  induction xs generalizing s sorted with
  | nil => exact .pure order hs
  | cons x xs ih =>
    have hxs' := List.forall_mem_cons.mp hxs
    refine .bind (hreport s (.refl s) order _ fun y hy => ?_) fun _ t st order _ => ?_
    · exact (List.mem_append.mp hy).elim (hs y) (hxs y)
    refine .bind (searchPlace order (hless.later st) hxs'.1 (by simpa using hs)) ?_
    intro place u tu order _
    refine ih order (hless.later (st.trans tu))
      (hreport.later (st.trans tu)) (fun y hy => ?_) hxs'.2
    exact (List.eq_or_mem_of_mem_insertIdx hy).elim (fun same => same ▸ hxs'.1) (hs y)

/-- A sort keeps the session in order if its comparisons and reports do, and it answers what it was
given. -/
theorem sortReporting {report : List α → Act Unit} (hreport : R.Reports s P report) (hxs : ∀ y ∈ xs, P y) :
    R.Sure s (sortReporting less report xs) fun ys _ => ∀ y ∈ ys, P y := by
  refine .bind (firstRun order hless hxs) fun r t st order _ => ?_
  refine insertAll order (hless.later st) (hreport.later st)
    (fun y hy => hxs y ?_) fun y hy => hxs y (List.mem_of_mem_drop hy)
  split at hy
  · exact List.mem_of_mem_take (List.mem_reverse.mp hy)
  · exact List.mem_of_mem_take hy

end

/-- What a sort of items, by keys or by a comparator, answers is among them. -/
theorem sortItems {falling : Value} {report : List Value → Act Unit} (order : R.InOrder s)
    (hc : R.Obliges n s comparator) (hk : R.Obliges n s key) (live : ∀ v ∈ items, v.Live s.heap)
    (hreport : R.Reports s (· ∈ items) report) :
    R.Sure s (sortItems (R.engine n) comparator key falling items report) fun vs _ => vs ⊆ items := by
  have arranged {falls : Bool} {ks : List Keyed} (hks : ∀ k ∈ ks, k.item ∈ items) :
      (if falls then ks.reverse else ks).map (·.item) ⊆ items := by
    refine List.forall_mem_map.mpr fun k hk => hks k ?_
    split at hk
    · exact List.mem_reverse.mp hk
    · exact hk
  refine .ite (fun _ => .fail order _) fun _ => ?_
  refine .bind (.reading order _) fun falls t st order _ => ?_
  refine .bind (keyed order (hk.later st) fun v hv => st.live (live v hv)) fun ks u tu order hks => ?_
  have su := st.trans tu
  refine .bind (sortReporting (P := fun k => k.item ∈ items) order ?_ ?_ fun k hk => hks k ?_)
    fun sorted _ _ order hs => .pure order (arranged hs)
  · intro t ut order a b ha hb
    exact goesBefore order (hc.later (su.trans ut)) ((su.trans ut).live (live _ ha))
      ((su.trans ut).live (live _ hb))
  · exact fun t ut order ys hys => hreport t (su.trans ut) order _ (arranged hys)
  · split at hk
    · exact List.mem_reverse.mp hk
    · exact hk

end Sorting

section Selecting

open Selection

variable {P : α → Prop} {above : α → α → Act Bool} {heap : Array α}

variable (order : R.InOrder s) (habove : R.Compares s P above) (hh : ∀ x ∈ heap, P x)
include order habove hh

theorem climb {start i : Nat} : R.Sure s (climb above start heap i) fun heap _ => ∀ x ∈ heap, P x := by
  induction i using Nat.strongRecOn generalizing s heap with
  | ind i ih =>
    unfold Selection.climb
    split
    · next h =>
      dsimp only
      split
      · next x p hx hp =>
        refine .bind (habove s (.refl s) order _ _ (hh x (Array.mem_of_getElem? hx))
          (hh p (Array.mem_of_getElem? hp))) fun b t st order _ => .ite (fun _ => ?_) fun _ => ?_
        · exact ih _ (by omega) order (habove.later st) fun y hy => hh y (mem_of_mem_swapIfInBounds hy)
        · exact .pure order hh
      · exact .pure order hh
    · exact .pure order hh

theorem topChild {i : Nat} : R.Sure s (topChild above heap i) fun _ _ => True := by
  unfold Selection.topChild
  split
  · next l r hl hr =>
    refine .bind (habove s (.refl s) order _ _ (hh l (Array.mem_of_getElem? hl))
      (hh r (Array.mem_of_getElem? hr))) fun b t _ order _ => ?_
    exact .ite (fun _ => .pure order trivial) fun _ => .pure order trivial
  · exact .pure order trivial

theorem sink {start fuel i : Nat} :
    R.Sure s (sink above start fuel heap i) fun heap _ => ∀ x ∈ heap, P x := by
  induction fuel generalizing s heap i with
  | zero => exact climb order habove hh
  | succ fuel ih =>
    refine .ite (fun _ => .bind (topChild order habove hh) fun child t st order _ => ?_)
      fun _ => climb order habove hh
    exact ih order (habove.later st) fun y hy => hh y (mem_of_mem_swapIfInBounds hy)

theorem settleAll {m : Nat} : R.Sure s (settleAll above m heap) fun heap _ => ∀ x ∈ heap, P x := by
  induction m generalizing s heap with
  | zero => exact .pure order hh
  | succ m ih =>
    exact .bind (sink order habove hh) fun heap t st order hh => ih order (habove.later st) hh

theorem replaceTop {x : α} (hx : P x) : R.Sure s (replaceTop above heap x) fun heap _ => ∀ x ∈ heap, P x := by
  refine sink order habove fun y hy => ?_
  exact (Array.mem_or_eq_of_mem_setIfInBounds hy).elim (hh y) fun same => same ▸ hx

end Selecting

section Extremes

variable {side : Extreme}

theorem above_compares {P : Candidate → Prop} : R.Compares s P (Candidate.above side) := by
  intro t _ order a b _ _
  have less (a b : Candidate) : R.Sure t (a.less b) fun _ _ => True := by
    refine .bind (.reading order _) fun _ _ _ order _ => .ite (fun _ => .pure order trivial) fun _ => ?_
    exact .reading order _
  cases side with
  | largest => exact less a b
  | smallest => exact less b a

variable (order : R.InOrder s) (hk : R.Obliges n s key) (live : ∀ v ∈ items, v.Live s.heap)
include order hk live

theorem bestFrom {champion : Keyed} :
    R.Sure s (bestFrom (R.engine n) side key champion items) fun v _ => v ∈ champion.item :: items := by
  induction items generalizing s champion with
  | nil => exact .pure order (by simp)
  | cons v items ih =>
    simp only [List.forall_mem_cons] at live
    refine .bind (keyOf order hk live.1) fun k t st order _ => ?_
    refine .bind (.reading order _) fun better u tu order _ => ?_
    have su := st.trans tu
    have rest {champion : Keyed} :
        R.Sure u (CheckedList.bestFrom (R.engine n) side key champion items) fun v _ =>
          v ∈ champion.item :: items :=
      ih order (hk.later su) fun w hw => su.live (live.2 w hw)
    refine .ite (fun _ => rest.mono ?_) fun _ => rest.mono ?_
    · exact fun w _ _ _ hw => List.mem_cons_of_mem _ hw
    · intro w _ _ _ hw
      simp only [List.mem_cons] at hw ⊢
      tauto

theorem best? : R.Sure s (best? (R.engine n) side key items) fun found _ => ∀ v ∈ found, v ∈ items := by
  unfold CheckedList.best?
  split
  · exact .pure order (by simp)
  · simp only [List.forall_mem_cons] at live
    refine .bind (keyOf order hk live.1) fun k t st order _ => ?_
    refine .bind (bestFrom order (hk.later st) fun w hw => st.live (live.2 w hw)) ?_
    exact fun v u _ order hv => .pure order (by simpa using hv)

theorem selectRest {m : Nat} {heap : Array Candidate} {chosen : List Value} (hi : items ⊆ chosen)
    (hh : ∀ c ∈ heap, c.item ∈ chosen) :
    R.Sure s (selectRest (R.engine n) side key items m heap) fun heap _ => ∀ c ∈ heap, c.item ∈ chosen := by
  induction items generalizing s m heap with
  | nil => exact .pure order hh
  | cons v items ih =>
    have ⟨hv, hi⟩ := List.cons_subset.mp hi
    simp only [List.forall_mem_cons] at live
    refine .bind (keyOf order hk live.1) fun k t st order _ => ?_
    split
    · exact .pure order hh
    · next top _ =>
      cases side
      all_goals
        refine .bind (.reading order _) fun better u tu order _ => .ite (fun _ => ?_) fun _ => ?_
        · refine .bind (replaceTop (P := fun c => c.item ∈ chosen) order above_compares hh hv) ?_
          intro heap w uw order hh
          have sw := (st.trans tu).trans uw
          exact ih order (hk.later sw) (fun v hv => sw.live (live.2 v hv)) hi hh
        · have su := st.trans tu
          exact ih order (hk.later su) (fun v hv => su.live (live.2 v hv)) hi hh

theorem select {count : Nat} :
    R.Sure s (select (R.engine n) side key count items) fun vs _ => vs ⊆ items := by
  have unreported {t : Session} : R.Reports t (fun c : Candidate => c.item ∈ items) fun _ => Pure.pure () :=
    fun _ _ order _ _ => .pure order trivial
  have sorted {t : Session} (order : R.InOrder t) {cs : List Candidate}
      (hcs : ∀ c ∈ cs, c.item ∈ items) :
      R.Sure t (Sorting.sort Candidate.less cs) fun cs _ => ∀ c ∈ cs, c.item ∈ items :=
    have compares : R.Compares t _ (Candidate.above .largest) := above_compares
    sortReporting order compares unreported hcs
  refine .bind (keyed order hk fun v hv => live v (List.mem_of_mem_take hv)) fun ks t st order hks => ?_
  have first : ∀ c ∈ (ks.mapIdx fun m k => (⟨k.key, side.rank m, k.item⟩ : Candidate)), c.item ∈ items := by
    intro c hc
    obtain ⟨m, hm, rfl⟩ := List.mem_mapIdx.mp hc
    exact List.mem_of_mem_take (hks _ (List.getElem_mem hm))
  refine .ite (fun _ => .pure order (by simp)) fun _ => ?_
  refine .bind (settleAll (P := fun c => c.item ∈ items) order above_compares (by simpa using first)) ?_
  intro heap u tu order hh
  have su := st.trans tu
  refine .bind (selectRest order (hk.later su) (fun v hv => su.live (live v (List.mem_of_mem_drop hv)))
    (List.drop_subset _ _) hh) fun heap w uw order hh => ?_
  cases side with
  | largest =>
    refine .bind (.bind (sorted order ?_) fun cs _ _ order hcs => ?_) fun cs _ _ order hcs =>
      .pure order (List.forall_mem_map.mpr hcs)
    · exact fun c hc => hh c (by simpa using hc)
    · exact .pure order fun c hc => hcs c (List.mem_reverse.mp hc)
  | smallest =>
    refine .bind (sorted order fun c hc => hh c (by simpa using hc)) fun cs _ _ order hcs => ?_
    exact .pure order (List.forall_mem_map.mpr hcs)

/-- The best items are among the items. -/
theorem extremes {count : Value} :
    R.Sure s (extremes (R.engine n) side count key items) fun vs _ => vs ⊆ items := by
  refine .bind (.reading order _) fun answer t st order _ => ?_
  refine .bind (.reading order _) fun one u tu order _ => ?_
  have su := st.trans tu
  have live {t : Session} (st : R.Later s t) : ∀ v ∈ items, v.Live t.heap :=
    fun v hv => st.live (live v hv)
  refine .ite (fun _ => ?_) fun _ => ?_
  · refine .bind (best? order (hk.later su) (live su)) fun found _ _ order hf => .pure order ?_
    exact fun v hv => hf v (by simpa using hv)
  · refine .bind (newInt order _) fun size w uw order _ => ?_
    refine .bind (.reading order _) fun all x wx order _ => ?_
    have sx := (su.trans uw).trans wx
    refine .ite (fun _ => ?_) fun _ => ?_
    · refine .bind (sortItems order nil_obliges (hk.later sx) (live sx) ?_)
        fun sorted _ _ order hs => ?_
      · exact fun _ _ order _ _ => .pure order trivial
      · refine .bind (.reading order _) fun slice _ _ order _ => .pure order ?_
        exact List.Subset.trans slice.read_subset hs
    · refine .bind (.reading order _) fun m y xy order _ => ?_
      exact select order (hk.later (sx.trans xy)) (live (sx.trans xy))

end Extremes

end Regime.Sure

end Conform
