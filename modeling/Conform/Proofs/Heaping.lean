import Conform.Proofs.Stability
import Conform.Selection

/-!
What a heap of candidates does. An array is a heap if no element belongs above the one at its parent's place. An
element that is out of place moves down to a leaf and then up again; on its way it is the only one that may be out of
order. So elements can be arranged as a heap, the top of a heap can be replaced, and the top is one that nothing else
belongs above.

Main statements: `Selection.heapify_delivers`, `Selection.replaceTop_delivers`, `Selection.HeapedFrom.top`.
-/
namespace Conform.Selection

open Act Sorting

variable {α : Type} {le : α → α → Prop} {h : Array α} {start i p c : Nat} {zs : List α}

/-- The two places below a place. -/
def Child (p c : Nat) : Prop :=
  c = 2 * p + 1 ∨ c = 2 * p + 2

/-- The places below a place, and the place itself. -/
inductive Under (start : Nat) : Nat → Prop
  | self : Under start start
  | child {p c : Nat} (under : Under start p) (below : Child p c) : Under start c

theorem Under.start_le (under : Under start i) : start ≤ i := by
  induction under with
  | self => exact Nat.le_refl start
  | child _ below ih =>
    unfold Child at below
    omega

theorem Under.parent (under : Under start i) (lower : start < i) : Under start ((i - 1) / 2) := by
  cases under with
  | self => omega
  | @child p c under below =>
    have same : (i - 1) / 2 = p := by
      unfold Child at below
      omega
    rwa [same]

/-- Whether what stands at one place may stand above what stands at another. -/
def InOrder (le : α → α → Prop) (h : Array α) (p c : Nat) : Prop :=
  ∀ a, h[p]? = some a → ∀ b, h[c]? = some b → le a b

/-- Whether an array is a heap from a place on. -/
def HeapedFrom (le : α → α → Prop) (start : Nat) (h : Array α) : Prop :=
  ∀ p c, start ≤ p → Child p c → InOrder le h p c

/-- Whether an array is a heap from a place on but for one place: what does not touch it is in order, and so are its
parent and its children. -/
structure Gap (le : α → α → Prop) (start : Nat) (h : Array α) (i : Nat) : Prop where
  others : ∀ p c, start ≤ p → Child p c → p ≠ i → c ≠ i → InOrder le h p c
  across : ∀ p c, start ≤ p → Child p i → Child i c → InOrder le h p c

/-- A leaf stands above nothing. -/
theorem leaf_inOrder (lowest : h.size ≤ 2 * i + 1) (child : Child i c) : InOrder le h i c := by
  intro a _ b hb
  unfold Child at child
  rw [Array.getElem?_eq_none (by omega)] at hb
  cases hb

section Swapping

variable {j k : Nat}

theorem getElem?_swap_left (hi : i < h.size) (hj : j < h.size) : (h.swapIfInBounds i j)[i]? = h[j]? := by
  rw [Array.swapIfInBounds, dif_pos hi, dif_pos hj, Array.getElem?_swap, Array.getElem?_eq_getElem hj]
  by_cases same : j = i
  · subst same
    simp
  · simp [same]

theorem getElem?_swap_right (hi : i < h.size) (hj : j < h.size) : (h.swapIfInBounds i j)[j]? = h[i]? := by
  rw [Array.swapIfInBounds, dif_pos hi, dif_pos hj, Array.getElem?_swap, Array.getElem?_eq_getElem hi]
  simp

theorem getElem?_swap_other (left : k ≠ i) (right : k ≠ j) : (h.swapIfInBounds i j)[k]? = h[k]? := by
  unfold Array.swapIfInBounds
  split
  · split
    · rw [Array.getElem?_swap, if_neg (Ne.symm right), if_neg (Ne.symm left)]
    · rfl
  · rfl

theorem swap_perm : (h.swapIfInBounds i j).toList.Perm h.toList := by
  unfold Array.swapIfInBounds
  split
  · split
    · exact (Array.swap_perm _ _).toList
    · exact .refl _
  · exact .refl _

end Swapping

section Moving

/-- An element that changes places with the upper one of its children leaves order behind. -/
theorem Gap.down (gap : Gap le start h i) (below : Child i c) (hi : i < h.size) (hc : c < h.size)
    (upper : ∀ d, Child i d → InOrder le h c d) : Gap le start (h.swapIfInBounds i c) c := by
  unfold Child at below
  constructor
  · intro p d from_ child hp hd
    unfold InOrder
    by_cases top : p = i
    · subst top
      by_cases self : d = p
      · unfold Child at child
        omega
      rw [getElem?_swap_left hi hc, getElem?_swap_other self hd]
      exact upper d child
    · by_cases lower : d = i
      · subst lower
        rw [getElem?_swap_left hi hc, getElem?_swap_other top hp]
        exact gap.across p c from_ child below
      · rw [getElem?_swap_other top hp, getElem?_swap_other lower hd]
        exact gap.others p d from_ child top lower
  · intro p d from_ upper_ lower
    unfold Child at upper_ lower
    obtain rfl : p = i := by omega
    unfold InOrder
    rw [getElem?_swap_left hi hc, getElem?_swap_other (by omega) (by omega)]
    exact gap.others c d (by omega) lower (by omega) (by omega)

/-- An element that stands above its children and changes places with its parent leaves order behind, and stands
above its children again. -/
theorem Gap.up (ranks : Ranks le zs) (known : ∀ a ∈ h.toList, a ∈ zs) (gap : Gap le start h i)
    (children : ∀ c, Child i c → InOrder le h i c) (from_ : start ≤ p) (below : Child p i) (hi : i < h.size)
    (climbs : InOrder le h i p) :
    Gap le start (h.swapIfInBounds i p) p ∧ ∀ c, Child p c → InOrder le (h.swapIfInBounds i p) p c := by
  have lower : p < i := by
    unfold Child at below
    omega
  have hp : p < h.size := by omega
  have mem {k : Nat} {a : α} (found : h[k]? = some a) : a ∈ zs :=
    known a (Array.mem_toList_iff.mpr (Array.mem_of_getElem? found))
  -- Through the parent's place, everything above is in order with everything below.
  have through {q d : Nat} (first : InOrder le h q p) (second : InOrder le h p d) : InOrder le h q d := by
    intro a ha b hb
    have found := Array.getElem?_eq_getElem hp
    exact ranks.trans a (mem ha) _ (mem found) b (mem hb) (first a ha _ found) (second _ found b hb)
  refine ⟨⟨?_, ?_⟩, ?_⟩
  · intro q d reach child hq hd
    unfold InOrder
    by_cases top : q = i
    · subst top
      unfold Child at child
      rw [getElem?_swap_left hi hp, getElem?_swap_other (by omega) hd]
      exact gap.across p d from_ below child
    · by_cases same : d = i
      · subst same
        unfold Child at child below
        omega
      · rw [getElem?_swap_other top hq, getElem?_swap_other same hd]
        exact gap.others q d reach child top same
  · intro q d reach upper child
    have first : InOrder le h q p := by
      unfold Child at upper
      exact gap.others q p reach upper (by omega) (by omega)
    have apart : q ≠ i ∧ q ≠ p := by
      unfold Child at upper
      omega
    unfold InOrder
    rw [getElem?_swap_other apart.1 apart.2]
    by_cases same : d = i
    · subst same
      rw [getElem?_swap_left hi hp]
      exact first
    · unfold Child at child
      rw [getElem?_swap_other same (by omega)]
      exact through first (gap.others p d from_ child (by omega) same)
  · intro d child
    unfold InOrder
    rw [getElem?_swap_right hi hp]
    by_cases same : d = i
    · subst same
      rw [getElem?_swap_left hi hp]
      exact climbs
    · unfold Child at child
      rw [getElem?_swap_other same (by omega)]
      exact through climbs (gap.others p d from_ child (by omega) same)

/-- An element that stands above its children and below its parent closes the gap. -/
theorem Gap.close (gap : Gap le start h i) (children : ∀ c, Child i c → InOrder le h i c)
    (parent : ∀ p, start ≤ p → Child p i → InOrder le h p i) : HeapedFrom le start h := by
  intro p c from_ child
  by_cases top : p = i
  · subst top
    exact children c child
  · by_cases lower : c = i
    · subst lower
      exact parent p from_ child
    · exact gap.others p c from_ child top lower

end Moving

section Running

variable {inv : Session → Prop} {above : α → α → Act Bool}

section

variable (ranks : Ranks le zs) (decides : ∀ a ∈ zs, ∀ b ∈ zs, (above a b).Decides inv (¬le b a))
include ranks decides

/-- An element climbs to where it belongs. -/
theorem climb_delivers (known : ∀ a ∈ h.toList, a ∈ zs) (under : Under start i) (hi : i < h.size)
    (gap : Gap le start h i) (children : ∀ c, Child i c → InOrder le h i c) :
    (climb above start h i).Delivers inv fun h' => h'.toList.Perm h.toList ∧ HeapedFrom le start h' := by
  induction i using Nat.strongRecOn generalizing h with
  | _ i ih =>
    rw [climb]
    split
    · next lower =>
      have from_ := (under.parent lower).start_le
      have below : Child ((i - 1) / 2) i := by
        unfold Child
        omega
      have hp : (i - 1) / 2 < h.size := by omega
      simp only [Array.getElem?_eq_getElem hi, Array.getElem?_eq_getElem hp]
      have hx : h[i] ∈ zs := known _ (by simp)
      have hy : h[(i - 1) / 2] ∈ zs := known _ (by simp)
      refine .bind (decides _ hx _ hy) fun b hb => .ite (fun goes => ?_) fun stays => .pure ⟨.refl _, ?_⟩
      · have climbs : InOrder le h i ((i - 1) / 2) := by
          intro a ha b' hb'
          rw [Array.getElem?_eq_getElem hi] at ha
          rw [Array.getElem?_eq_getElem hp] at hb'
          cases ha
          cases hb'
          exact (ranks.total _ hx _ hy).resolve_right (hb.mp goes)
        obtain ⟨gap', children'⟩ := gap.up ranks known children from_ below hi climbs
        have known' : ∀ a ∈ (h.swapIfInBounds i ((i - 1) / 2)).toList, a ∈ zs :=
          fun a ha => known a (swap_perm.subset ha)
        refine (ih _ (by omega) known' (under.parent lower) (by simpa using hp) gap' children').mono ?_
        rintro h' ⟨perm, heaped⟩
        exact ⟨perm.trans swap_perm, heaped⟩
      · apply gap.close children
        intro p _ child a ha b' hb'
        obtain rfl : p = (i - 1) / 2 := by
          unfold Child at child
          omega
        rw [Array.getElem?_eq_getElem hp] at ha
        rw [Array.getElem?_eq_getElem hi] at hb'
        cases ha
        cases hb'
        by_contra wrong
        exact stays (hb.mpr wrong)
    · next top =>
      refine .pure ⟨.refl _, gap.close children fun p from_ child => ?_⟩
      unfold Child at child
      omega

/-- Of the children of a place, one is picked that may stand above the other. -/
theorem topChild_delivers (known : ∀ a ∈ h.toList, a ∈ zs) (inside : 2 * i + 1 < h.size) :
    (topChild above h i).Delivers inv fun c =>
      Child i c ∧ c < h.size ∧ ∀ d, Child i d → InOrder le h c d := by
  have hl : h[2 * i + 1] ∈ zs := known _ (by simp)
  have self {k : Nat} : InOrder le h k k := by
    intro a ha b hb
    obtain rfl : a = b := Option.some.inj (ha.symm.trans hb)
    exact ranks.refl (known a (Array.mem_toList_iff.mpr (Array.mem_of_getElem? ha)))
  unfold topChild
  rw [Array.getElem?_eq_getElem inside]
  by_cases two : 2 * i + 2 < h.size
  · have hr : h[2 * i + 2] ∈ zs := known _ (by simp)
    rw [Array.getElem?_eq_getElem two]
    refine .bind (decides _ hl _ hr) fun b hb => .ite (fun left => .pure ?_) fun right => .pure ?_
    · refine ⟨.inl rfl, inside, ?_⟩
      rintro d (rfl | rfl)
      · exact self
      · intro a ha b' hb'
        rw [Array.getElem?_eq_getElem inside] at ha
        rw [Array.getElem?_eq_getElem two] at hb'
        cases ha
        cases hb'
        exact (ranks.total _ hl _ hr).resolve_right (hb.mp left)
    · refine ⟨.inr rfl, two, ?_⟩
      rintro d (rfl | rfl)
      · intro a ha b' hb'
        rw [Array.getElem?_eq_getElem two] at ha
        rw [Array.getElem?_eq_getElem inside] at hb'
        cases ha
        cases hb'
        by_contra wrong
        exact right (hb.mpr wrong)
      · exact self
  · have none : h[2 * i + 2]? = none := Array.getElem?_eq_none (Nat.le_of_not_lt two)
    rw [none]
    refine .pure ⟨.inl rfl, inside, ?_⟩
    rintro d (rfl | rfl)
    · exact self
    · intro a _ b hb
      rw [none] at hb
      cases hb

/-- An element sinks to a leaf and climbs to where it belongs. -/
theorem sink_delivers (known : ∀ a ∈ h.toList, a ∈ zs) (under : Under start i) (hi : i < h.size)
    (gap : Gap le start h i) {fuel : Nat} (enough : h.size ≤ fuel + i) :
    (sink above start fuel h i).Delivers inv fun h' => h'.toList.Perm h.toList ∧ HeapedFrom le start h' := by
  induction fuel generalizing h i with
  | zero => exact climb_delivers ranks decides known under hi gap fun c => leaf_inOrder (by omega)
  | succ fuel ih =>
    rw [sink]
    refine .ite (fun inner => ?_) fun outer => ?_
    · refine .bind (topChild_delivers ranks decides known (by omega)) fun c ⟨child, hc, upper⟩ => ?_
      have known' : ∀ a ∈ (h.swapIfInBounds i c).toList, a ∈ zs := fun a ha => known a (swap_perm.subset ha)
      have size : (h.swapIfInBounds i c).size = h.size := Array.size_swapIfInBounds
      have lower : i < c := by
        unfold Child at child
        omega
      refine (ih known' (under.child child) (by omega) (gap.down child hi hc upper) (by omega)).mono ?_
      rintro h' ⟨perm, heaped⟩
      exact ⟨perm.trans swap_perm, heaped⟩
    · exact climb_delivers ranks decides known under hi gap fun c => leaf_inOrder (by omega)

/-- Once everything behind a place is in order, the place can be settled. -/
theorem settle_delivers (known : ∀ a ∈ h.toList, a ∈ zs) (hi : i < h.size)
    (heaped : HeapedFrom le (i + 1) h) :
    (settle above h i).Delivers inv fun h' => h'.toList.Perm h.toList ∧ HeapedFrom le i h' := by
  apply sink_delivers ranks decides known .self hi _ (Nat.le_add_right _ _)
  constructor
  · intro p c from_ child apart _
    exact heaped p c (by omega) child
  · intro p c from_ child _
    unfold Child at child
    omega

theorem settleAll_delivers (known : ∀ a ∈ h.toList, a ∈ zs) {n : Nat} (inside : n ≤ h.size)
    (heaped : HeapedFrom le n h) :
    (settleAll above n h).Delivers inv fun h' => h'.toList.Perm h.toList ∧ HeapedFrom le 0 h' := by
  induction n generalizing h with
  | zero => exact .pure ⟨.refl _, heaped⟩
  | succ n ih =>
    refine .bind (settle_delivers ranks decides known (by omega) heaped) fun h' ⟨perm, heaped'⟩ => ?_
    have size : h'.size = h.size := by simpa using perm.length_eq
    refine (ih (fun a ha => known a (perm.subset ha)) (by omega) heaped').mono ?_
    rintro h'' ⟨perm', heaped''⟩
    exact ⟨perm'.trans perm, heaped''⟩

end

/-- Elements are arranged as a heap. -/
theorem heapify_delivers (ranks : Ranks le h.toList)
    (decides : ∀ a ∈ h.toList, ∀ b ∈ h.toList, (above a b).Decides inv (¬le b a)) :
    (heapify above h).Delivers inv fun h' => h'.toList.Perm h.toList ∧ HeapedFrom le 0 h' := by
  apply settleAll_delivers ranks decides (fun _ ha => ha) (by omega)
  intro p c from_ child
  exact leaf_inOrder (by omega) child

/-- The top of a heap is replaced. -/
theorem replaceTop_delivers (ranks : Ranks le zs) (decides : ∀ a ∈ zs, ∀ b ∈ zs, (above a b).Decides inv (¬le b a))
    (known : ∀ a ∈ h.toList, a ∈ zs) {x : α} (hx : x ∈ zs) (inhabited : 0 < h.size) (heaped : HeapedFrom le 0 h) :
    (replaceTop above h x).Delivers inv fun h' => h'.toList.Perm (x :: h.toList.tail) ∧ HeapedFrom le 0 h' := by
  have replaced : (h.setIfInBounds 0 x).toList = x :: h.toList.tail := by
    rw [Array.toList_setIfInBounds]
    cases listed : h.toList with
    | nil => simp [← Array.length_toList, listed] at inhabited
    | cons y ys => rfl
  have known' : ∀ a ∈ (h.setIfInBounds 0 x).toList, a ∈ zs := by
    rw [replaced, List.forall_mem_cons]
    exact ⟨hx, fun a ha => known a (List.mem_of_mem_tail ha)⟩
  rw [← replaced]
  apply settle_delivers ranks decides known' (by simpa using inhabited)
  intro p c from_ child
  unfold Child at child
  unfold InOrder
  rw [Array.getElem?_setIfInBounds, if_neg (by omega), Array.getElem?_setIfInBounds, if_neg (by omega)]
  exact heaped p c (Nat.zero_le p) child

end Running

/-- The top of a heap may stand above everything. -/
theorem HeapedFrom.top (ranks : Ranks le zs) (known : ∀ a ∈ h.toList, a ∈ zs) (heaped : HeapedFrom le 0 h) {x : α}
    (first : h[0]? = some x) : ∀ a ∈ h.toList, le x a := by
  have mem {k : Nat} {a : α} (found : h[k]? = some a) : a ∈ zs :=
    known a (Array.mem_toList_iff.mpr (Array.mem_of_getElem? found))
  have below (k : Nat) (a : α) (found : h[k]? = some a) : le x a := by
    induction k using Nat.strongRecOn generalizing a with
    | _ k ih =>
      by_cases top : k = 0
      · subst top
        obtain rfl : x = a := Option.some.inj (first.symm.trans found)
        exact ranks.refl (mem first)
      · obtain ⟨inside, -⟩ := Array.getElem?_eq_some_iff.mp found
        have parent := Array.getElem?_eq_getElem (show (k - 1) / 2 < h.size by omega)
        have child : Child ((k - 1) / 2) k := by
          unfold Child
          omega
        have upper := ih ((k - 1) / 2) (by omega) _ parent
        exact ranks.trans x (mem first) _ (mem parent) a (mem found) upper
          (heaped _ k (Nat.zero_le _) child _ parent a found)
  intro a ha
  obtain ⟨k, found⟩ := Array.mem_iff_getElem?.mp (Array.mem_toList_iff.mp ha)
  exact below k a found

end Conform.Selection
