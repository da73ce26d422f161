import Conform.Proofs.Ranking

/-!
Slices address positions. Which positions a slice picks in a sequence is said here by what they are, and the slice
lists just these, in the direction of its step. To read the slice, to delete it and to assign to it are then three
things done at the same positions, and the other positions are left alone.

Main statement: `CheckedList.slices_address`.
-/
namespace Conform

namespace Sequence

variable {α : Type} {length : Nat} {start stop : Option Int} {step : Int}

/-- Whether a place comes before another one in the direction of a step. -/
def Precedes (step x y : Int) : Prop :=
  0 < step ∧ x < y ∨ step < 0 ∧ y < x

/-- The place that a bound names. A negative bound is counted from the end. -/
def offset (length : Nat) (bound : Int) : Int :=
  if bound < 0 then bound + length else bound

/-- Where a slice begins: at its first bound, but not outside of the sequence on the side that it comes from. -/
def origin (length : Nat) (start : Option Int) (step : Int) : Int :=
  if 0 < step then max 0 ((start.map (offset length)).getD 0)
  else min ((length : Int) - 1) ((start.map (offset length)).getD ((length : Int) - 1))

/-- Whether a slice picks a position of a sequence: whole steps lead there from where the slice begins, and it comes
before the second bound. -/
structure Picks (length : Nat) (start stop : Option Int) (step : Int) (p : Nat) : Prop where
  inside : p < length
  reached : ∃ k : Nat, (p : Int) = origin length start step + step * k
  before : ∀ bound ∈ stop, Precedes step p (offset length bound)

/-- Whether positions are those that a slice picks, in the direction of its step. -/
structure Selects (length : Nat) (start stop : Option Int) (step : Int) (positions : List Nat) : Prop where
  picked : ∀ p, p ∈ positions ↔ Picks length start stop step p
  ordered : positions.Pairwise fun p q : Nat => Precedes step p q

theorem Selects.nodup {positions : List Nat} (selects : Selects length start stop step positions) :
    positions.Nodup := by
  apply selects.ordered.imp
  intro p q apart same
  subst same
  unfold Precedes at apart
  omega

section Bounds

/-- The count says for each number of steps whether it leads to before the second bound. -/
theorem Slice.lt_count {s : Slice} (nonzero : s.step ≠ 0) (k : Nat) :
    k < s.count ↔ Precedes s.step (s.start + s.step * k) s.stop := by
  have divides {d : Int} (positive : 0 < d) (x : Int) : k < (x / d + 1).toNat ↔ d * k ≤ x := by
    have multiple : (k : Int) ≤ x / d ↔ k * d ≤ x := Int.le_ediv_iff_mul_le positive
    rw [Int.mul_comm] at multiple
    omega
  have forward {d : Int} (positive : 0 < d) : 0 ≤ d * k := Int.mul_nonneg (by omega) (by omega)
  unfold count Precedes
  by_cases positive : 0 < s.step
  · have goes := forward positive
    rw [if_neg (by omega)]
    split
    · rw [divides positive]
      omega
    · omega
  · have goes := forward (d := -s.step) (by omega)
    have turned : -s.step * (k : Int) = -(s.step * k) := Int.neg_mul _ _
    rw [if_pos (by omega)]
    split
    · rw [divides (by omega)]
      omega
    · omega

/-- A slice begins where it should, as far as the sequence goes. -/
theorem slice_start (nonzero : step ≠ 0) : (slice length start stop step).start =
    if 0 < step then min (origin length start step) length else max (origin length start step) (-1) := by
  cases start <;> simp [slice, origin, clip, offset] <;> split <;> omega

/-- A slice goes on to its second bound, but not out of the sequence. -/
theorem precedes_slice_stop {x : Int} (inside : 0 < step ∧ 0 ≤ x ∨ step < 0 ∧ x < length) :
    Precedes step x (slice length start stop step).stop ↔
      (0 ≤ x ∧ x < length) ∧ ∀ bound ∈ stop, Precedes step x (offset length bound) := by
  cases stop <;> simp [slice, clip, offset, Precedes] <;> split <;> omega

section

variable (nonzero : step ≠ 0)
include nonzero

/-- Steps lead away from where a slice begins. -/
theorem steps_lead (k : Nat) : 0 < step ∧ 0 ≤ step * k ∨ step < 0 ∧ step * k ≤ 0 := by
  obtain negative | positive := Int.lt_or_gt_of_ne nonzero
  · exact .inr ⟨negative, Int.mul_nonpos_of_nonpos_of_nonneg (by omega) (by omega)⟩
  · exact .inl ⟨positive, Int.mul_nonneg (by omega) (by omega)⟩

/-- A slice that is inside of the sequence after some steps has begun where it should. -/
theorem slice_start_inside {begin : Int} {k : Nat}
    (either : begin = (slice length start stop step).start ∨ begin = origin length start step)
    (inside : 0 ≤ begin + step * k ∧ begin + step * k < length) :
    (slice length start stop step).start = origin length start step := by
  have begins : (slice length start stop step).start = _ := slice_start nonzero
  have leads := steps_lead nonzero k
  split at begins <;> omega

theorem lt_slice_count (k : Nat) :
    k < (slice length start stop step).count ↔
    (0 ≤ origin length start step + step * k ∧ origin length start step + step * k < length) ∧
      ∀ bound ∈ stop, Precedes step (origin length start step + step * k) (offset length bound) := by
  have leads := steps_lead nonzero k
  have first : 0 < step ∧ 0 ≤ origin length start step ∨ step < 0 ∧ origin length start step < length := by
    unfold origin
    split <;> omega
  have begins : (slice length start stop step).start = _ := slice_start nonzero
  have reaches : k < (slice length start stop step).count ↔ _ :=
    (Slice.lt_count nonzero k).trans (precedes_slice_stop (by
      change 0 < step ∧ 0 ≤ _ + step * k ∨ step < 0 ∧ _ + step * k < _
      split at begins <;> omega))
  change _ ↔ (0 ≤ _ + step * k ∧ _ + step * k < _) ∧ ∀ bound ∈ stop, Precedes step (_ + step * k) _ at reaches
  constructor
  · intro few
    obtain ⟨inside, before⟩ := reaches.mp few
    have same := slice_start_inside nonzero (.inl rfl) inside
    rw [same] at inside before
    exact ⟨inside, before⟩
  · rintro ⟨inside, before⟩
    rw [reaches, slice_start_inside nonzero (.inr rfl) inside]
    exact ⟨inside, before⟩

theorem positions_eq :
    (slice length start stop step).positions =
    (List.range (slice length start stop step).count).map fun k : Nat => (origin length start step + step * k).toNat := by
  apply List.map_congr_left
  intro k few
  have inside := ((lt_slice_count nonzero k).mp (List.mem_range.mp few)).1
  rw [slice_start_inside nonzero (.inr rfl) inside]
  rfl

/-- A slice lists the positions that it picks. -/
theorem positions_selects : Selects length start stop step (slice length start stop step).positions := by
  rw [positions_eq nonzero]
  constructor
  · intro p
    simp only [List.mem_map, List.mem_range, lt_slice_count nonzero]
    constructor
    · rintro ⟨k, ⟨inside, before⟩, rfl⟩
      have same : ((origin length start step + step * k).toNat : Int) = origin length start step + step * k := by omega
      exact ⟨by omega, ⟨k, same⟩, fun bound hb => same ▸ before bound hb⟩
    · rintro ⟨inside, ⟨k, reached⟩, before⟩
      rw [reached] at before
      exact ⟨k, ⟨by omega, before⟩, by omega⟩
  · rw [List.pairwise_map]
    apply List.pairwise_lt_range.imp_of_mem
    intro j k few few' lt
    have inside := ((lt_slice_count nonzero j).mp (List.mem_range.mp few)).1
    have inside' := ((lt_slice_count nonzero k).mp (List.mem_range.mp few')).1
    unfold Precedes
    obtain negative | positive := Int.lt_or_gt_of_ne nonzero
    · have := Int.mul_lt_mul_of_neg_left (show (j : Int) < k by omega) negative
      omega
    · have := Int.mul_lt_mul_of_pos_left (show (j : Int) < k by omega) positive
      omega

end

end Bounds

section Places

variable {xs ys vs : List α} {places : List Nat}

/-- Whether items are those that stand in a sequence at some places, in the order of the places. -/
def StandAt (xs : List α) (places : List Nat) (ys : List α) : Prop :=
  List.Forall₂ (fun p v => xs[p]? = some v) places ys

theorem StandAt.unique {zs : List α} (first : StandAt xs places ys) (second : StandAt xs places zs) : ys = zs := by
  induction first generalizing zs with
  | nil => exact (List.forall₂_nil_left_iff.mp second).symm
  | cons here _ ih =>
    obtain ⟨w, ws, there, rest, rfl⟩ := List.forall₂_cons_left_iff.mp second
    rw [Option.some.inj (here.symm.trans there), ih rest]

/-- Two sequences with the same items at some places have the same at each of them. -/
theorem StandAt.getElem?_eq (first : StandAt xs places vs) (second : StandAt ys places vs) {p : Nat}
    (hp : p ∈ places) : xs[p]? = ys[p]? := by
  induction first with
  | nil => cases hp
  | cons here _ ih =>
    obtain ⟨there, rest⟩ := List.forall₂_cons.mp second
    obtain rfl | hp := List.mem_cons.mp hp
    · rw [here, there]
    · exact ih rest hp

/-- What is read at places inside of a sequence stands there. -/
theorem standAt_filterMap (inside : ∀ p ∈ places, p < xs.length) :
    StandAt xs places (places.filterMap fun p => xs[p]?) := by
  induction places with
  | nil => exact .nil
  | cons p places ih =>
    rw [List.forall_mem_cons] at inside
    have found : xs[p]? = some xs[p] := List.getElem?_eq_getElem inside.1
    rw [List.filterMap_cons_some found]
    exact .cons found (ih inside.2)

/-- What is left when places are left out stands at the other places. -/
theorem standAt_others (gone : Nat → Bool) :
    StandAt xs ((List.range xs.length).filter fun p => !gone p)
      ((xs.zipIdx.filter fun (_, p) => !gone p).map (·.1)) := by
  have numbered : List.range xs.length = xs.zipIdx.map (·.2) := by
    rw [List.zipIdx_map_snd, List.range_eq_range']
  rw [numbered, List.filter_map, StandAt, List.forall₂_map_left_iff, List.forall₂_map_right_iff]
  apply List.forall₂_same.mpr
  intro (v, p) kept
  exact List.mem_zipIdx_iff_getElem?.mp (List.mem_of_mem_filter kept)

theorem length_foldl_set (placed : List (Nat × α)) :
    (placed.foldl (fun ys (i, v) => ys.set i v) xs).length = xs.length := by
  induction placed generalizing xs with
  | nil => rfl
  | cons place placed ih => exact ih.trans List.length_set

/-- Where nothing is put, what stood there stays. -/
theorem getElem?_foldl_set {placed : List (Nat × α)} {p : Nat} (other : p ∉ placed.map (·.1)) :
    (placed.foldl (fun ys (i, v) => ys.set i v) xs)[p]? = xs[p]? := by
  induction placed generalizing xs with
  | nil => rfl
  | cons place placed ih =>
    simp only [List.map_cons, List.mem_cons, not_or] at other
    rw [List.foldl_cons, ih other.2, List.getElem?_set_ne (Ne.symm other.1)]

/-- Items that are put at places, one at each, stand there then. -/
theorem standAt_foldl_set (inside : ∀ p ∈ places, p < xs.length) (distinct : places.Nodup)
    (fits : vs.length = places.length) :
    StandAt ((places.zip vs).foldl (fun ys (i, v) => ys.set i v) xs) places vs := by
  induction places generalizing xs vs with
  | nil =>
    obtain rfl := List.length_eq_zero_iff.mp fits
    exact .nil
  | cons p places ih =>
    obtain _ | ⟨v, vs⟩ := vs
    · cases fits
    obtain ⟨apart, distinct⟩ := List.nodup_cons.mp distinct
    rw [List.forall_mem_cons] at inside
    have fits : vs.length = places.length := Nat.succ.inj fits
    rw [List.zip_cons_cons, List.foldl_cons]
    constructor
    · have keys : (places.zip vs).map (·.1) = places := List.map_fst_zip (by omega)
      rw [getElem?_foldl_set (by rwa [keys]), List.getElem?_set_self inside.1]
    · exact ih (by simpa using inside.2) distinct fits

/-- A run of items stands at a run of places. -/
theorem standAt_run {low count : Nat} (inside : low + count ≤ xs.length) :
    StandAt xs (List.range' low count) ((xs.drop low).take count) := by
  induction count generalizing low with
  | zero => exact .nil
  | succ count ih =>
    have here : low < xs.length := by omega
    rw [List.range'_succ, List.drop_eq_getElem_cons here, List.take_succ_cons]
    exact .cons (List.getElem?_eq_getElem here) (ih (by omega))

end Places

section Acting

variable {xs vs : List α}

/-- What is read of a slice stands at its positions. -/
theorem read_standAt (nonzero : step ≠ 0) :
    StandAt xs (slice xs.length start stop step).positions ((slice xs.length start stop step).read xs) :=
  standAt_filterMap fun p hp => (((positions_selects nonzero).picked p).mp hp).inside

/-- What a deletion leaves stands at the other positions. -/
theorem delete_standAt (s : Slice) : StandAt xs ((List.range xs.length).filter (· ∉ s.positions)) (s.delete xs) := by
  have others : (fun p => decide (p ∉ s.positions)) = fun p => !s.positions.contains p := by simp
  rw [others]
  exact standAt_others s.positions.contains

theorem length_put (s : Slice) : (s.put xs vs).length = xs.length :=
  length_foldl_set _

/-- What is put at the positions of a slice stands there then. -/
theorem put_standAt (nonzero : step ≠ 0) (fits : vs.length = (slice xs.length start stop step).positions.length) :
    StandAt ((slice xs.length start stop step).put xs vs) (slice xs.length start stop step).positions vs :=
  standAt_foldl_set (fun p hp => (((positions_selects nonzero).picked p).mp hp).inside)
    (positions_selects nonzero).nodup fits

/-- What is put at the positions of a slice is read back. -/
theorem read_put (nonzero : step ≠ 0) (fits : vs.length = (slice xs.length start stop step).positions.length) :
    (slice xs.length start stop step).read ((slice xs.length start stop step).put xs vs) = vs := by
  have back : StandAt ((slice xs.length start stop step).put xs vs) (slice _ start stop step).positions _ :=
    read_standAt nonzero
  rw [length_put] at back
  exact back.unique (put_standAt nonzero fits)

/-- Whatever is put at the positions of a slice, other positions are left alone. -/
theorem getElem?_put {s : Slice} {p : Nat} (other : p ∉ s.positions) : (s.put xs vs)[p]? = xs[p]? := by
  apply getElem?_foldl_set
  intro hp
  obtain ⟨⟨q, v⟩, zipped, rfl⟩ := List.mem_map.mp hp
  exact other (List.of_mem_zip zipped).1

theorem length_positions (s : Slice) : s.positions.length = s.count := by
  simp [Slice.positions]

/-- The positions of a slice of step one are a run. -/
theorem positions_run {s : Slice} (one : s.step = 1) (first : 0 ≤ s.start) :
    s.positions = List.range' s.start.toNat s.count ∧ s.start.toNat + s.count = (max s.start s.stop).toNat := by
  have counted : s.count = (s.stop - s.start).toNat := by
    simp only [Slice.count, one]
    rw [if_neg (by decide)]
    split <;> omega
  constructor
  · rw [List.range'_eq_map_range, Slice.positions]
    apply List.map_congr_left
    intro k _
    simp only [one]
    omega
  · omega

/-- A slice of step one is a run between what stands before and what stands behind, and is replaced as a whole. -/
theorem splice_run (xs : List α) (start stop : Option Int) : ∃ before after,
    (before.length : Int) = min (origin xs.length start 1) xs.length ∧
    xs = before ++ (slice xs.length start stop 1).read xs ++ after ∧
    (slice xs.length start stop 1).positions =
      List.range' before.length ((slice xs.length start stop 1).read xs).length ∧
    ∀ vs, (slice xs.length start stop 1).splice xs vs = before ++ vs ++ after := by
  have stands : StandAt xs (slice xs.length start stop 1).positions ((slice xs.length start stop 1).read xs) :=
    read_standAt (by decide)
  have begins : (slice xs.length start stop 1).start = min (origin xs.length start 1) xs.length :=
    slice_start (by decide)
  have first : 0 ≤ origin xs.length start 1 := by
    unfold origin
    split <;> omega
  have last : (slice xs.length start stop 1).stop ≤ xs.length := by
    by_contra beyond
    have goes : Precedes 1 xs.length (slice xs.length start stop 1).stop := .inl ⟨by decide, Int.not_le.mp beyond⟩
    have inside := ((precedes_slice_stop (by omega)).mp goes).1
    omega
  obtain ⟨run, ends⟩ := positions_run (s := slice xs.length start stop 1) rfl (by omega)
  generalize slice xs.length start stop 1 = s at *
  have picked : s.read xs = (xs.drop s.start.toNat).take s.count := by
    rw [run] at stands
    exact stands.unique (standAt_run (by omega))
  refine ⟨xs.take s.start.toNat, xs.drop (max s.start s.stop).toNat, ?_, ?_, ?_, fun vs => rfl⟩
  · rw [List.length_take]
    omega
  · rw [picked, ← ends, ← List.drop_drop, List.append_assoc, List.take_append_drop, List.take_append_drop]
  · rw [run, picked, List.length_take, List.length_take, List.length_drop]
    congr 1 <;> omega

/-- To assign to a slice what is read of it changes nothing. -/
theorem assign_read (nonzero : step ≠ 0) :
    (slice xs.length start stop step).assign xs ((slice xs.length start stop step).read xs) = .ok xs := by
  have stands : StandAt xs (slice xs.length start stop step).positions _ := read_standAt nonzero
  unfold Slice.assign
  by_cases one : step = 1
  · subst one
    obtain ⟨before, after, -, whole, -, spliced⟩ := splice_run xs start stop
    rw [if_pos (by rfl), spliced, ← whole]
  · have fits : ((slice xs.length start stop step).read xs).length = (slice xs.length start stop step).count := by
      rw [← stands.length_eq, length_positions]
    rw [if_neg (by simpa [slice] using one), if_pos (by simp [fits])]
    congr 1
    apply List.ext_getElem?
    intro p
    by_cases hp : p ∈ (slice xs.length start stop step).positions
    · exact (put_standAt nonzero (by rw [fits, length_positions])).getElem?_eq stands hp
    · exact getElem?_put hp

end Acting

end Sequence

namespace Value

variable {v start stop step : Value} {low high by_ : Option Int}

/-- Whether a value is a bound of a slice: an integer, or nothing where there is no bound. -/
inductive Bounds : Value → Option Int → Prop
  | absent : Bounds .nil none
  | number {v : Value} {n : Int} (int : v.int? = some n) : Bounds v (some n)

theorem Bounds.asBound {bound : Option Int} (bounds : Bounds v bound) (h : Heap) : v.asBound h = .ok bound := by
  cases bounds with
  | absent => rfl
  | number int => cases v <;> first | cases int; rfl | cases int

/-- Bounds with a step that is not zero make a slice. -/
theorem asSlice_bounds (starts : Bounds start low) (stops : Bounds stop high) (steps : Bounds step by_)
    (nonzero : by_.getD 1 ≠ 0) (length : Nat) (h : Heap) :
    asSlice length start stop step h = .ok (Sequence.slice length low high (by_.getD 1)) := by
  refine Look.bind_eq_ok.mpr ⟨by_, steps.asBound h, ?_⟩
  rw [if_neg (by simpa using nonzero)]
  exact Look.bind_eq_ok.mpr ⟨low, starts.asBound h, Look.bind_eq_ok.mpr ⟨high, stops.asBound h, rfl⟩⟩

end Value

namespace CheckedList

open Value Sequence

variable {functions : Library} {n : Nat} {c : Self} {l : CheckedList} {id ident : Ident} {s t : Session}
  {start stop step v : Value} {values : List Value} {sl : Sequence.Slice}

section Runs

/-- Values that are let in are placed among the items as they are. -/
theorem Op.run_asked {op : Op} {u : Session} (inserts : op.inserts = true) (cell : s.heap.checkedList c.at_ = l)
    (unfrozen : l.frozen = false) (typed : l.collection = .collection id .array l.element)
    (discreet : op.Discreet functions n c l.element s) (taken : op.taken s = .ok values u)
    (yes : op.asked functions n l.element s = .ok true t) :
    t.heap.checkedList c.at_ = l ∧ op.run (Engine.ofDepth functions (n + 1)) c s = (do
      c.write op.storing (← op.placed l.items values)
      return op.answer c : Act Value) t := by
  have calm := op.asked_calm discreet
  rw [Calm, Act.after_of_ok yes] at calm
  have verdict := op.admitted_verdict inserts cell typed discreet
  rw [yes] at verdict
  generalize admitted : op.admitted (Engine.ofDepth functions (n + 1)) c s = r at verdict
  obtain @⟨_, values', u', taken'⟩ := verdict
  obtain ⟨rfl, rfl⟩ := EStateM.Result.ok.inj (taken'.symm.trans taken)
  have cell' : t.heap.checkedList c.at_ = l := calm.trans cell
  refine ⟨cell', ?_⟩
  rw [run_inserts inserts (cell ▸ unfrozen), Act.bind_of_ok admitted, ← cell']
  rfl

/-- What has put values into a list has let them in. -/
theorem Op.asked_of_run {op : Op} {w : Session} {a : Value} (inserts : op.inserts = true)
    (cell : s.heap.checkedList c.at_ = l) (unfrozen : l.frozen = false)
    (typed : l.collection = .collection id .array l.element) (discreet : op.Discreet functions n c l.element s)
    (run : op.run (Engine.ofDepth functions (n + 1)) c s = .ok a w) :
    ∃ t values u, op.asked functions n l.element s = .ok true t ∧ op.taken s = .ok values u := by
  rw [run_inserts inserts (cell ▸ unfrozen)] at run
  obtain ⟨values, t, admitted, -⟩ := Act.bind_eq_ok.mp run
  have verdict := op.admitted_verdict inserts cell typed discreet
  rw [admitted] at verdict
  generalize op.asked functions n l.element s = r at verdict
  obtain @⟨_, _, u, taken⟩ := verdict
  exact ⟨t, values, u, rfl, taken⟩

/-- To read a slice makes a new list of its items. -/
theorem run_getSlice {e : Engine} (cell : s.heap.checkedList c.at_ = l)
    (sliced : asSlice l.items.length start stop step s.heap = .ok sl) :
    (Op.getItem (.slice ident start stop step)).run e c s = .ok (.checked c.cls s.heap.checked.size)
      { s with heap.checked := s.heap.checked.push { l with items := sl.read l.items, frozen := false } } := by
  subst cell
  have found : (liftM (asSlice (s.heap.checkedList c.at_).items.length start stop step) : Act _) s = .ok sl s :=
    Act.lift_eq_ok.mpr ⟨sliced, rfl⟩
  exact Act.bind_of_ok found

/-- To delete a slice leaves the other items. -/
theorem run_deleteSlice {e : Engine} (there : c.at_ < s.heap.checked.size)
    (cell : s.heap.checkedList c.at_ = l) (unfrozen : l.frozen = false)
    (sliced : asSlice l.items.length start stop step s.heap = .ok sl) :
    ∃ w, (Op.deleteItem (.slice ident start stop step)).run e c s = .ok .nil w ∧
      w.heap.checkedList c.at_ = { l with items := sl.delete l.items } := by
  subst cell
  have found : (liftM (deletedAt (s.heap.checkedList c.at_).items (.slice ident start stop step)) : Act _) s =
      .ok (sl.delete (s.heap.checkedList c.at_).items) s :=
    Act.lift_eq_ok.mpr ⟨Look.bind_eq_ok.mpr ⟨sl, sliced, rfl⟩, rfl⟩
  refine ⟨rewritten c (sl.delete (s.heap.checkedList c.at_).items) s, ?_, checkedList_rewritten there⟩
  rw [Op.run_unfrozen rfl unfrozen]
  exact (Act.bind_of_ok found).trans (Act.bind_of_ok (Self.write_ok unfrozen))

/-- Whether an operation is given values that match, and that can be asked about so that the list stays as it is. -/
structure Op.Offers (functions : Library) (n : Nat) (c : Self) (l : CheckedList) (s : Session) (op : Op)
    (values : List Value) : Prop where
  taken : ∃ t, op.taken s = .ok values t
  matching : ∃ t, op.matching functions n l.element s = .ok true t
  discreet : op.Discreet functions n c l.element s

/-- Values that are assigned to a slice come to stand there, unless they do not fit. -/
theorem run_setSlice (cell : s.heap.checkedList c.at_ = l) (unfrozen : l.frozen = false)
    (typed : l.collection = .collection id .array l.element)
    (sliced : ∀ h, asSlice l.items.length start stop step h = .ok sl)
    (offers : (Op.setItem (.slice ident start stop step) v).Offers functions n c l s values) :
    (∀ ys, sl.assign l.items values = .ok ys → ∃ w,
      (Op.setItem (.slice ident start stop step) v).run (Engine.ofDepth functions (n + 1)) c s = .ok .nil w ∧
        w.heap.checkedList c.at_ = { l with items := ys }) ∧
    ∀ cause, sl.assign l.items values = .error cause → ∃ w,
      (Op.setItem (.slice ident start stop step) v).run (Engine.ofDepth functions (n + 1)) c s =
        .error (.cause cause) w ∧ w.heap.checkedList c.at_ = l := by
  obtain ⟨u, taken⟩ := offers.taken
  obtain ⟨_, matching⟩ := offers.matching
  obtain ⟨t, yes⟩ := Op.asked_of_matching matching
  obtain ⟨cell', run⟩ := Op.run_asked rfl cell unfrozen typed offers.discreet taken yes
  have whole : t.heap.checkedList c.at_ = { l with items := l.items } := cell'
  have there := lt_of_typed whole typed
  rw [run]
  constructor
  · intro ys assigned
    have placed : (liftM ((Op.setItem (.slice ident start stop step) v).placed l.items values) : Act _) t =
        .ok ys t := by
      refine Act.lift_eq_ok.mpr ⟨Look.bind_eq_ok.mpr ⟨sl, sliced _, ?_⟩, rfl⟩
      rw [assigned]
      rfl
    refine ⟨rewritten c ys t, ?_, by rw [checkedList_rewritten there, cell']⟩
    rw [Act.bind_of_ok placed]
    exact Act.bind_of_ok (Self.write_ok (cell' ▸ unfrozen))
  · intro cause refused
    have unplaced : (liftM ((Op.setItem (.slice ident start stop step) v).placed l.items values) : Act _) t =
        .error (.cause cause) t := by
      refine Act.lift_eq_error.mpr ⟨Look.bind_eq_error.mpr (.inr ⟨sl, sliced _, ?_⟩), rfl⟩
      rw [refused]
      rfl
    exact ⟨t, Act.bind_of_error unplaced, cell'⟩

end Runs

/-- Whether a subscript reads a new list of some items, which has the class and the types of the list that it is read
from and is not frozen. -/
def Reads (e : Engine) (c : Self) (subscript : Value) (ys : List Value) (s : Session) : Prop :=
  ∃ i t, (Op.getItem subscript).run e c s = .ok (.checked c.cls i) t ∧ i ≠ c.at_ ∧
    t.heap.checkedList i = { s.heap.checkedList c.at_ with items := ys, frozen := false } ∧
    t.heap.checkedList c.at_ = s.heap.checkedList c.at_

/-- How everything that is done to a slice of a checked list goes by the positions that it picks.

- `read`: the slice is a list of what stands at the positions.
- `deleted`: to delete it leaves what stands at the other positions.
- `assigned`: with a step other than one, as many values as there are positions come to stand there and are read back,
  and the other positions are left alone.
- `misfit`: any other number of values is a value error, and nothing is changed.
- `replaced`: with step one the positions are a run, and any number of values takes its place.
- `own`: to assign what has been read changes nothing, and fails only if the values are not let in. -/
structure Addressed (functions : Library) (n : Nat) (c : Self) (l : CheckedList) (s : Session) (subscript : Value)
    (low high : Option Int) (by_ : Int) (positions : List Nat) : Prop where
  selects : Selects l.items.length low high by_ positions
  read : ∃ ys, StandAt l.items positions ys ∧ Reads (Engine.ofDepth functions (n + 1)) c subscript ys s
  deleted : ∃ ys w, StandAt l.items ((List.range l.items.length).filter (· ∉ positions)) ys ∧
    (Op.deleteItem subscript).run (Engine.ofDepth functions (n + 1)) c s = .ok .nil w ∧
    w.heap.checkedList c.at_ = { l with items := ys }
  assigned : by_ ≠ 1 → ∀ v values, (Op.setItem subscript v).Offers functions n c l s values →
    values.length = positions.length → ∃ ys w,
      (Op.setItem subscript v).run (Engine.ofDepth functions (n + 1)) c s = .ok .nil w ∧
      w.heap.checkedList c.at_ = { l with items := ys } ∧ ys.length = l.items.length ∧
      (∀ p ∉ positions, ys[p]? = l.items[p]?) ∧ Reads (Engine.ofDepth functions (n + 1)) c subscript values w
  misfit : by_ ≠ 1 → ∀ v values, (Op.setItem subscript v).Offers functions n c l s values →
    values.length ≠ positions.length → ∃ f w,
      (Op.setItem subscript v).run (Engine.ofDepth functions (n + 1)) c s = .error f w ∧
      f.kind = .valueError ∧ w.heap.checkedList c.at_ = l
  replaced : by_ = 1 → ∃ before run after, l.items = before ++ run ++ after ∧
    positions = List.range' before.length run.length ∧
    (before.length : Int) = min (origin l.items.length low 1) l.items.length ∧
    ∀ v values, (Op.setItem subscript v).Offers functions n c l s values → ∃ w,
      (Op.setItem subscript v).run (Engine.ofDepth functions (n + 1)) c s = .ok .nil w ∧
      w.heap.checkedList c.at_ = { l with items := before ++ values ++ after }
  own : ∀ i t, (Op.getItem subscript).run (Engine.ofDepth functions (n + 1)) c s = .ok (.checked c.cls i) t →
    (Op.setItem subscript (.checked c.cls i)).Discreet functions n c l.element t →
    (((Op.setItem subscript (.checked c.cls i)).run (Engine.ofDepth functions (n + 1)) c).after t).heap.checkedList
      c.at_ = l ∧
    ∀ u, (Op.setItem subscript (.checked c.cls i)).matching functions n l.element t = .ok true u → ∃ w,
      (Op.setItem subscript (.checked c.cls i)).run (Engine.ofDepth functions (n + 1)) c t = .ok .nil w

section Addressing

variable {low high by_ : Option Int}

theorem reads_slice {e : Engine} (there : c.at_ < s.heap.checked.size) (cell : s.heap.checkedList c.at_ = l)
    (sliced : asSlice l.items.length start stop step s.heap = .ok sl) :
    Reads e c (.slice ident start stop step) (sl.read l.items) s := by
  refine ⟨_, _, run_getSlice cell sliced, Nat.ne_of_gt there, ?_, ?_⟩
  · rw [checkedList_push, if_pos rfl, cell]
  · rw [checkedList_push, if_neg (Nat.ne_of_lt there)]

theorem items_checked {i : Handle} {cls : Class} (held : (t.heap.checkedList i).items = values) :
    ∃ u, Value.items (.checked cls i) t = .ok values u := by
  subst held
  exact ⟨t, rfl⟩

/-- To assign to a slice what has been read of it changes nothing. -/
theorem assign_own (cell : s.heap.checkedList c.at_ = l) (unfrozen : l.frozen = false)
    (typed : l.collection = .collection id .array l.element)
    (sliced : ∀ h, asSlice l.items.length start stop step h = .ok sl) (whole : sl.assign l.items values = .ok l.items)
    (taken : ∃ u, v.items s = .ok values u)
    (discreet : (Op.setItem (.slice ident start stop step) v).Discreet functions n c l.element s) :
    (((Op.setItem (.slice ident start stop step) v).run (Engine.ofDepth functions (n + 1)) c).after s).heap.checkedList
      c.at_ = l ∧
    ∀ t, (Op.setItem (.slice ident start stop step) v).matching functions n l.element s = .ok true t → ∃ w,
      (Op.setItem (.slice ident start stop step) v).run (Engine.ofDepth functions (n + 1)) c s = .ok .nil w := by
  have done {t : Session} (yes : (Op.setItem (.slice ident start stop step) v).matching functions n l.element s =
      .ok true t) := (run_setSlice cell unfrozen typed sliced ⟨taken, ⟨t, yes⟩, discreet⟩).1 _ whole
  constructor
  · cases run : (Op.setItem (.slice ident start stop step) v).run (Engine.ofDepth functions (n + 1)) c s with
    | error f w =>
      rw [Act.after_of_error run]
      exact Op.inserts_keeps rfl cell unfrozen typed discreet run
    | ok a w =>
      obtain ⟨t, _, _, yes, -⟩ := Op.asked_of_run rfl cell unfrozen typed discreet run
      obtain ⟨w', run', left⟩ := done yes
      obtain ⟨-, rfl⟩ := EStateM.Result.ok.inj (run.symm.trans run')
      rw [Act.after_of_ok run]
      exact left
  · intro t yes
    obtain ⟨w, run, -⟩ := done yes
    exact ⟨w, run⟩

/-- **Slices.** Whatever its bounds and its step, a slice of a list that can be changed picks positions, and to read
it, to delete it and to assign to it all go by these positions. -/
theorem slices_address (functions : Library) (n : Nat) (c : Self) (l : CheckedList) (s : Session)
    (cell : s.heap.checkedList c.at_ = l) (unfrozen : l.frozen = false)
    (typed : ∃ id, l.collection = .collection id .array l.element) (ident : Ident) (start stop step : Value)
    (starts : Bounds start low) (stops : Bounds stop high) (steps : Bounds step by_) (nonzero : by_.getD 1 ≠ 0) :
    ∃ positions, Addressed functions n c l s (.slice ident start stop step) low high (by_.getD 1) positions := by
  obtain ⟨id, typed⟩ := typed
  have sliced (length : Nat) (h : Heap) := asSlice_bounds starts stops steps nonzero length h
  generalize by_.getD 1 = by_ at nonzero sliced
  have whole : s.heap.checkedList c.at_ = { l with items := l.items } := cell
  have there := lt_of_typed whole typed
  have stands : StandAt l.items (slice l.items.length low high by_).positions _ := read_standAt nonzero
  refine ⟨(slice l.items.length low high by_).positions, ?_⟩
  constructor
  case selects => exact positions_selects nonzero
  case read => exact ⟨_, stands, reads_slice there cell (sliced _ _)⟩
  case deleted =>
    obtain ⟨w, run, left⟩ := run_deleteSlice there cell unfrozen (sliced _ _)
    exact ⟨_, w, delete_standAt _, run, left⟩
  case assigned =>
    intro other v values offers fits
    have assigned : (slice l.items.length low high by_).assign l.items values =
        .ok ((slice l.items.length low high by_).put l.items values) := by
      rw [length_positions] at fits
      rw [Slice.assign, if_neg (by simpa [Sequence.slice] using other), if_pos (by simpa using fits)]
    obtain ⟨w, run, left⟩ := (run_setSlice cell unfrozen typed (sliced _) offers).1 _ assigned
    refine ⟨_, w, run, left, length_put _, fun p other => getElem?_put other, ?_⟩
    rw [← read_put nonzero fits]
    refine reads_slice (lt_of_typed left typed) left ?_
    rw [sliced, length_put]
  case misfit =>
    intro other v values offers misfits
    have refused : (slice l.items.length low high by_).assign l.items values =
        .error (.sizeMismatch values.length (slice l.items.length low high by_).count) := by
      rw [length_positions] at misfits
      rw [Slice.assign, if_neg (by simpa [Sequence.slice] using other), if_neg (by simpa using misfits)]
    obtain ⟨w, run, left⟩ := (run_setSlice cell unfrozen typed (sliced _) offers).2 _ refused
    exact ⟨_, w, run, rfl, left⟩
  case replaced =>
    intro one
    subst one
    obtain ⟨before, after, begins, whole, run, spliced⟩ := splice_run l.items low high
    refine ⟨before, _, after, whole, run, begins, fun v values offers => ?_⟩
    rw [← spliced]
    exact (run_setSlice cell unfrozen typed (sliced _) offers).1 _ (if_pos rfl)
  case own =>
    intro i t run discreet
    obtain ⟨⟨⟩, rfl⟩ := EStateM.Result.ok.inj ((run_getSlice cell (sliced _ _)).symm.trans run)
    refine assign_own ?_ unfrozen typed (sliced _) (assign_read nonzero) ?_ discreet
    · rw [checkedList_push, if_neg (Nat.ne_of_lt there), cell]
    · apply items_checked
      rw [checkedList_push, if_pos rfl]

/-- Every second text from the end on takes another value, and the one between them stays. -/
theorem texts_address_backwards :
    let back : Value := .slice 6 .nil .nil (.int .base 0 (-2))
    ∃ w, (Op.setItem back (.tuple 7 [.bool true, .nil])).run reader shelved shelf = .ok .nil w ∧
      Reads reader shelved back [.bool true, .nil] w ∧
      (w.heap.checkedList 0).items[1]? = some (.str .base 2 "bb") := by
  intro back
  obtain ⟨positions, addressed⟩ := slices_address Zoo.library 2 shelved texts shelf rfl rfl ⟨4, rfl⟩ 6 .nil .nil
    (.int .base 0 (-2)) .absent .absent (.number rfl) (by decide)
  have two : positions.length = 2 := by
    obtain ⟨ys, stands, i, t, run, -, made, -⟩ := addressed.read
    obtain ⟨⟨⟩, rfl⟩ := EStateM.Result.ok.inj run
    have known : ys = [.str .base 3 "c", .str .base 1 "a"] := congrArg CheckedList.items made.symm
    rw [stands.length_eq, known]
    rfl
  have between : 1 ∉ positions := by
    intro picked
    obtain ⟨k, reached⟩ := ((addressed.selects.picked 1).mp picked).reached
    change (1 : Int) = 2 + -2 * k at reached
    omega
  have offers : (Op.setItem back (.tuple 7 [.bool true, .nil])).Offers Zoo.library 2 shelved texts shelf
      [.bool true, .nil] := by
    refine ⟨⟨_, rfl⟩, ⟨_, rfl⟩, ?_⟩
    rintro values t ⟨⟩
    exact ⟨rfl, rfl⟩
  obtain ⟨ys, w, run, left, -, others, reads⟩ := addressed.assigned (by decide) _ _ offers two.symm
  refine ⟨w, run, reads, ?_⟩
  have items : (w.heap.checkedList 0).items = ys := congrArg CheckedList.items left
  rw [items, others 1 between]
  rfl

end Addressing

end CheckedList

end Conform
