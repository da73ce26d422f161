import Mathlib.Tactic.Linarith
import Conform.Calling
import Conform.Check
import Conform.Proofs.Identity
import Conform.Proofs.Numbers
import Conform.Proofs.Slicing
import Conform.Proofs.Subtyping

/-!
Membership in ranges and slices. Whether an integer belongs to a progression is decided by arithmetic, without
walking through it; what belongs to it is said by the walk: so many steps from the start, as long as the end is
not reached. Other values belong to it if they are equal to one of its integers.

Main statement: `Descriptor.membership_exact`.
-/
namespace Conform

namespace Span

variable {r : Span} {n : Int} {k : Nat}

/-- Whether an integer is met on the way from the start of a progression, before its end. -/
def Meets (r : Span) (n : Int) : Prop :=
  ∃ k : Nat, n = r.start + r.step * k ∧ Sequence.Precedes r.step n r.stop

/-- As many integers are met as come before the end. -/
theorem lt_length_iff : k < r.length ↔ Sequence.Precedes r.step (r.get k) r.stop := by
  have count {x d : Int} (positive : 0 < d) : k < (x / d).toNat ↔ (k + 1) * d ≤ x := by
    rw [← Int.le_ediv_iff_mul_le positive]
    omega
  unfold length Sequence.Precedes get
  split
  · next up =>
    rw [count up]
    have same : (k + 1) * r.step = r.step * k + r.step := by ring
    omega
  · split
    · next down =>
      rw [count (by omega)]
      have same : (k + 1) * -r.step = -(r.step * k) - r.step := by ring
      omega
    · omega

/-- A progression is empty if it meets nothing. -/
theorem length_eq_zero_iff : r.length = 0 ↔ ∀ n, ¬r.Meets n := by
  constructor
  · rintro empty n ⟨k, rfl, ahead⟩
    have : k < r.length := lt_length_iff.mpr ahead
    omega
  · intro nothing
    by_contra inhabited
    exact nothing (r.get 0) ⟨0, rfl, lt_length_iff.mp (by omega)⟩

/-- Arithmetic finds what the walk meets. -/
theorem contains_iff : r.contains n = true ↔ r.Meets n := by
  -- The number of steps to `n` is a quotient, so `n` is met if it is not behind the start and nothing remains.
  have steps {d : Int} (positive : 0 < d) (x : Int) : 0 ≤ x ∧ x % d = 0 ↔ ∃ k : Nat, d * k = x := by
    constructor
    · rintro ⟨forward, whole⟩
      obtain ⟨q, rfl⟩ := Int.dvd_of_emod_eq_zero whole
      have q_nonneg : 0 ≤ q := nonneg_of_mul_nonneg_right forward positive
      exact ⟨q.toNat, by rw [Int.toNat_of_nonneg q_nonneg]⟩
    · rintro ⟨k, rfl⟩
      exact ⟨by positivity, Int.mul_emod_right _ _⟩
  unfold contains Meets Sequence.Precedes
  split
  · next up =>
    have found := steps up (n - r.start)
    simp only [Bool.and_eq_true, decide_eq_true_eq, beq_iff_eq]
    constructor
    · rintro ⟨⟨forward, before⟩, whole⟩
      obtain ⟨k, reached⟩ := found.mp ⟨by omega, whole⟩
      exact ⟨k, by omega, .inl ⟨up, before⟩⟩
    · rintro ⟨k, reached, ahead⟩
      obtain ⟨forward, whole⟩ := found.mpr ⟨k, by omega⟩
      exact ⟨⟨by omega, by omega⟩, whole⟩
  · split
    · next down =>
      have found := steps (show 0 < -r.step by omega) (r.start - n)
      simp only [Bool.and_eq_true, decide_eq_true_eq, beq_iff_eq]
      constructor
      · rintro ⟨⟨before, forward⟩, whole⟩
        obtain ⟨k, reached⟩ := found.mp ⟨by omega, whole⟩
        exact ⟨k, by rw [neg_mul] at reached; omega, .inr ⟨down, before⟩⟩
      · rintro ⟨k, reached, ahead⟩
        obtain ⟨forward, whole⟩ := found.mpr ⟨k, by rw [neg_mul]; omega⟩
        exact ⟨⟨by omega, by omega⟩, whole⟩
    · simp
      omega

/-- A progression by single steps meets all between its ends. -/
theorem contains_unit (start stop n : Int) : contains ⟨start, stop, 1⟩ n = decide (start ≤ n ∧ n < stop) := by
  simp [contains]

end Span

namespace Value

variable {v : Value} {r : Span} {x : Exact} {n : Int} {h : Heap} {i : Handle}

/-- Whether a comparison of two values comes out true. -/
def Equals (h : Heap) (v w : Value) : Prop :=
  (v.equal w >>= truth) h = .ok true

theorem equals_number (number : v.number? = some x) (j : Ident) (n : Int) :
    Equals h v (.int .base j n) ↔ x.beq (.ofInt n) = true := by
  unfold Equals
  rw [Look.bind_of_ok (equal_number number j n h)]
  cases x.beq (.ofInt n) <;> simp [truth]

/-- What is no number and does not answer for itself is equal to no integer. -/
theorem equal_no_number (number : v.number? = none) (plain : ∀ i, v ≠ .thing .odd i) (j : Ident) (n : Int) :
    v.equal (.int .base j n) h = .ok (.bool false) := by
  have declines (eq : Value → Value → Look Value) : ownEqual? eq v (.int .base j n) h = .ok none := by
    cases v with
    | bool | int | float => cases number
    | thing c i =>
      cases c with
      | odd => exact absurd rfl (plain i)
      | _ => rfl
    | _ => rfl
  have declines' (eq : Value → Value → Look Value) : ownEqual? eq (.int .base j n) v h = .ok none := by
    cases v with
    | bool | int | float => cases number
    | _ => rfl
  have apart : v.same (.int .base j n) = false := by
    rw [← Bool.not_eq_true]
    intro same
    have alike := ctorIdx_of_same same
    cases v with
    | int => cases number
    | _ => cases alike
  rw [equal, valueDepth, equalAt, askBoth_declined (declines _) (declines' _), apart]

/-- An object that answers for itself gives the same answer about every integer. -/
theorem inSpan_odd (inhabited : r.length ≠ 0) (i : Handle) (j : Ident) (n : Int) :
    inSpan r (.thing .odd i) h = .ok true ↔ Equals h (.thing .odd i) (.int .base j n) := by
  have direct : reflectedFirst (.thing .odd i) (.int .base j n) = false := rfl
  have some : (r.length == 0) = false := by simpa using inhabited
  unfold Equals equal valueDepth
  simp only [inSpan, some, equalAt, askBoth, ownEqual?, direct, Bool.false_eq_true, if_false, Look.bind_eq_ok,
    Look.read_eq_ok]
  cases got : needAttribute .odd i "answer" h with
  | error f => simp
  | ok answer =>
    by_cases declined : answer = .notImplemented
    · subst declined
      simp [number?, same, truth]
    · simp

/-- Numbers are looked for by arithmetic. -/
theorem inSpan_number (number : v.number? = some x) :
    inSpan r v h = .ok (x.isIntegral && x.truncate?.any r.contains) := by
  cases v with
  | bool | int =>
    obtain rfl := Option.some.inj number
    simp [inSpan, int?, Exact.ofInt, Exact.isIntegral, Exact.truncate?]
  | float =>
    obtain rfl := Option.some.inj number
    rfl
  | _ => cases number

theorem inSpan_no_number (number : v.number? = none) (plain : ∀ i, v ≠ .thing .odd i) :
    inSpan r v h = .ok false := by
  cases v with
  | bool | int | float => cases number
  | thing c i =>
    cases c with
    | odd => exact absurd rfl (plain i)
    | _ => rfl
  | _ => rfl

/-- What belongs to a progression is equal to one of its integers. -/
theorem inSpan_iff (j : Ident) :
    inSpan r v h = .ok true ↔ ∃ n, r.Meets n ∧ Equals h v (.int .base j n) := by
  cases number : v.number? with
  | some x =>
    rw [inSpan_number number]
    simp only [equals_number number, Exact.beq_ofInt, ← Span.contains_iff]
    cases x.isIntegral <;> cases x.truncate? <;> simp
  | none =>
    by_cases odd : ∃ i, v = .thing .odd i
    · obtain ⟨i, rfl⟩ := odd
      by_cases empty : r.length = 0
      · have nothing := Span.length_eq_zero_iff.mp empty
        simp [inSpan, empty, nothing]
      · obtain ⟨n, meets⟩ : ∃ n, r.Meets n := by
          simpa [Span.length_eq_zero_iff] using empty
        constructor
        · exact fun found => ⟨n, meets, (inSpan_odd empty i j n).mp found⟩
        · rintro ⟨m, -, equals⟩
          exact (inSpan_odd empty i j m).mpr equals
    · have plain : ∀ i, v ≠ .thing .odd i := not_exists.mp odd
      simp [inSpan_no_number number plain, Equals, Look.bind_of_ok (equal_no_number number plain j _), truth]

/-- An integer lies between bounds if it is not below the one and below the other, as far as there are any. -/
theorem betweenBounds_int {start stop : Value} {low high : Option Int} (starts : Bounds start low)
    (stops : Bounds stop high) (int : v.int? = some n) :
    Descriptor.betweenBounds start stop v h = .ok (decide ((∀ m ∈ low, m ≤ n) ∧ ∀ m ∈ high, n < m)) := by
  have after : Descriptor.atOrAfter start v h = .ok (decide (∀ m ∈ low, m ≤ n)) := by
    cases starts with
    | absent => simp [Descriptor.atOrAfter]
    | number bound =>
      have compared := ordered_int .le bound int h
      cases start with
      | bool | int => simpa [Descriptor.atOrAfter, Comparison.le_holds] using compared
      | _ => cases bound
  have before : Descriptor.isBefore stop v h = .ok (decide (∀ m ∈ high, n < m)) := by
    cases stops with
    | absent => simp [Descriptor.isBefore]
    | number bound =>
      have compared := ordered_int .lt int bound h
      cases stop with
      | bool | int => simpa [Descriptor.isBefore, Comparison.lt_holds] using compared
      | _ => cases bound
  unfold Descriptor.betweenBounds
  rw [Look.bind_of_ok after, Bool.decide_and]
  cases decide (∀ m ∈ low, m ≤ n) with
  | true => simpa using before
  | false => rfl

end Value

namespace Descriptor

open Value

variable {functions : Library} {depth : Nat} {i : Ident} {r : Span} {v : Value} {s : Session} {b : Bool}

/-- Whether matching a value against a range or a slice gives an answer and does nothing else, be it asked of the
descriptor or of the bare container. -/
def Finds (e : Engine) (container v : Value) (s : Session) (found : Bool) : Prop :=
  (∀ id, e.accepts (.within id container) v s = .ok found s) ∧
    Check.isMatch e container v s = .ok found { s with nextIdent := s.nextIdent + 1 }

theorem finds_range :
    Finds (Engine.ofDepth functions (depth + 1)) (.range i r) v s b ↔ inSpan r v s.heap = .ok b := by
  constructor
  · rintro ⟨answers, -⟩
    exact (Act.lift_eq_ok.mp (answers 0)).1
  · intro found
    exact ⟨fun id => Act.lift_eq_ok.mpr ⟨found, rfl⟩, Act.lift_eq_ok.mpr ⟨found, rfl⟩⟩

theorem finds_slice {start stop step : Value} (found : betweenBounds start stop v s.heap = .ok b) :
    Finds (Engine.ofDepth functions (depth + 1)) (.slice i start stop step) v s b := by
  have kept (t : Session) (heap : t.heap = s.heap) :
      isWithin (.slice i start stop step) v t = .ok b t := by
    have run : (liftM (betweenBounds start stop v) : Act Bool) t = .ok b t :=
      Act.lift_eq_ok.mpr ⟨heap ▸ found, rfl⟩
    change Act.handle .typeError (betweenBounds start stop v) _ t = _
    rw [Act.handle, run]
  exact ⟨fun id => kept s rfl, kept { s with nextIdent := s.nextIdent + 1 } rfl⟩

/-- A value matches a range if it is equal to one of the integers that are met from the start on before the end.
Only an object that answers for itself can fail to compare; what else is no number, such as texts and
containers, and numbers that are no integers do not match. An integer matches a range by single steps, and
likewise a slice, if it is not below the start and below the stop, as far as the slice has them. -/
theorem membership_exact (functions : Library) (depth : Nat) (i j : Ident) (v : Value) (s : Session) :
    let finds (container : Value) := Finds (Engine.ofDepth functions (depth + 1)) container v s
    (∀ r : Span,
      (finds (.range i r) true ↔ ∃ n, r.Meets n ∧ Equals s.heap v (.int .base j n)) ∧
      ((∀ at_, v ≠ .thing .odd at_) → ∃ found, finds (.range i r) found) ∧
      ((∀ at_, v ≠ .thing .odd at_) → v.number? = none → finds (.range i r) false) ∧
      ∀ x, v.number? = some x → x.isIntegral = false → finds (.range i r) false) ∧
    ∀ n, v.int? = some n →
      (∀ start stop : Int, finds (.range i ⟨start, stop, 1⟩) (decide (start ≤ n ∧ n < stop))) ∧
      ∀ start stop step low high, Bounds start low → Bounds stop high →
        finds (.slice i start stop step) (decide ((∀ m ∈ low, m ≤ n) ∧ ∀ m ∈ high, n < m)) := by
  intro finds
  refine ⟨fun r => ⟨?_, fun plain => ?_, fun plain number => ?_, fun x number broken => ?_⟩, fun n int => ⟨?_, ?_⟩⟩
  · exact finds_range.trans (inSpan_iff j)
  · cases number : v.number? with
    | none => exact ⟨_, finds_range.mpr (inSpan_no_number number plain)⟩
    | some x => exact ⟨_, finds_range.mpr (inSpan_number number)⟩
  · exact finds_range.mpr (inSpan_no_number number plain)
  · refine finds_range.mpr ?_
    rw [inSpan_number number, broken, Bool.false_and]
  · intro start stop
    refine finds_range.mpr ?_
    rw [inSpan_number (number?_of_int? int), ← Span.contains_unit]
    simp [Exact.ofInt, Exact.isIntegral, Exact.truncate?]
  · intro start stop step low high starts stops
    exact finds_slice (betweenBounds_int starts stops int)

/-- The double 2.0 is met on the way from five down by steps of three, and true is not below false. -/
theorem membership_exact_double :
    let e := Engine.ofDepth Zoo.library 1
    Finds e (.range 2 ⟨5, -5, -3⟩) (.float 3 ⟨0x4000000000000000⟩) {} true ∧
      Finds e (.range 2 ⟨5, -5, -3⟩) (.str .base 3 "2") {} false ∧
      Finds e (.slice 2 (.bool false) .nil .nil) (.bool true) {} true := by
  intro e
  obtain ⟨doubles, -⟩ := membership_exact Zoo.library 0 2 0 (.float 3 ⟨0x4000000000000000⟩) {}
  obtain ⟨texts, -⟩ := membership_exact Zoo.library 0 2 0 (.str .base 3 "2") {}
  obtain ⟨-, integers⟩ := membership_exact Zoo.library 0 2 0 (.bool true) {}
  refine ⟨(doubles ⟨5, -5, -3⟩).1.mpr ⟨2, ⟨1, rfl, .inr (by decide)⟩, ?_⟩, ?_, ?_⟩
  · exact (equals_number rfl 0 2).mpr (by decide)
  · exact (texts ⟨5, -5, -3⟩).2.2.1 (by simp) rfl
  · exact (integers 1 rfl).2 (.bool false) .nil .nil (some 0) none (.number rfl) .absent

end Descriptor

end Conform
