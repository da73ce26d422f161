import Mathlib.Data.Rat.Cast.Order
import Mathlib.Data.Nat.ModEq
import Mathlib.Tactic.Ring
import Conform.Proofs.Running
import Conform.Value.Order

/-!
What exact numbers denote. A mantissa scaled by a power of two is a rational number, and two such numbers are
equal if they denote the same, however they are scaled. So equality is an equivalence but for NaN, which is equal
to nothing, and a double is equal to an integer only if it denotes that integer.

Main statements: `Exact.beq_iff`, `Exact.beq_ofInt`, and `Exact.hash?_of_beq`: numbers that are equal hash alike,
whatever their kind. `Value.equal_number` and `Value.ordered_int` say how values that are numbers compare.
-/
namespace Conform

namespace Exact

variable {a b c : Exact}

/-- The number behind an exact number, on the rational line with its two ends; nothing behind a NaN. -/
def denoted? : Exact → Option (Bool ⊕ ℚ)
  | .nan => none
  | .infinite negative => some (.inl negative)
  | .scaled m e => some (.inr (m * 2 ^ e))

theorem align_eq_iff (m₁ e₁ m₂ e₂ : Int) :
    (align m₁ e₁ m₂ e₂).1 = (align m₁ e₁ m₂ e₂).2 ↔ (m₁ * 2 ^ e₁ : ℚ) = m₂ * 2 ^ e₂ := by
  have scaled (m e low : Int) (above : low ≤ e) :
      ((m <<< (e - low).toNat : Int) : ℚ) * 2 ^ low = m * 2 ^ e := by
    have split : (2 : ℚ) ^ e = 2 ^ (e - low).toNat * 2 ^ low := by
      rw [← zpow_natCast, Int.toNat_of_nonneg (by omega), ← zpow_add₀ two_ne_zero]
      congr 1
      omega
    rw [Int.shiftLeft_eq, split]
    push_cast
    ring
  have power : (2 : ℚ) ^ min e₁ e₂ ≠ 0 := zpow_ne_zero _ two_ne_zero
  rw [← scaled m₁ e₁ (min e₁ e₂) (by omega), ← scaled m₂ e₂ (min e₁ e₂) (by omega)]
  constructor
  · intro same
    exact congrArg (fun n : Int => (n : ℚ) * 2 ^ min e₁ e₂) same
  · intro same
    exact_mod_cast mul_right_cancel₀ power same

/-- Numbers are equal if they denote the same. -/
theorem beq_iff : a.beq b = true ↔ ∃ q, a.denoted? = some q ∧ b.denoted? = some q := by
  cases a with
  | nan => simp [beq, compare?, denoted?]
  | infinite negative =>
    cases b with
    | nan => simp [beq, compare?, denoted?]
    | infinite negative' => cases negative <;> cases negative' <;> simp [beq, compare?, denoted?]
    | scaled m e => cases negative <;> simp [beq, compare?, denoted?]
  | scaled m e =>
    cases b with
    | nan => simp [beq, compare?, denoted?]
    | infinite negative => cases negative <;> simp [beq, compare?, denoted?]
    | scaled m' e' =>
      have compared : (scaled m e).beq (scaled m' e') = true ↔ (align m e m' e').1 = (align m e m' e').2 := by
        simp [beq, compare?]
      rw [compared, align_eq_iff]
      simp [denoted?, eq_comm]

/-- A number is equal to an integer if it is integral and the integer is what is left of it by rounding. -/
theorem beq_ofInt (n : Int) : a.beq (ofInt n) = (a.isIntegral && a.truncate? == some n) := by
  rw [Bool.eq_iff_iff]
  cases a with
  | nan => simp [beq, compare?, isIntegral]
  | infinite negative => cases negative <;> simp [beq, compare?, ofInt, isIntegral]
  | scaled m e =>
    have compared : (scaled m e).beq (ofInt n) = true ↔ m <<< (e - min e 0).toNat = n <<< (0 - min e 0).toNat := by
      simp [beq, compare?, ofInt, align]
    rw [compared]
    by_cases up : 0 ≤ e
    · simp [isIntegral, truncate?, up, Int.shiftLeft_eq]
    · have low : min e 0 = e := by omega
      have positive : (0 : Int) < 2 ^ (-e).toNat := pow_pos two_pos _
      simp only [isIntegral, truncate?, up, low, if_false, Int.shiftLeft_eq, sub_self, Int.toNat_zero, pow_zero,
        mul_one, one_mul, zero_sub, decide_false, Bool.false_or, Bool.and_eq_true, beq_iff_eq, Option.some.injEq]
      constructor
      · rintro rfl
        exact ⟨Int.mul_emod_left _ _, Int.mul_tdiv_cancel _ positive.ne'⟩
      · rintro ⟨whole, rfl⟩
        exact (Int.tdiv_mul_cancel (Int.dvd_of_emod_eq_zero whole)).symm

theorem compare?_ofInt (n m : Int) : (ofInt n).compare? (ofInt m) = some (compare n m) := by
  simp [ofInt, compare?, align]

theorem ofInt_beq_ofInt (n m : Int) : (ofInt n).beq (ofInt m) = (n == m) := by
  rw [beq_ofInt]
  simp [ofInt, isIntegral, truncate?]

section Hash

theorem hashModulus_eq : hashModulus = 2 ^ 61 - 1 := by
  decide

/-- Powers of two repeat under the modulus. -/
theorem two_pow_modEq (r q : Nat) : 2 ^ (r + 61 * q) ≡ 2 ^ r [MOD hashModulus] := by
  have root : 2 ^ 61 ≡ 1 [MOD hashModulus] := by
    rw [hashModulus_eq]
    decide
  have turns : (2 ^ 61) ^ q ≡ 1 ^ q [MOD hashModulus] := root.pow q
  rw [pow_add, pow_mul]
  simpa using turns.mul_left (2 ^ r)

/-- Scaling up the mantissa and the exponent down leaves the hash as it was. -/
theorem hash?_shift (m e : Int) (k : Nat) : hash? (.scaled (m <<< k) (e - k)) = hash? (.scaled m e) := by
  obtain ⟨q, turns⟩ : ∃ q : Nat, k + ((e - k) % 61).toNat = (e % 61).toNat + 61 * q :=
    ⟨(k + ((e - k) % 61).toNat - (e % 61).toNat) / 61, by omega⟩
  have size : ((m <<< k).natAbs % hashModulus) <<< ((e - k) % 61).toNat % hashModulus =
      (m.natAbs % hashModulus) <<< (e % 61).toNat % hashModulus := by
    have scaled : (m <<< k).natAbs = m.natAbs * 2 ^ k := by
      rw [Int.shiftLeft_eq, Int.natAbs_mul, Int.natAbs_pow]
      rfl
    rw [Nat.shiftLeft_eq, Nat.shiftLeft_eq, scaled]
    calc m.natAbs * 2 ^ k % hashModulus * 2 ^ ((e - k) % 61).toNat % hashModulus
        = m.natAbs * 2 ^ (k + ((e - k) % 61).toNat) % hashModulus := by
          rw [Nat.mod_mul_mod, mul_assoc, ← pow_add]
      _ = m.natAbs * 2 ^ ((e % 61).toNat + 61 * q) % hashModulus := by rw [turns]
      _ = m.natAbs * 2 ^ (e % 61).toNat % hashModulus := (two_pow_modEq _ q).mul_left _
      _ = m.natAbs % hashModulus * 2 ^ (e % 61).toNat % hashModulus := by rw [Nat.mod_mul_mod]
  have sign : m <<< k < 0 ↔ m < 0 := by
    rw [Int.shiftLeft_eq]
    simpa using mul_lt_mul_iff_of_pos_right (b := m) (c := 0) (pow_pos two_pos k)
  simp only [hash?, size, sign]

/-- Equal numbers hash alike, and there is no NaN among them. -/
theorem hash?_of_beq (h : a.beq b = true) : a.hash? = b.hash? ∧ a.hash?.isSome = true := by
  cases a with
  | nan => simp [beq, compare?] at h
  | infinite negative =>
    cases b with
    | nan => simp [beq, compare?] at h
    | infinite negative' => cases negative <;> cases negative' <;> simp_all [beq, compare?, hash?]
    | scaled m e => cases negative <;> simp [beq, compare?] at h
  | scaled m e =>
    cases b with
    | nan => simp [beq, compare?] at h
    | infinite negative => cases negative <;> simp [beq, compare?] at h
    | scaled m' e' =>
      have aligned : m <<< (e - min e e').toNat = m' <<< (e' - min e e').toNat := by
        simpa [beq, compare?, align] using h
      have lower (m e low : Int) (above : low ≤ e) :
          hash? (.scaled (m <<< (e - low).toNat) low) = hash? (.scaled m e) := by
        have shifted := hash?_shift m e (e - low).toNat
        rwa [Int.toNat_of_nonneg (by omega), sub_sub_cancel] at shifted
      refine ⟨?_, rfl⟩
      rw [← lower m e (min e e') (by omega), ← lower m' e' (min e e') (by omega), aligned]

end Hash

end Exact

theorem Comparison.holds_flip (c : Comparison) (o : Ordering) : c.flip.holds o.swap = c.holds o := by
  cases c <;> cases o <;> rfl

theorem Comparison.lt_holds (n m : Int) : lt.holds (compare n m) = decide (n < m) := by
  rw [Bool.eq_iff_iff, decide_eq_true_iff, ← compare_lt_iff_lt]
  cases compare n m <;> simp [holds]

theorem Comparison.le_holds (n m : Int) : le.holds (compare n m) = decide (n ≤ m) := by
  rw [Bool.eq_iff_iff, decide_eq_true_iff, ← compare_le_iff_le]
  cases compare n m <;> simp [holds]

theorem Comparison.ge_holds (n m : Int) : ge.holds (compare n m) = decide (m ≤ n) := by
  rw [Bool.eq_iff_iff, decide_eq_true_iff, ← compare_ge_iff_ge]
  cases compare n m <;> simp [holds]

namespace Value

variable {v w : Value} {x : Exact} {m n : Int} {h : Heap}

theorem number?_of_int? (int : v.int? = some n) : v.number? = some (.ofInt n) := by
  cases v with
  | bool | int => exact Option.some.inj int ▸ rfl
  | _ => cases int

/-- A number is equal to an integer if their exact numbers are. -/
theorem equal_number (number : v.number? = some x) (id : Ident) (m : Int) (h : Heap) :
    v.equal (.int .base id m) h = .ok (.bool (x.beq (.ofInt m))) := by
  have direct : reflectedFirst v (.int .base id m) = false := by
    cases v with
    | bool | float => rfl
    | int kind => cases kind <;> rfl
    | _ => cases number
  have own (eq : Value → Value → Look Value) :
      ownEqual? eq v (.int .base id m) h = .ok (some (.bool (x.beq (.ofInt m)))) := by
    cases v with
    | bool | int | float => exact Option.some.inj number ▸ rfl
    | _ => cases number
  rw [equal, valueDepth, equalAt, askBoth, direct]
  exact Look.bind_of_ok (own _)

/-- Integers are ordered by size, whichever of them is asked. -/
theorem ordered_int (c : Comparison) (int : v.int? = some n) (int' : w.int? = some m) (h : Heap) :
    ordered c v w h = .ok (c.holds (compare n m)) := by
  have own (c : Comparison) {v w : Value} {n m : Int} (int : v.int? = some n) (int' : w.int? = some m)
      (order : Comparison → Value → Value → Look Bool) :
      ownOrder? order c v w h = .ok (some (c.holds (compare n m))) := by
    have compared : ((Exact.ofInt n).compare? (.ofInt m)).any c.holds = c.holds (compare n m) := by
      rw [Exact.compare?_ofInt, Option.any_some]
    rw [← compared]
    cases v with
    | bool | int =>
      cases w with
      | bool | int =>
        obtain rfl := Option.some.inj int
        obtain rfl := Option.some.inj int'
        rfl
      | _ => cases int'
    | _ => cases int
  rw [ordered, valueDepth, orderedAt]
  cases reflectedFirst v w with
  | false => exact Look.bind_of_ok (own c int int' _)
  | true =>
    have turned : c.flip.holds (compare m n) = c.holds (compare n m) := by
      rw [← c.holds_flip, Int.compare_swap]
    rw [← turned]
    exact Look.bind_of_ok (own c.flip int' int _)

end Value

end Conform
