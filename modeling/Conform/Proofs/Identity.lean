import Conform.Value.Hash

/-!
Identity of values. A value that cannot change carries its identity with it; one that can change is its place
in the heap. Small integers, short texts and bytes and the empty tuple exist once, so they are identical
wherever they come from.

Main statements: identity is an equivalence (`Value.same_refl`, `Value.same_symm`, `Value.same_trans`), and
what is identical has one code, by which a unit is hashed (`Value.unitCode_of_same`).
-/
namespace Conform

theorem Descriptor.same_comm (a b : Descriptor) : a.same b = b.same a := by
  rw [same, same, BEq.comm, BEq.comm (a := a.ident?)]

namespace Value

variable {u v w : Value}

theorem same_refl (v : Value) : v.same v = true := by
  cases v with
  | int kind => cases kind <;> simp [same]
  | str kind => cases kind <;> simp [same]
  | method owner name binding => simp [same, same_refl owner]
  | _ => simp [same, Descriptor.same, Regex.same]

/-- Containers take what is identical for equal without asking. -/
theorem alike_refl {eq : Value → Value → Look Value} {h : Heap} (v : Value) : alike eq v v h = .ok true := by
  rw [alike, if_pos v.same_refl]
  rfl

/-- Identical values are of one kind. -/
theorem ctorIdx_of_same (h : v.same w = true) : v.ctorIdx = w.ctorIdx := by
  fun_induction same v w with
  | case44 => cases h
  | _ => rfl

theorem same_symm (h : v.same w = true) : w.same v = true := by
  fun_induction same v w with
  | case44 => cases h
  | _ => simp only [same, Regex.same, Descriptor.same] at * <;> grind

theorem same_comm (v w : Value) : v.same w = w.same v :=
  Bool.eq_iff_iff.mpr ⟨same_symm, same_symm⟩

theorem same_trans (h : u.same v = true) (h' : v.same w = true) : u.same w = true := by
  have kind := ctorIdx_of_same h'
  fun_induction same u v generalizing w with
  | case44 => cases h
  | case6 | case7 =>
    -- Integers come in two flavours, and only those of one flavour can be identical.
    cases w <;> try (cases kind; done)
    case int flavour _ _ => cases flavour <;> simp only [same] at * <;> grind
  | case9 | case10 =>
    cases w <;> try (cases kind; done)
    case str flavour _ _ => cases flavour <;> simp only [same] at * <;> grind
  | case26 o n k o' n' k' ih =>
    cases w <;> try (cases kind; done)
    simp only [same, Bool.and_eq_true, beq_iff_eq] at h h' ⊢
    exact ⟨⟨ih h.1.1 h'.1.1 (ctorIdx_of_same h'.1.1), h.1.2.trans h'.1.2⟩, h.2.trans h'.2⟩
  | _ =>
    cases w <;> try (cases kind; done)
    all_goals simp only [same, Regex.same, Descriptor.same] at * <;> grind

/-- Identical objects have one code. -/
theorem unitCode_of_same (h : v.same w = true) : v.unitCode = w.unitCode := by
  fun_induction same v w with
  | case44 => cases h
  | case6 i a j b | case9 i a j b =>
    simp only [Bool.and_eq_true, Bool.or_eq_true, beq_iff_eq] at h
    obtain ⟨rfl, shared | rfl⟩ := h
    · simp [unitCode, shared]
    · rfl
  | case11 i a j b =>
    simp only [Bool.and_eq_true, Bool.or_eq_true, beq_iff_eq, decide_eq_true_eq] at h
    obtain ⟨rfl, short | rfl⟩ := h
    · rcases a with _ | ⟨_, _ | ⟨_, _⟩⟩
      · rfl
      · rfl
      · simp at short
    · rfl
  | case12 i a j b =>
    simp only [Bool.and_eq_true, Bool.or_eq_true, beq_iff_eq] at h
    obtain ⟨sizes, empty | rfl⟩ := h
    · cases a <;> cases b <;> simp_all [unitCode]
    · cases a <;> cases b <;> simp_all [unitCode, identityCode]
  | _ => simp_all [unitCode, identityCode, Regex.same, Descriptor.same]

end Value

end Conform
