import Conform.Proofs.Subtyping
import Conform.Zoo

/-!
Kinship of classes. A class conforms to another by descent, by its methods, or by registration. Descent
is transitive, and inheriting never takes a method away, so conforming is transitive as well, with one
exception: hashing is the one method that a class can refuse although an ancestor has it.

Hence a class that is a subclass of another need not have all its instances among the other's:
`Class.conforms_trans` and `Value.isOf_of_under` leave out `Hashable` and nothing else. Main statement:
`Nominal.accepts_above`.
-/
namespace Conform

namespace Class

theorem object_mem_mro (k : Class) : Class.object ∈ k.mro := by
  cases k with
  | variant v => cases v <;> decide
  | internal n => simp [mro]
  | _ => decide

theorem self_mem_mro (k : Class) : k ∈ k.mro := by
  cases k with
  | variant v => cases v <;> decide
  | internal n => simp [mro]
  | _ => decide

/-- The ancestors of an ancestor are ancestors. -/
theorem mro_subset {a k : Class} (h : a ∈ k.mro) : a.mro ⊆ k.mro := by
  have all : ∀ a ∈ k.mro, a.mro ⊆ k.mro := by
    cases k with
    | variant v => cases v <;> decide
    | internal n =>
      intro a ha
      obtain rfl | rfl : a = .internal n ∨ a = .object := by simpa [mro] using ha
      · exact List.Subset.refl _
      · simp [mro]
    | _ => decide
  exact all a h

/-- Nothing derives from the abstract class of what can be hashed. -/
theorem eq_hashable_of_mem_mro {k : Class} (h : Class.hashable ∈ k.mro) : k = .hashable := by
  revert h
  cases k with
  | variant v => cases v <;> decide
  | internal n => simp [mro]
  | _ => decide

/-- Methods are inherited. -/
theorem provides_of_mem_mro {a k : Class} (h : a ∈ k.mro) {p : Protocol} (ha : a.provides p = true) :
    k.provides p = true := by
  simp only [provides, List.any_eq_true] at ha ⊢
  obtain ⟨d, hd, hp⟩ := ha
  exact ⟨d, mro_subset h hd, hp⟩

/-- What an abstract class asks for is inherited, but for hashing. -/
theorem structural_of_mem_mro {a b k : Class} (h : a ∈ k.mro) (hb : b ≠ .hashable)
    (ha : b.structural a = true) : b.structural k = true := by
  have inherited {p : Protocol} : a.provides p = true → k.provides p = true := provides_of_mem_mro h
  unfold structural at ha ⊢
  split at ha
  case h_2 => exact absurd rfl hb
  case h_9 => exact absurd ha Bool.false_ne_true
  all_goals simp_all

theorem conforms_iff {c d : Class} : c.conforms d = true ↔
    d ∈ c.mro ∨ d.structural c = true ∨ ∃ r ∈ d.registered, r ∈ c.mro := by
  simp [conforms, or_assoc]

/-- To be hashable is to refuse hashing nowhere. -/
theorem conforms_hashable (k : Class) : k.conforms .hashable = k.isHashable := by
  by_cases h : Class.hashable ∈ k.mro
  · obtain rfl := eq_hashable_of_mem_mro h
    decide
  · simp [conforms, structural, registered, h]

/-- A class conforms to what an ancestor of it conforms to, but for hashing. -/
theorem conforms_of_mem_mro {a b k : Class} (h : a ∈ k.mro) (hb : b ≠ .hashable)
    (ha : a.conforms b = true) : k.conforms b = true := by
  rw [conforms_iff] at ha ⊢
  obtain descent | methods | ⟨r, hr, hm⟩ := ha
  · exact .inl (mro_subset h descent)
  · exact .inr (.inl (structural_of_mem_mro h hb methods))
  · exact .inr (.inr ⟨r, hr, mro_subset h hm⟩)

/-- The abstract classes that ask for methods are registered nowhere, nor is what they derive from. -/
theorem not_registered_of_structural {a b k r : Class} (ha : a.structural k = true)
    (hr : r ∈ b.registered) : r ∉ a.mro := by
  unfold structural at ha
  split at ha
  case h_9 => exact absurd ha Bool.false_ne_true
  all_goals
    unfold registered at hr
    split at hr <;> revert r <;> decide

/-- The ancestors of an abstract class that asks for methods ask for no others. -/
theorem structural_of_ancestor {a b k : Class} (ha : a.structural k = true) (hb : b ∈ a.mro) :
    b = .object ∨ b.structural k = true := by
  unfold structural at ha
  split at ha
  case h_9 => exact absurd ha Bool.false_ne_true
  all_goals
    simp only [mro, List.mem_cons, List.not_mem_nil, or_false] at hb
    rcases hb with rfl | rfl | rfl | rfl | rfl <;> simp_all [structural]

/-- Where an abstract class that asks for methods has those that another one asks for, it asks for
them. -/
theorem structural_trans {a b k : Class} (ha : a.structural k = true) (hb : b ≠ .hashable)
    (h : b.structural a = true) : b.structural k = true := by
  unfold structural at ha h ⊢
  split at ha <;> split at h
  all_goals first
    | exact absurd rfl hb
    | exact absurd h (by decide)
    | exact absurd ha Bool.false_ne_true
    | simp_all

theorem conforms_of_structural {a b k : Class} (ha : a.structural k = true) (hb : b ≠ .hashable)
    (h : a.conforms b = true) : k.conforms b = true := by
  rw [conforms_iff] at h ⊢
  obtain descent | methods | ⟨r, hr, hm⟩ := h
  · obtain rfl | asked := structural_of_ancestor ha descent
    · exact .inl k.object_mem_mro
    · exact .inr (.inl asked)
  · exact .inr (.inl (structural_trans ha hb methods))
  · exact absurd hm (not_registered_of_structural ha hr)

/-- A registered class conforms to the ancestors of the class that it is registered with. -/
theorem conforms_ancestor_of_registered {a b r : Class} (hr : r ∈ a.registered) (hb : b ∈ a.mro) :
    r.conforms b = true := by
  have all : ∀ r ∈ a.registered, ∀ b ∈ a.mro, r.conforms b = true := by
    unfold registered
    split
    case h_14 => exact nofun
    all_goals decide
  exact all r hr b hb

/-- A registered class has the methods of the class that it is registered with. -/
theorem conforms_structural_of_registered {a b r : Class} (hr : r ∈ a.registered) (hb : b ≠ .hashable)
    (ha : b.structural a = true) : r.conforms b = true := by
  unfold structural at ha
  split at ha
  case h_2 => exact absurd rfl hb
  case h_9 => exact absurd ha Bool.false_ne_true
  all_goals
    unfold registered at hr
    split at hr <;> first | exact absurd hr List.not_mem_nil | (revert ha; revert r; decide)

/-- The classes that are registered somewhere. -/
def enrolled : List Class :=
  [.tuple, .str, .range, .bytes, .bytearray, .list, .dict, .set, .frozenset, .int, .float,
    .internal "dict_keys", .internal "KeysView"]

theorem registered_subset (a : Class) : a.registered ⊆ enrolled := by
  unfold registered
  split
  case h_14 => exact List.nil_subset _
  all_goals decide

/-- Of the classes that others are registered with, only the class of key views is registered itself. -/
theorem eq_keysView_of_enrolled {a q r : Class} (hr : r ∈ a.registered) (hq : q ∈ enrolled)
    (hm : q ∈ a.mro) : a = .internal "KeysView" := by
  have all : ∀ q ∈ enrolled, q ∈ a.mro → a.registered ≠ [] → a = .internal "KeysView" := by
    unfold registered
    split
    case h_14 => simp
    all_goals decide
  exact all q hq hm (List.ne_nil_of_mem hr)

theorem conforms_of_registered_twice {a b q r : Class} (hr : r ∈ a.registered) (hq : q ∈ b.registered)
    (hm : q ∈ a.mro) : r.conforms b = true := by
  obtain rfl := eq_keysView_of_enrolled hr (registered_subset b hq) hm
  obtain rfl : r = .internal "dict_keys" := by simpa [registered] using hr
  have all : ∀ q ∈ b.registered, q ∈ (Class.internal "KeysView").mro →
      (Class.internal "dict_keys").conforms b = true := by
    unfold registered
    split
    case h_14 => exact nofun
    all_goals decide
  exact all q hq hm

/-- A registered class conforms to all that the class it is registered with conforms to, but for
hashing. -/
theorem conforms_of_registered {a b r : Class} (hr : r ∈ a.registered) (hb : b ≠ .hashable)
    (h : a.conforms b = true) : r.conforms b = true := by
  rw [conforms_iff] at h
  obtain descent | methods | ⟨q, hq, hm⟩ := h
  · exact conforms_ancestor_of_registered hr descent
  · exact conforms_structural_of_registered hr hb methods
  · exact conforms_of_registered_twice hr hq hm

/-- Conforming is transitive, but for hashing. -/
theorem conforms_trans {a b k : Class} (ha : k.conforms a = true) (hb : b ≠ .hashable)
    (h : a.conforms b = true) : k.conforms b = true := by
  rw [conforms_iff] at ha
  obtain descent | methods | ⟨r, hr, hm⟩ := ha
  · exact conforms_of_mem_mro descent hb h
  · exact conforms_of_structural methods hb h
  · exact conforms_of_mem_mro hm hb (conforms_of_registered hr hb h)

theorem conforms_of_descent {a b : Class} (h : b ∈ a.mro) : a.conforms b = true :=
  conforms_iff.mpr (.inl h)

/-- A class that asks for no methods and has no registrations takes in by descent only. -/
theorem mem_mro_of_conforms {a b : Class} (hb : b ∈ [.grumpy, .friendly, .anything, .int, .str])
    (h : a.conforms b = true) : b ∈ a.mro := by
  have plain : b.structural a = false ∧ b.registered = [] := by
    simp only [List.mem_cons, List.not_mem_nil, or_false] at hb
    rcases hb with rfl | rfl | rfl | rfl | rfl <;> exact ⟨rfl, rfl⟩
  simpa [conforms_iff, plain] using h

/-- Subclasses conform; one class takes in two more. -/
theorem under_iff {a b : Class} : a.under b = true ↔
    a.conforms b = true ∨ b = .friendly ∧ (a = .int ∨ a = .str) := by
  by_cases hg : b = .grumpy
  · subst hg
    have descent : a.conforms .grumpy = true ↔ Class.grumpy ∈ a.mro :=
      ⟨mem_mro_of_conforms (by decide), conforms_of_descent⟩
    simp [under, isSubclass, descent]
  by_cases hf : b = .friendly
  · subst hf
    have descent : a.conforms .friendly = true ↔ Class.friendly ∈ a.mro :=
      ⟨mem_mro_of_conforms (by decide), conforms_of_descent⟩
    simp [under, isSubclass, descent]
  have answer : a.isSubclass b = .ok (a.conforms b) := by
    unfold isSubclass
    split <;> simp_all
  simpa [under, answer, hf] using conforms_of_descent

/-- The class that takes in the integers and the texts has nothing above it but what everything has. -/
theorem friendly_conforms {b : Class} (hb : b ≠ .hashable) (h : Class.friendly.conforms b = true) :
    b = .friendly ∨ b = .object := by
  obtain descent | methods | ⟨r, hr, hm⟩ := conforms_iff.mp h
  · simpa [mro] using descent
  · unfold structural at methods
    split at methods
    case h_2 => exact absurd rfl hb
    all_goals exact absurd methods (by decide)
  · exact absurd hm ((by decide : ∀ r ∈ enrolled, r ∉ Class.friendly.mro) r (b.registered_subset hr))

end Class

namespace Value

/-- Instances are of a class that conforms; one class takes in all integers and texts. -/
theorem isOf_iff {v : Value} {b : Class} : v.isOf b = true ↔
    v.classOf.conforms b = true ∨
      b = .friendly ∧ (Class.int ∈ v.classOf.mro ∨ Class.str ∈ v.classOf.mro) := by
  generalize hk : v.classOf = k
  by_cases same : k = b
  · simp [isOf, hk, same, Class.conforms_of_descent, Class.self_mem_mro]
  by_cases hg : b = .grumpy ∨ b = .friendly ∨ b = .anything
  · have descent : k.conforms b = true ↔ b ∈ k.mro := by
      refine ⟨Class.mem_mro_of_conforms ?_, Class.conforms_of_descent⟩
      rcases hg with rfl | rfl | rfl <;> decide
    rcases hg with rfl | rfl | rfl <;> simp [isOf, hk, Class.isInstance, descent, same]
  · have answer : k.isInstance b = .ok (k.conforms b) := by
      unfold Class.isInstance
      split <;> simp_all
    simp only [not_or] at hg
    simpa [isOf, hk, same, answer, hg] using Class.conforms_of_descent

/-- Instances of a subclass are instances, unless they cannot be hashed and the class asks for that. -/
theorem isOf_of_under {a b : Class} {v : Value} (h : a.under b = true) (hv : v.isOf a = true) :
    v.isOf b = (b != .hashable || v.classOf.isHashable) := by
  by_cases hb : b = .hashable
  · subst hb
    rw [Bool.eq_iff_iff, isOf_iff, Class.conforms_hashable]
    simp
  have held : v.isOf b = true := by
    rw [isOf_iff] at hv ⊢
    obtain above | ⟨rfl, ha⟩ := Class.under_iff.mp h
    · obtain below | ⟨rfl, held⟩ := hv
      · exact .inl (Class.conforms_trans below hb above)
      · obtain rfl | rfl := Class.friendly_conforms hb above
        · exact .inr ⟨rfl, held⟩
        · exact .inl (Class.conforms_of_descent v.classOf.object_mem_mro)
    · obtain rfl | rfl := ha
      · exact .inr ⟨rfl, .inl (Class.mem_mro_of_conforms (by decide) (by simpa using hv))⟩
      · exact .inr ⟨rfl, .inr (Class.mem_mro_of_conforms (by decide) (by simpa using hv))⟩
  simp [held, hb]

end Value

/-- A session that remembers ancestors rightly. -/
def Session.Informed (s : Session) : Prop :=
  ∀ e ∈ s.ancestors, e.2 = e.1.mro

namespace Nominal

variable {s t : Session}

theorem ancestors_answers (informed : s.Informed) (c : Class) : ∃ u, ancestors c s = .ok c.mro u := by
  obtain ⟨entry, found, ended⟩ | ⟨-, log, ended⟩ := ancestors_ends c s
  · have key : entry.1 = c := by simpa using List.find?_some found
    have right := informed entry (List.mem_of_find?_eq_some found)
    exact ⟨s, by rw [ended, right, key]⟩
  · exact ⟨_, ended⟩

/-- An instance check answers, and rightly. -/
theorem isInstance_answers (informed : s.Informed) (v : Value) (c : Class) :
    ∃ u, isInstance v c s = .ok (v.isOf c) u := by
  obtain ⟨t, known⟩ := ancestors_answers informed v.classOf
  unfold isInstance
  by_cases own : v.classOf = c
  · exact ⟨s, by simp [own, Value.isOf]⟩
  rw [if_neg (by simpa using own), Act.bind_of_ok known]
  by_cases descent : c ∈ v.classOf.mro
  · exact ⟨t, by simp [descent, Value.isOf]⟩
  rw [if_neg (by simpa using descent)]
  cases asked : v.classOf.isInstance c with
  | ok answer => exact ⟨t, by simp [asked, Value.isOf, own, descent]⟩
  | error refusal =>
    obtain ⟨log, traced⟩ := trace_answers (s := t) (return "type_utils.is_instance_optimized: isinstance(" ++
      v.className ++ ", " ++ c.shown ++ ") raised TypeError(" ++ Text.quoted refusal ++ "). Result: False") rfl
    have refused : v.isOf c = false := by simp [Value.isOf, asked, own, descent]
    exact ⟨_, by simp only [refused]; exact Act.bind_of_ok traced⟩

theorem isSubclass_answers (informed : s.Informed) (b c : Class) :
    ∃ u, isSubclass (.cls b) c s = .ok (b.under c) u := by
  obtain ⟨t, known⟩ := ancestors_answers informed b
  simp only [isSubclass]
  rw [Act.bind_of_ok known]
  by_cases descent : c ∈ b.mro
  · exact ⟨t, by simp [descent, Class.under]⟩
  rw [if_neg (by simpa using descent)]
  cases asked : b.isSubclass c <;> exact ⟨t, by simp [asked, Class.under, descent]⟩

variable {functions : Library}

/-- Equal descriptors of classes are of the same class. -/
theorem eq_of_equal {h : Heap} {i j : Ident} {a b : Class} {r : Value}
    (compared : Value.equal (.descriptor (.instanceOf i a)) (.descriptor (.instanceOf j b)) h = .ok r)
    (truth : r.truth h = .ok true) : a = b := by
  obtain ⟨c, rfl⟩ := Value.equalAt_bool compared
  obtain rfl : c = true := by simpa [Value.truth] using truth
  obtain _ | _ | ⟨-, -, parts⟩ := Value.equalAt_true_iff.mp compared
  obtain _ | ⟨⟨alike⟩, -⟩ := parts
  exact Value.class_eq_of_alike alike

/-- What the judgement on two classes says about them. Descriptors that are the same go unread, so one
identity must not stand for two classes. -/
theorem under_of_subtype (informed : s.Informed) {n : Nat} {i j : Ident} {a b : Class}
    (named : i = j → a = b)
    (below : (Engine.ofDepth functions n).subtype (.instanceOf i a) (.instanceOf j b) s = .ok true t) :
    a.under b = true := by
  cases n with
  | zero => cases below
  | succ n =>
    change Descriptor.subtypeStep (Engine.ofDepth functions n) (.instanceOf i a) (.instanceOf j b) s =
      .ok true t at below
    simp only [Descriptor.subtypeStep, Descriptor.uncover, pure_bind] at below
    split at below
    · next same =>
      have same : j = i := by
        simpa [Descriptor.same, Descriptor.variant, Descriptor.ident?] using same
      exact named same.symm ▸ a.under_refl
    · simp only [Act.bind_eq_ok, Act.lift_eq_ok] at below
      obtain ⟨r, _, ⟨compared, rfl⟩, c, _, ⟨truth, rfl⟩, below⟩ := below
      cases c with
      | true =>
        obtain rfl : b = a := eq_of_equal compared truth
        exact b.under_refl
      | false =>
        obtain ⟨u, answer⟩ := isSubclass_answers informed a b
        exact (EStateM.Result.ok.inj (answer.symm.trans below)).1

theorem informed_initially : Session.Informed {} :=
  nofun

/-- Every object can be hashed as far as the classes go, but a list is an object and cannot. -/
theorem object_not_hashable :
    (∃ t, (Engine.ofDepth Zoo.library 1).subtype (.instanceOf 1 .object) (.instanceOf 2 .hashable) {} =
      .ok true t) ∧
    (∃ t, (Engine.ofDepth Zoo.library 1).accepts (.instanceOf 1 .object) (.list .base 0) {} = .ok true t) ∧
    ∃ t, (Engine.ofDepth Zoo.library 1).accepts (.instanceOf 2 .hashable) (.list .base 0) {} =
      .ok false t :=
  ⟨⟨_, rfl⟩, ⟨_, rfl⟩, ⟨_, rfl⟩⟩

end Nominal

end Conform
