import Mathlib.Data.List.Forall2
import Mathlib.Data.List.Nodup
import Conform.Descriptor.Subtyping
import Conform.Proofs.Running

/-!
Descriptors go through their parts one by one. The loops of matching and subtyping ask whether all of some tests
are met, as far as the first that is not, and equality compares lists item by item, as far as the first difference.

Units are equal if they hold the same object, deferred descriptors if they are one and the same, descriptors of
different variants never, and all others if their parts are.

Main statements: `Descriptor.namedBelow_eq`, `Descriptor.allNamed_eq`, `Value.samePart_iff`, `Value.equalAt_structural`.
-/
namespace Conform

section Loops

variable {α β : Type}

/-- A loop that stops at the first test that is not met. -/
theorem eq_allM {p : α → Act Bool} {f : List α → Act Bool} (done : f [] = pure true)
    (step : ∀ a as, f (a :: as) = do if ← p a then f as else return false) (as : List α) : f as = as.allM p := by
  induction as with
  | nil => exact done
  | cons a as ih =>
    rw [step, List.allM, ih]
    congr 1
    funext answer
    cases answer <;> rfl

/-- A loop over two lists that stops where one of them ends. -/
theorem eq_allM_zip {p : α → β → Act Bool} {f : List α → List β → Act Bool} (left : ∀ bs, f [] bs = pure true)
    (right : ∀ a as, f (a :: as) [] = pure true)
    (step : ∀ a as b bs, f (a :: as) (b :: bs) = do if ← p a b then f as bs else return false) (as : List α)
    (bs : List β) : f as bs = (as.zip bs).allM fun x => p x.1 x.2 := by
  induction as generalizing bs with
  | nil => exact left bs
  | cons a as ih =>
    cases bs with
    | nil => exact right a as
    | cons b bs =>
      rw [step, List.zip_cons_cons, List.allM, ih]
      congr 1
      funext answer
      cases answer <;> rfl

namespace Descriptor

/-- Whether a field is there and matches. -/
def fieldMatches (e : Engine) (read : String → Act (Option Value)) (field : String × Descriptor) : Act Bool := do
  match ← read field.1 with
  | none => return false
  | some v => e.accepts field.2 v

/-- Whether a field is asked for, at least as strictly. -/
def fieldBelow (e : Engine) (mine : List (String × Descriptor)) (field : String × Descriptor) : Act Bool :=
  match named? mine field.1 with
  | none => return false
  | some found => e.subtype found.2 field.2

variable (e : Engine)

theorem pairwiseBelow_eq (as bs : List Descriptor) :
    pairwiseBelow e as bs = (as.zip bs).allM fun p => e.subtype p.1 p.2 :=
  eq_allM_zip (fun _ => rfl) (fun _ _ => rfl) (fun _ _ _ _ => rfl) as bs

theorem allPaired_eq (ds : List Descriptor) (vs : List Value) :
    allPaired e ds vs = (ds.zip vs).allM fun p => e.accepts p.1 p.2 :=
  eq_allM_zip (fun _ => rfl) (fun _ _ => rfl) (fun _ _ _ _ => rfl) ds vs

theorem namedBelow_eq (mine theirs : List (String × Descriptor)) :
    namedBelow e mine theirs = theirs.allM (fieldBelow e mine) := by
  refine eq_allM rfl (fun f rest => ?_) theirs
  rw [namedBelow, fieldBelow]
  cases named? mine f.1 <;> rfl

theorem allNamed_eq (read : String → Act (Option Value)) (fields : List (String × Descriptor)) :
    allNamed e read fields = fields.allM (fieldMatches e read) := by
  refine eq_allM rfl (fun f rest => ?_) fields
  simp only [allNamed, fieldMatches, bind_assoc]
  congr 1
  funext found
  cases found <;> simp

end Descriptor

end Loops

section Names

open Descriptor

variable {fields : List (String × Descriptor)} {name : String} {e : String × Descriptor}

theorem mem_of_named? (found : named? fields name = some e) : e ∈ fields ∧ e.1 = name :=
  ⟨List.mem_reverse.mp (List.mem_of_find?_eq_some found), by simpa using List.find?_some found⟩

theorem named?_of_distinct (distinct : (fields.map (·.1)).Nodup) (he : e ∈ fields) :
    named? fields e.1 = some e := by
  obtain ⟨f, found⟩ : ∃ f, named? fields e.1 = some f :=
    Option.isSome_iff_exists.mp (List.find?_isSome.mpr ⟨e, List.mem_reverse.mpr he, by simp⟩)
  obtain ⟨hf, hn⟩ := mem_of_named? found
  rw [found, List.inj_on_of_nodup_map distinct hf he hn]

/-- Two lists of named descriptors, related name by name. -/
abbrev NamedAlike (R : Descriptor → Descriptor → Prop) : List (String × Descriptor) →
    List (String × Descriptor) → Prop :=
  List.Forall₂ fun e f => e.1 = f.1 ∧ R e.2 f.2

variable {R : Descriptor → Descriptor → Prop} {as bs : List (String × Descriptor)}

theorem NamedAlike.flip (h : NamedAlike R as bs) : NamedAlike (fun x y => R y x) bs as :=
  List.Forall₂.flip (h.imp fun _ _ h => ⟨h.1.symm, h.2⟩)

/-- The entries that count in two related lists are related. -/
theorem NamedAlike.named? (h : NamedAlike R as bs) (found : Descriptor.named? as name = some e) :
    ∃ f, Descriptor.named? bs name = some f ∧ R e.2 f.2 := by
  have first {as bs : List (String × Descriptor)} (h : NamedAlike R as bs)
      (found : as.find? (·.1 == name) = some e) : ∃ f, bs.find? (·.1 == name) = some f ∧ R e.2 f.2 := by
    induction h with
    | nil => cases found
    | @cons a b as bs hab _ ih =>
      rw [List.find?_cons] at found ⊢
      rw [← hab.1]
      split at found
      · cases found
        exact ⟨b, rfl, hab.2⟩
      · exact ih found
  exact first (List.forall₂_reverse_iff.mpr h) found

end Names

section Pairwise

variable {α : Type} {h : Heap} {t : α → α → Look Bool} {as bs : List α}

/-- Compares two lists item by item, as far as the first difference. -/
def pairwise (t : α → α → Look Bool) : List α → List α → Look Bool
  | [], [] => return true
  | a :: as, b :: bs => do
    if ← t a b then pairwise t as bs else return false
  | _, _ => return false

/-- What compares lists as `pairwise` does, one item at a time, is `pairwise`. -/
theorem eq_pairwise {f : List α → List α → Look Bool} (done : f [] [] = pure true)
    (left : ∀ a as, f (a :: as) [] = pure false) (right : ∀ b bs, f [] (b :: bs) = pure false)
    (step : ∀ a as b bs, f (a :: as) (b :: bs) = do if ← t a b then f as bs else return false) :
    f = pairwise t := by
  funext as bs
  induction as generalizing bs with
  | nil =>
    cases bs with
    | nil => exact done
    | cons b bs => exact right b bs
  | cons a as ih =>
    cases bs with
    | nil => exact left a as
    | cons b bs => simp only [step, pairwise, ih]

theorem pairwise_iff : pairwise t as bs h = .ok true ↔ List.Forall₂ (fun a b => t a b h = .ok true) as bs := by
  induction as generalizing bs with
  | nil => cases bs <;> simp [pairwise]
  | cons a as ih =>
    cases bs with
    | nil => simp [pairwise]
    | cons b bs =>
      simp only [pairwise, Look.bind_eq_ok, Bool.exists_bool, List.forall₂_cons, ← ih]
      simp

/-- Items that are met wherever the comparison of them comes to an answer. -/
theorem pairwise_holds {R : α → α → Prop} (related : List.Forall₂ R as bs)
    (holds : ∀ a ∈ as, ∀ b ∈ bs, R a b → ∀ c, t a b h = .ok c → c = true) {c : Bool}
    (run : pairwise t as bs h = .ok c) : c = true := by
  induction related with
  | nil => exact (Except.ok.inj run).symm
  | cons hab _ ih =>
    obtain ⟨d, met, rest⟩ := Look.bind_eq_ok.mp run
    obtain rfl := holds _ (.head _) _ (.head _) hab d met
    exact ih (fun a ha b hb => holds a (.tail _ ha) b (.tail _ hb)) rest

end Pairwise

/-- How two parts come to be equal, by what makes values equal and what makes descriptors equal. -/
inductive Descriptor.Part.Alike (V : Value → Value → Prop) (C : Descriptor → Descriptor → Prop) :
    Descriptor.Part → Descriptor.Part → Prop
  | value {x y : Value} (alike : V x y) : Alike V C (.value x) (.value y)
  | child {a b : Descriptor} (alike : C a b) : Alike V C (.child a) (.child b)
  | children {as bs : List Descriptor} (alike : List.Forall₂ C as bs) : Alike V C (.children as) (.children bs)
  | named {as bs : List (String × Descriptor)} (alike : NamedAlike C as bs) : Alike V C (.named as) (.named bs)
  | names {ns : List String} : Alike V C (.names ns) (.names ns)

namespace Value

variable {h : Heap} {test : Value → Value → Look Bool}

section Parts

theorem allAlike_eq : allAlike test = pairwise test :=
  eq_pairwise rfl (fun _ _ => rfl) (fun _ _ => rfl) fun _ _ _ _ => rfl

theorem sameChildren_eq : sameChildren test = pairwise fun a b => test (.descriptor a) (.descriptor b) :=
  eq_pairwise rfl (fun _ _ => rfl) (fun _ _ => rfl) fun _ _ _ _ => rfl

theorem sameNamed_eq :
    sameNamed test = pairwise fun f g =>
      if f.1 != g.1 then return false else test (.descriptor f.2) (.descriptor g.2) := by
  refine eq_pairwise rfl (fun _ _ => rfl) (fun _ _ => rfl) fun f fs g gs => ?_
  rw [sameNamed]
  split <;> simp

theorem sameParts_eq : sameParts test = pairwise (samePart test) :=
  eq_pairwise rfl (fun _ _ => rfl) (fun _ _ => rfl) fun _ _ _ _ => rfl

/-- How two parts come to be equal, by a test. -/
abbrev AlikePart (test : Value → Value → Look Bool) (h : Heap) : Descriptor.Part → Descriptor.Part → Prop :=
  Descriptor.Part.Alike (fun x y => test x y h = .ok true) fun a b => test (.descriptor a) (.descriptor b) h = .ok true

theorem samePart_iff {p q : Descriptor.Part} : samePart test p q h = .ok true ↔ AlikePart test h p q := by
  have children {as bs : List Descriptor} : sameChildren test as bs h = .ok true ↔
      List.Forall₂ (fun a b => test (.descriptor a) (.descriptor b) h = .ok true) as bs := by
    rw [sameChildren_eq, pairwise_iff]
  have named {as bs : List (String × Descriptor)} : sameNamed test as bs h = .ok true ↔
      List.Forall₂ (fun f g => f.1 = g.1 ∧ test (.descriptor f.2) (.descriptor g.2) h = .ok true) as bs := by
    have entry (f g : String × Descriptor) :
        (if f.1 != g.1 then return false else test (.descriptor f.2) (.descriptor g.2) : Look Bool) h = .ok true ↔
          f.1 = g.1 ∧ test (.descriptor f.2) (.descriptor g.2) h = .ok true := by
      by_cases agree : f.1 = g.1 <;> simp [agree]
    simp only [sameNamed_eq, pairwise_iff, entry]
  constructor
  · intro run
    unfold samePart at run
    split at run
    · exact .value run
    · exact .child run
    · exact .children (children.mp run)
    · exact .named (named.mp run)
    · next as bs =>
      obtain rfl : as = bs := by simpa using run
      exact .names
    · cases run
  · rintro (alike | alike | alike | alike | _)
    · exact alike
    · exact alike
    · exact children.mpr alike
    · exact named.mpr alike
    · simp [samePart]

theorem sameParts_iff {ps qs : List Descriptor.Part} :
    sameParts test ps qs h = .ok true ↔ List.Forall₂ (AlikePart test h) ps qs := by
  simp only [sameParts_eq, pairwise_iff, samePart_iff]

end Parts

end Value

/-- The descriptors of a variant. -/
def Variant.Describes : Variant → Descriptor → Prop
  | .any, d => d = .any
  | .void, d => d = .void
  | .never, d => d = .never
  | .boolean, d => d = .boolean
  | .truthy, d => d = .truthy
  | .falsy, d => d = .falsy
  | .jsonData, d => d = .jsonData
  | .union, d => ∃ i types, d = .union i types
  | .intersection, d => ∃ i types, d = .intersection i types
  | .negation, d => ∃ i inner, d = .negation i inner
  | .nilable, d => ∃ i inner, d = .nilable i inner
  | .constraint, d => ∃ i bases predicates, d = .constraint i bases predicates
  | .range, d => ∃ i element, d = .rangeOf i element
  | .tuple, d => ∃ i types, d = .tupleOf i types
  | .shape, d => ∃ i fields, d = .shape i fields
  | .enumerable, d => ∃ i element, d = .collection i .enumerable element
  | .array, d => ∃ i element, d = .collection i .array element
  | .set, d => ∃ i element, d = .collection i .set element
  | .mapping, d => ∃ i key value, d = .mappingOf i key value
  | .instance_, d => ∃ i c, d = .instanceOf i c
  | .class_, d => ∃ i c, d = .classOf i c
  | .descendant, d => ∃ i c, d = .descendantOf i c
  | .interface, d => ∃ i methods, d = .interface i methods
  | .predicate, d => ∃ i message fn, d = .predicate i message fn
  | .unit, d => ∃ i obj, d = .unit i obj
  | .equal, d => ∃ i obj, d = .equal i obj
  | .within, d => ∃ i container, d = .within i container
  | .regex, d => ∃ i pattern, d = .regex i pattern
  | .deferred, d => ∃ i thunk, d = .deferred i thunk
  | .checkedList, d => ∃ i element, d = .checkedListOf i element

theorem Descriptor.described (d : Descriptor) : d.variant.Describes d := by
  cases d with
  | collection i kind element => cases kind <;> exact ⟨_, _, rfl⟩
  | any | void | never | boolean | truthy | falsy | jsonData => rfl
  | constraint | mappingOf | predicate => exact ⟨_, _, _, rfl⟩
  | _ => exact ⟨_, _, rfl⟩

/-- Whether a descriptor is compared by its parts. -/
def Descriptor.isStructural : Descriptor → Bool
  | .unit .. | .deferred .. => false
  | _ => true

/-- Two descriptors are of different variants, or both are compared in the way of their variant. -/
theorem Descriptor.facing (a b : Descriptor) :
    a.variant ≠ b.variant ∨ (∃ i j x y, a = .unit i x ∧ b = .unit j y) ∨
      (∃ i j x y, a = .deferred i x ∧ b = .deferred j y) ∨ a.variant = b.variant ∧ a.isStructural = true := by
  by_cases one : a.variant = b.variant
  · have shape := b.described
    rw [← one] at shape
    cases a with
    | unit i x =>
      obtain ⟨j, y, rfl⟩ := shape
      exact .inr (.inl ⟨_, _, _, _, rfl, rfl⟩)
    | deferred i x =>
      obtain ⟨j, y, rfl⟩ := shape
      exact .inr (.inr (.inl ⟨_, _, _, _, rfl, rfl⟩))
    | _ => exact .inr (.inr (.inr ⟨one, rfl⟩))
  · exact .inl one

theorem Descriptor.isStructural_of_variant {a b : Descriptor} (one : a.variant = b.variant)
    (structural : a.isStructural = true) : b.isStructural = true := by
  obtain apart | ⟨_, _, _, _, -, rfl⟩ | ⟨_, _, _, _, -, rfl⟩ | ⟨-, structural'⟩ := b.facing a
  · exact absurd one.symm apart
  · cases structural
  · cases structural
  · exact structural'

namespace Value

variable {h : Heap} {n : Nat} {a b : Descriptor}

theorem askBoth_declined {α : Type} {ask : Value → Value → Look (Option α)} {a b : Value} {otherwise : α}
    (hab : ask a b h = .ok none) (hba : ask b a h = .ok none) :
    askBoth ask a b otherwise h = .ok otherwise := by
  unfold askBoth
  cases reflectedFirst a b
  · exact Look.bind_eq_ok.mpr ⟨none, hab, Look.bind_eq_ok.mpr ⟨none, hba, rfl⟩⟩
  · exact Look.bind_eq_ok.mpr ⟨none, hba, Look.bind_eq_ok.mpr ⟨none, hab, rfl⟩⟩

theorem class_eq_of_alike {c d : Class} (hc : alike (equalAt n) (.cls c) (.cls d) h = .ok true) : c = d := by
  simp only [alike] at hc
  split at hc
  · next same => simpa [Value.same] using same
  · next differ =>
    obtain ⟨r, hr, truth⟩ := Look.bind_eq_ok.mp hc
    cases n with
    | zero => cases hr
    | succ n =>
      have declined (c d : Class) : ownEqual? (equalAt n) (.cls c) (.cls d) h = .ok none := rfl
      obtain rfl := Except.ok.inj (hr.symm.trans (askBoth_declined (declined c d) (declined d c)))
      simp [Value.truth, differ] at truth

/-- Descriptors of different variants are never equal. -/
theorem equalAt_apart (apart : a.variant ≠ b.variant) :
    equalAt (n + 1) (.descriptor a) (.descriptor b) h = .ok (.bool false) := by
  have declined {a b : Descriptor} (apart : a.variant ≠ b.variant) :
      ownEqual? (equalAt n) (.descriptor a) (.descriptor b) h = .ok none := by
    change descriptorEqual? (alike (equalAt n)) a b h = .ok none
    unfold descriptorEqual?
    split
    · exact absurd rfl apart
    · rfl
    · rw [if_neg (by simpa using apart)]
      rfl
  rw [equalAt, askBoth_declined (declined apart) (declined apart.symm)]
  simp [Value.same, Descriptor.same, apart]

theorem equalAt_deferred (i j : Ident) (thunk thunk' : Value) :
    equalAt (n + 1) (.descriptor (.deferred i thunk)) (.descriptor (.deferred j thunk')) h =
      .ok (.bool ((Descriptor.deferred i thunk).same (.deferred j thunk'))) := by
  have declined (i j : Ident) (thunk thunk' : Value) :
      ownEqual? (equalAt n) (.descriptor (.deferred i thunk)) (.descriptor (.deferred j thunk')) h = .ok none := rfl
  rw [equalAt, askBoth_declined (declined ..) (declined ..)]
  rfl

/-- What a descriptor says about another one of its variant is the answer. -/
theorem equalAt_own (one : a.variant = b.variant) {x : Look Value}
    (own : descriptorEqual? (alike (equalAt n)) a b = do return some (← x)) :
    equalAt (n + 1) (.descriptor a) (.descriptor b) h = x h := by
  have direct : reflectedFirst (.descriptor a) (.descriptor b) = false := by
    simp [reflectedFirst, classOf, one]
  have asked : ownEqual? (equalAt n) (.descriptor a) (.descriptor b) h = (do return some (← x) : Look _) h :=
    congrFun own h
  rw [equalAt, askBoth, direct]
  refine (Look.bind_congr asked fun _ => rfl).trans ?_
  simp

theorem equalAt_unit (i j : Ident) (x y : Value) :
    equalAt (n + 1) (.descriptor (.unit i x)) (.descriptor (.unit j y)) h = .ok (.bool (x.same y)) :=
  equalAt_own (a := .unit i x) (b := .unit j y) (x := pure _) rfl rfl

theorem equalAt_structural (one : a.variant = b.variant) (structural : a.isStructural = true) :
    equalAt (n + 1) (.descriptor a) (.descriptor b) h =
      (do return .bool (← sameParts (alike (equalAt n)) a.parts b.parts) : Look Value) h := by
  refine equalAt_own one ?_
  unfold descriptorEqual?
  split
  · cases structural
  · cases structural
  · rw [if_pos (by simpa using one), bind_assoc]
    rfl

/-- Descriptors answer with a truth value. -/
theorem equalAt_bool {r : Value} (run : equalAt (n + 1) (.descriptor a) (.descriptor b) h = .ok r) :
    ∃ c, r = .bool c := by
  obtain apart | ⟨i, j, x, y, rfl, rfl⟩ | ⟨i, j, x, y, rfl, rfl⟩ | ⟨one, structural⟩ := a.facing b
  · exact ⟨_, Except.ok.inj (run.symm.trans (equalAt_apart apart))⟩
  · exact ⟨_, Except.ok.inj (run.symm.trans (equalAt_unit i j x y))⟩
  · exact ⟨_, Except.ok.inj (run.symm.trans (equalAt_deferred i j x y))⟩
  · rw [equalAt_structural one structural] at run
    obtain ⟨c, -, answer⟩ := Look.bind_eq_ok.mp run
    exact ⟨c, (Look.pure_eq_ok.mp answer).symm⟩

/-- How two descriptors come to be equal. -/
inductive EqualBy (test : Value → Value → Look Bool) (h : Heap) : Descriptor → Descriptor → Prop
  | unit {i j : Ident} {x y : Value} (same : x.same y = true) : EqualBy test h (.unit i x) (.unit j y)
  | deferred {i : Ident} {thunk thunk' : Value} : EqualBy test h (.deferred i thunk) (.deferred i thunk')
  | parts {a b : Descriptor} (one : a.variant = b.variant) (structural : a.isStructural = true)
      (parts : List.Forall₂ (AlikePart test h) a.parts b.parts) : EqualBy test h a b

theorem equalAt_true_iff :
    equalAt (n + 1) (.descriptor a) (.descriptor b) h = .ok (.bool true) ↔ EqualBy (alike (equalAt n)) h a b := by
  have structural (one : a.variant = b.variant) (structural : a.isStructural = true) :
      equalAt (n + 1) (.descriptor a) (.descriptor b) h = .ok (.bool true) ↔
        List.Forall₂ (AlikePart (alike (equalAt n)) h) a.parts b.parts := by
    rw [equalAt_structural one structural, ← sameParts_iff]
    simp
  constructor
  · intro run
    obtain apart | ⟨i, j, x, y, rfl, rfl⟩ | ⟨i, j, x, y, rfl, rfl⟩ | ⟨one, whole⟩ := a.facing b
    · simp [equalAt_apart apart] at run
    · rw [equalAt_unit] at run
      exact .unit (by simpa using run)
    · rw [equalAt_deferred] at run
      obtain rfl : i = j := by simpa [Descriptor.same, Descriptor.variant, Descriptor.ident?] using run
      exact .deferred
    · exact .parts one whole ((structural one whole).mp run)
  · rintro (same | _ | ⟨one, whole, parts⟩)
    · rw [equalAt_unit, same]
    · simp [equalAt_deferred, Descriptor.same, Descriptor.variant, Descriptor.ident?]
    · exact (structural one whole).mpr parts

end Value

end Conform
