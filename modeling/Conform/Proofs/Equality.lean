import Mathlib.Data.List.Nodup
import Conform.Proofs.Scalars
import Conform.Proofs.Subtyping

/-!
Equality of descriptors. Units are equal if they hold the same object, deferred descriptors if they are one and
the same, and all others if they are of one variant and their parts are equal, one after another. If equality of
the payloads is an equivalence that their hashes respect, then so is equality of the descriptors that hold them,
however deep.

Main statement: `Descriptor.equality_lawful`.
-/
namespace Conform

open Value

section Pairwise

variable {α β : Type} {h : Heap} {t : α → α → Look Bool} {P : α → Prop} {as bs : List α} {r : Bool}

/-- Lists compare alike both ways if their items do. -/
theorem pairwise_symm (symm : ∀ a ∈ as, ∀ b ∈ bs, ∀ r, t a b h = .ok r → t b a h = .ok r)
    (run : pairwise t as bs h = .ok r) : pairwise t bs as h = .ok r := by
  induction as generalizing bs with
  | nil =>
    cases bs with
    | nil => exact run
    | cons b bs => exact run
  | cons a as ih =>
    cases bs with
    | nil => exact run
    | cons b bs =>
      obtain ⟨first, compared, rest⟩ := Look.bind_eq_ok.mp run
      refine Look.bind_eq_ok.mpr ⟨first, symm a (.head _) b (.head _) first compared, ?_⟩
      cases first with
      | true => exact ih (fun a ha b hb => symm a (.tail _ ha) b (.tail _ hb)) rest
      | false => exact rest

/-- Related items give equal results, so related lists do. -/
theorem mapM_agree {R : α → α → Prop} {f : α → Look β} {xs ys : List β}
    (agree : ∀ a b, P a → P b → R a b → ∀ x y, f a h = .ok x → f b h = .ok y → x = y)
    (ha : ∀ a ∈ as, P a) (hb : ∀ b ∈ bs, P b) (related : List.Forall₂ R as bs)
    (first : as.mapM f h = .ok xs) (second : bs.mapM f h = .ok ys) : xs = ys := by
  induction related generalizing xs ys with
  | nil => exact Except.ok.inj (first.symm.trans second)
  | cons hab _ ih =>
    rw [List.mapM_cons] at first second
    obtain ⟨x, hx, first⟩ := Look.bind_eq_ok.mp first
    obtain ⟨xs, hxs, first⟩ := Look.bind_eq_ok.mp first
    obtain ⟨y, hy, second⟩ := Look.bind_eq_ok.mp second
    obtain ⟨ys, hys, second⟩ := Look.bind_eq_ok.mp second
    obtain rfl := Look.pure_eq_ok.mp first
    obtain rfl := Look.pure_eq_ok.mp second
    simp only [List.mem_cons, forall_eq_or_imp] at ha hb
    rw [agree _ _ ha.1 hb.1 hab x y hx hy, ih ha.2 hb.2 hxs hys]

end Pairwise

section Equality

variable {h : Heap} {n : Nat} {a b c : Descriptor}

/-- Every descriptor is equal to itself, since its parts are identical to themselves. -/
theorem equalAt_refl (a : Descriptor) : equalAt (n + 1) (.descriptor a) (.descriptor a) h = .ok (.bool true) := by
  have part (p : Descriptor.Part) : AlikePart (alike (equalAt n)) h p p := by
    cases p with
    | value v => exact .value (alike_refl v)
    | child d => exact .child (alike_refl _)
    | children ds => exact .children (List.forall₂_same.mpr fun d _ => alike_refl _)
    | named fields => exact .named (List.forall₂_same.mpr fun f _ => ⟨rfl, alike_refl _⟩)
    | names ns => exact .names
  rw [equalAt_true_iff]
  cases a with
  | unit i x => exact .unit x.same_refl
  | deferred i thunk => exact .deferred
  | _ => exact .parts rfl rfl (List.forall₂_same.mpr fun p _ => part p)

end Equality

/-- The values that are descriptors of a family. -/
def Describing (E : Descriptor → Prop) (x : Value) : Prop :=
  ∃ d, E d ∧ x = .descriptor d

/-- A family that has the children of its members, each of which is known by its identity. -/
structure Closed (E : Descriptor → Prop) : Prop where
  children : ∀ {d}, E d → ∀ c ∈ d.children, E c
  identity : ∀ {a b}, E a → E b → a.same b = true → a = b

section Laws

variable {E : Descriptor → Prop} {h : Heap} {n : Nat} {a b c : Descriptor}

theorem Closed.parts_of (closed : Closed E) (ha : E a) : ∀ p ∈ a.parts, p.Of E :=
  Conform.parts_of ha (closed.children ha)

/-- Among the members of a family, identity is no more than a short cut to equality. -/
theorem Closed.alike_iff (closed : Closed E) (ha : E a) (hb : E b) {r : Bool} :
    alike (equalAt (n + 1)) (.descriptor a) (.descriptor b) h = .ok r ↔
      equalAt (n + 1) (.descriptor a) (.descriptor b) h = .ok (.bool r) := by
  unfold alike
  split
  · next same =>
    obtain rfl := closed.identity ha hb same
    rw [equalAt_refl]
    simp
  · constructor
    · intro run
      obtain ⟨answer, compared, truth⟩ := Look.bind_eq_ok.mp run
      obtain ⟨c, rfl⟩ := equalAt_bool compared
      cases truth
      exact compared
    · exact fun compared => Look.bind_of_ok compared

section Parts

variable {p q s : Descriptor.Part} (values : LawfulOn (Payload E) h n) (inner : LawfulOn (Describing E) h n)
include values inner

theorem samePart_symm (hp : p.Of E) (hq : q.Of E) {r : Bool}
    (run : samePart (alike (equalAt n)) p q h = .ok r) : samePart (alike (equalAt n)) q p h = .ok r := by
  have child {a b : Descriptor} (ha : E a) (hb : E b) (r : Bool) :=
    inner.symm (r := r) ⟨a, ha, rfl⟩ ⟨b, hb, rfl⟩
  cases p with
  | value x =>
    cases q with
    | value y => exact values.symm hp hq run
    | _ => exact run
  | child a =>
    cases q with
    | child b => exact child hp hq r run
    | _ => exact run
  | children as =>
    cases q with
    | children bs =>
      simp only [samePart, sameChildren_eq] at run ⊢
      exact pairwise_symm (fun a ha b hb => child (hp a ha) (hq b hb)) run
    | _ => exact run
  | named as =>
    cases q with
    | named bs =>
      simp only [samePart, sameNamed_eq] at run ⊢
      refine pairwise_symm (fun f hf g hg r run => ?_) run
      rw [bne_comm]
      split at run
      · next differ => rwa [if_pos differ]
      · next agree =>
        rw [if_neg agree]
        exact child (hp f hf) (hq g hg) r run
    | _ => exact run
  | names as =>
    cases q with
    | names bs =>
      simp only [samePart] at run ⊢
      rwa [BEq.comm]
    | _ => exact run

theorem Value.AlikePart.hash_eq (hp : p.Of E) (hq : q.Of E) (equal : AlikePart (alike (equalAt n)) h p q)
    {x y : HashCode} (first : hashPart (hashAt n) p h = .ok x) (second : hashPart (hashAt n) q h = .ok y) :
    x = y := by
  have child (a b : Descriptor) (ha : E a) (hb : E b) (equal) (x y : HashCode) :=
    inner.hash (p := x) (q := y) ⟨a, ha, rfl⟩ ⟨b, hb, rfl⟩ equal
  cases equal with
  | value equal => exact values.hash hp hq equal first second
  | child equal => exact child _ _ hp hq equal _ _ first second
  | children equal =>
    obtain ⟨xs, hxs, first⟩ := Look.bind_eq_ok.mp first
    obtain ⟨ys, hys, second⟩ := Look.bind_eq_ok.mp second
    obtain rfl := Look.pure_eq_ok.mp first
    obtain rfl := Look.pure_eq_ok.mp second
    rw [mapM_agree child hp hq equal hxs hys]
  | named equal =>
    obtain ⟨xs, hxs, first⟩ := Look.bind_eq_ok.mp first
    obtain ⟨ys, hys, second⟩ := Look.bind_eq_ok.mp second
    obtain rfl := Look.pure_eq_ok.mp first
    obtain rfl := Look.pure_eq_ok.mp second
    refine congrArg _ (mapM_agree (fun f g hf hg equal x y first second => ?_) hp hq equal hxs hys)
    obtain ⟨x, hx, first⟩ := Look.bind_eq_ok.mp first
    obtain ⟨y, hy, second⟩ := Look.bind_eq_ok.mp second
    obtain rfl := Look.pure_eq_ok.mp first
    obtain rfl := Look.pure_eq_ok.mp second
    rw [equal.1, child _ _ hf hg equal.2 x y hx hy]
  | names => exact Except.ok.inj (first.symm.trans second)

end Parts

theorem hashAt_structural (structural : a.isStructural = true) :
    hashAt (n + 1) (.descriptor a) h =
      (do return .tuple (← a.parts.mapM (hashPart (hashAt n))) : Look HashCode) h := by
  cases a with
  | unit | deferred => cases structural
  | _ => rfl

/-- The laws pass from the parts of descriptors to the descriptors. -/
theorem Closed.lawful_succ (closed : Closed E) (values : LawfulOn (Payload E) h n)
    (inner : LawfulOn (Describing E) h n) : LawfulOn (Describing E) h (n + 1) := by
  refine ⟨?_, ?_, ?_⟩
  · rintro _ _ r ⟨a, ha, rfl⟩ ⟨b, hb, rfl⟩ run
    rw [closed.alike_iff ha hb] at run
    rw [closed.alike_iff hb ha]
    obtain apart | ⟨i, j, x, y, rfl, rfl⟩ | ⟨i, j, x, y, rfl, rfl⟩ | ⟨one, structural⟩ := a.facing b
    · rwa [equalAt_apart apart.symm, ← equalAt_apart apart]
    · rwa [equalAt_unit, same_comm, ← equalAt_unit]
    · rwa [equalAt_deferred, Descriptor.same_comm, ← equalAt_deferred]
    · simp only [equalAt_structural one structural, equalAt_structural one.symm (Descriptor.isStructural_of_variant one structural),
        sameParts_eq, Look.bind_eq_ok, Look.pure_eq_ok, bool.injEq, exists_eq_right] at run ⊢
      exact pairwise_symm (fun p hp q hq r => samePart_symm values inner (closed.parts_of ha p hp)
        (closed.parts_of hb q hq)) run
  · rintro _ _ _ ⟨a, ha, rfl⟩ ⟨b, hb, rfl⟩ ⟨c, hc, rfl⟩ first second
    rw [closed.alike_iff ha hb, equalAt_true_iff] at first
    rw [closed.alike_iff hb hc, equalAt_true_iff] at second
    rw [closed.alike_iff ha hc, equalAt_true_iff]
    cases first with
    | unit same =>
      obtain ⟨same'⟩ | _ | ⟨-, structural, -⟩ := second
      · exact .unit (same_trans same same')
      · cases structural
    | deferred =>
      obtain _ | _ | ⟨-, structural, -⟩ := second
      · exact .deferred
      · cases structural
    | parts one structural first =>
      have structural' := Descriptor.isStructural_of_variant one structural
      obtain _ | _ | ⟨one', -, second⟩ := second
      · cases structural'
      · cases structural'
      · exact .parts (one.trans one') structural (forall₂_trans (fun p q s hp hq hs => .trans hp hq hs values.trans
          fun a b c ha hb hc => inner.trans ⟨a, ha, rfl⟩ ⟨b, hb, rfl⟩ ⟨c, hc, rfl⟩)
          (closed.parts_of ha) (closed.parts_of hb) (closed.parts_of hc) first second)
  · rintro _ _ p q ⟨a, ha, rfl⟩ ⟨b, hb, rfl⟩ equal first second
    rw [closed.alike_iff ha hb, equalAt_true_iff] at equal
    cases equal with
    | unit same =>
      cases first
      cases second
      rw [unitCode_of_same same]
    | deferred => exact Except.ok.inj (first.symm.trans second)
    | parts one structural equal =>
      rw [hashAt_structural structural] at first
      rw [hashAt_structural (Descriptor.isStructural_of_variant one structural)] at second
      obtain ⟨ps, hps, first⟩ := Look.bind_eq_ok.mp first
      obtain ⟨qs, hqs, second⟩ := Look.bind_eq_ok.mp second
      obtain rfl := Look.pure_eq_ok.mp first
      obtain rfl := Look.pure_eq_ok.mp second
      rw [mapM_agree (fun p q hp hq equal x y => equal.hash_eq values inner hp hq) (closed.parts_of ha)
        (closed.parts_of hb) equal hps hqs]

/-- The laws hold of the descriptors of a family at every depth. -/
theorem Closed.lawful (closed : Closed E) (values : ∀ n, LawfulOn (Payload E) h n) (n : Nat) :
    LawfulOn (Describing E) h n := by
  induction n with
  | zero => exact .zero _ h
  | succ n ih => exact closed.lawful_succ (values n) ih

end Laws

namespace Descriptor

/-- Equality of descriptors is reflexive whatever they hold, and descriptors of different variants are never
equal. Units are equal if they hold the same object, deferred descriptors if they are the same. In a family whose
members are known by their identity and whose payloads obey the laws of equality and hashing, equality gives one
answer both ways and is transitive, and equal descriptors that are hashable hash alike. -/
theorem equality_lawful (E : Descriptor → Prop) (h : Heap) (closed : Closed E)
    (payloads : ∀ n, LawfulOn (Payload E) h n) :
    let equal (a b : Descriptor) := Value.equal (.descriptor a) (.descriptor b) h
    (∀ a, equal a a = .ok (.bool true)) ∧
    (∀ a b, E a → E b → ∀ r, equal a b = .ok r → equal b a = .ok r) ∧
    (∀ a b c, E a → E b → E c → equal a b = .ok (.bool true) → equal b c = .ok (.bool true) →
      equal a c = .ok (.bool true)) ∧
    (∀ a b, a.variant ≠ b.variant → equal a b = .ok (.bool false)) ∧
    (∀ i j x y, equal (.unit i x) (.unit j y) = .ok (.bool (x.same y))) ∧
    (∀ i j x y, equal (.deferred i x) (.deferred j y) = .ok (.bool ((deferred i x).same (.deferred j y)))) ∧
    ∀ a b, E a → E b → equal a b = .ok (.bool true) → ∀ p q, Value.hash (.descriptor a) h = .ok p →
      Value.hash (.descriptor b) h = .ok q → p = q := by
  intro equal
  have laws : LawfulOn (Describing E) h valueDepth := closed.lawful payloads valueDepth
  -- In the family, equality is what containers ask for, so the laws are laws of equality.
  have asked {a b : Descriptor} (ha : E a) (hb : E b) {r : Bool} :
      equal a b = .ok (.bool r) ↔ alike (equalAt valueDepth) (.descriptor a) (.descriptor b) h = .ok r :=
    (closed.alike_iff ha hb).symm
  refine ⟨equalAt_refl, fun a b ha hb r run => ?_, fun a b c ha hb hc first second => ?_, fun a b => equalAt_apart,
    equalAt_unit, equalAt_deferred, fun a b ha hb run p q => ?_⟩
  · obtain ⟨c, rfl⟩ := equalAt_bool run
    exact (asked hb ha).mpr (laws.symm ⟨a, ha, rfl⟩ ⟨b, hb, rfl⟩ ((asked ha hb).mp run))
  · exact (asked ha hc).mpr (laws.trans ⟨a, ha, rfl⟩ ⟨b, hb, rfl⟩ ⟨c, hc, rfl⟩ ((asked ha hb).mp first)
      ((asked hb hc).mp second))
  · exact laws.hash ⟨a, ha, rfl⟩ ⟨b, hb, rfl⟩ ((asked ha hb).mp run)

/-- One as an integer, as a truth value and as a double, lists of each, a NaN, and a buffer, which has no hash. -/
def samples : List Descriptor :=
  let one : Descriptor := .equal 1 (.int .base 10 1)
  let yes : Descriptor := .equal 2 (.bool true)
  let whole : Descriptor := .equal 3 (.float 11 ⟨0x3FF0000000000000⟩)
  [one, yes, whole, .collection 4 .array one, .collection 5 .array yes, .collection 6 .array whole,
    .equal 7 (.float 12 ⟨0x7FF8000000000000⟩), .equal 8 (.bytearray 0)]

theorem samples_closed : Closed (· ∈ samples) where
  children := by simp [samples, children]
  identity := by
    intro a b ha hb same
    have known : a.ident? = b.ident? := by
      simp only [Descriptor.same, Bool.and_eq_true, beq_iff_eq] at same
      exact same.2
    exact List.inj_on_of_nodup_map (by decide) ha hb known

theorem samples_scalar {x : Value} (payload : Payload (· ∈ samples) x) : x.isScalar = true := by
  obtain ⟨d, hd, part⟩ := payload
  simp only [samples, List.mem_cons, List.not_mem_nil, or_false] at hd
  obtain rfl | rfl | rfl | rfl | rfl | rfl | rfl | rfl := hd <;> simp_all [parts, Value.isScalar]

/-- By way of a list of truth values, a list of doubles is equal to one of integers. -/
theorem equality_lawful_samples :
    let integers : Descriptor := .collection 4 .array (.equal 1 (.int .base 10 1))
    let doubles : Descriptor := .collection 6 .array (.equal 3 (.float 11 ⟨0x3FF0000000000000⟩))
    Value.equal (.descriptor doubles) (.descriptor integers) {} = .ok (.bool true) ∧
      Value.hash (.descriptor doubles) {} = Value.hash (.descriptor integers) {} := by
  intro integers doubles
  obtain ⟨-, symm, trans, -, -, -, hash⟩ := equality_lawful (· ∈ samples) {} samples_closed fun n =>
    (Value.scalars_lawful {} n).mono fun _ => samples_scalar
  have mem (d : Descriptor) (i : Nat) (at_ : samples[i]? = some d) : d ∈ samples := List.mem_of_getElem? at_
  have equal := symm integers doubles (mem _ 3 rfl) (mem _ 5 rfl) _
    (trans integers (.collection 5 .array (.equal 2 (.bool true))) doubles (mem _ 3 rfl) (mem _ 4 rfl) (mem _ 5 rfl)
      rfl rfl)
  exact ⟨equal, congrArg Except.ok (hash doubles integers (mem _ 5 rfl) (mem _ 3 rfl) equal _ _ rfl rfl)⟩

end Descriptor

end Conform
