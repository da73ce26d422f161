import Conform.Proofs.Below

/-!
Subtyping answers the subtype relation. Runs are judged from the last moment of their history, where all
that was resolved is known and everything that was read reads the same.

Main statements: `InPlay.below_of_judged` and `InPlay.not_below_of_judged`: an answer of yes is a
derivation by the rules, and after an answer of no there is none. Nothing is asked of a family but that
its thunks are quiet and stay in it.
-/
namespace Conform

open Value

/-- What a session knows that subtyping refers to. -/
def Session.ground (ω : Session) : Ground where
  resolution := ω.resolution?
  alike x y := isAlike x y ω.heap = .ok true
  same x y := x.same y = true
  classes := class_eq_of_alike

/-- The descriptors that are in play in a history that ends in `ω`. They are known by their identity. -/
structure InPlay (D E : Descriptor → Prop) (ω : Session) : Prop where
  sound : ω.Sound D
  tame : ∀ {d}, E d → D d
  live : ∀ {d}, E d → d.Live ω.heap
  elements : ∀ i, E (ω.heap.checkedList i).element
  identity : ∀ {a b}, E a → E b → a.same b = true → a = b
  order : ω.ground.Lawful E

/-- What a comparison relies on for its answer to be one of the rules: the descriptors that it comes by are
in the family. -/
structure InView (D E : Descriptor → Prop) (ω : Session) : Prop where
  tame : ∀ {d}, E d → D d
  children : ∀ {d}, E d → ∀ c ∈ d.children, E c
  resolved : ∀ {id thunk d}, E (.deferred id thunk) → ω.resolution? id = some d → E d

theorem InView.part {D E : Descriptor → Prop} {ω : Session} {d : Descriptor} (view : InView D E ω) (hd : E d) :
    ∀ c ∈ d.children, D c :=
  fun c hc => view.tame (view.children hd c hc)

theorem InPlay.inView {D E : Descriptor → Prop} {ω : Session} (play : InPlay D E ω) : InView D E ω where
  tame := play.tame
  children := play.order.children
  resolved := play.order.resolved

/-- Whether a descriptor is compared by its payload alone. -/
def Descriptor.isPayload : Descriptor → Bool
  | .predicate .. | .unit .. | .equal .. | .within .. | .regex .. => true
  | _ => false

/-- Descriptors with equal payloads are equal. -/
theorem Struct.twin {G : Ground} {R : Descriptor → Descriptor → Prop} {a b : Descriptor}
    (payload : a.isPayload = true) (h : Struct G R a b) : TwinIn G 1 a b := by
  cases h with
  | unit same => exact .unit same
  | predicate hm hf => exact .parts rfl rfl (.cons (.value hm) (.cons (.value hf) .nil))
  | equal h | within h | regex h => exact .parts rfl rfl (.cons (.value h) .nil)
  | _ => cases payload

namespace InPlay

variable {D E : Descriptor → Prop} {ω : Session} {a b : Descriptor}

section

variable (play : InPlay D E ω)
include play

theorem payload_live {x : Value} (hx : Payload E x) : x.Live ω.heap := by
  obtain ⟨d, hd, hx⟩ := hx
  exact parts_live (play.live hd) _ hx

/-- Payloads that are alike at some depth are alike. -/
theorem alike_of_alike {n : Nat} (hn : n ≤ valueDepth) {x y : Value} (hx : Payload E x) (hy : Payload E y)
    {c : Bool} (hc : alike (equalAt n) x y ω.heap = .ok c) : isAlike x y ω.heap = .ok c := by
  have deeper : TestCarries True ω.heap ω.heap (alike (equalAt n)) isAlike :=
    alike_carries (.refl ω.heap) play.sound.closed fun _ _ lv lw =>
      equalAt_carries (.refl _) play.sound.closed hn (.inl trivial) lv lw
  exact ((deeper x y (play.payload_live hx) (play.payload_live hy)).ok hc).1

/-- Descriptors that compare equal are equal. -/
theorem twin_of_alike {n : Nat} (hn : n ≤ valueDepth) (ha : E a) (hb : E b)
    (run : alike (equalAt n) (.descriptor a) (.descriptor b) ω.heap = .ok true) : TwinIn ω.ground n a b := by
  induction n generalizing a b with
  | zero =>
    simp only [alike] at run
    split at run
    · next same => exact play.identity ha hb same
    · cases run
  | succ n ih =>
    simp only [alike] at run
    split at run
    · next same =>
      obtain rfl := play.identity ha hb same
      exact .self
    · obtain ⟨r, hr, truth⟩ := Look.bind_eq_ok.mp run
      obtain ⟨c, rfl⟩ := equalAt_bool hr
      obtain rfl : c = true := by simpa [Value.truth] using truth
      cases equalAt_true_iff.mp hr with
      | unit same => exact .unit same
      | deferred =>
        cases play.identity ha hb (by simp [Descriptor.same, Descriptor.variant, Descriptor.ident?])
        exact .self
      | parts one structural parts =>
        exact .parts one structural (alike_parts_imp ha hb play.order.children
          (fun hx hy => play.alike_of_alike (by omega) hx hy) (ih (by omega)) parts)

/-- Parts that are equal do not compare unequal. -/
theorem samePart_of_twin {n k : Nat} (hn : n ≤ valueDepth)
    (ih : ∀ {a b c}, E a → E b → TwinIn ω.ground k a b →
      alike (equalAt n) (.descriptor a) (.descriptor b) ω.heap = .ok c → c = true) {p q : Descriptor.Part}
    (hp : p.Of E) (hq : q.Of E) (h : p.Alike ω.ground.alike (TwinIn ω.ground k) q) {c : Bool}
    (run : samePart (alike (equalAt n)) p q ω.heap = .ok c) : c = true := by
  cases h with
  | value h => exact Except.ok.inj ((play.alike_of_alike hn hp hq run).symm.trans h)
  | child h => exact ih hp hq h run
  | children h =>
    simp only [samePart, sameChildren_eq] at run
    exact pairwise_holds h (fun x hx y hy h c => ih (hp x hx) (hq y hy) h) run
  | named h =>
    simp only [samePart, sameNamed_eq] at run
    refine pairwise_holds h (fun f hf g hg h c run => ?_) run
    rw [if_neg (by simpa using h.1)] at run
    exact ih (hp f hf) (hq g hg) h.2 run
  | names => simpa [samePart] using (Except.ok.inj run).symm

/-- Equal descriptors do not compare unequal. -/
theorem alike_of_twin {n k : Nat} (hn : n ≤ valueDepth) (ha : E a) (hb : E b) (h : TwinIn ω.ground k a b)
    {c : Bool} (run : alike (equalAt n) (.descriptor a) (.descriptor b) ω.heap = .ok c) : c = true := by
  induction n generalizing a b k c with
  | zero =>
    simp only [alike] at run
    split at run
    · exact (Except.ok.inj run).symm
    · cases run
  | succ n ih =>
    simp only [alike] at run
    split at run
    · exact (Except.ok.inj run).symm
    · next distinct =>
      obtain ⟨r, compared, truth⟩ := Look.bind_eq_ok.mp run
      have apart (same : a = b) : r = .bool true := by
        subst same
        simp [Value.same, Descriptor.same] at distinct
      suffices r = .bool true by
        subst this
        exact (Except.ok.inj truth).symm
      obtain _ | k := k
      · exact apart h
      cases h with
      | self => exact apart rfl
      | unit same => exact Except.ok.inj (compared.symm.trans (same ▸ equalAt_unit ..))
      | parts one structural parts =>
        rw [equalAt_structural one structural, sameParts_eq] at compared
        obtain ⟨d, answer, rest⟩ := Look.bind_eq_ok.mp compared
        obtain rfl : d = true := pairwise_holds parts (fun p hp q hq h c => play.samePart_of_twin (by omega)
          (fun ha hb h => ih (by omega) ha hb h) (parts_of ha (play.order.children ha) p hp)
          (parts_of hb (play.order.children hb) q hq) h) answer
        exact (Look.pure_eq_ok.mp rest).symm

end

/-- What the comparison of two descriptors comes to, once it is read as a truth value. -/
theorem alike_of_equal {h : Heap} {e : Value} {c : Bool} (distinct : b.same a = false)
    (run : Value.equal (.descriptor b) (.descriptor a) h = .ok e) (truth : e.truth h = .ok c) :
    alike (equalAt valueDepth) (.descriptor b) (.descriptor a) h = .ok c := by
  simp only [alike]
  rw [if_neg (by simpa [Value.same] using distinct)]
  exact Look.bind_eq_ok.mpr ⟨e, run, truth⟩

end InPlay

/-- Subtyping at a depth answered within a history. -/
def Judged (functions : Library) (D : Descriptor → Prop) (ω : Session) (n : Nat) (a b : Descriptor)
    (r : Bool) : Prop :=
  Answers D ω [.descriptor a, .descriptor b] ((Engine.ofDepth functions n).subtype a b) r

/-- How subtyping comes to an answer once no deferred layer is left on the right. -/
inductive Settling (functions : Library) (D : Descriptor → Prop) (ω : Session) (n : Nat)
    (a b : Descriptor) : Bool → Prop
  | same (h : b.same a = true) : Settling functions D ω n a b true
  | equal {e} (h : Value.equal (.descriptor b) (.descriptor a) ω.heap = .ok e)
    (he : e.truth ω.heap = .ok true) : Settling functions D ω n a b true
  | void (h : b = .void) : Settling functions D ω n a b true
  | rule {e r} (distinct : b.same a = false) (top : b ≠ .void)
    (h : Value.equal (.descriptor b) (.descriptor a) ω.heap = .ok e)
    (he : e.truth ω.heap = .ok false)
    (hr : Answers D ω [.descriptor a, .descriptor b]
      (Descriptor.sameVariantBelow (Engine.ofDepth functions n) a b) r) : Settling functions D ω n a b r

/-- How subtyping comes to an answer. -/
inductive Judging (functions : Library) (D E : Descriptor → Prop) (ω : Session) (n : Nat) :
    Descriptor → Descriptor → Bool → Prop
  | never {b} : Judging functions D E ω n .never b true
  | same {id thunk b} (h : b.same (.deferred id thunk) = true) :
    Judging functions D E ω n (.deferred id thunk) b true
  | resolve {id thunk b d r} (distinct : b.same (.deferred id thunk) = false)
    (hd : ω.ground.resolution id = some d) (h : Judged functions D ω n d b r) :
    Judging functions D E ω n (.deferred id thunk) b r
  | settle {a b b' r} (bottom : a ≠ .never) (plain : a.isDeferred = false)
    (hu : Uncovers ω.ground b b') (hb : E b') (h : Settling functions D ω n a b' r) :
    Judging functions D E ω n a b r

section Runs

open Descriptor

variable {functions : Library} {D E : Descriptor → Prop} {ω : Session} {n : Nat} {known : List Value}
  {a b : Descriptor} {r : Bool}

theorem Answers.pairwiseBelow (compares : (Engine.ofDepth functions n).Compares (Act.Quiet D) D)
    {as bs : List Descriptor} (ha : ∀ a ∈ as, D a) (hb : ∀ b ∈ bs, D b) (hl : as.length = bs.length)
    (h : Answers D ω known (pairwiseBelow (Engine.ofDepth functions n) as bs) r) :
    if r then List.Forall₂ (fun x y => Answers D ω known ((Engine.ofDepth functions n).subtype x y) true) as bs
    else ∃ p ∈ as.zip bs, Answers D ω known ((Engine.ofDepth functions n).subtype p.1 p.2) false := by
  rw [pairwiseBelow_eq] at h
  have answers := h.allM fun x hx =>
    compares.subtype (ha x.1 (List.of_mem_zip hx).1) (hb x.2 (List.of_mem_zip hx).2)
  cases r with
  | true => exact List.forall₂_iff_zip.mpr ⟨hl, fun hx => answers _ hx⟩
  | false => exact answers

theorem Answers.namedBelow (compares : (Engine.ofDepth functions n).Compares (Act.Quiet D) D)
    {mine theirs : List (String × Descriptor)} (hm : ∀ f ∈ mine, D f.2) (ht : ∀ f ∈ theirs, D f.2)
    (h : Answers D ω known (namedBelow (Engine.ofDepth functions n) mine theirs) r) :
    if r then ∀ f ∈ theirs, ∃ e, named? mine f.1 = some e ∧
      Answers D ω known ((Engine.ofDepth functions n).subtype e.2 f.2) true
    else ∃ f ∈ theirs, ∀ e, named? mine f.1 = some e →
      Answers D ω known ((Engine.ofDepth functions n).subtype e.2 f.2) false := by
  rw [namedBelow_eq] at h
  have answers := h.allM fun f hf => compares.fieldBelow hm (ht f hf)
  cases r with
  | true =>
    intro f hf
    have answer := answers f hf
    unfold fieldBelow at answer
    split at answer
    · cases answer.pure
    · next e found => exact ⟨e, found, answer⟩
  | false =>
    obtain ⟨f, hf, answer⟩ := answers
    refine ⟨f, hf, fun e found => ?_⟩
    rwa [fieldBelow, found] at answer

theorem Answers.isSubclass {k c : Class} (h : Answers D ω known (Nominal.isSubclass (.cls k) c) r) :
    r = k.under c := by
  obtain ⟨s, t, sound, -, run, -⟩ := h
  exact isSubclass_ok sound run

theorem Answers.judged (view : InView D E ω) (ha : E a) (hb : E b) {x y : Descriptor}
    (hx : x ∈ a.children ∨ x ∈ b.children) (hy : y ∈ a.children ∨ y ∈ b.children)
    (h : Answers D ω [.descriptor a, .descriptor b] ((Engine.ofDepth functions n).subtype x y) r) :
    E x ∧ E y ∧ Judged functions D ω n x y r := by
  have mem {z : Descriptor} (hz : z ∈ a.children ∨ z ∈ b.children) : E z :=
    hz.elim (view.children ha z) (view.children hb z)
  refine ⟨mem hx, mem hy, h.weaken fun g _ live => ?_⟩
  simp only [List.forall_mem_cons, List.not_mem_nil, false_implies, implies_true, and_true] at live ⊢
  have there {z : Descriptor} (hz : z ∈ a.children ∨ z ∈ b.children) : z.Live g :=
    hz.elim (Descriptor.Live.child live.1) (Descriptor.Live.child live.2)
  exact ⟨there hx, there hy⟩

section

variable (resolving : Resolving functions D) (view : InView D E ω)
include resolving view

/-- The rule of a variant that answered yes relates the two sides as it asks. -/
theorem Answers.struct (ha : E a) (hb : E b) (h : Answers D ω [.descriptor a, .descriptor b]
      (sameVariantBelow (Engine.ofDepth functions n) a b) true) :
    Struct ω.ground (fun x y => E x ∧ E y ∧ Judged functions D ω n x y true) a b := by
  have compares := resolving.compares (resolving.subtype_quiet n)
  have da := view.part ha
  have db := view.part hb
  have quiet {x y : Descriptor} (hx : x ∈ a.children) (hy : y ∈ b.children) := compares.subtype (da x hx) (db y hy)
  have judged {x y : Descriptor} (hx : x ∈ a.children) (hy : y ∈ b.children)
      (h : Answers D ω [.descriptor a, .descriptor b] ((Engine.ofDepth functions n).subtype x y) true) :
      E x ∧ E y ∧ Judged functions D ω n x y true := h.judged view ha hb (.inl hx) (.inr hy)
  have someBelow {mine theirs : List Descriptor} (hm : ∀ m ∈ mine, m ∈ a.children)
      (ht : ∀ t ∈ theirs, t ∈ b.children)
      (h : Answers D ω [.descriptor a, .descriptor b]
        (someBelowEach (Engine.ofDepth functions n) mine theirs) true) :
      ∀ t ∈ theirs, ∃ m ∈ mine, E m ∧ E t ∧ Judged functions D ω n m t true := by
    intro t h'
    have each := h.allM fun t h => .anyM fun m h' => quiet (hm m h') (ht t h)
    obtain ⟨m, h'', answer⟩ := (each t h').anyM fun m h'' => quiet (hm m h'') (ht t h')
    exact ⟨m, h'', judged (hm m h'') (ht t h') answer⟩
  have named {mine theirs : List (String × Descriptor)} (hm : ∀ f ∈ mine, f.2 ∈ a.children)
      (ht : ∀ f ∈ theirs, f.2 ∈ b.children)
      (h : Answers D ω [.descriptor a, .descriptor b]
        (Descriptor.namedBelow (Engine.ofDepth functions n) mine theirs) true) :
      NamedBelow (fun x y => E x ∧ E y ∧ Judged functions D ω n x y true) mine theirs := by
    intro f hf
    have each := h.namedBelow compares (fun f hf => da _ (hm f hf)) (fun f hf => db _ (ht f hf))
    obtain ⟨e, found, answer⟩ := each f hf
    exact ⟨e, found, judged (hm e (mem_of_named? found).1) (ht f hf) answer⟩
  unfold Descriptor.sameVariantBelow at h
  split at h
  · refine .union fun m hm => ?_
    have each := h.allM fun m hm => .anyM fun t ht => quiet hm ht
    obtain ⟨t, ht, answer⟩ := (each m hm).anyM fun t ht => quiet hm ht
    exact ⟨t, ht, judged hm ht answer⟩
  · exact .intersection (someBelow (fun _ h => h) (fun _ h => h) h)
  · exact .negation (h.judged view ha hb (.inr (.head _)) (.inl (.head _)))
  · exact .nilable (judged (.head _) (.head _) h)
  · obtain ⟨first, rest⟩ := h.and (.allM fun t ht => .anyM fun m hm => quiet (base_mem hm) (base_mem ht))
      (compares.namedBelow (fun f hf => da _ (predicate_mem hf)) fun f hf => db _ (predicate_mem hf))
    exact .constraint (someBelow (fun _ => base_mem) (fun _ => base_mem) first)
      (named (fun _ => predicate_mem) (fun _ => predicate_mem) rest)
  · exact .rangeOf (judged (.head _) (.head _) h)
  · split at h
    · next hl =>
      have each := h.pairwiseBelow compares da db (eq_of_beq hl)
      exact .tupleOf (forall₂_imp_of_mem each fun x hx y hy answer => judged hx hy answer)
    · cases h.pure
  · exact .shape (named (fun f hf => List.mem_map_of_mem hf) (fun f hf => List.mem_map_of_mem hf) h)
  · split at h
    · next hk => exact .collection (by simpa using hk) (judged (.head _) (.head _) h)
    · cases h.pure
  · obtain ⟨first, rest⟩ := h.and (quiet (.head _) (.head _)) (quiet (.tail _ (.head _)) (.tail _ (.head _)))
    exact .mappingOf (judged (.head _) (.head _) first) (judged (.tail _ (.head _)) (.tail _ (.head _)) rest)
  · exact .instanceOf h.isSubclass.symm
  · exact .classOf h.isSubclass.symm
  · exact .descendantClass h.isSubclass.symm
  · exact .descendantOf h.isSubclass.symm
  · exact .interface (by simpa using h.pure)
  · exact .checkedListOf (judged (.head _) (.head _) h)
  · cases h.pure

/-- After the rule of a variant answered no, only descriptors that are compared by their payload can
still be related. -/
theorem Answers.isPayload (ha : E a) (hb : E b) (h : Answers D ω [.descriptor a, .descriptor b]
      (sameVariantBelow (Engine.ofDepth functions n) a b) false) {R : Descriptor → Descriptor → Prop}
    (hR : ∀ x y, E x → E y → Judged functions D ω n x y false → ¬R x y) (hst : Struct ω.ground R a b) :
    a.isPayload = true := by
  have compares := resolving.compares (resolving.subtype_quiet n)
  have da := view.part ha
  have db := view.part hb
  have quiet {x y : Descriptor} (hx : x ∈ a.children) (hy : y ∈ b.children) := compares.subtype (da x hx) (db y hy)
  have refuted {x y : Descriptor} (hx : x ∈ a.children ∨ x ∈ b.children)
      (hy : y ∈ a.children ∨ y ∈ b.children)
      (h : Answers D ω [.descriptor a, .descriptor b] ((Engine.ofDepth functions n).subtype x y) false) :
      ¬R x y := by
    obtain ⟨ex, ey, answer⟩ := h.judged view ha hb hx hy
    exact hR x y ex ey answer
  have someBelow {mine theirs : List Descriptor} (hm : ∀ m ∈ mine, m ∈ a.children)
      (ht : ∀ t ∈ theirs, t ∈ b.children)
      (h : Answers D ω [.descriptor a, .descriptor b]
        (someBelowEach (Engine.ofDepth functions n) mine theirs) false) :
      ¬∀ t ∈ theirs, ∃ m ∈ mine, R m t := by
    intro all
    obtain ⟨t, h', none⟩ := h.allM fun t h => .anyM fun m h' => quiet (hm m h') (ht t h)
    have none := none.anyM fun m h'' => quiet (hm m h'') (ht t h')
    obtain ⟨m, h'', related⟩ := all t h'
    exact refuted (.inl (hm m h'')) (.inr (ht t h')) (none m h'') related
  have named {mine theirs : List (String × Descriptor)} (hm : ∀ f ∈ mine, f.2 ∈ a.children)
      (ht : ∀ f ∈ theirs, f.2 ∈ b.children)
      (h : Answers D ω [.descriptor a, .descriptor b]
        (Descriptor.namedBelow (Engine.ofDepth functions n) mine theirs) false) :
      ¬NamedBelow R mine theirs := by
    intro all
    obtain ⟨f, hf, none⟩ := h.namedBelow compares (fun f hf => da _ (hm f hf)) (fun f hf => db _ (ht f hf))
    obtain ⟨e, found, related⟩ := all f hf
    exact refuted (.inl (hm e (mem_of_named? found).1)) (.inr (ht f hf)) (none e found) related
  cases hst with
  | predicate | unit | equal | within | regex => rfl
  | union related =>
    obtain ⟨m, hm, none⟩ := h.allM fun m hm => .anyM fun t ht => quiet hm ht
    have none := none.anyM fun t ht => quiet hm ht
    obtain ⟨t, ht, related⟩ := related m hm
    exact absurd related (refuted (.inl hm) (.inr ht) (none t ht))
  | intersection related => exact absurd related (someBelow (fun _ h => h) (fun _ h => h) h)
  | negation related => exact absurd related (refuted (.inr (.head _)) (.inl (.head _)) h)
  | nilable related => exact absurd related (refuted (.inl (.head _)) (.inr (.head _)) h)
  | constraint related related' =>
    obtain first | rest := h.and (.allM fun t ht => .anyM fun m hm => quiet (base_mem hm) (base_mem ht))
      (compares.namedBelow (fun f hf => da _ (predicate_mem hf)) fun f hf => db _ (predicate_mem hf))
    · exact absurd related (someBelow (fun _ => base_mem) (fun _ => base_mem) first)
    · exact absurd related' (named (fun _ => predicate_mem) (fun _ => predicate_mem) rest)
  | rangeOf related => exact absurd related (refuted (.inl (.head _)) (.inr (.head _)) h)
  | tupleOf related =>
    simp only [Descriptor.sameVariantBelow, related.length_eq, beq_self_eq_true, if_true] at h
    obtain ⟨p, hp, answer⟩ := h.pairwiseBelow compares da db related.length_eq
    have hp' := List.of_mem_zip hp
    exact absurd ((List.forall₂_iff_zip.mp related).2 hp)
      (refuted (.inl hp'.1) (.inr hp'.2) answer)
  | shape related =>
    exact absurd related
      (named (fun f hf => List.mem_map_of_mem hf) (fun f hf => List.mem_map_of_mem hf) h)
  | collection hk related =>
    simp only [Descriptor.sameVariantBelow] at h
    rw [if_pos (by simpa using hk)] at h
    exact absurd related (refuted (.inl (.head _)) (.inr (.head _)) h)
  | mappingOf related related' =>
    obtain first | rest := h.and (quiet (.head _) (.head _)) (quiet (.tail _ (.head _)) (.tail _ (.head _)))
    · exact absurd related (refuted (.inl (.head _)) (.inr (.head _)) first)
    · exact absurd related' (refuted (.inl (.tail _ (.head _))) (.inr (.tail _ (.head _))) rest)
  | instanceOf related | classOf related | descendantClass related | descendantOf related =>
    exact absurd (h.isSubclass.trans related) (by simp)
  | interface related =>
    have all : List.all _ (List.contains _) = true :=
      List.all_eq_true.mpr fun m hm => List.contains_iff_mem.mpr (related m hm)
    exact absurd (h.pure.symm.trans all) (by simp)
  | checkedListOf related => exact absurd related (refuted (.inl (.head _)) (.inr (.head _)) h)

theorem settling (ha : E a) (hb : D b) {s t : Session} (sound : s.Sound D) (la : a.Live s.heap)
    (lb : b.Live s.heap) (later : t.Before ω) (run : (do
      if b.same a then return true
      if ← (← Value.equal (.descriptor b) (.descriptor a)).truth then return true
      match b with
      | .void => return true
      | _ => sameVariantBelow (Engine.ofDepth functions n) a b : Act Bool) s = .ok r t) :
    s.Before ω ∧ Settling functions D ω n a b r := by
  split at run
  · next same =>
    obtain ⟨rfl, rfl⟩ := Act.pure_eq_ok.mp run
    exact ⟨later, .same same⟩
  · next distinct =>
    simp only [Act.bind_eq_ok, Act.lift_eq_ok] at run
    obtain ⟨e, _, ⟨he, rfl⟩, c, _, ⟨hc, rfl⟩, run⟩ := run
    have atEnd (sω : s.Before ω) :
        Value.equal (.descriptor b) (.descriptor a) ω.heap = .ok e ∧ e.truth ω.heap = .ok c := by
      have equal := equal_grow sω.heap sound.closed (a := .descriptor b) (b := .descriptor a) lb la he
      exact ⟨equal.1, truth_grow sω.heap sound.closed equal.2 hc⟩
    cases c with
    | true =>
      obtain ⟨rfl, rfl⟩ := Act.pure_eq_ok.mp run
      exact ⟨later, .equal (atEnd later).1 (atEnd later).2⟩
    | false =>
      simp only [Bool.false_eq_true, if_false] at run
      split at run
      · obtain ⟨rfl, rfl⟩ := Act.pure_eq_ok.mp run
        exact ⟨later, .void rfl⟩
      · next top =>
        have quiet := (resolving.compares (resolving.subtype_quiet n)).sameVariantBelow (view.tame ha) hb
        have sω := (quiet.ok run sound).1.trans later
        refine ⟨sω, .rule (by simpa using distinct) top (atEnd sω).1 (atEnd sω).2
          ⟨s, t, sound, ?_, run, later⟩⟩
        simpa using ⟨la, lb⟩

theorem Judged.judging (ha : E a) (hb : E b) (h : Judged functions D ω (n + 1) a b r) :
    Judging functions D E ω n a b r := by
  obtain ⟨s, t, sound, live, run, later⟩ := h
  simp only [List.forall_mem_cons, List.not_mem_nil, false_implies, implies_true, and_true] at live
  have settled (bottom : a ≠ .never) (plain : a.isDeferred = false)
      (run : (do
        let b ← uncover (Engine.ofDepth functions n) b
        if b.same a then return true
        if ← (← Value.equal (.descriptor b) (.descriptor a)).truth then return true
        match b with
        | .void => return true
        | _ => sameVariantBelow (Engine.ofDepth functions n) a b : Act Bool) s = .ok r t) :
      Judging functions D E ω n a b r := by
    obtain ⟨b', u, hu, rest⟩ := Act.bind_eq_ok.mp run
    by_cases hd : b.isDeferred = true
    · cases b with
      | deferred id thunk =>
        obtain ⟨su, soundu, db, lb, known⟩ := resolving.resolve_ok (view.tame hb) sound hu
        obtain ⟨uω, how⟩ := settling resolving view ha db soundu
          (Descriptor.Live.grow su.heap a live.1) lb later rest
        have resolved := uω.resolved id b' known
        exact .settle bottom plain (.deferred resolved) (view.resolved hb resolved) how
      | _ => cases hd
    · have plain' : b.isDeferred = false := by simpa using hd
      have same : uncover (Engine.ofDepth functions n) b = pure b := by
        cases b <;> first | rfl | cases plain'
      rw [same] at hu
      obtain ⟨rfl, rfl⟩ := Act.pure_eq_ok.mp hu
      obtain ⟨-, how⟩ := settling resolving view ha (view.tame hb) sound live.1 live.2 later rest
      exact .settle bottom plain (.plain plain') hb how
  cases a with
  | never =>
    obtain ⟨rfl, -⟩ := Act.pure_eq_ok.mp run
    exact .never
  | deferred id thunk =>
    simp only [Engine.ofDepth, Engine.step, subtypeStep] at run
    split at run
    · next same =>
      obtain ⟨rfl, -⟩ := Act.pure_eq_ok.mp run
      exact .same same
    · next distinct =>
      obtain ⟨d, u, hd, run⟩ := Act.bind_eq_ok.mp run
      obtain ⟨su, soundu, dd, ld, known⟩ := resolving.resolve_ok (view.tame ha) sound hd
      have uω := ((resolving.subtype_quiet n d b dd (view.tame hb)).ok run soundu).1.trans later
      refine .resolve (by simpa using distinct) (uω.resolved id d known) ⟨u, t, soundu, ?_, run, later⟩
      simpa using ⟨ld, su.live (v := .descriptor b) live.2⟩
  | _ => exact settled (by simp) rfl run

end

namespace InPlay

/-- An answer of yes is a derivation by the rules. -/
theorem below_of_judged (play : InPlay D E ω) (resolving : Resolving functions D) (ha : E a) (hb : E b)
    (h : Judged functions D ω n a b true) : BelowIn ω.ground n a b := by
  induction n generalizing a b with
  | zero =>
    obtain ⟨s, t, -, -, run, -⟩ := h
    cases run
  | succ n ih =>
    cases h.judging resolving play.inView ha hb with
    | never => exact .never
    | same h =>
      obtain rfl := play.identity hb ha h
      exact .self
    | resolve _ hd h => exact .resolve hd (ih (play.order.resolved ha hd) hb h)
    | @settle _ _ b' _ _ plain hu hb' h =>
      refine .settle plain hu ?_
      have same (h : b'.same a = true) : Settled ω.ground (BelowIn ω.ground n) a b' := by
        obtain rfl := play.identity hb' ha h
        exact .self
      cases h with
      | same h => exact same h
      | equal h he =>
        cases distinct : b'.same a with
        | true => exact same distinct
        | false =>
          have twin := play.twin_of_alike (Nat.le_refl _) hb' ha (alike_of_equal distinct h he)
          exact .twin (twin.symm play.order hb' ha)
      | void h =>
        subst h
        exact .void
      | rule _ _ _ _ hr =>
        exact .struct ((hr.struct resolving play.inView ha hb').mono fun x y h => ih h.1 h.2.1 h.2.2)

/-- After an answer of no there is no derivation by the rules. -/
theorem not_below_of_judged (play : InPlay D E ω) (resolving : Resolving functions D) {m : Nat} (ha : E a)
    (hb : E b) (h : Judged functions D ω n a b false) : ¬BelowIn ω.ground m a b := by
  induction n generalizing a b m with
  | zero =>
    obtain ⟨s, t, -, -, run, -⟩ := h
    cases run
  | succ n ih =>
    intro below
    obtain _ | m := m
    · exact below
    have same_refl (d : Descriptor) : d.same d = true := by simp [Descriptor.same]
    cases h.judging resolving play.inView ha hb with
    | resolve distinct hd h =>
      cases below with
      | self => simp [same_refl] at distinct
      | resolve hd' below =>
        obtain rfl := Option.some.inj (hd.symm.trans hd')
        exact ih (play.order.resolved ha hd) hb h below
      | settle plain => cases plain
    | @settle _ _ b' _ bottom plain hu hb' h =>
      cases h with
      | rule distinct top he hf hr =>
        have apart {k : Nat} (twin : TwinIn ω.ground k a b') : False := by
          cases play.alike_of_twin (Nat.le_refl _) hb' ha (twin.symm play.order ha hb') (alike_of_equal distinct he hf)
        have settled : ¬Settled ω.ground (BelowIn ω.ground m) a b' := by
          intro settled
          cases settled with
          | self => simp [same_refl] at distinct
          | void => exact top rfl
          | twin twin => exact apart twin
          | struct related =>
            have payload := hr.isPayload resolving play.inView ha hb'
              (fun x y ex ey answer => ih ex ey answer) related
            exact apart (related.twin payload)
        cases below with
        | never => exact bottom rfl
        | self =>
          obtain rfl := hu.eq_of_plain plain
          exact settled .self
        | resolve => cases plain
        | settle _ hu' below =>
          obtain rfl := hu.unique hu'
          exact settled below

end InPlay

end Runs

end Conform
