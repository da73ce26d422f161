import Conform.Proofs.Comparison

/-!
Deferred descriptors and what they stand for. The erasure of a descriptor has, in the place of every
deferred part, the erasure of what that part finally resolves to; the nodes of an erasure may be objects of
their own.

A deferred descriptor on the left of a comparison is resolved as often as needed, one on the right only once.
So a comparison that says yes says yes of the erasures as well, but not the other way around:
`chain_not_above`. Main statement: `subtype_erased`. The answers are the same if no deferred descriptor
resolves to a deferred one.
-/
namespace Conform

/-- Two descriptors of one variant with the same payload and related parts. They may be different objects,
and neither is deferred. -/
inductive Mirrors (R : Descriptor → Descriptor → Prop) : Descriptor → Descriptor → Prop
  | any : Mirrors R .any .any
  | void : Mirrors R .void .void
  | never : Mirrors R .never .never
  | boolean : Mirrors R .boolean .boolean
  | truthy : Mirrors R .truthy .truthy
  | falsy : Mirrors R .falsy .falsy
  | jsonData : Mirrors R .jsonData .jsonData
  | union {i j mine theirs} (h : List.Forall₂ R mine theirs) : Mirrors R (.union i mine) (.union j theirs)
  | intersection {i j mine theirs} (h : List.Forall₂ R mine theirs) :
    Mirrors R (.intersection i mine) (.intersection j theirs)
  | negation {i j a b} (h : R a b) : Mirrors R (.negation i a) (.negation j b)
  | nilable {i j a b} (h : R a b) : Mirrors R (.nilable i a) (.nilable j b)
  | constraint {i j bases bases' predicates predicates'} (hb : List.Forall₂ R bases bases')
    (hp : NamedAlike R predicates predicates') :
    Mirrors R (.constraint i bases predicates) (.constraint j bases' predicates')
  | rangeOf {i j a b} (h : R a b) : Mirrors R (.rangeOf i a) (.rangeOf j b)
  | tupleOf {i j mine theirs} (h : List.Forall₂ R mine theirs) :
    Mirrors R (.tupleOf i mine) (.tupleOf j theirs)
  | shape {i j mine theirs} (h : NamedAlike R mine theirs) : Mirrors R (.shape i mine) (.shape j theirs)
  | collection {i j kind a b} (h : R a b) : Mirrors R (.collection i kind a) (.collection j kind b)
  | mappingOf {i j key key' value value'} (hk : R key key') (hv : R value value') :
    Mirrors R (.mappingOf i key value) (.mappingOf j key' value')
  | instanceOf {i j c} : Mirrors R (.instanceOf i c) (.instanceOf j c)
  | classOf {i j c} : Mirrors R (.classOf i c) (.classOf j c)
  | descendantOf {i j c} : Mirrors R (.descendantOf i c) (.descendantOf j c)
  | interface {i j names} : Mirrors R (.interface i names) (.interface j names)
  | predicate {i j message fn} : Mirrors R (.predicate i message fn) (.predicate j message fn)
  | unit {i j x} : Mirrors R (.unit i x) (.unit j x)
  | equal {i j x} : Mirrors R (.equal i x) (.equal j x)
  | within {i j x} : Mirrors R (.within i x) (.within j x)
  | regex {i j x} : Mirrors R (.regex i x) (.regex j x)
  | checkedListOf {i j a b} (h : R a b) : Mirrors R (.checkedListOf i a) (.checkedListOf j b)

/-- One layer of erasure: a deferred descriptor is resolved, any other is copied. -/
inductive Strips (G : Ground) (R : Descriptor → Descriptor → Prop) : Descriptor → Descriptor → Prop
  | resolve {id thunk d e} (h : G.resolution id = some d) (he : R d e) : Strips G R (.deferred id thunk) e
  | copy {d e} (h : Mirrors R d e) : Strips G R d e

/-- Whether one descriptor is the erasure of another, found in a number of layers. -/
def ErasesIn (G : Ground) : Nat → Descriptor → Descriptor → Prop
  | 0 => fun _ _ => False
  | n + 1 => Strips G (ErasesIn G n)

/-- Whether the second descriptor is the first with every deferred part replaced by the erasure of what it
resolves to. A descriptor in which resolving goes round in a circle has no erasure. -/
def Erases (G : Ground) (d e : Descriptor) : Prop :=
  ∃ n, ErasesIn G n d e

namespace Mirrors

variable {P Q R S : Descriptor → Descriptor → Prop} {a b a' b' d e : Descriptor}

theorem plain (h : Mirrors R d e) : d.isDeferred = false ∧ e.isDeferred = false := by
  cases h <;> exact ⟨rfl, rfl⟩

theorem flip (h : Mirrors R d e) : Mirrors (fun x y => R y x) e d := by
  cases h with
  | union h => exact .union h.flip
  | intersection h => exact .intersection h.flip
  | tupleOf h => exact .tupleOf h.flip
  | constraint hb hp => exact .constraint hb.flip (NamedAlike.flip hp)
  | shape h => exact .shape (NamedAlike.flip h)
  | _ => constructor <;> assumption

theorem imp (h : Mirrors R d e) (hRS : ∀ x ∈ d.children, ∀ y ∈ e.children, R x y → S x y) :
    Mirrors S d e := by
  have named {mine theirs : List (String × Descriptor)} (hm : ∀ f ∈ mine, f.2 ∈ d.children)
      (ht : ∀ f ∈ theirs, f.2 ∈ e.children) (h : NamedAlike R mine theirs) : NamedAlike S mine theirs :=
    forall₂_imp_of_mem h fun x hx y hy h => ⟨h.1, hRS _ (hm x hx) _ (ht y hy) h.2⟩
  cases h with
  | union h => exact .union (forall₂_imp_of_mem h hRS)
  | intersection h => exact .intersection (forall₂_imp_of_mem h hRS)
  | tupleOf h => exact .tupleOf (forall₂_imp_of_mem h hRS)
  | constraint hb hp =>
    refine .constraint (forall₂_imp_of_mem hb fun x hx y hy => ?_) (named ?_ ?_ hp)
    · exact hRS x (Descriptor.base_mem hx) y (Descriptor.base_mem hy)
    · exact fun f hf => Descriptor.predicate_mem hf
    · exact fun f hf => Descriptor.predicate_mem hf
  | shape h =>
    exact .shape (named (fun f hf => List.mem_map_of_mem hf) (fun f hf => List.mem_map_of_mem hf) h)
  | mappingOf hk hv =>
    exact .mappingOf (hRS _ (.head _) _ (.head _) hk) (hRS _ (.tail _ (.head _)) _ (.tail _ (.head _)) hv)
  | negation h | nilable h | rangeOf h | collection h | checkedListOf h =>
    constructor
    exact hRS _ (.head _) _ (.head _) h
  | _ => constructor

/-- The parts of a copy are copies of the parts. -/
theorem children (h : Mirrors R d e) : ∀ c ∈ e.children, ∃ x ∈ d.children, R x c := by
  have named {mine theirs : List (String × Descriptor)} (h : NamedAlike R mine theirs) :
      ∀ c ∈ theirs.map (·.2), ∃ x ∈ mine.map (·.2), R x c := by
    intro c hc
    obtain ⟨f, hf, rfl⟩ := List.mem_map.mp hc
    obtain ⟨e, he, -, h⟩ := (forall₂_mem h).2 f hf
    exact ⟨e.2, List.mem_map_of_mem he, h⟩
  cases h with
  | union h => exact (forall₂_mem h).2
  | intersection h => exact (forall₂_mem h).2
  | tupleOf h => exact (forall₂_mem h).2
  | shape h => exact named h
  | constraint hb hp =>
    intro c hc
    obtain hc | hc := List.mem_append.mp hc
    · obtain ⟨x, hx, h⟩ := (forall₂_mem hb).2 c hc
      exact ⟨x, Descriptor.base_mem hx, h⟩
    · obtain ⟨x, hx, h⟩ := named hp c hc
      exact ⟨x, List.mem_append_right _ hx, h⟩
  | mappingOf hk hv =>
    rintro c (_ | ⟨_, _ | ⟨_, ⟨⟩⟩⟩)
    · exact ⟨_, .head _, hk⟩
    · exact ⟨_, .tail _ (.head _), hv⟩
  | negation h | nilable h | rangeOf h | collection h | checkedListOf h =>
    rintro c (_ | ⟨_, ⟨⟩⟩)
    exact ⟨_, .head _, h⟩
  | _ => exact fun _ hc => by cases hc

/-- A descriptor that is not deferred has a copy if its parts have. -/
theorem exists_of_children (plain : d.isDeferred = false) (h : ∀ c ∈ d.children, ∃ x, R c x) :
    ∃ e, Mirrors R d e := by
  choose! f hf using h
  have many {ds : List Descriptor} (hds : ∀ c ∈ ds, c ∈ d.children) : List.Forall₂ R ds (ds.map f) :=
    List.forall₂_map_right_iff.mpr (List.forall₂_same.mpr fun c hc => hf c (hds c hc))
  have named {fields : List (String × Descriptor)} (hfs : ∀ e ∈ fields, e.2 ∈ d.children) :
      NamedAlike R fields (fields.map fun e => (e.1, f e.2)) :=
    List.forall₂_map_right_iff.mpr (List.forall₂_same.mpr fun e he => ⟨rfl, hf e.2 (hfs e he)⟩)
  cases d with
  | deferred => cases plain
  | union i ds => exact ⟨.union i _, .union (many fun _ h => h)⟩
  | intersection i ds => exact ⟨.intersection i _, .intersection (many fun _ h => h)⟩
  | tupleOf i ds => exact ⟨.tupleOf i _, .tupleOf (many fun _ h => h)⟩
  | constraint i bases predicates =>
    refine ⟨.constraint i _ _, .constraint (many ?_) (named ?_)⟩
    · exact fun c hc => Descriptor.base_mem hc
    · exact fun e he => Descriptor.predicate_mem he
  | shape i fields => exact ⟨.shape i _, .shape (named fun e he => List.mem_map_of_mem he)⟩
  | mappingOf i key value =>
    exact ⟨.mappingOf i _ _, .mappingOf (hf key (.head _)) (hf value (.tail _ (.head _)))⟩
  | negation i inner => exact ⟨.negation i _, .negation (hf inner (.head _))⟩
  | nilable i inner => exact ⟨.nilable i _, .nilable (hf inner (.head _))⟩
  | rangeOf i element => exact ⟨.rangeOf i _, .rangeOf (hf element (.head _))⟩
  | collection i kind element => exact ⟨.collection i kind _, .collection (hf element (.head _))⟩
  | checkedListOf i element => exact ⟨.checkedListOf i _, .checkedListOf (hf element (.head _))⟩
  | instanceOf i c => exact ⟨.instanceOf i c, .instanceOf⟩
  | classOf i c => exact ⟨.classOf i c, .classOf⟩
  | descendantOf i c => exact ⟨.descendantOf i c, .descendantOf⟩
  | interface i names => exact ⟨.interface i names, .interface⟩
  | predicate i message fn => exact ⟨.predicate i message fn, .predicate⟩
  | unit i x => exact ⟨.unit i x, .unit⟩
  | equal i x => exact ⟨.equal i x, .equal⟩
  | within i x => exact ⟨.within i x, .within⟩
  | regex i x => exact ⟨.regex i x, .regex⟩
  | _ => exact ⟨_, by constructor⟩

/-- The parts of a member of a family are members. -/
theorem member {G : Ground} {E : Descriptor → Prop} (law : G.Lawful E) (hd : E d) (h : Mirrors R d e) :
    Mirrors (fun x y => E x ∧ R x y) d e :=
  h.imp fun x hx _ _ h => ⟨law.children hd x hx, h⟩

end Mirrors

section Copies

variable {G : Ground} {P Q R S : Descriptor → Descriptor → Prop} {a b a' b' d : Descriptor}

theorem forall₂_square {α : Type} {P Q R S : α → α → Prop}
    (hS : ∀ x y x' y', R x y → P x x' → Q y y' → S x' y') :
    ∀ {as bs as' bs' : List α}, List.Forall₂ R as bs → List.Forall₂ P as as' →
      List.Forall₂ Q bs bs' → List.Forall₂ S as' bs'
  | _, _, _, _, .nil, .nil, .nil => .nil
  | _, _, _, _, .cons h hs, .cons hp hps, .cons hq hqs =>
    .cons (hS _ _ _ _ h hp hq) (forall₂_square hS hs hps hqs)

/-- The rule of a variant holds of copies of the two sides if related parts have related copies. -/
theorem Struct.copies (h : Struct G R a b) (ha : Mirrors P a a') (hb : Mirrors Q b b')
    (forth : ∀ x y x' y', R x y → P x x' → Q y y' → S x' y')
    (back : ∀ x y x' y', R y x → P x x' → Q y y' → S y' x') : Struct G S a' b' := by
  have some {mine theirs mine' theirs' : List Descriptor} (hp : List.Forall₂ P mine mine')
      (hq : List.Forall₂ Q theirs theirs') (h : ∀ t ∈ theirs, ∃ m ∈ mine, R m t) :
      ∀ t ∈ theirs', ∃ m ∈ mine', S m t := by
    intro t' ht'
    obtain ⟨t, ht, ct⟩ := (forall₂_mem hq).2 t' ht'
    obtain ⟨m, hm, hr⟩ := h t ht
    obtain ⟨m', hm', cm⟩ := (forall₂_mem hp).1 m hm
    exact ⟨m', hm', forth _ _ _ _ hr cm ct⟩
  have named {mine theirs mine' theirs' : List (String × Descriptor)} (hp : NamedAlike P mine mine')
      (hq : NamedAlike Q theirs theirs') (h : NamedBelow R mine theirs) : NamedBelow S mine' theirs' := by
    intro f' hf'
    obtain ⟨f, hf, hn, cf⟩ := (forall₂_mem hq).2 f' hf'
    obtain ⟨e, found, hr⟩ := h f hf
    obtain ⟨e', found', ce⟩ := hp.named? found
    exact ⟨e', hn ▸ found', forth _ _ _ _ hr ce cf⟩
  cases h with
  | union h =>
    cases ha with
    | union hp =>
      cases hb with
      | union hq =>
        refine .union fun m' hm' => ?_
        obtain ⟨m, hm, cm⟩ := (forall₂_mem hp).2 m' hm'
        obtain ⟨t, ht, hr⟩ := h m hm
        obtain ⟨t', ht', ct⟩ := (forall₂_mem hq).1 t ht
        exact ⟨t', ht', forth _ _ _ _ hr cm ct⟩
  | intersection h =>
    cases ha with
    | intersection hp =>
      cases hb with
      | intersection hq => exact .intersection (some hp hq h)
  | negation h =>
    cases ha with
    | negation hp =>
      cases hb with
      | negation hq => exact .negation (back _ _ _ _ h hp hq)
  | nilable h | rangeOf h | checkedListOf h =>
    cases ha
    next hp =>
      cases hb
      next hq =>
        constructor
        exact forth _ _ _ _ h hp hq
  | constraint hm hn =>
    cases ha with
    | constraint hp hp' =>
      cases hb with
      | constraint hq hq' => exact .constraint (some hp hq hm) (named hp' hq' hn)
  | tupleOf h =>
    cases ha with
    | tupleOf hp =>
      cases hb with
      | tupleOf hq => exact .tupleOf (forall₂_square forth h hp hq)
  | shape h =>
    cases ha with
    | shape hp =>
      cases hb with
      | shape hq => exact .shape (named hp hq h)
  | collection hk h =>
    cases ha with
    | collection hp =>
      cases hb with
      | collection hq => exact .collection hk (forth _ _ _ _ h hp hq)
  | mappingOf hk hv =>
    cases ha with
    | mappingOf hp hp' =>
      cases hb with
      | mappingOf hq hq' => exact .mappingOf (forth _ _ _ _ hk hp hq) (forth _ _ _ _ hv hp' hq')
  | _ =>
    cases ha
    cases hb
    constructor <;> assumption

/-- Payloads that are like themselves, and names that are distinct. -/
structure Ground.Reflexive (G : Ground) (d : Descriptor) : Prop where
  alike : ∀ {x}, .value x ∈ d.parts → G.alike x x
  same : ∀ {i x}, d = .unit i x → G.same x x
  distinct : ∀ {fields}, .named fields ∈ d.parts → (fields.map (·.1)).Nodup

/-- Two copies of one descriptor are equal or fall under the rule of its variant. -/
theorem Mirrors.settled (ha : Mirrors P d a) (hb : Mirrors Q d b) (refl : G.Reflexive d)
    (hS : ∀ c x y, P c x → Q c y → S x y ∧ S y x) : Settled G S a b := by
  have forth (x y x' y' : Descriptor) (hxy : x = y) (hp : P x x') (hq : Q y y') : S x' y' :=
    (hS x x' y' hp (hxy ▸ hq)).1
  have back (x y x' y' : Descriptor) (hxy : y = x) (hp : P x x') (hq : Q y y') : S y' x' :=
    (hS x x' y' hp (hxy ▸ hq)).2
  cases constant : d.isConstant with
  | true =>
    cases d <;> cases constant <;> cases ha <;> cases hb <;> exact .self
  | false =>
    have own : Struct G Eq d d := .refl (fun _ _ => rfl) refl.alike refl.same
      (fun named f hf => ⟨f, named?_of_distinct (refl.distinct named) hf, rfl⟩) ha.plain.1 constant
    exact .struct (own.copies ha hb forth back)

/-- A rule for two descriptors with distinct names comes down to the rule of their variant. -/
theorem Settled.unfold {E : Descriptor → Prop} {n : Nat} (law : G.Lawful E) (ha : E a) (hb : E b)
    (refl : G.Reflexive a) (h : Settled G (BelowIn G n) a b) :
    a = b ∨ b = .void ∨ Struct G (BelowIn G (n + 1)) a b := by
  have early {x y : Descriptor} (h : BelowIn G 1 x y) : BelowIn G (n + 1) x y := h.mono (by omega)
  cases h with
  | self => exact .inl rfl
  | void => exact .inr (.inl rfl)
  | struct h => exact .inr (.inr (h.mono fun _ _ h => h.succ))
  | twin h =>
    obtain rfl | h := h.struct law ha hb
    · exact .inl rfl
    · refine .inr (.inr (h.imp (fun _ _ _ _ => ⟨early, early⟩) (fun hm _ h f hf => ?_) (fun _ _ _ _ => id) fun _ _ => id))
      obtain ⟨e, he, hn, hr⟩ := (forall₂_mem h).2 f hf
      exact ⟨e, hn ▸ named?_of_distinct (refl.distinct hm) he, early hr⟩

end Copies

namespace ErasesIn

variable {G H : Ground} {E : Descriptor → Prop} {n p q : Nat} {a b a' b' d e : Descriptor}

/-- A descriptor that is not deferred is copied. -/
theorem copied (h : ErasesIn G p d e) (plain : d.isDeferred = false) :
    ∃ k, p = k + 1 ∧ Mirrors (ErasesIn G k) d e := by
  cases p with
  | zero => exact h.elim
  | succ k =>
    cases h with
    | resolve => cases plain
    | copy h => exact ⟨k, rfl, h⟩

/-- A deferred descriptor has the erasure of what it resolves to. -/
theorem resolved {id : Ident} {thunk : Value} (h : ErasesIn G p (.deferred id thunk) e)
    (hd : G.resolution id = some d) : ∃ k, p = k + 1 ∧ ErasesIn G k d e := by
  cases p with
  | zero => exact h.elim
  | succ k =>
    cases h with
    | resolve hd' h =>
      obtain rfl := Option.some.inj (hd.symm.trans hd')
      exact ⟨k, rfl, h⟩
    | copy h => cases h

/-- The erasure of the right-hand side is that of what it is uncovered to. -/
theorem uncovered (h : ErasesIn G q b e) (hb : Uncovers G b d) : ∃ k ≤ q, ErasesIn G k d e := by
  cases hb with
  | plain => exact ⟨q, Nat.le_refl q, h⟩
  | deferred hd =>
    obtain ⟨k, rfl, hk⟩ := h.resolved hd
    exact ⟨k, Nat.le_succ k, hk⟩

/-- No part of an erasure is deferred. -/
theorem plain (h : ErasesIn G p d e) : e.isDeferred = false := by
  induction p generalizing d with
  | zero => exact h.elim
  | succ p ih =>
    cases h with
    | resolve _ h => exact ih h
    | copy h => exact h.plain.2

theorem onGround (resolution : ∀ id d, G.resolution id = some d → H.resolution id = some d)
    (h : ErasesIn G p d e) : ErasesIn H p d e := by
  induction p generalizing d e with
  | zero => exact h.elim
  | succ p ih =>
    cases h with
    | resolve hd h => exact .resolve (resolution _ _ hd) (ih h)
    | copy h => exact .copy (h.imp fun _ _ _ _ => ih)

theorem mono {m : Nat} (hpm : p ≤ m) (h : ErasesIn G p d e) : ErasesIn G m d e := by
  induction p generalizing d e m with
  | zero => exact h.elim
  | succ p ih =>
    obtain ⟨m, rfl⟩ : ∃ k, m = k + 1 := ⟨m - 1, by omega⟩
    cases h with
    | resolve hd h => exact .resolve hd (ih (by omega) h)
    | copy h => exact .copy (h.imp fun _ _ _ _ => ih (by omega))

/-- The parts of an erasure are erasures found in fewer layers. -/
theorem children (h : ErasesIn G p d e) : ∀ c ∈ e.children, ∃ k < p, ∃ x, ErasesIn G k x c := by
  induction p generalizing d with
  | zero => exact h.elim
  | succ p ih =>
    intro c hc
    cases h with
    | resolve _ h =>
      obtain ⟨k, hk, x, hx⟩ := ih h c hc
      exact ⟨k, by omega, x, hx⟩
    | copy h =>
      obtain ⟨x, -, hx⟩ := h.children c hc
      exact ⟨p, Nat.lt_succ_self p, x, hx⟩

/-- No chain of requests from two erasures is endless. -/
theorem acc_asks {stands : Descriptor → Descriptor → Prop} (ea : ErasesIn G p a a')
    (eb : ErasesIn G q b b') : Acc (Descriptor.Asks stands) (a', b') := by
  induction hk : p + q using Nat.strongRecOn generalizing p q a b a' b' with
  | _ k ih =>
  subst hk
  constructor
  rintro ⟨x, y⟩ asks
  cases asks with
  | resolve => cases ea.plain
  | uncover => cases eb.plain
  | compare _ h =>
    obtain ⟨hx, hy⟩ | ⟨hx, hy⟩ := h.children
    · obtain ⟨i, hi, c, ex⟩ := ea.children x hx
      obtain ⟨j, hj, d, ey⟩ := eb.children y hy
      exact ih (i + j) (by omega) ex ey rfl
    · obtain ⟨i, hi, c, ex⟩ := eb.children x hx
      obtain ⟨j, hj, d, ey⟩ := ea.children y hy
      exact ih (i + j) (by omega) ex ey rfl

/-- Two erasures of one descriptor are below each other. -/
theorem both_below (law : G.Lawful E) (refl : ∀ {d}, E d → G.Reflexive d) (hd : E d)
    (ha : ErasesIn G p d a) (hb : ErasesIn G q d b) :
    BelowIn G (p + q) a b ∧ BelowIn G (p + q) b a := by
  induction p generalizing q d a b with
  | zero => exact ha.elim
  | succ p ih =>
    cases ha with
    | resolve h ha =>
      obtain ⟨q, rfl, hb'⟩ := hb.resolved h
      have both := ih (law.resolved hd h) ha hb'
      exact ⟨both.1.mono (by omega), both.2.mono (by omega)⟩
    | copy ha =>
      obtain ⟨q, rfl, hb'⟩ := hb.copied ha.plain.1
      have ca := ha.member law hd
      have cb := hb'.member law hd
      have both : Settled G (BelowIn G (p + q)) a b ∧ Settled G (BelowIn G (p + q)) b a := by
        constructor
        · exact ca.settled cb (refl hd) fun c x y hx hy => ih hx.1 hx.2 hy.2
        · exact cb.settled ca (refl hd) fun c y x hy hx => (ih hx.1 hx.2 hy.2).symm
      have settle {x y : Descriptor} (hx : x.isDeferred = false) (hy : y.isDeferred = false)
          (h : Settled G (BelowIn G (p + q)) x y) : BelowIn G (p + 1 + (q + 1)) x y :=
        BelowIn.mono (by omega) (n := p + q + 1) (Rule.settle hx (.plain hy) h)
      exact ⟨settle ha.plain.2 hb'.plain.2 both.1, settle hb'.plain.2 ha.plain.2 both.2⟩

/-- A descriptor that is below another has its erasure below the erasure of the other. -/
theorem below (law : G.Lawful E) (refl : ∀ {d}, E d → G.Reflexive d) (ha : E a) (hb : E b)
    (ea : ErasesIn G p a a') (eb : ErasesIn G q b b') (h : BelowIn G n a b) :
    BelowIn G (n + p + q) a' b' := by
  induction hk : n + p + q using Nat.strongRecOn generalizing n p q a b a' b' with
  | _ k ih =>
  subst hk
  obtain _ | n := n
  · exact h.elim
  cases h with
  | never =>
    obtain ⟨k, rfl, copy⟩ := ea.copied rfl
    cases copy
    exact BelowIn.mono (by omega) (n := 1) Rule.never
  | self => exact (both_below law refl ha ea eb).1.mono (by omega)
  | resolve hd h =>
    obtain ⟨k, rfl, ek⟩ := ea.resolved hd
    exact (ih (n + k + q) (by omega) (law.resolved ha hd) hb ek eb h rfl).mono (by omega)
  | @settle _ _ d plain uncovers settled =>
    obtain ⟨j, hj, ed⟩ := eb.uncovered uncovers
    have hd := uncovers.mem law hb
    obtain ⟨k, rfl, ca⟩ := ea.copied plain
    obtain ⟨j, rfl, cd⟩ := ed.copied (settled.plain plain)
    have settle (h : Settled G (BelowIn G (n + 1 + k + q)) a' b') : BelowIn G (n + 1 + (k + 1) + q) a' b' :=
      BelowIn.mono (by omega) (n := n + 1 + k + q + 1) (Rule.settle ca.plain.2 (.plain cd.plain.2) h)
    obtain rfl | rfl | h := settled.unfold law ha hd (refl ha)
    · exact (both_below law refl ha ea ed).1.mono (by omega)
    · cases cd
      exact settle .void
    · refine settle (.struct (h.copies (ca.member law ha) (cd.member law hd) ?_ ?_))
      · intro x y x' y' h hx hy
        exact (ih (n + 1 + k + j) (by omega) hx.1 hy.1 hx.2 hy.2 h rfl).mono (by omega)
      · intro x y x' y' h hx hy
        exact (ih (n + 1 + j + k) (by omega) hy.1 hx.1 hy.2 hx.2 h rfl).mono (by omega)

/-- What is shown of the erasures holds of the descriptors themselves, if no deferred descriptor resolves to
a deferred one. -/
theorem below_of_erased (law : G.Lawful E) (refl : ∀ {d}, E d → G.Reflexive d)
    (direct : ∀ {id thunk d}, E (.deferred id thunk) → G.resolution id = some d → d.isDeferred = false)
    (ha : E a) (hb : E b) (ha' : E a') (hb' : E b') (ea : ErasesIn G p a a') (eb : ErasesIn G q b b')
    (h : BelowIn G n a' b') : BelowIn G (n + p + q) a b := by
  induction hk : n + p + q using Nat.strongRecOn generalizing n p q a b a' b' with
  | _ k ih =>
  subst hk
  obtain _ | n := n
  · exact h.elim
  obtain _ | p := p
  · exact ea.elim
  cases ea with
  | resolve hd ea =>
    have rest := ih (n + 1 + p + q) (by omega) (law.resolved ha hd) hb ha' hb' ea eb h rfl
    exact BelowIn.mono (by omega) (n := n + 1 + p + q + 1) (Rule.resolve hd rest)
  | copy ca =>
    -- One layer suffices on the right: what is under it is not deferred.
    have ⟨d, j, hj, uncovers, cd⟩ : ∃ d j, j < q ∧ Uncovers G b d ∧ Mirrors (ErasesIn G j) d b' := by
      obtain _ | q := q
      · exact eb.elim
      cases eb with
      | copy cb => exact ⟨b, q, Nat.lt_succ_self q, .plain cb.plain.1, cb⟩
      | @resolve _ _ d _ hd ed =>
        obtain ⟨j, rfl, cd⟩ := ed.copied (direct hb hd)
        exact ⟨d, j, by omega, .deferred hd, cd⟩
    have hd := uncovers.mem law hb
    have settle (h : Settled G (BelowIn G (n + 1 + p + q)) a d) : BelowIn G (n + 1 + (p + 1) + q) a b :=
      BelowIn.mono (by omega) (n := n + 1 + p + q + 1) (Rule.settle ca.plain.1 uncovers h)
    have left := (ca.member law ha).flip.member law ha'
    have right := (cd.member law (uncovers.mem law hb)).flip.member law hb'
    have settled_of_eq (same : a' = b') : Settled G (BelowIn G (n + 1 + p + q)) a d := by
      subst same
      refine left.settled right (refl ha') fun c x y hx hy => ?_
      have self : BelowIn G 1 c c := Rule.self
      have forth := ih (1 + p + j) (by omega) hx.2.1 hy.2.1 hx.1 hy.1 hx.2.2 hy.2.2 self rfl
      have back := ih (1 + j + p) (by omega) hy.2.1 hx.2.1 hy.1 hx.1 hy.2.2 hx.2.2 self rfl
      exact ⟨forth.mono (by omega), back.mono (by omega)⟩
    cases h with
    | never =>
      cases ca
      exact BelowIn.mono (by omega) (n := 1) Rule.never
    | self => exact settle (settled_of_eq rfl)
    | resolve => cases ca.plain.2
    | settle _ hu settled =>
      obtain rfl := hu.eq_of_plain cd.plain.2
      obtain same | rfl | h := settled.unfold law ha' hb' (refl ha')
      · exact settle (settled_of_eq same)
      · cases cd
        exact settle .void
      · refine settle (.struct (h.copies left right ?_ ?_))
        · intro x' y' x y h hx hy
          exact (ih (n + 1 + p + j) (by omega) hx.2.1 hy.2.1 hx.1 hy.1 hx.2.2 hy.2.2 h rfl).mono (by omega)
        · intro x' y' x y h hx hy
          exact (ih (n + 1 + j + p) (by omega) hy.2.1 hx.2.1 hy.1 hx.1 hy.2.2 hx.2.2 h rfl).mono (by omega)

/-- Descriptors that have erasures have them all in one number of layers. -/
theorem exists_common {ds : List Descriptor} (h : ∀ d ∈ ds, ∃ e, Erases G d e) :
    ∃ n, ∀ d ∈ ds, ∃ e, ErasesIn G n d e := by
  induction ds with
  | nil => exact ⟨0, fun _ hd => by cases hd⟩
  | cons d ds ih =>
    simp only [List.forall_mem_cons] at h ⊢
    obtain ⟨⟨e, p, first⟩, rest⟩ := h
    obtain ⟨n, others⟩ := ih rest
    refine ⟨max p n, ⟨e, first.mono (by omega)⟩, fun c hc => ?_⟩
    obtain ⟨x, hx⟩ := others c hc
    exact ⟨x, hx.mono (by omega)⟩

end ErasesIn

/-- A descriptor that does not unfold for ever has an erasure, once the deferred descriptors are resolved. -/
theorem Erases.exists_of_finite {G : Ground} {F : Descriptor → Prop}
    {stands : Descriptor → Descriptor → Prop} (children : ∀ {d}, F d → ∀ c ∈ d.children, F c)
    (resolved : ∀ {id thunk}, F (.deferred id thunk) →
      ∃ d, G.resolution id = some d ∧ F d ∧ stands (.deferred id thunk) d)
    {d : Descriptor} (hd : F d) (finite : Acc (Descriptor.Unfolds stands) d) : ∃ e, Erases G d e := by
  induction finite with
  | intro d _ ih =>
    cases plain : d.isDeferred with
    | true =>
      cases d with
      | deferred id thunk =>
        obtain ⟨c, found, hc, hs⟩ := resolved hd
        obtain ⟨e, n, erased⟩ := ih c (.target hs) hc
        exact ⟨e, n + 1, .resolve found erased⟩
      | _ => cases plain
    | false =>
      obtain ⟨n, parts⟩ := ErasesIn.exists_common fun c hc => ih c (.child hc) (children hd c hc)
      obtain ⟨e, copy⟩ := Mirrors.exists_of_children plain parts
      exact ⟨e, n + 1, .copy copy⟩

/-- The descriptors in play at the end of a history, with payloads that are like themselves. -/
structure InPlay.Reflexive (D E : Descriptor → Prop) (ω : Session) : Prop extends InPlay D E ω where
  reflexive : ∀ {d}, E d → ω.ground.Reflexive d

/-- An answer about two descriptors and one about their erasures. -/
theorem InPlay.Reflexive.erased {functions : Library} {D E : Descriptor → Prop} {ω : Session}
    {a b a' b' : Descriptor} {n m : Nat} {r r' : Bool} (play : InPlay.Reflexive D E ω)
    (resolving : Resolving functions D) (ha : E a) (hb : E b) (ha' : E a') (hb' : E b')
    (ea : Erases ω.ground a a') (eb : Erases ω.ground b b') (h : Judged functions D ω n a b r)
    (h' : Judged functions D ω m a' b' r') :
    (r = true → r' = true) ∧
      ((∀ {id thunk d}, E (.deferred id thunk) → ω.resolution? id = some d → d.isDeferred = false) →
        r' = r) := by
  obtain ⟨p, ea⟩ := ea
  obtain ⟨q, eb⟩ := eb
  have forth (yes : r = true) : r' = true := by
    subst yes
    have below := play.below_of_judged resolving ha hb h
    have erased := ea.below play.order play.reflexive ha hb eb below
    cases r' with
    | true => rfl
    | false => exact absurd erased (play.not_below_of_judged resolving ha' hb' h')
  refine ⟨forth, fun direct => ?_⟩
  cases r' with
  | false => exact (Bool.eq_false_iff.mpr fun yes => by cases forth yes).symm
  | true =>
    have erased := play.below_of_judged resolving ha' hb' h'
    have below := ea.below_of_erased play.order play.reflexive direct ha hb ha' hb' eb erased
    cases r with
    | true => rfl
    | false => exact absurd below (play.not_below_of_judged resolving ha hb h)

namespace Outlook.Compares

open Descriptor

variable {O : Outlook} {s t : Session} {a b : Descriptor}

/-- A comparison that no chain of requests keeps from ending answers, and leads to a later moment. -/
theorem answers (compares : O.Compares) (strict : ∀ f, ¬O.faults f) (moment : O.Moment s)
    (ha : O.family a) (hb : O.family b) (la : a.Live s.heap) (lb : b.Live s.heap)
    (acc : Acc (Asks O.stands) (a, b)) :
    ∃ n r t, O.Later s t ∧ ∀ m, n ≤ m → (O.engine m).subtype a b s = .ok r t := by
  obtain ⟨n, r, same, ends⟩ := compares.subtype acc s moment ha hb la lb
  cases r with
  | ok r t => exact ⟨n, r, t, ends.1, same⟩
  | error f t => exact absurd ends (strict f)

/-- Two descriptors that do not unfold for ever are compared. Once all that is deferred is resolved, they have
erasures, and these are compared too. The erasures are in the subtype relation if the descriptors are; the
answers are the same if no deferred descriptor resolves to a deferred one. -/
theorem subtype_erased (compares : O.Compares) (strict : ∀ f, ¬O.faults f)
    (resolving : Resolving O.functions O.family) (moment : O.Moment s) (ha : O.family a) (hb : O.family b)
    (la : a.Live s.heap) (lb : b.Live s.heap) (finite : Acc (Unfolds O.stands) a)
    (finite' : Acc (Unfolds O.stands) b) :
    ∃ n r t, O.Later s t ∧ (∀ m, n ≤ m → (Engine.ofDepth O.functions m).subtype a b s = .ok r t) ∧
      ∀ u, O.Later t u →
        ((∀ {id thunk}, O.family (.deferred id thunk) → (u.resolution? id).isSome) →
          ∃ a' b', Erases u.ground a a' ∧ Erases u.ground b b') ∧
        ∀ a' b', Erases u.ground a a' → Erases u.ground b b' → O.family a' → O.family b' →
          a'.Live u.heap → b'.Live u.heap →
          ∃ n' r' ω, O.Later u ω ∧
            (∀ m, n' ≤ m → (Engine.ofDepth O.functions m).subtype a' b' u = .ok r' ω) ∧
            ∀ E, InPlay.Reflexive O.family E ω → E a → E b → E a' → E b' →
              (r = true → r' = true) ∧
                ((∀ {id thunk d}, E (.deferred id thunk) → ω.resolution? id = some d →
                  d.isDeferred = false) → r' = r) := by
  have acc : Acc (Asks O.stands) (a, b) := by
    refine (Asks.acc_of_finite (F := Acc (Unfolds O.stands)) ?_ ?_ ?_ finite b finite').1
    · exact fun d hd c hc => hd.inv (.child hc)
    · exact fun d c hd hc => hd.inv (.target hc)
    · exact fun d hd => Subrelation.accessible (fun h => .target h) hd
  obtain ⟨n, r, t, st, first⟩ := compares.answers strict moment ha hb la lb acc
  refine ⟨n, r, t, st, first, fun u tu => ⟨fun all => ?_, fun a' b' ea eb ha' hb' la' lb' => ?_⟩⟩
  · have resolved {id : Ident} {thunk : Value} (hd : O.family (.deferred id thunk)) :
        ∃ d, u.ground.resolution id = some d ∧ O.family d ∧ O.stands (.deferred id thunk) d := by
      obtain ⟨d, found⟩ := Option.isSome_iff_exists.mp (all hd)
      exact ⟨d, found, (tu.moment.sound.resolved id thunk d hd found).1, tu.moment.stands hd found⟩
    obtain ⟨a', ea⟩ := Erases.exists_of_finite compares.children resolved ha finite
    obtain ⟨b', eb⟩ := Erases.exists_of_finite compares.children resolved hb finite'
    exact ⟨a', b', ea, eb⟩
  · have acc' : Acc (Asks O.stands) (a', b') := by
      obtain ⟨p, ea⟩ := ea
      obtain ⟨q, eb⟩ := eb
      exact ea.acc_asks eb
    obtain ⟨n', r', ω, uω, second⟩ := compares.answers strict tu.moment ha' hb' la' lb' acc'
    refine ⟨n', r', ω, uω, second, fun E play pa pb pa' pb' => ?_⟩
    have atEnd {d e : Descriptor} (h : Erases u.ground d e) : Erases ω.ground d e := by
      obtain ⟨k, h⟩ := h
      exact ⟨k, h.onGround uω.before.resolved⟩
    have judged : Judged O.functions O.family ω n a b r :=
      ⟨s, t, moment.sound, by simp [Value.Live, la, lb], first n (Nat.le_refl n), (tu.trans uω).before⟩
    have judged' : Judged O.functions O.family ω n' a' b' r' :=
      ⟨u, ω, tu.moment.sound, by simp [Value.Live, la', lb'], second n' (Nat.le_refl n'), .refl ω⟩
    exact play.erased resolving pa pb pa' pb' (atEnd ea) (atEnd eb) judged judged'

section Flags

/-- Optional flags. -/
abbrev flag : Descriptor := .deferred 1 (.fn { name := "flag", traced := false, bare := true })

abbrev flagCases : Descriptor := .nilable 2 .boolean

abbrev flagLists : Descriptor := .collection 3 .array flag

/-- Collections of optional flags, by another name. -/
abbrev flags : Descriptor := .deferred 4 (.fn { name := "flags", traced := false, bare := true })

abbrev flagCollections : Descriptor := .collection 5 .enumerable flagCases

abbrev plainLists : Descriptor := .collection 6 .array (.nilable 7 .boolean)

abbrev plainCollections : Descriptor := .collection 8 .enumerable (.nilable 9 .boolean)

inductive FlagFamily : Descriptor → Prop
  | flag : FlagFamily flag
  | cases : FlagFamily flagCases
  | lists : FlagFamily flagLists
  | flags : FlagFamily flags
  | collections : FlagFamily flagCollections
  | plainLists : FlagFamily plainLists
  | plainCollections : FlagFamily plainCollections
  | element : FlagFamily (.nilable 7 .boolean)
  | element' : FlagFamily (.nilable 9 .boolean)
  | boolean : FlagFamily .boolean
  | void : FlagFamily .void

def flagLibrary : Library := fun _ name _ _ =>
  return .descriptor (if name == "flag" then flagCases else flagCollections)

def flagOutlook : Outlook where
  functions := flagLibrary
  start := {}
  family := FlagFamily
  stands d c := d = flag ∧ c = flagCases ∨ d = flags ∧ c = flagCollections
  faults _ := False

theorem flag_children {d : Descriptor} (hd : FlagFamily d) : ∀ c ∈ d.children, FlagFamily c := by
  cases hd <;> intro c hc <;>
    simp only [Descriptor.children, List.mem_cons, List.not_mem_nil, or_false] at hc <;>
    subst hc <;> constructor

theorem flag_live {d : Descriptor} {h : Heap} (hd : FlagFamily d) : d.Live h := by
  cases hd <;> simp [Descriptor.Live, Value.Live]

theorem flag_compares : flagOutlook.Compares where
  children := flag_children
  identity := by
    rintro id thunk thunk' ⟨⟩ ⟨⟩ <;> rfl
  thunks := by
    rintro id thunk (_ | _) s moment
    · exact .deepen (.pure moment ⟨.cases, flag_live .cases, .inl ⟨rfl, rfl⟩⟩)
    · exact .deepen (.pure moment ⟨.collections, flag_live .collections, .inr ⟨rfl, rfl⟩⟩)
  texts := by
    rintro d hd s - - f hf
    cases hd <;> cases hf
  equality := by
    rintro a b ha hb s - - - f hf
    cases ha <;> cases hb <;> cases hf

theorem flag_resolving : Resolving flagLibrary FlagFamily where
  children := flag_children
  thunks := by
    rintro id thunk (_ | _) n <;> cases n with
    | zero => exact .throw _
    | succ n => exact .pure _
  targets := by
    rintro id thunk (_ | _) n s d t - run <;> cases n with
    | zero => cases run
    | succ n =>
      cases run
      exact ⟨by constructor, by simp [Descriptor.Live]⟩

theorem flag_payload (x : Value) : ¬Payload FlagFamily x := by
  rintro ⟨d, hd, hx⟩
  cases hd <;> simp [Descriptor.parts] at hx

theorem flag_inPlay {ω : Session} (moment : flagOutlook.Moment ω) :
    InPlay.Reflexive FlagFamily FlagFamily ω where
  sound := moment.sound
  tame := id
  live := flag_live
  elements := moment.sound.elements
  identity := by
    intro a b ha hb same
    cases ha <;> cases hb <;> first | rfl | cases same
  order := {
    children := flag_children
    resolved := fun hd hr => (moment.sound.resolved _ _ _ hd hr).1
    alike_symm := fun hx => absurd hx (flag_payload _)
    alike_trans := fun hx => absurd hx (flag_payload _)
    same_symm := by rintro _ _ _ _ ⟨⟩
    same_trans := by rintro _ _ _ _ _ _ ⟨⟩
    under_trans := by rintro _ _ _ ⟨_, ⟨⟨⟩⟩ | ⟨⟨⟩⟩ | ⟨⟨⟩⟩⟩ }
  reflexive hd := {
    alike := fun hx => absurd ⟨_, hd, hx⟩ (flag_payload _)
    same := by
      rintro i x rfl
      cases hd
    distinct := by
      intro fields named
      cases hd <;> simp [Descriptor.parts] at named }

/-- A session in which both names are resolved. -/
def flagsResolved : Session where
  resolved := [(4, flagCollections), (1, flagCases)]

theorem flags_start : flagOutlook.Moment {} where
  since := .refl _
  sound := {
    closed := .empty
    ancestors := fun _ he => by cases he
    resolved := fun _ _ _ _ hr => by cases hr
    elements := fun _ => .void }
  stands _ hr := by cases hr

theorem flags_finite :
    Acc (Unfolds flagOutlook.stands) flagLists ∧ Acc (Unfolds flagOutlook.stands) flags := by
  have parts {d : Descriptor} (plain : d.isDeferred = false)
      (h : ∀ c ∈ d.children, Acc (Unfolds flagOutlook.stands) c) : Acc (Unfolds flagOutlook.stands) d := by
    constructor
    rintro c (hc | ⟨rfl, -⟩ | ⟨rfl, -⟩)
    · exact h c hc
    · cases plain
    · cases plain
  have optional : Acc (Unfolds flagOutlook.stands) flagCases := by
    refine parts rfl (List.forall_mem_singleton.mpr (parts rfl fun _ hc => ?_))
    cases hc
  have named : Acc (Unfolds flagOutlook.stands) flag := by
    constructor
    rintro c (hc | ⟨-, rfl⟩ | ⟨impossible, -⟩)
    · cases hc
    · exact optional
    · cases impossible
  refine ⟨parts rfl (List.forall_mem_singleton.mpr named), ?_⟩
  constructor
  rintro c (hc | ⟨impossible, -⟩ | ⟨-, rfl⟩)
  · cases hc
  · cases impossible
  · exact parts rfl (List.forall_mem_singleton.mpr optional)

/-- Lists of optional flags are compared with collections of optional flags, and so are their erasures. -/
theorem flags_erased :
    Erases flagsResolved.ground flagLists plainLists ∧ Erases flagsResolved.ground flags plainCollections ∧
      ∃ n n' r ω,
        (∀ m, n ≤ m → (Engine.ofDepth flagLibrary m).subtype flagLists flags {} = .ok r flagsResolved) ∧
        ∀ m, n' ≤ m →
          (Engine.ofDepth flagLibrary m).subtype plainLists plainCollections flagsResolved = .ok r ω := by
  have lists : Erases flagsResolved.ground flagLists plainLists :=
    ⟨4, .copy (.collection (.resolve rfl (.copy (.nilable (.copy .boolean)))))⟩
  have collections : Erases flagsResolved.ground flags plainCollections :=
    ⟨4, .resolve rfl (.copy (.collection (.copy (.nilable (.copy .boolean)))))⟩
  obtain ⟨n, r, t, st, first, rest⟩ := subtype_erased flag_compares (fun _ => id) flag_resolving flags_start
    .lists .flags (flag_live .lists) (flag_live .flags) flags_finite.1 flags_finite.2
  have run : (Engine.ofDepth flagLibrary (n + 4)).subtype flagLists flags {} = .ok true flagsResolved := rfl
  obtain ⟨rfl, rfl⟩ : r = true ∧ t = flagsResolved := by
    have same := (first (n + 4) (by omega)).symm.trans run
    cases same
    exact ⟨rfl, rfl⟩
  obtain ⟨n', r', ω, later, second, agree⟩ := (rest flagsResolved st.moment.refl).2 _ _ lists collections
    .plainLists .plainCollections (flag_live .plainLists) (flag_live .plainCollections)
  have direct {id : Ident} {thunk : Value} {d : Descriptor} (hd : FlagFamily (.deferred id thunk))
      (hr : ω.resolution? id = some d) : d.isDeferred = false := by
    obtain ⟨-, rfl⟩ | ⟨-, rfl⟩ := later.moment.stands hd hr <;> rfl
  obtain rfl :=
    (agree FlagFamily (flag_inPlay later.moment) .lists .flags .plainLists .plainCollections).2 direct
  exact ⟨lists, collections, n, n', true, ω, first, second⟩

end Flags

section Chains

/-- Everything, by the name of a name. -/
abbrev chain : Descriptor := .deferred 1 (.fn { name := "outer", traced := false, bare := true })

abbrev link : Descriptor := .deferred 2 (.fn { name := "inner", traced := false, bare := true })

def chainLibrary : Library := fun _ name _ _ => return .descriptor (if name == "outer" then link else .void)

def chainResolved : Session where
  resolved := [(1, link), (2, .void)]

/-- A name for a name of everything is not found above lists, though everything is. -/
theorem chain_not_above (n : Nat) :
    Erases chainResolved.ground chain .void ∧
      (Engine.ofDepth chainLibrary (n + 2)).subtype (.collection 3 .array .boolean) chain chainResolved =
        .ok false chainResolved ∧
      (Engine.ofDepth chainLibrary (n + 2)).subtype (.collection 3 .array .boolean) .void chainResolved =
        .ok true chainResolved :=
  ⟨⟨3, .resolve rfl (.resolve rfl (.copy .void))⟩, rfl, rfl⟩

end Chains

end Outlook.Compares

end Conform
