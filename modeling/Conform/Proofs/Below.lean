import Conform.Proofs.History
import Conform.Proofs.Parts

/-!
The subtype relation that the rules of subtyping describe. `BelowIn G n a b` says that the rules show `a`
below `b` in at most `n` steps; a deferred descriptor on the left is resolved as often as needed, one on
the right once for each step.

Equal descriptors are related as a whole. Their parts need not show it: of several descriptors of one name
only the last is looked up, though all are asked for.

Main statement: `BelowIn.trans`. Deferred descriptors stand in the way of a plain induction on the rules:
a negation turns its sides around, so the induction is on the number of steps of both sides together.
-/
namespace Conform

/-- What subtyping refers to besides the descriptors: what the deferred ones resolved to, which payloads
count as equal, and which objects as identical. A class is equal to itself alone. -/
structure Ground where
  resolution : Ident → Option Descriptor
  alike : Value → Value → Prop
  same : Value → Value → Prop
  classes : ∀ {c d}, alike (.cls c) (.cls d) → c = d

/-- Whether every name that the second side asks for is asked for by the first, related descriptors
apart. -/
def NamedBelow (R : Descriptor → Descriptor → Prop) (mine theirs : List (String × Descriptor)) : Prop :=
  ∀ f ∈ theirs, ∃ e, Descriptor.named? mine f.1 = some e ∧ R e.2 f.2

/-- Two descriptors of one variant whose parts are related as the rules ask, the named ones by a relation of
their own. -/
inductive StructBy (G : Ground) (N : List (String × Descriptor) → List (String × Descriptor) → Prop)
    (R : Descriptor → Descriptor → Prop) : Descriptor → Descriptor → Prop
  | union {i j mine theirs} (h : ∀ m ∈ mine, ∃ t ∈ theirs, R m t) :
    StructBy G N R (.union i mine) (.union j theirs)
  | intersection {i j mine theirs} (h : ∀ t ∈ theirs, ∃ m ∈ mine, R m t) :
    StructBy G N R (.intersection i mine) (.intersection j theirs)
  | negation {i j a b} (h : R b a) : StructBy G N R (.negation i a) (.negation j b)
  | nilable {i j a b} (h : R a b) : StructBy G N R (.nilable i a) (.nilable j b)
  | constraint {i j bases bases' predicates predicates'} (hb : ∀ t ∈ bases', ∃ m ∈ bases, R m t)
    (hp : N predicates predicates') :
    StructBy G N R (.constraint i bases predicates) (.constraint j bases' predicates')
  | rangeOf {i j a b} (h : R a b) : StructBy G N R (.rangeOf i a) (.rangeOf j b)
  | tupleOf {i j mine theirs} (h : List.Forall₂ R mine theirs) :
    StructBy G N R (.tupleOf i mine) (.tupleOf j theirs)
  | shape {i j mine theirs} (h : N mine theirs) : StructBy G N R (.shape i mine) (.shape j theirs)
  | collection {i j kind kind' a b} (hk : kind' = .enumerable ∨ kind = kind') (h : R a b) :
    StructBy G N R (.collection i kind a) (.collection j kind' b)
  | mappingOf {i j key key' value value'} (hk : R key key') (hv : R value value') :
    StructBy G N R (.mappingOf i key value) (.mappingOf j key' value')
  | instanceOf {i j c c'} (h : c.under c' = true) : StructBy G N R (.instanceOf i c) (.instanceOf j c')
  | classOf {i j c c'} (h : c.under c' = true) : StructBy G N R (.classOf i c) (.classOf j c')
  | descendantClass {i j c c'} (h : c.under c' = true) : StructBy G N R (.descendantOf i c) (.classOf j c')
  | descendantOf {i j c c'} (h : c.under c' = true) : StructBy G N R (.descendantOf i c) (.descendantOf j c')
  | interface {i j mine theirs} (h : ∀ m ∈ theirs, m ∈ mine) :
    StructBy G N R (.interface i mine) (.interface j theirs)
  | predicate {i j message message' fn fn'} (hm : G.alike message message') (hf : G.alike fn fn') :
    StructBy G N R (.predicate i message fn) (.predicate j message' fn')
  | unit {i j x y} (h : G.same x y) : StructBy G N R (.unit i x) (.unit j y)
  | equal {i j x y} (h : G.alike x y) : StructBy G N R (.equal i x) (.equal j y)
  | within {i j x y} (h : G.alike x y) : StructBy G N R (.within i x) (.within j y)
  | regex {i j x y} (h : G.alike (.regex x) (.regex y)) : StructBy G N R (.regex i x) (.regex j y)
  | checkedListOf {i j a b} (h : R a b) : StructBy G N R (.checkedListOf i a) (.checkedListOf j b)

/-- Two descriptors of one variant whose parts are related as the rules ask. -/
abbrev Struct (G : Ground) (R : Descriptor → Descriptor → Prop) : Descriptor → Descriptor → Prop :=
  StructBy G (NamedBelow R) R

/-- One layer of equality: the same descriptor, or one of the same variant with equal parts. -/
inductive Twin (G : Ground) (C : Descriptor → Descriptor → Prop) : Descriptor → Descriptor → Prop
  | self {a} : Twin G C a a
  | unit {i j x y} (same : G.same x y) : Twin G C (.unit i x) (.unit j y)
  | parts {a b} (one : a.variant = b.variant) (structural : a.isStructural = true)
    (parts : List.Forall₂ (Descriptor.Part.Alike G.alike C) a.parts b.parts) : Twin G C a b

/-- Whether two descriptors are equal, found in a number of layers. -/
def TwinIn (G : Ground) : Nat → Descriptor → Descriptor → Prop
  | 0 => Eq
  | n + 1 => Twin G (TwinIn G n)

/-- Whether a descriptor stands for another by way of a thunk. -/
def Descriptor.isDeferred : Descriptor → Bool
  | .deferred .. => true
  | _ => false

/-- Whether a descriptor is one of the constants. -/
def Descriptor.isConstant (d : Descriptor) : Bool :=
  d.ident?.isNone

/-- A descriptor with one deferred layer taken off. -/
inductive Uncovers (G : Ground) : Descriptor → Descriptor → Prop
  | deferred {id thunk d} (h : G.resolution id = some d) : Uncovers G (.deferred id thunk) d
  | plain {d} (h : d.isDeferred = false) : Uncovers G d d

/-- The rules for two descriptors neither of which is deferred. -/
inductive Settled (G : Ground) (R : Descriptor → Descriptor → Prop) : Descriptor → Descriptor → Prop
  | self {a} : Settled G R a a
  | void {a} : Settled G R a .void
  | twin {a b n} (h : TwinIn G n a b) : Settled G R a b
  | struct {a b} (h : Struct G R a b) : Settled G R a b

/-- One rule of subtyping. -/
inductive Rule (G : Ground) (R : Descriptor → Descriptor → Prop) : Descriptor → Descriptor → Prop
  | never {b} : Rule G R .never b
  | self {a} : Rule G R a a
  | resolve {id thunk a b} (h : G.resolution id = some a) (ha : R a b) : Rule G R (.deferred id thunk) b
  | settle {a b b'} (ha : a.isDeferred = false) (hb : Uncovers G b b') (h : Settled G R a b') : Rule G R a b

/-- Whether the rules show one descriptor below another in a number of steps. -/
def BelowIn (G : Ground) : Nat → Descriptor → Descriptor → Prop
  | 0 => fun _ _ => False
  | n + 1 => Rule G (BelowIn G n)

theorem Class.under_refl (c : Class) : c.under c = true := by
  have own : c.mro.contains c = true := by
    cases c with
    | variant v => cases v <;> rfl
    | internal n => simp [Class.mro]
    | _ => rfl
  simp only [Class.under, own, Bool.true_or]

theorem field_mem {d : Descriptor} {fields : List (String × Descriptor)} {f : String × Descriptor}
    (named : .named fields ∈ d.parts) (hf : f ∈ fields) : f.2 ∈ d.children := by
  cases d <;> simp [Descriptor.parts] at named <;> subst named <;> simp [Descriptor.children] <;> grind

theorem forall₂_imp_of_mem {α β : Type} {P Q : α → β → Prop} {as : List α} {bs : List β}
    (h : List.Forall₂ P as bs) (hPQ : ∀ a ∈ as, ∀ b ∈ bs, P a b → Q a b) : List.Forall₂ Q as bs := by
  induction h with
  | nil => exact .nil
  | cons hab _ ih =>
    refine .cons (hPQ _ (.head _) _ (.head _) hab) (ih fun a ha b hb => ?_)
    exact hPQ a (.tail _ ha) b (.tail _ hb)

theorem forall₂_mem {α β : Type} {R : α → β → Prop} {as : List α} {bs : List β}
    (h : List.Forall₂ R as bs) :
    (∀ a ∈ as, ∃ b ∈ bs, R a b) ∧ ∀ b ∈ bs, ∃ a ∈ as, R a b := by
  induction h with
  | nil => simp
  | cons hab _ ih =>
    constructor
    · rintro _ (_ | ⟨_, ha⟩)
      · exact ⟨_, .head _, hab⟩
      · obtain ⟨b, hb, h⟩ := ih.1 _ ha
        exact ⟨b, .tail _ hb, h⟩
    · rintro _ (_ | ⟨_, hb⟩)
      · exact ⟨_, .head _, hab⟩
      · obtain ⟨a, ha, h⟩ := ih.2 _ hb
        exact ⟨a, .tail _ ha, h⟩

section Mono

variable {G H : Ground} {R S : Descriptor → Descriptor → Prop} {a b : Descriptor}
  {N N' : List (String × Descriptor) → List (String × Descriptor) → Prop}

theorem NamedBelow.imp {mine theirs : List (String × Descriptor)} (h : NamedBelow R mine theirs)
    (hRS : ∀ e ∈ mine, ∀ f ∈ theirs, R e.2 f.2 → S e.2 f.2) : NamedBelow S mine theirs := by
  intro f hf
  obtain ⟨e, found, hr⟩ := h f hf
  exact ⟨e, found, hRS e (mem_of_named? found).1 f hf hr⟩

/-- The rule of a variant carries over along with the parts it refers to. -/
theorem StructBy.imp (h : StructBy G N R a b)
    (hRS : ∀ x ∈ a.children, ∀ y ∈ b.children, (R x y → S x y) ∧ (R y x → S y x))
    (named : ∀ {mine theirs}, .named mine ∈ a.parts → .named theirs ∈ b.parts → N mine theirs → N' mine theirs)
    (alike : ∀ x y, .value x ∈ a.parts → .value y ∈ b.parts → G.alike x y → H.alike x y)
    (same : ∀ x y, G.same x y → H.same x y) : StructBy H N' S a b := by
  have forth {x y : Descriptor} (hx : x ∈ a.children) (hy : y ∈ b.children) : R x y → S x y :=
    (hRS x hx y hy).1
  have below {mine theirs : List Descriptor} (hm : ∀ d ∈ mine, d ∈ a.children)
      (ht : ∀ d ∈ theirs, d ∈ b.children) (h : ∀ t ∈ theirs, ∃ m ∈ mine, R m t) :
      ∀ t ∈ theirs, ∃ m ∈ mine, S m t := by
    intro d hd
    obtain ⟨m, hm', hr⟩ := h d hd
    exact ⟨m, hm', forth (hm m hm') (ht d hd) hr⟩
  cases h with
  | union h =>
    refine .union fun m hm => ?_
    obtain ⟨t, ht, hr⟩ := h m hm
    exact ⟨t, ht, forth hm ht hr⟩
  | intersection h => exact .intersection (below (fun _ h => h) (fun _ h => h) h)
  | negation h => exact .negation ((hRS _ (.head _) _ (.head _)).2 h)
  | nilable h | rangeOf h | checkedListOf h =>
    constructor
    exact forth (.head _) (.head _) h
  | constraint hb hp =>
    refine .constraint (below ?_ ?_ hb) (named (.tail _ (.head _)) (.tail _ (.head _)) hp)
    · exact fun d hd => Descriptor.base_mem hd
    · exact fun d hd => Descriptor.base_mem hd
  | tupleOf h => exact .tupleOf (forall₂_imp_of_mem h fun x hx y hy => forth hx hy)
  | shape h => exact .shape (named (.head _) (.head _) h)
  | collection hk h => exact .collection hk (forth (.head _) (.head _) h)
  | mappingOf hk hv =>
    exact .mappingOf (forth (.head _) (.head _) hk) (forth (.tail _ (.head _)) (.tail _ (.head _)) hv)
  | instanceOf h | classOf h | descendantClass h | descendantOf h | interface h =>
    constructor
    exact h
  | predicate hm hf =>
    exact .predicate (alike _ _ (.head _) (.head _) hm)
      (alike _ _ (.tail _ (.head _)) (.tail _ (.head _)) hf)
  | unit h => exact .unit (same _ _ h)
  | equal h | within h | regex h =>
    constructor
    exact alike _ _ (.head _) (.head _) h

/-- A descriptor falls under the rule of its variant along with itself, if its parts are related to themselves. -/
theorem StructBy.refl (hR : ∀ d ∈ a.children, R d d) (alike : ∀ {x}, .value x ∈ a.parts → G.alike x x)
    (same : ∀ {i x}, a = .unit i x → G.same x x) (named : ∀ {fields}, .named fields ∈ a.parts → N fields fields)
    (plain : a.isDeferred = false) (built : a.isConstant = false) : StructBy G N R a a := by
  cases a with
  | any | void | never | boolean | truthy | falsy | jsonData => cases built
  | deferred => cases plain
  | union i types => exact .union fun d hd => ⟨d, hd, hR d hd⟩
  | intersection i types => exact .intersection fun d hd => ⟨d, hd, hR d hd⟩
  | negation i inner | nilable i inner | rangeOf i inner | checkedListOf i inner =>
    constructor
    exact hR inner (.head _)
  | constraint i bases predicates =>
    exact .constraint (fun d hd => ⟨d, hd, hR d (Descriptor.base_mem hd)⟩) (named (.tail _ (.head _)))
  | tupleOf i types => exact .tupleOf (List.forall₂_same.mpr hR)
  | shape i fields => exact .shape (named (.head _))
  | collection i kind element => exact .collection (.inr rfl) (hR element (.head _))
  | mappingOf i key value => exact .mappingOf (hR key (.head _)) (hR value (.tail _ (.head _)))
  | instanceOf i c | classOf i c | descendantOf i c =>
    constructor
    exact c.under_refl
  | interface i names => exact .interface fun _ h => h
  | predicate i message fn => exact .predicate (alike (.head _)) (alike (.tail _ (.head _)))
  | unit i x => exact .unit (same rfl)
  | equal i x | within i x | regex i x =>
    constructor
    exact alike (.head _)

theorem Struct.mono (hRS : ∀ a b, R a b → S a b) (h : Struct G R a b) : Struct G S a b :=
  h.imp (fun x _ y _ => ⟨hRS x y, hRS y x⟩) (fun _ _ h => h.imp fun _ _ _ _ => hRS _ _) (fun _ _ _ _ => id)
    fun _ _ => id

theorem Settled.mono (hRS : ∀ a b, R a b → S a b) (h : Settled G R a b) : Settled G S a b := by
  cases h with
  | self => exact .self
  | void => exact .void
  | twin h => exact .twin h
  | struct h => exact .struct (Struct.mono hRS h)

theorem Rule.mono (hRS : ∀ a b, R a b → S a b) (h : Rule G R a b) : Rule G S a b := by
  cases h with
  | never => exact .never
  | self => exact .self
  | resolve h ha => exact .resolve h (hRS _ _ ha)
  | settle ha hb h => exact .settle ha hb (h.mono hRS)

theorem BelowIn.succ {n : Nat} (h : BelowIn G n a b) : BelowIn G (n + 1) a b := by
  induction n generalizing a b with
  | zero => exact h.elim
  | succ n ih => exact Rule.mono (fun _ _ => ih) h

theorem BelowIn.mono {n m : Nat} (hnm : n ≤ m) (h : BelowIn G n a b) : BelowIn G m a b := by
  induction hnm with
  | refl => exact h
  | step _ ih => exact ih.succ

end Mono

/-- Whether a value is a part of a descriptor of a family. -/
def Payload (E : Descriptor → Prop) (x : Value) : Prop :=
  ∃ d, E d ∧ Descriptor.Part.value x ∈ d.parts

/-- Whether a class is named by a descriptor of a family. -/
def Names (E : Descriptor → Prop) (c : Class) : Prop :=
  ∃ id, E (.instanceOf id c) ∨ E (.classOf id c) ∨ E (.descendantOf id c)

/-- A family on which the ground is an order: the family has the parts and the resolutions of its
members, equality of payloads and identity of objects are equivalences, and descent of classes is
transitive. -/
structure Ground.Lawful (G : Ground) (E : Descriptor → Prop) : Prop where
  children : ∀ {d}, E d → ∀ c ∈ d.children, E c
  resolved : ∀ {id thunk d}, E (.deferred id thunk) → G.resolution id = some d → E d
  alike_symm : ∀ {x y}, Payload E x → Payload E y → G.alike x y → G.alike y x
  alike_trans : ∀ {x y z}, Payload E x → Payload E y → Payload E z → G.alike x y → G.alike y z →
    G.alike x z
  same_symm : ∀ {i j x y}, E (.unit i x) → E (.unit j y) → G.same x y → G.same y x
  same_trans : ∀ {i j k x y z}, E (.unit i x) → E (.unit j y) → E (.unit k z) → G.same x y →
    G.same y z → G.same x z
  under_trans : ∀ {b c d : Class}, Names E b → Names E c → Names E d → b.under c = true →
    c.under d = true → b.under d = true

/-- Whether a part of a descriptor is made of what belongs to a family. -/
def Descriptor.Part.Of (E : Descriptor → Prop) : Descriptor.Part → Prop
  | .value x => Payload E x
  | .child d => E d
  | .children ds => ∀ d ∈ ds, E d
  | .named fields => ∀ f ∈ fields, E f.2
  | .names _ => True

section Transitivity

variable {G : Ground} {E : Descriptor → Prop} {R S T : Descriptor → Descriptor → Prop}
  {a b c : Descriptor}

section Named

variable {mine ours theirs : List (String × Descriptor)} (em : ∀ f ∈ mine, E f.2) (eo : ∀ f ∈ ours, E f.2)
  (et : ∀ f ∈ theirs, E f.2) (hRS : ∀ x y z, E x → E y → E z → R x y → S y z → T x z)
include em eo et hRS

theorem NamedBelow.trans (h : NamedBelow R mine ours) (h' : NamedBelow S ours theirs) :
    NamedBelow T mine theirs := by
  intro f hf
  obtain ⟨e, found, hs⟩ := h' f hf
  obtain ⟨he, hn⟩ := mem_of_named? found
  obtain ⟨g, found', hr⟩ := h e he
  exact ⟨g, hn ▸ found', hRS _ _ _ (em g (mem_of_named? found').1) (eo e he) (et f hf) hr hs⟩

theorem NamedBelow.trans_alike (h : NamedBelow R mine ours) (h' : NamedAlike S ours theirs) :
    NamedBelow T mine theirs := by
  intro f hf
  obtain ⟨e, he, hn, hs⟩ := (forall₂_mem h').2 f hf
  obtain ⟨g, found, hr⟩ := h e he
  exact ⟨g, hn ▸ found, hRS _ _ _ (em g (mem_of_named? found).1) (eo e he) (et f hf) hr hs⟩

theorem NamedAlike.trans_below (h : NamedAlike R mine ours) (h' : NamedBelow S ours theirs) :
    NamedBelow T mine theirs := by
  intro f hf
  obtain ⟨e, found, hs⟩ := h' f hf
  obtain ⟨g, found', hr⟩ := h.flip.named? found
  exact ⟨g, found', hRS _ _ _ (em g (mem_of_named? found').1) (eo e (mem_of_named? found).1) (et f hf) hr hs⟩

end Named

theorem someBelow_trans {mine ours theirs : List Descriptor}
    (em : ∀ d ∈ mine, E d) (eo : ∀ d ∈ ours, E d) (et : ∀ d ∈ theirs, E d)
    (hRS : ∀ x y z, E x → E y → E z → R x y → S y z → T x z) (h : ∀ o ∈ ours, ∃ m ∈ mine, R m o)
    (h' : ∀ t ∈ theirs, ∃ o ∈ ours, S o t) : ∀ t ∈ theirs, ∃ m ∈ mine, T m t := by
  intro t ht
  obtain ⟨o, ho, hs⟩ := h' t ht
  obtain ⟨m, hm, hr⟩ := h o ho
  exact ⟨m, hm, hRS _ _ _ (em m hm) (eo o ho) (et t ht) hr hs⟩

theorem forall₂_trans {α : Type} {E : α → Prop} {R S T : α → α → Prop}
    (hRS : ∀ x y z, E x → E y → E z → R x y → S y z → T x z) :
    ∀ {as bs cs : List α}, (∀ d ∈ as, E d) → (∀ d ∈ bs, E d) → (∀ d ∈ cs, E d) →
      List.Forall₂ R as bs → List.Forall₂ S bs cs → List.Forall₂ T as cs
  | _, _, _, _, _, _, .nil, .nil => .nil
  | _, _, _, ea, eb, ec, .cons h hs, .cons h' hs' => by
    simp only [List.forall_mem_cons] at ea eb ec
    exact .cons (hRS _ _ _ ea.1 eb.1 ec.1 h h') (forall₂_trans hRS ea.2 eb.2 ec.2 hs hs')

section Parts

open Descriptor

theorem parts_of (ha : E a) (children : ∀ c ∈ a.children, E c) : ∀ p ∈ a.parts, p.Of E := by
  have payload (x : Value) (hx : .value x ∈ a.parts) : Payload E x := ⟨a, ha, hx⟩
  cases a <;> simp_all [Descriptor.parts, Descriptor.children, Descriptor.Part.Of] <;> grind

variable {V W : Value → Value → Prop} {p q s : Part}

theorem Descriptor.Part.Alike.flip (h : Part.Alike V R p q) :
    Part.Alike (fun x y => V y x) (fun x y => R y x) q p := by
  cases h with
  | value h => exact .value h
  | child h => exact .child h
  | children h => exact .children h.flip
  | named h => exact .named (NamedAlike.flip h)
  | names => exact .names

theorem Descriptor.Part.Alike.imp (hp : p.Of E) (hq : q.Of E)
    (value : ∀ {x y}, Payload E x → Payload E y → V x y → W x y) (child : ∀ {x y}, E x → E y → R x y → S x y)
    (h : Part.Alike V R p q) : Part.Alike W S p q := by
  cases h with
  | value h => exact .value (value hp hq h)
  | child h => exact .child (child hp hq h)
  | children h => exact .children (forall₂_imp_of_mem h fun x hx y hy => child (hp x hx) (hq y hy))
  | named h =>
    exact .named (forall₂_imp_of_mem h fun x hx y hy h => ⟨h.1, child (hp x hx) (hq y hy) h.2⟩)
  | names => exact .names

theorem Descriptor.Part.Alike.trans (hp : p.Of E) (hq : q.Of E) (hs : s.Of E)
    (value : ∀ {x y z}, Payload E x → Payload E y → Payload E z → V x y → V y z → V x z)
    (child : ∀ x y z, E x → E y → E z → R x y → R y z → R x z) (first : Part.Alike V R p q)
    (second : Part.Alike V R q s) : Part.Alike V R p s := by
  cases first with
  | value first =>
    obtain ⟨second⟩ := second
    exact .value (value hp hq hs first second)
  | child first =>
    obtain _ | ⟨second⟩ := second
    exact .child (child _ _ _ hp hq hs first second)
  | children first =>
    obtain _ | _ | ⟨second⟩ := second
    exact .children (forall₂_trans child hp hq hs first second)
  | named first =>
    obtain _ | _ | _ | ⟨second⟩ := second
    refine .named (forall₂_trans (fun f g e hf hg he fg ge => ?_) hp hq hs first second)
    exact ⟨fg.1.trans ge.1, child _ _ _ hf hg he fg.2 ge.2⟩
  | names => exact second

/-- Equal parts are equal in another way as well, if their payloads and children are. -/
theorem alike_parts_imp (ha : E a) (hb : E b) (children : ∀ {d}, E d → ∀ c ∈ d.children, E c)
    (value : ∀ {x y}, Payload E x → Payload E y → V x y → W x y) (child : ∀ {x y}, E x → E y → R x y → S x y)
    (h : List.Forall₂ (Part.Alike V R) a.parts b.parts) : List.Forall₂ (Part.Alike W S) a.parts b.parts :=
  forall₂_imp_of_mem h fun p hp q hq h =>
    h.imp (parts_of ha (children ha) p hp) (parts_of hb (children hb) q hq) value child

end Parts

/-- Descriptors of one variant compose part by part. A negation composes the other way around. -/
theorem StructBy.trans {N N' N'' : List (String × Descriptor) → List (String × Descriptor) → Prop}
    (law : G.Lawful E) (ha : E a) (hb : E b) (hc : E c)
    (hRS : ∀ x y z, E x → E y → E z → R x y → S y z → T x z)
    (hSR : ∀ x y z, E x → E y → E z → S x y → R y z → T x z)
    (hab : StructBy G N R a b) (hbc : StructBy G N' S b c)
    (named : ∀ {mine ours theirs}, (∀ f ∈ mine, E f.2) → (∀ f ∈ ours, E f.2) → (∀ f ∈ theirs, E f.2) →
      N mine ours → N' ours theirs → N'' mine theirs) : StructBy G N'' T a c := by
  have ea := law.children ha
  have eb := law.children hb
  have ec := law.children hc
  have part {x y z : Descriptor} (hx : x ∈ a.children) (hy : y ∈ b.children) (hz : z ∈ c.children)
      (h : R x y) (h' : S y z) : T x z := hRS x y z (ea x hx) (eb y hy) (ec z hz) h h'
  have like {x y z : Value} (hx : .value x ∈ a.parts) (hy : .value y ∈ b.parts)
      (hz : .value z ∈ c.parts) : G.alike x y → G.alike y z → G.alike x z :=
    law.alike_trans ⟨a, ha, hx⟩ ⟨b, hb, hy⟩ ⟨c, hc, hz⟩
  cases hab with
  | union h =>
    cases hbc with
    | union h' =>
      refine .union fun m hm => ?_
      obtain ⟨o, ho, hr⟩ := h m hm
      obtain ⟨t, ht, hs⟩ := h' o ho
      exact ⟨t, ht, part hm ho ht hr hs⟩
  | intersection h =>
    cases hbc with
    | intersection h' => exact .intersection (someBelow_trans ea eb ec hRS h h')
  | negation h =>
    cases hbc with
    | negation h' =>
      exact .negation (hSR _ _ _ (ec _ (.head _)) (eb _ (.head _)) (ea _ (.head _)) h' h)
  | nilable h | rangeOf h | checkedListOf h =>
    cases hbc
    next h' =>
      constructor
      exact part (.head _) (.head _) (.head _) h h'
  | constraint hm hp =>
    cases hbc with
    | constraint hm' hp' =>
      have fields {f : String × Descriptor} {i bs ps}
          (hd : ∀ c ∈ (Descriptor.constraint i bs ps).children, E c) (hf : f ∈ ps) : E f.2 :=
        hd f.2 (Descriptor.predicate_mem hf)
      refine .constraint (someBelow_trans ?_ ?_ ?_ hRS hm hm')
        (named (fun _ => fields ea) (fun _ => fields eb) (fun _ => fields ec) hp hp')
      · exact fun d hd => ea d (Descriptor.base_mem hd)
      · exact fun d hd => eb d (Descriptor.base_mem hd)
      · exact fun d hd => ec d (Descriptor.base_mem hd)
  | tupleOf h =>
    cases hbc with
    | tupleOf h' => exact .tupleOf (forall₂_trans hRS ea eb ec h h')
  | shape h =>
    cases hbc with
    | shape h' =>
      refine .shape (named ?_ ?_ ?_ h h')
      · exact fun f hf => ea f.2 (List.mem_map_of_mem hf)
      · exact fun f hf => eb f.2 (List.mem_map_of_mem hf)
      · exact fun f hf => ec f.2 (List.mem_map_of_mem hf)
  | collection hk h =>
    cases hbc with
    | collection hk' h' =>
      refine .collection ?_ (part (.head _) (.head _) (.head _) h h')
      obtain rfl | rfl := hk'
      · exact .inl rfl
      · exact hk
  | mappingOf hk hv =>
    cases hbc with
    | mappingOf hk' hv' =>
      exact .mappingOf (part (.head _) (.head _) (.head _) hk hk')
        (part (.tail _ (.head _)) (.tail _ (.head _)) (.tail _ (.head _)) hv hv')
  | instanceOf h =>
    cases hbc with
    | instanceOf h' => exact .instanceOf (law.under_trans ⟨_, .inl ha⟩ ⟨_, .inl hb⟩ ⟨_, .inl hc⟩ h h')
  | classOf h =>
    cases hbc with
    | classOf h' =>
      exact .classOf (law.under_trans ⟨_, .inr (.inl ha)⟩ ⟨_, .inr (.inl hb)⟩ ⟨_, .inr (.inl hc)⟩ h h')
  | descendantClass h =>
    cases hbc with
    | classOf h' =>
      exact .descendantClass
        (law.under_trans ⟨_, .inr (.inr ha)⟩ ⟨_, .inr (.inl hb)⟩ ⟨_, .inr (.inl hc)⟩ h h')
  | descendantOf h =>
    cases hbc with
    | descendantClass h' =>
      exact .descendantClass
        (law.under_trans ⟨_, .inr (.inr ha)⟩ ⟨_, .inr (.inr hb)⟩ ⟨_, .inr (.inl hc)⟩ h h')
    | descendantOf h' =>
      exact .descendantOf
        (law.under_trans ⟨_, .inr (.inr ha)⟩ ⟨_, .inr (.inr hb)⟩ ⟨_, .inr (.inr hc)⟩ h h')
  | interface h =>
    cases hbc with
    | interface h' => exact .interface fun m hm => h m (h' m hm)
  | predicate hm hf =>
    cases hbc with
    | predicate hm' hf' =>
      exact .predicate (like (.head _) (.head _) (.head _) hm hm')
        (like (.tail _ (.head _)) (.tail _ (.head _)) (.tail _ (.head _)) hf hf')
  | unit h =>
    cases hbc with
    | unit h' => exact .unit (law.same_trans ha hb hc h h')
  | equal h | within h | regex h =>
    cases hbc
    next h' =>
      constructor
      exact like (.head _) (.head _) (.head _) h h'

theorem StructBy.plain {N : List (String × Descriptor) → List (String × Descriptor) → Prop}
    (h : StructBy G N R a b) : b.isDeferred = false := by
  cases h <;> rfl

/-- Descriptors of one variant with equal parts are below each other, if equal children are. -/
theorem structBy_of_parts {C : Descriptor → Descriptor → Prop} (one : a.variant = b.variant)
    (structural : a.isStructural = true) (parts : List.Forall₂ (Descriptor.Part.Alike G.alike C) a.parts b.parts)
    (child : ∀ x ∈ a.children, ∀ y ∈ b.children, C x y → R x y ∧ R y x) :
    a = b ∨ StructBy G (NamedAlike R) R a b := by
  have single {p q : Descriptor.Part} (h : List.Forall₂ (Descriptor.Part.Alike G.alike C) [p] [q]) :
      p.Alike G.alike C q := by simpa using h
  have pair {p q p' q' : Descriptor.Part}
      (h : List.Forall₂ (Descriptor.Part.Alike G.alike C) [p, p'] [q, q']) :
      p.Alike G.alike C q ∧ p'.Alike G.alike C q' := by simpa using h
  have inner {x y : Descriptor} (hx : x ∈ a.children) (hy : y ∈ b.children)
      (h : Descriptor.Part.Alike G.alike C (.child x) (.child y)) : R x y ∧ R y x := by
    obtain _ | ⟨h⟩ := h
    exact child x hx y hy h
  have value {x y : Value} (h : Descriptor.Part.Alike G.alike C (.value x) (.value y)) : G.alike x y := by
    obtain ⟨h⟩ := h
    exact h
  have many {as bs : List Descriptor} (ha : ∀ x ∈ as, x ∈ a.children) (hb : ∀ y ∈ bs, y ∈ b.children)
      (h : Descriptor.Part.Alike G.alike C (.children as) (.children bs)) : List.Forall₂ R as bs := by
    obtain _ | _ | ⟨h⟩ := h
    exact forall₂_imp_of_mem h fun x hx y hy h => (child x (ha x hx) y (hb y hy) h).1
  have named {as bs : List (String × Descriptor)} (ha : ∀ f ∈ as, f.2 ∈ a.children)
      (hb : ∀ f ∈ bs, f.2 ∈ b.children) (h : Descriptor.Part.Alike G.alike C (.named as) (.named bs)) :
      NamedAlike R as bs := by
    obtain _ | _ | _ | ⟨h⟩ := h
    exact forall₂_imp_of_mem h fun f hf g hg h => ⟨h.1, (child _ (ha f hf) _ (hb g hg) h.2).1⟩
  have shape := b.described
  rw [← one] at shape
  cases a with
  | deferred | unit => cases structural
  | any | void | never | boolean | truthy | falsy | jsonData => exact .inl shape.symm
  | union i mine =>
    obtain ⟨j, theirs, rfl⟩ := shape
    exact .inr (.union (forall₂_mem (many (fun _ h => h) (fun _ h => h) (single parts))).1)
  | intersection i mine =>
    obtain ⟨j, theirs, rfl⟩ := shape
    exact .inr (.intersection (forall₂_mem (many (fun _ h => h) (fun _ h => h) (single parts))).2)
  | negation i mine =>
    obtain ⟨j, theirs, rfl⟩ := shape
    exact .inr (.negation (inner (.head _) (.head _) (single parts)).2)
  | nilable i mine | rangeOf i mine | checkedListOf i mine =>
    obtain ⟨j, theirs, rfl⟩ := shape
    right
    constructor
    exact (inner (.head _) (.head _) (single parts)).1
  | constraint i bases predicates =>
    obtain ⟨j, bases', predicates', rfl⟩ := shape
    have above := many (fun _ => Descriptor.base_mem) (fun _ => Descriptor.base_mem) (pair parts).1
    exact .inr (.constraint (forall₂_mem above).2
      (named (fun _ => Descriptor.predicate_mem) (fun _ => Descriptor.predicate_mem) (pair parts).2))
  | tupleOf i mine =>
    obtain ⟨j, theirs, rfl⟩ := shape
    exact .inr (.tupleOf (many (fun _ h => h) (fun _ h => h) (single parts)))
  | shape i mine =>
    obtain ⟨j, theirs, rfl⟩ := shape
    exact .inr (.shape
      (named (fun _ h => List.mem_map_of_mem h) (fun _ h => List.mem_map_of_mem h) (single parts)))
  | collection i kind mine =>
    cases kind <;>
      (obtain ⟨j, theirs, rfl⟩ := shape
       exact .inr (.collection (.inr rfl) (inner (.head _) (.head _) (single parts)).1))
  | mappingOf i key image =>
    obtain ⟨j, key', image', rfl⟩ := shape
    exact .inr (.mappingOf (inner (.head _) (.head _) (pair parts).1).1
      (inner (.tail _ (.head _)) (.tail _ (.head _)) (pair parts).2).1)
  | instanceOf i c | classOf i c | descendantOf i c =>
    obtain ⟨j, c', rfl⟩ := shape
    obtain rfl := G.classes (value (single parts))
    right
    constructor
    exact c.under_refl
  | interface i names =>
    obtain ⟨j, names', rfl⟩ := shape
    obtain _ | _ | _ | _ | _ := single parts
    exact .inr (.interface fun _ h => h)
  | predicate i message fn =>
    obtain ⟨j, message', fn', rfl⟩ := shape
    exact .inr (.predicate (value (pair parts).1) (value (pair parts).2))
  | equal i x | within i x | regex i x =>
    obtain ⟨j, y, rfl⟩ := shape
    right
    constructor
    exact value (single parts)

namespace TwinIn

variable {n m : Nat}

theorem succ (h : TwinIn G n a b) : TwinIn G (n + 1) a b := by
  induction n generalizing a b with
  | zero =>
    obtain rfl := h
    exact .self
  | succ n ih =>
    cases h with
    | self => exact .self
    | unit same => exact .unit same
    | parts one structural parts =>
      exact .parts one structural (alike_parts_imp (E := fun _ => True) trivial trivial (fun _ _ _ => trivial)
        (fun _ _ => id) (fun _ _ => ih) parts)

theorem mono (hnm : n ≤ m) (h : TwinIn G n a b) : TwinIn G m a b := by
  induction hnm with
  | refl => exact h
  | step _ ih => exact ih.succ

theorem symm (law : G.Lawful E) (ha : E a) (hb : E b) (h : TwinIn G n a b) : TwinIn G n b a := by
  induction n generalizing a b with
  | zero => exact Eq.symm h
  | succ n ih =>
    cases h with
    | self => exact .self
    | unit same => exact .unit (law.same_symm ha hb same)
    | parts one structural parts =>
      exact .parts one.symm (Descriptor.isStructural_of_variant one structural)
        (alike_parts_imp hb ha law.children (fun hx hy => law.alike_symm hy hx) (fun hx hy => ih hy hx)
          (List.Forall₂.flip (parts.imp fun _ _ h => h.flip)))

/-- Equality found in different numbers of layers. -/
theorem trans (law : G.Lawful E) (ha : E a) (hb : E b) (hc : E c) (h : TwinIn G n a b)
    (h' : TwinIn G m b c) : TwinIn G (max n m) a c := by
  have level {k : Nat} {a b c : Descriptor} (ha : E a) (hb : E b) (hc : E c) (h : TwinIn G k a b)
      (h' : TwinIn G k b c) : TwinIn G k a c := by
    induction k generalizing a b c with
    | zero => exact Eq.trans h h'
    | succ k ih =>
      cases h with
      | self => exact h'
      | unit same =>
        cases h' with
        | self => exact .unit same
        | unit same' => exact .unit (law.same_trans ha hb hc same same')
        | parts _ structural => cases structural
      | parts one structural parts =>
        cases h' with
        | self => exact .parts one structural parts
        | unit => cases Descriptor.isStructural_of_variant one structural
        | parts one' _ parts' =>
          refine .parts (one.trans one') structural (forall₂_trans (fun p q s hp hq hs => ?_)
            (parts_of ha (law.children ha)) (parts_of hb (law.children hb)) (parts_of hc (law.children hc))
            parts parts')
          exact .trans hp hq hs law.alike_trans fun x y z => ih
  exact level ha hb hc (h.mono (by omega)) (h'.mono (by omega))

/-- Equality lasts on another ground that keeps what it refers to. -/
theorem onGround {H : Ground} (law : G.Lawful E)
    (alike : ∀ x y, Payload E x → Payload E y → G.alike x y → H.alike x y)
    (same : ∀ x y, G.same x y → H.same x y) (ha : E a) (hb : E b) (h : TwinIn G n a b) : TwinIn H n a b := by
  induction n generalizing a b with
  | zero => exact h
  | succ n ih =>
    cases h with
    | self => exact .self
    | unit h => exact .unit (same _ _ h)
    | parts one structural parts =>
      exact .parts one structural (alike_parts_imp ha hb law.children (alike _ _) ih parts)

theorem plain (ha : a.isDeferred = false) (h : TwinIn G n a b) : b.isDeferred = false := by
  cases n with
  | zero => exact h ▸ ha
  | succ n =>
    cases h with
    | self => exact ha
    | unit => rfl
    | parts one structural =>
      have structural' := Descriptor.isStructural_of_variant one structural
      cases b with
      | deferred => cases structural'
      | _ => rfl

/-- Equal descriptors are below each other, in one step. -/
theorem below (h : TwinIn G n a b) : BelowIn G 1 a b := by
  by_cases deferred : a.isDeferred = true
  · cases n with
    | zero => exact h ▸ .self
    | succ n =>
      cases h with
      | self => exact .self
      | unit => cases deferred
      | parts _ structural =>
        cases a with
        | deferred => cases structural
        | _ => cases deferred
  · have plain : a.isDeferred = false := by simpa using deferred
    exact .settle plain (.plain (h.plain plain)) (.twin h)

/-- Equal descriptors are identical or fall under the rule of their variant. -/
theorem struct (law : G.Lawful E) (ha : E a) (hb : E b) (h : TwinIn G n a b) :
    a = b ∨ StructBy G (NamedAlike (BelowIn G 1)) (BelowIn G 1) a b := by
  cases n with
  | zero => exact .inl h
  | succ n =>
    cases h with
    | self => exact .inl rfl
    | unit same => exact .inr (.unit same)
    | parts one structural parts =>
      refine structBy_of_parts one structural parts fun x hx y hy (h : TwinIn G n x y) => ⟨h.below, ?_⟩
      exact (h.symm law (law.children ha x hx) (law.children hb y hy)).below

end TwinIn

theorem Settled.plain (ha : a.isDeferred = false) (h : Settled G R a b) : b.isDeferred = false := by
  cases h with
  | self => exact ha
  | void => rfl
  | twin h => exact h.plain ha
  | struct h => exact h.plain

theorem Uncovers.eq_of_plain (hb : b.isDeferred = false) (h : Uncovers G b c) : c = b := by
  cases h with
  | deferred h => cases hb
  | plain h => rfl

theorem Uncovers.unique (h : Uncovers G a b) (h' : Uncovers G a c) : b = c := by
  cases h with
  | plain h => exact (h'.eq_of_plain h).symm
  | deferred h =>
    cases h' with
    | plain h' => cases h'
    | deferred h' => exact Option.some.inj (h.symm.trans h')

/-- Two derivations that end with a rule for descriptors that are not deferred. -/
theorem Settled.trans (law : G.Lawful E) (ha : E a) (hb : E b) (hc : E c) {n m : Nat}
    (shorter : ∀ {x y z i j}, i + j ≤ n + m + 1 → E x → E y → E z → BelowIn G i x y → BelowIn G j y z →
      BelowIn G (n + m + 1) x z)
    (hab : Settled G (BelowIn G n) a b) (hbc : Settled G (BelowIn G m) b c) :
    Settled G (BelowIn G (n + m + 1)) a c := by
  have compose {i j : Nat} (hij : i + j ≤ n + m + 1) (x y z : Descriptor) (hx : E x) (hy : E y) (hz : E z)
      (h : BelowIn G i x y) (h' : BelowIn G j y z) : BelowIn G (n + m + 1) x z := shorter hij hx hy hz h h'
  have mono {k : Nat} (hk : k ≤ n + m + 1) {x y : Descriptor} (h : Struct G (BelowIn G k) x y) :
      Struct G (BelowIn G (n + m + 1)) x y := h.mono fun _ _ h => h.mono hk
  cases hbc with
  | self => exact hab.mono fun _ _ h => h.mono (by omega)
  | void => exact .void
  | twin h' =>
    cases hab with
    | self => exact .twin h'
    | void =>
      obtain rfl | h' := h'.struct law hb hc
      · exact .void
      · cases h'
    | twin h => exact .twin (h.trans law ha hb hc h')
    | struct h =>
      obtain rfl | h' := h'.struct law hb hc
      · exact .struct (mono (by omega) h)
      · have hnm : n + 1 ≤ n + m + 1 := by omega
        exact .struct (h.trans law ha hb hc (compose hnm) (compose (Nat.add_comm 1 n ▸ hnm)) h'
          fun em eo et => .trans_alike em eo et (compose hnm))
  | struct h' =>
    cases hab with
    | self => exact .struct (mono (by omega) h')
    | void => cases h'
    | twin h =>
      obtain rfl | h := h.struct law ha hb
      · exact .struct (mono (by omega) h')
      · have hnm : 1 + m ≤ n + m + 1 := by omega
        exact .struct (h.trans law ha hb hc (compose hnm) (compose (Nat.add_comm 1 m ▸ hnm)) h'
          fun em eo et => NamedAlike.trans_below em eo et (compose hnm))
    | struct h =>
      have hnm : n + m ≤ n + m + 1 := by omega
      exact .struct (h.trans law ha hb hc (compose hnm) (compose (Nat.add_comm n m ▸ hnm)) h'
        fun em eo et => .trans em eo et (compose hnm))

theorem Uncovers.mem (law : G.Lawful E) (hb : E b) (h : Uncovers G b c) : E c := by
  cases h with
  | deferred h => exact law.resolved hb h
  | plain _ => exact hb

/-- A derivation holds on another ground that keeps what it refers to. -/
theorem BelowIn.onGround {H : Ground} (law : G.Lawful E)
    (resolution : ∀ id d, G.resolution id = some d → H.resolution id = some d)
    (alike : ∀ x y, Payload E x → Payload E y → G.alike x y → H.alike x y)
    (same : ∀ x y, G.same x y → H.same x y) {n : Nat} (ha : E a) (hb : E b) (h : BelowIn G n a b) :
    BelowIn H n a b := by
  induction n generalizing a b with
  | zero => exact h.elim
  | succ n ih =>
    cases h with
    | never => exact .never
    | self => exact .self
    | resolve h below => exact .resolve (resolution _ _ h) (ih (law.resolved ha h) hb below)
    | @settle _ _ b' plain uncovered settled =>
      have eb' := uncovered.mem law hb
      have uncovered' : Uncovers H b b' := by
        cases uncovered with
        | deferred h => exact .deferred (resolution _ _ h)
        | plain h => exact .plain h
      refine .settle plain uncovered' ?_
      cases settled with
      | self => exact .self
      | void => exact .void
      | twin h => exact .twin (h.onGround law alike same ha eb')
      | struct h =>
        have ex := law.children ha
        have ey := law.children eb'
        refine .struct (h.imp (fun x hx y hy => ?_) (fun hm ht h => ?_) (fun x y hx hy => ?_) same)
        · exact ⟨ih (ex x hx) (ey y hy), ih (ey y hy) (ex x hx)⟩
        · exact h.imp fun e he f hf => ih (ex _ (field_mem hm he)) (ey _ (field_mem ht hf))
        · exact alike x y ⟨a, ha, hx⟩ ⟨b', eb', hy⟩

theorem BelowIn.trans (law : G.Lawful E) {n m : Nat} (ha : E a) (hb : E b) (hc : E c)
    (hab : BelowIn G n a b) (hbc : BelowIn G m b c) : BelowIn G (n + m) a c := by
  induction hk : n + m using Nat.strongRecOn generalizing n m a b c with
  | _ k ih =>
  subst hk
  obtain _ | n := n
  · exact hab.elim
  obtain _ | m := m
  · exact hbc.elim
  have shorter {x y z : Descriptor} {i j : Nat} (hij : i + j < n + 1 + (m + 1)) (hx : E x) (hy : E y)
      (hz : E z) (hxy : BelowIn G i x y) (hyz : BelowIn G j y z) : BelowIn G (i + j) x z :=
    ih (i + j) hij hx hy hz hxy hyz rfl
  cases hab with
  | never => exact BelowIn.mono (by omega) (n := 1) Rule.never
  | self => exact BelowIn.mono (by omega) (n := m + 1) hbc
  | resolve h ha' =>
    have rest := shorter (by omega) (law.resolved ha h) hb hc ha' hbc
    exact BelowIn.mono (by omega) (n := n + (m + 1) + 1) (Rule.resolve h rest)
  | settle hp hu hs =>
    cases hbc with
    | never =>
      obtain rfl := hu.eq_of_plain rfl
      cases hs with
      | self => exact BelowIn.mono (by omega) (n := 1) Rule.never
      | twin h =>
        obtain rfl | h := h.struct law ha hb
        · exact BelowIn.mono (by omega) (n := 1) Rule.never
        · cases h
      | struct h => cases h
    | self => exact BelowIn.mono (by omega) (n := n + 1) (Rule.settle hp hu hs)
    | resolve h hb' =>
      obtain rfl := hu.unique (.deferred h)
      have first : BelowIn G (n + 1) a _ := Rule.settle hp (.plain (hs.plain hp)) hs
      exact BelowIn.mono (by omega) (shorter (by omega) ha (law.resolved hb h) hc first hb')
    | settle hp' hu' hs' =>
      obtain rfl := hu.eq_of_plain hp'
      have both : Settled G (BelowIn G (n + m + 1)) a _ := hs.trans law ha hb (hu'.mem law hc)
        (fun hij hx hy hz h h' => (shorter (by omega) hx hy hz h h').mono hij) hs'
      exact BelowIn.mono (by omega) (n := n + m + 1 + 1) (Rule.settle hp hu' both)

end Transitivity

end Conform
