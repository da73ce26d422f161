import Conform.Proofs.Matching

/-!
Subtyping is sound: what matches a descriptor is never refused by one above it.

The answers compared are those of one history, given at any of its moments and to any depth. What is
assumed of the world outside the rules is in `Tame` and `Lawful`: classes form an order, equal payloads
behave alike, and predicates and attributes are read without effect. Main statement:
`accepts_of_subtype`.
-/
namespace Conform

open Value Descriptor

/-- Values that no descriptor in play tells apart within a history. -/
def Indistinct (functions : Library) (D E : Descriptor → Prop) (ω : Session) (v w : Value) : Prop :=
  ∀ n d b, E d → (Matched functions D ω n d v b ↔ Matched functions D ω n d w b)

/-- Reads that answer alike whenever they are made: both find nothing, or they find values that are not
told apart. -/
def Steady (functions : Library) (D E : Descriptor → Prop) (ω : Session) (v : Value)
    (x y : Act (Option Value)) : Prop :=
  ∀ r r', Answers D ω [v] x r → Answers D ω [v] y r' →
    (r = none ↔ r' = none) ∧ ∀ w ∈ r, ∀ w' ∈ r', Indistinct functions D E ω w w'

/-- The laws that the descriptors in play rely on. Classes: instances and subclasses of a class are those
of the classes above it, and no two classes are above each other. Payloads: equal ones behave alike.
Purity: a predicate and an attribute answer alike whenever they are asked. -/
structure Lawful (functions : Library) (D E : Descriptor → Prop) (ω : Session) : Prop
    extends InPlay D E ω where
  instances : ∀ {c c' : Class}, Names E c → Names E c' → c.under c' = true →
    ∀ v : Value, v.isOf c = true → v.isOf c' = true
  subclasses : ∀ {c c' : Class}, Names E c → Names E c' → c.under c' = true →
    ∀ k : Class, k.under c = true → k.under c' = true
  antisymm : ∀ {c c' : Class}, Names E c → Names E c' → c.under c' = true → c'.under c = true → c = c'
  units : ∀ {i j x y}, E (.unit i x) → E (.unit j y) → x.same y = true →
    ∀ v : Value, v.same x = v.same y
  equals : ∀ {i j x y}, E (.equal i x) → E (.equal j y) → isAlike x y ω.heap = .ok true →
    ∀ (v r r' : Value) (b b' : Bool), v.equal x ω.heap = .ok r → v.equal y ω.heap = .ok r' → r.truth ω.heap = .ok b →
      r'.truth ω.heap = .ok b' → b = b'
  containers : ∀ {i j x y}, E (.within i x) → E (.within j y) → isAlike x y ω.heap = .ok true →
    ∀ v b b', isWithin x v ω = .ok b ω → isWithin y v ω = .ok b' ω → b = b'
  patterns : ∀ {i j r q}, E (.regex i r) → E (.regex j q) → r.same q = true →
    ∀ text, (r.search text).isSome = (q.search text).isSome
  tests : ∀ {i j message message' fn fn'}, E (.predicate i message fn) →
    E (.predicate j message' fn') → fn = fn' ∨ isAlike fn fn' ω.heap = .ok true →
    ∀ n n' v b b',
      Answers D ω [v] (do (← (Engine.ofDepth functions n).call fn [v] []).truth : Act Bool) b →
      Answers D ω [v] (do (← (Engine.ofDepth functions n').call fn' [v] []).truth : Act Bool) b' → b = b'
  reads : ∀ {id bases predicates}, E (.constraint id bases predicates) → ∀ f ∈ predicates, ∀ n n' v,
    Steady functions D E ω v (readAttribute? (Engine.ofDepth functions n) v f.1)
      (readAttribute? (Engine.ofDepth functions n') v f.1)
  members : ∀ {id fields}, E (.shape id fields) → ∀ f ∈ fields, ∀ v,
    Steady functions D E ω v (v.field? f.1) (v.field? f.1)
  responds : ∀ {id names}, E (.interface id names) → ∀ m ∈ names, ∀ v b b',
    Answers D ω [v] (respondsTo v m) b → Answers D ω [v] (respondsTo v m) b' → b = b'

/-- Payloads that are identical or count as equal. -/
def Ground.widened (G : Ground) : Ground where
  resolution := G.resolution
  alike x y := x = y ∨ G.alike x y
  same x y := x = y ∨ G.same x y
  classes h := h.elim Value.cls.inj G.classes

/-- Whether every name that the second side asks for is asked for by the first, one of its descriptors being
related. -/
def NamedSome (R : Descriptor → Descriptor → Prop) (mine theirs : List (String × Descriptor)) : Prop :=
  ∀ f ∈ theirs, ∃ e ∈ mine, e.1 = f.1 ∧ R e.2 f.2

section Widening

variable {G : Ground} {R : Descriptor → Descriptor → Prop} {a b : Descriptor}

theorem StructBy.widen {N : List (String × Descriptor) → List (String × Descriptor) → Prop}
    (named : ∀ mine theirs, N mine theirs → NamedSome R mine theirs) (h : StructBy G N R a b) :
    StructBy G.widened (NamedSome R) R a b :=
  h.imp (fun _ _ _ _ => ⟨id, id⟩) (fun _ _ => named _ _) (fun _ _ _ _ => .inr) fun _ _ => .inr

theorem NamedBelow.some {mine theirs : List (String × Descriptor)} (h : NamedBelow R mine theirs) :
    NamedSome R mine theirs := by
  intro f hf
  obtain ⟨e, found, hr⟩ := h f hf
  exact ⟨e, (mem_of_named? found).1, (mem_of_named? found).2, hr⟩

theorem StructBy.self (hR : ∀ d, R d d) (plain : a.isDeferred = false) (built : a.isConstant = false) :
    StructBy G.widened (NamedSome R) R a a :=
  .refl (fun d _ => hR d) (fun _ => .inl rfl) (fun _ => .inl rfl) (fun _ f hf => ⟨f, hf, rfl, hR f.2⟩) plain built

end Widening

theorem isContainer_enumerable {kind : CollectionKind} {v : Value} (h : isContainer kind v = true) :
    isContainer .enumerable v = true := by
  cases kind with
  | enumerable => exact h
  | array =>
    cases v with
    | list flavour i => cases flavour <;> rfl
    | _ => cases h
  | set =>
    cases v with
    | set i => rfl
    | frozenset i vs => rfl
    | _ => cases h

theorem regex_same_of_alike {r q : Regex} {h : Heap} (run : isAlike (.regex r) (.regex q) h = .ok true) :
    r.same q = true := by
  have compared : equal (.regex r) (.regex q) h = .ok (.bool (r.same q)) := rfl
  unfold isAlike alike at run
  split at run
  · next hs => exact hs
  · obtain ⟨v, hv, run⟩ := Look.bind_eq_ok.mp run
    rw [compared] at hv
    cases hv
    exact Except.ok.inj run

/-- The mate of an item of the second list, when two lists go along with a third. -/
theorem forall₂_mate {α β γ : Type} {R : α → β → Prop} {P : α → γ → Prop} {p : β × γ} :
    ∀ {as : List α} {bs : List β} {cs : List γ}, List.Forall₂ R as bs → List.Forall₂ P as cs →
      p ∈ bs.zip cs → ∃ a ∈ as, R a p.1 ∧ P a p.2
  | _, _, _, .nil, .nil, hp => by cases hp
  | _, _, _, .cons hr hrs, .cons hq hqs, hp => by
    obtain rfl | hp := List.mem_cons.mp hp
    · exact ⟨_, .head _, hr, hq⟩
    · obtain ⟨a, ha, both⟩ := forall₂_mate hrs hqs hp
      exact ⟨a, .tail _ ha, both⟩

namespace Lawful

variable {functions : Library} {D E : Descriptor → Prop} {ω : Session} {a b : Descriptor} {v : Value}
  {m k n : Nat}

/-- Reads that find the same serve the fields of both sides. -/
theorem named_not_refused {read read' : String → Act (Option Value)}
    {mine theirs : List (String × Descriptor)} (he : ∀ f ∈ mine, E f.2) (he' : ∀ f ∈ theirs, E f.2)
    (steady : ∀ f ∈ mine, Steady functions D E ω v (read f.1) (read' f.1))
    (ih : ∀ {x y w}, E x → E y → BelowIn ω.ground n x y → Matched functions D ω m x w true →
      ¬Matched functions D ω k y w false) (below : NamedSome (BelowIn ω.ground n) mine theirs)
    (yes : ∀ f ∈ mine, ∃ w, Answers D ω [v] (read f.1) (some w) ∧ Matched functions D ω m f.2 w true) :
    ¬∃ f ∈ theirs, Answers D ω [v] (read' f.1) none ∨
      ∃ w, Answers D ω [v] (read' f.1) (some w) ∧ Matched functions D ω k f.2 w false := by
  rintro ⟨f, hf, no⟩
  obtain ⟨e, hm, hn, hb⟩ := below f hf
  obtain ⟨w, found, accepted⟩ := yes e hm
  have alike := steady e hm
  rw [hn] at found alike
  obtain no | ⟨w', found', refused⟩ := no
  · have := (alike _ _ found no).1.mpr rfl
    cases this
  · have same := (alike _ _ found found').2 w rfl w' rfl
    exact ih (he e hm) (he' f hf) hb ((same m e.2 true (he e hm)).mp accepted) refused

theorem isUnder (law : Lawful functions D E ω) {c c' : Class} (hc : Names E c) (hc' : Names E c')
    (h : c.under c' = true) (hv : v.isUnder c = true) : v.isUnder c' = true := by
  cases v with
  | cls k => exact law.subclasses hc hc' h k hv
  | _ => cases hv

/-- A class strictly below another is strictly below those above it. -/
theorem isProper (law : Lawful functions D E ω) {c c' : Class} (hc : Names E c) (hc' : Names E c')
    (h : c.under c' = true) (proper : (!v.same (.cls c)) = true) (hv : v.isUnder c = true) :
    (!v.same (.cls c') && v.isUnder c') = true := by
  rw [law.isUnder hc hc' h hv, Bool.and_true]
  cases v with
  | cls k =>
    by_contra hk
    obtain rfl : k = c' := by simpa [Value.same] using hk
    obtain rfl := law.antisymm hc hc' h hv
    simp [Value.same] at proper
  | _ => cases hv

/-- The parts of both sides carry over to the whole, variant by variant. -/
theorem struct_not_refused (tame : Tame functions D) (law : Lawful functions D E ω) (ha : E a) (hb : E b)
    (ih : ∀ {x y w}, E x → E y → BelowIn ω.ground n x y → Matched functions D ω m x w true →
      ¬Matched functions D ω k y w false)
    (ih' : ∀ {x y w}, E x → E y → BelowIn ω.ground n x y → Matched functions D ω k x w true →
      ¬Matched functions D ω m y w false)
    (below : StructBy ω.ground.widened (NamedSome (BelowIn ω.ground n)) (BelowIn ω.ground n) a b)
    (yes : Matched functions D ω (m + 1) a v true) : ¬Matched functions D ω (k + 1) b v false := by
  intro no
  have ea := law.order.children ha
  have eb := law.order.children hb
  have da := law.tame ha
  have db := law.tame hb
  cases below with
  | union h =>
    obtain ⟨d, hd, yes⟩ := yes.union tame da
    obtain ⟨t, ht, hdt⟩ := h d hd
    exact ih (ea d hd) (eb t ht) hdt yes (no.union tame db t ht)
  | intersection h =>
    obtain ⟨t, ht, no⟩ := no.intersection tame db
    obtain ⟨d, hd, hdt⟩ := h t ht
    exact ih (ea d hd) (eb t ht) hdt (yes.intersection tame da d hd) no
  | negation h => exact ih' (eb _ (.head _)) (ea _ (.head _)) h (no.negation tame db) (yes.negation tame da)
  | nilable h =>
    have yes := yes.nilable
    have no := no.nilable
    split at yes
    · next hv => simp [hv] at no
    · next hv =>
      rw [if_neg hv] at no
      exact ih (ea _ (.head _)) (eb _ (.head _)) h yes no
  | @constraint i j bases bases' predicates predicates' hbases hp =>
    obtain ⟨yes, fields⟩ := yes.constraint tame da
    obtain ⟨t, ht, no⟩ | no := no.constraint tame db
    · obtain ⟨d, hd, hdt⟩ := hbases t ht
      exact ih (ea d (base_mem hd)) (eb t (base_mem ht)) hdt (yes d hd) no
    · refine named_not_refused ?_ ?_ (fun f hf => law.reads ha f hf m k v) ih hp fields no
      · exact fun f hf => ea f.2 (predicate_mem hf)
      · exact fun f hf => eb f.2 (predicate_mem hf)
  | rangeOf h =>
    have yes := yes.rangeOf tame da
    have no := no.rangeOf tame db
    cases he : presentEnds? v with
    | none =>
      simp only [he] at yes
      cases yes
    | some ends =>
      simp only [he] at yes no
      obtain ⟨w, hw, no⟩ := no
      exact ih (ea _ (.head _)) (eb _ (.head _)) h (yes w hw) no
  | tupleOf h =>
    have yes := yes.tupleOf tame da
    have no := no.tupleOf tame db
    cases hp : positional? ω.heap v with
    | none =>
      simp only [hp] at yes
      cases yes
    | some vs =>
      simp only [hp] at yes no
      split at yes
      · next hl =>
        rw [if_pos (hl.trans h.length_eq)] at no
        obtain ⟨p, hp, no⟩ := no
        obtain ⟨d, hd, hdp, yes⟩ := forall₂_mate h yes hp
        exact ih (ea d hd) (eb p.1 (List.of_mem_zip hp).1) hdp yes no
      · cases yes
  | shape h =>
    refine named_not_refused ?_ ?_ (fun f hf => law.members ha f hf v) ih h (yes.shape tame da)
      (no.shape tame db)
    · exact fun f hf => ea f.2 (List.mem_map_of_mem hf)
    · exact fun f hf => eb f.2 (List.mem_map_of_mem hf)
  | @collection i j kind kind' c d hk h =>
    have yes := yes.collection tame da
    have no := no.collection tame db
    split at yes
    · next hv =>
      have hv' : isContainer kind' v = true := by
        obtain rfl | rfl := hk
        · exact isContainer_enumerable hv
        · exact hv
      rw [if_pos hv'] at no
      obtain ⟨items, walk, yes⟩ := yes
      obtain ⟨items', walk', w, hw, no⟩ := no
      obtain rfl := Except.ok.inj (walk.symm.trans walk')
      exact ih (ea _ (.head _)) (eb _ (.head _)) h (yes w hw) no
    · cases yes
  | mappingOf hk hv =>
    have yes := yes.mappingOf tame da
    have no := no.mappingOf tame db
    cases he : entries? ω.heap v with
    | none =>
      simp only [he] at yes
      cases yes
    | some entries =>
      simp only [he] at yes no
      obtain ⟨e, he, no | no⟩ := no
      · exact ih (ea _ (.head _)) (eb _ (.head _)) hk (yes e he).1 no
      · exact ih (ea _ (.tail _ (.head _))) (eb _ (.tail _ (.head _))) hv (yes e he).2 no
  | instanceOf h =>
    have := law.instances ⟨_, .inl ha⟩ ⟨_, .inl hb⟩ h v yes.instanceOf.symm
    exact absurd (no.instanceOf.trans this) (by decide)
  | classOf h =>
    have := law.isUnder ⟨_, .inr (.inl ha)⟩ ⟨_, .inr (.inl hb)⟩ h yes.classOf.symm
    exact absurd (no.classOf.trans this) (by decide)
  | descendantClass h =>
    have both := Bool.and_eq_true_iff.mp yes.descendantOf.symm
    have := law.isUnder ⟨_, .inr (.inr ha)⟩ ⟨_, .inr (.inl hb)⟩ h both.2
    exact absurd (no.classOf.trans this) (by decide)
  | descendantOf h =>
    have both := Bool.and_eq_true_iff.mp yes.descendantOf.symm
    have := law.isProper ⟨_, .inr (.inr ha)⟩ ⟨_, .inr (.inr hb)⟩ h both.1 both.2
    exact absurd (no.descendantOf.trans this) (by decide)
  | interface h =>
    obtain ⟨name, hn, no⟩ := no.interface tame db
    have := law.responds hb name hn v true false (yes.interface tame da name (h name hn)) no
    cases this
  | predicate hm hf => exact absurd (law.tests ha hb hf m k v true false yes.predicate no.predicate) (by decide)
  | @unit i j x y h =>
    have same : v.same x = v.same y := by
      obtain rfl | h := h
      · rfl
      · exact law.units ha hb h v
    exact absurd (yes.unit.trans (same.trans no.unit.symm)) (by decide)
  | equal h =>
    obtain ⟨r, hr, yes⟩ := yes.equal
    obtain ⟨r', hr', no⟩ := no.equal
    obtain rfl | h := h
    · obtain rfl := Except.ok.inj (hr.symm.trans hr')
      cases yes.symm.trans no
    · cases law.equals ha hb h v r r' true false hr hr' yes no
  | within h =>
    obtain rfl | h := h
    · cases yes.within.symm.trans no.within
    · cases law.containers ha hb h v true false yes.within no.within
  | @regex i j r q h =>
    have found (text : String) : (r.search text).isSome = (q.search text).isSome := by
      obtain h | h := h
      · cases h
        rfl
      · exact law.patterns ha hb (regex_same_of_alike h) text
    have yes := yes.regex
    have no := no.regex
    cases ht : v.text? with
    | none =>
      simp only [ht] at yes
      cases yes
    | some text =>
      simp only [ht] at yes no
      cases yes.trans ((found text).trans no.symm)
  | checkedListOf h =>
    have yes := yes.checkedListOf tame da
    have no := no.checkedListOf tame db
    cases v with
    | checked c i =>
      have ec := law.elements i
      have first := law.below_of_judged tame.toResolving ec (ea _ (.head _)) yes
      exact law.not_below_of_judged tame.toResolving ec (eb _ (.head _)) no
        (first.trans law.order ec (ea _ (.head _)) (eb _ (.head _)) h)
    | _ => cases yes

/-- A constant matches the same values whenever it is asked. -/
theorem constant_not_refused (tame : Tame functions D) (law : Lawful functions D E ω) (ha : E a)
    (constant : a.isConstant = true)
    (ih : ∀ {w}, Matched functions D ω m a w true → ¬Matched functions D ω k a w false)
    (yes : Matched functions D ω (m + 1) a v true) : ¬Matched functions D ω (k + 1) a v false := by
  intro no
  have atom {x : Bool} (hy : Answers D ω [.descriptor a, v] (pure x) true)
      (hn : Answers D ω [.descriptor a, v] (pure x) false) : False := by
    cases hy.pure.symm.trans hn.pure
  cases a with
  | any | void | never => exact atom yes no
  | boolean => cases v <;> exact atom yes no
  | truthy => cases yes.truthy.symm.trans no.truthy
  | falsy => cases yes.falsy.symm.trans no.falsy
  | jsonData =>
    have da := law.tame ha
    cases v with
    | list kind i =>
      obtain ⟨w, hw, no⟩ := no.jsonList tame da
      exact ih (yes.jsonList tame da w hw) no
    | dict kind i =>
      have yes := yes.jsonDict tame da
      obtain ⟨e, he, no | no⟩ := no.jsonDict tame da
      · cases (yes e he).1.symm.trans no
      · exact ih (yes e he).2 no
    | _ => exact atom yes no
  | _ => cases constant

/-- What matches a descriptor is never refused by one above it. The induction is on the depths of both
runs together: a negation turns the two around, and a resolution takes a step on one side only. -/
theorem not_refused (law : Lawful functions D E ω) (tame : Tame functions D) (ha : E a) (hb : E b)
    (below : BelowIn ω.ground n a b) (yes : Matched functions D ω m a v true) :
    ¬Matched functions D ω k b v false := by
  induction hs : m + k using Nat.strongRecOn generalizing n m k a b v with
  | _ total ih =>
  subst hs
  intro no
  obtain _ | m := m
  · exact yes.ofDepth_zero
  obtain _ | k := k
  · exact no.ofDepth_zero
  have shorter {i j l : Nat} {x y : Descriptor} {w : Value} (hij : i + j < m + 1 + (k + 1)) (hx : E x)
      (hy : E y) (hxy : BelowIn ω.ground l x y) (yes : Matched functions D ω i x w true)
      (no : Matched functions D ω j y w false) : False := ih (i + j) hij hx hy hxy yes rfl no
  have itself (d : Descriptor) : BelowIn ω.ground 1 d d := Rule.self
  have whole {l : Nat} {x y : Descriptor} (hx : E x) (hy : E y)
      (h : StructBy ω.ground.widened (NamedSome (BelowIn ω.ground l)) (BelowIn ω.ground l) x y)
      (yes : Matched functions D ω (m + 1) x v true) : ¬Matched functions D ω (k + 1) y v false :=
    struct_not_refused tame law hx hy (shorter (by omega)) (shorter (by omega)) h yes
  have reflexive {x : Descriptor} (hx : E x) (yes : Matched functions D ω (m + 1) x v true)
      (no : Matched functions D ω (k + 1) x v false) : False := by
    cases hc : x.isConstant with
    | true => exact constant_not_refused tame law hx hc (shorter (by omega) hx hx (itself x)) yes no
    | false =>
      cases hd : x.isDeferred with
      | false => exact whole hx hx (.self itself hd hc) yes no
      | true =>
        cases x with
        | deferred id thunk =>
          obtain ⟨d, hr, yes⟩ := yes.deferred tame (law.tame hx)
          obtain ⟨d', hr', no⟩ := no.deferred tame (law.tame hx)
          obtain rfl := Option.some.inj (hr.symm.trans hr')
          have ed := law.order.resolved hx hr
          exact shorter (by omega) ed ed (itself d) yes no
        | _ => cases hd
  obtain _ | n := n
  · exact below.elim
  cases below with
  | never => cases (Answers.pure yes)
  | self => exact reflexive ha yes no
  | resolve hr hd =>
    obtain ⟨d, hr', yes⟩ := yes.deferred tame (law.tame ha)
    obtain rfl := Option.some.inj (hr.symm.trans hr')
    exact shorter (by omega) (law.order.resolved ha hr) hb hd yes no
  | settle plain uncovered settled =>
    cases uncovered with
    | deferred hr =>
      obtain ⟨d, hr', no⟩ := no.deferred tame (law.tame hb)
      obtain rfl := Option.some.inj (hr.symm.trans hr')
      have step : BelowIn ω.ground (n + 1) a _ :=
        Rule.settle plain (.plain (settled.plain plain)) settled
      exact shorter (by omega) ha (law.order.resolved hb hr) step yes no
    | plain hp =>
      cases settled with
      | self => exact reflexive ha yes no
      | void => cases (Answers.pure no)
      | twin h =>
        obtain rfl | h := h.struct law.order ha hb
        · exact reflexive ha yes no
        · exact whole ha hb (h.widen fun _ _ h => (forall₂_mem h).2) yes no
      | struct h => exact whole ha hb (h.widen fun _ _ => NamedBelow.some) yes no

/-- Subtyping is sound: if one descriptor is found a subtype of another and a value matches the first,
then the second, whenever it is asked and however deep its answer is, does not refuse the value. -/
theorem accepts_of_subtype (tame : Tame functions D) (law : Lawful functions D E ω) (ha : E a) (hb : E b)
    (below : Judged functions D ω n a b true) (accepted : Matched functions D ω m a v true) :
    ¬Matched functions D ω k b v false :=
  law.not_refused tame ha hb (law.below_of_judged tame.toResolving ha hb below) accepted

section Nested

/-- Booleans, and lists of such things to any depth. -/
abbrev nested : Descriptor := .deferred 1 (.fn { name := "nested", traced := false, bare := true })

abbrev nestedLists : Descriptor := .collection 2 .array nested

abbrev nestedCollections : Descriptor := .collection 3 .enumerable nested

abbrev nestedCases : Descriptor := .union 4 [.instanceOf 5 .bool, nestedLists]

/-- The thunk of `nested` answers its cases. -/
def nestedLibrary : Library := fun _ _ _ _ => return .descriptor nestedCases

inductive NestedFamily : Descriptor → Prop
  | deferred : NestedFamily nested
  | lists : NestedFamily nestedLists
  | collections : NestedFamily nestedCollections
  | cases : NestedFamily nestedCases
  | bool : NestedFamily (.instanceOf 5 .bool)
  | void : NestedFamily .void

/-- A session that holds the list of `True` and an empty list. -/
def nestedStart : Session where
  heap := { lists := #[[.bool true, .list .base 1], []] }

def nestedEnd : Session :=
  { nestedStart with resolved := [(1, nestedCases)], ancestors := [(.list, Class.mro .list)] }

theorem nested_tame : Tame nestedLibrary NestedFamily where
  children := by
    rintro d (_ | _ | _ | _ | _ | _) c hc <;>
      simp only [Descriptor.children, List.mem_cons, List.not_mem_nil, or_false] at hc
    · exact hc ▸ .deferred
    · exact hc ▸ .deferred
    · obtain rfl | rfl := hc
      · exact .bool
      · exact .lists
  thunks := by
    rintro id thunk ⟨⟩ n
    cases n with
    | zero => exact .throw _
    | succ n => exact .pure nestedCases
  targets := by
    rintro id thunk ⟨⟩ n s d t sound run
    cases n with
    | zero => cases run
    | succ n =>
      cases run
      exact ⟨.cases, by simp [Descriptor.Live, Value.Live]⟩
  predicates := by rintro _ _ _ ⟨⟩
  attributes := by rintro _ _ _ ⟨⟩
  fields := by rintro _ _ ⟨⟩
  methods := by rintro _ _ ⟨⟩

theorem nested_live {d : Descriptor} {h : Heap} (hd : NestedFamily d) : d.Live h := by
  cases hd <;> simp [Descriptor.Live, Value.Live]

theorem nested_closed : nestedStart.heap.Closed :=
  .of_lists (by simp [Value.Live]) (by simp)

theorem nested_sound {s : Session} (heap : s.heap = nestedStart.heap)
    (resolved : ∀ d, s.resolution? 1 = some d → d = nestedCases)
    (ancestors : ∀ e ∈ s.ancestors, e.2 = e.1.mro) : s.Sound NestedFamily where
  closed := heap ▸ nested_closed
  ancestors := ancestors
  resolved := by
    rintro id thunk d ⟨⟩ hd
    obtain rfl := resolved d hd
    exact ⟨.cases, nested_live .cases⟩
  elements := by
    rw [heap]
    exact fun i => .void

theorem nested_starts : nestedStart.Sound NestedFamily :=
  nested_sound rfl (fun d hd => by cases hd) (fun e he => by cases he)

theorem nested_ends : nestedEnd.Sound NestedFamily :=
  nested_sound rfl (fun d hd => (Option.some.inj hd).symm) (by simp [nestedEnd, nestedStart])

theorem nested_before : nestedStart.Before nestedEnd :=
  ⟨.refl _, fun id d hd => by cases hd⟩

theorem nested_payload {x : Value} (hx : Payload NestedFamily x) : x = .cls .bool := by
  obtain ⟨d, hd, hx⟩ := hx
  cases hd <;> simp [Descriptor.parts] at hx
  exact hx

theorem nested_class {c : Class} (hc : Names NestedFamily c) : c = .bool := by
  obtain ⟨id, hd | hd | hd⟩ := hc <;> cases hd
  rfl

theorem nested_lawful : Lawful nestedLibrary NestedFamily NestedFamily nestedEnd where
  sound := nested_ends
  tame := id
  live := nested_live
  elements := nested_ends.elements
  identity := by
    rintro a b (_ | _ | _ | _ | _ | _) (_ | _ | _ | _ | _ | _) same <;> first | rfl | cases same
  order := {
    children := nested_tame.children
    resolved := by
      rintro id thunk d ⟨⟩ hd
      cases hd
      exact .cases
    alike_symm := by
      intro x y hx hy alike
      rw [nested_payload hx, nested_payload hy] at alike ⊢
      exact alike
    alike_trans := by
      intro x y z hx hy hz alike _
      rw [nested_payload hx, nested_payload hy, nested_payload hz] at *
      exact alike
    same_symm := by rintro _ _ _ _ ⟨⟩
    same_trans := by rintro _ _ _ _ _ _ ⟨⟩
    under_trans := by
      intro b c d hb hc hd under _
      rw [nested_class hb, nested_class hc, nested_class hd] at *
      exact under }
  instances := by
    intro c c' hc hc' _ v hv
    rw [nested_class hc, nested_class hc'] at *
    exact hv
  subclasses := by
    intro c c' hc hc' _ k hk
    rw [nested_class hc, nested_class hc'] at *
    exact hk
  antisymm := fun hc hc' _ _ => (nested_class hc).trans (nested_class hc').symm
  units := by rintro _ _ _ _ ⟨⟩
  equals := by rintro _ _ _ _ ⟨⟩
  containers := by rintro _ _ _ _ ⟨⟩
  patterns := by rintro _ _ _ _ ⟨⟩
  tests := by rintro _ _ _ _ _ _ ⟨⟩
  reads := by rintro _ _ _ ⟨⟩
  members := by rintro _ _ ⟨⟩
  responds := by rintro _ _ ⟨⟩

theorem nested_judged : Judged nestedLibrary NestedFamily nestedEnd 3 nestedLists nestedCollections true :=
  ⟨nestedStart, nestedStart, nested_starts,
    by simp [Value.Live, Descriptor.Live], rfl, nested_before⟩

theorem nested_matched :
    Matched nestedLibrary NestedFamily nestedEnd 6 nestedLists (.list .base 0) true :=
  ⟨nestedStart, nestedEnd, nested_starts,
    by simp [Value.Live, Descriptor.Live, nestedStart], rfl, .refl _⟩

/-- Lists of nested lists are collections of nested lists, the list at hand among them. -/
theorem nested_not_refused :
    Judged nestedLibrary NestedFamily nestedEnd 3 nestedLists nestedCollections true ∧
      Matched nestedLibrary NestedFamily nestedEnd 6 nestedLists (.list .base 0) true ∧
      ∀ k, ¬Matched nestedLibrary NestedFamily nestedEnd k nestedCollections (.list .base 0) false :=
  ⟨nested_judged, nested_matched, fun _ =>
    accepts_of_subtype nested_tame nested_lawful .lists .collections nested_judged nested_matched⟩

end Nested
end Lawful

end Conform
