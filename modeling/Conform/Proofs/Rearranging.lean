import Conform.Proofs.Delivery
import Conform.Proofs.Variance

/-!
The order of the parts of a descriptor, and how often each is there. A union or an intersection is rearranged
into one with the same members, a shape or a constraint into one with the same fields in another order.

A comparison of a descriptor with a rearranged one never answers no: each part is met by itself, which is known
without a look at it. What comes before it in the search may raise. A value matches the two alike if the tests of
its parts do not get in each other's way. Main statement: `rearranged_alike`.
-/
namespace Conform

variable {α β : Type} {inv : Session → Prop}

namespace Act

/-- An action that never answers no. -/
def Affirms (x : Act Bool) : Prop :=
  ∀ s t, x s ≠ .ok false t

/-- A test that answers the same from every session of a kind, and leaves one of the kind behind. -/
def Settled (inv : Session → Prop) (x : Act Bool) : Prop :=
  ∃ answer, x.Delivers inv (· = answer)

/-- A test that answers yes from every session of a kind, as a settled one does, or from none of them. -/
def Steady (inv : Session → Prop) (x : Act Bool) : Prop :=
  x.Delivers inv (· = true) ∨ ∀ s t, inv s → x s ≠ .ok true t

namespace Affirms

theorem yes : (pure true : Act Bool).Affirms := by
  intro s t no
  cases no

theorem bind {x : Act α} {f : α → Act Bool} (hf : ∀ a, (f a).Affirms) : (x >>= f).Affirms := by
  intro s t no
  obtain ⟨a, u, -, no⟩ := bind_eq_ok.mp no
  exact hf a u t no

theorem ite {c : Prop} [Decidable c] {x y : Act Bool} (hx : x.Affirms) (hy : y.Affirms) :
    (if c then x else y).Affirms := by
  split
  · exact hx
  · exact hy

/-- The second question is asked where the answer to the first is yes, as it always is. -/
theorem and {x y : Act Bool} (hx : x.Affirms) (hy : y.Affirms) :
    (do if ← x then y else return false : Act Bool).Affirms := by
  intro s t no
  obtain ⟨answer, u, first, no⟩ := bind_eq_ok.mp no
  cases answer with
  | false => exact hx s u first
  | true => exact hy u t no

theorem allM {p : α → Act Bool} {zs : List α} (hp : ∀ z ∈ zs, (p z).Affirms) : (zs.allM p).Affirms := by
  induction zs with
  | nil => exact yes
  | cons z zs ih =>
    simp only [List.forall_mem_cons] at hp
    intro s t no
    obtain ⟨answer, u, first, no⟩ := bind_eq_ok.mp no
    cases answer with
    | false => exact hp.1 s u first
    | true => exact ih hp.2 u t no

/-- A search that comes by one that is never refused does not end without. -/
theorem anyM {p : α → Act Bool} {zs : List α} {z : α} (hz : z ∈ zs) (hp : (p z).Affirms) :
    (zs.anyM p).Affirms := by
  induction zs with
  | nil => cases hz
  | cons y ys ih =>
    intro s t no
    obtain ⟨answer, u, first, no⟩ := bind_eq_ok.mp no
    cases answer with
    | true => cases no
    | false =>
      cases hz with
      | head => exact hp s u first
      | tail _ hz => exact ih hz u t no

end Affirms

theorem Settled.decides {x : Act Bool} (settled : x.Settled inv) :
    x.Decides inv (x.Delivers inv (· = true)) := by
  obtain ⟨answer, delivers⟩ := settled
  intro s hs
  obtain ⟨_, t, run, ht, rfl⟩ := delivers s hs
  refine ⟨_, t, run, ht, ?_, ?_⟩
  · rintro rfl
    exact delivers
  · intro yes
    obtain ⟨_, t', run', -, rfl⟩ := yes s hs
    rw [run] at run'
    cases run'
    rfl

/-- Two decisions of one statement come to one answer. -/
theorem Decides.common {x y : Act Bool} {P Q : Prop} (hx : x.Decides inv P) (hy : y.Decides inv Q) (same : P ↔ Q) :
    ∃ answer, x.Delivers inv (· = answer) ∧ y.Delivers inv (· = answer) := by
  by_cases h : P
  · exact ⟨true, hx.mono fun _ ha => ha.mpr h, hy.mono fun _ ha => ha.mpr (same.mp h)⟩
  · refine ⟨false, hx.mono fun b hb => ?_, hy.mono fun b hb => ?_⟩
    · simpa [h] using hb
    · simpa [← same, h] using hb

theorem allM_yes {tests : List (Act Bool)} (met : ∀ x ∈ tests, x.Delivers inv (· = true)) :
    (tests.allM id).Delivers inv (· = true) := by
  have each : ∀ x ∈ tests, (id x).Decides inv True := fun x hx => (met x hx).mono fun _ ha => iff_of_true ha trivial
  exact (Decides.allM each).mono fun _ ha => ha.mpr fun _ _ => trivial

/-- Steady tests that are met together once are met ever after. -/
theorem Steady.of_allM {tests : List (Act Bool)} (steady : ∀ x ∈ tests, x.Steady inv) {s t : Session} (hs : inv s)
    (run : tests.allM id s = .ok true t) : ∀ x ∈ tests, x.Delivers inv (· = true) := by
  induction tests generalizing s with
  | nil => simp
  | cons x rest ih =>
    simp only [List.forall_mem_cons] at steady ⊢
    obtain ⟨answer, u, first, later⟩ := bind_eq_ok.mp run
    cases answer with
    | false => cases later
    | true =>
      obtain yes | never := steady.1
      · obtain ⟨_, u', first', hu, -⟩ := yes s hs
        cases first.symm.trans first'
        exact ⟨yes, ih steady.2 hu later⟩
      · exact absurd first (never s u hs)

end Act

namespace Descriptor

/-- A descriptor with its parts in another order: a union or an intersection with the same members, each as often
as one likes, or a shape or a constraint with the same fields. -/
inductive Rearranged : Descriptor → Descriptor → Prop
  | union {i j mine theirs} (same : ∀ d, d ∈ mine ↔ d ∈ theirs) : Rearranged (.union i mine) (.union j theirs)
  | intersection {i j mine theirs} (same : ∀ d, d ∈ mine ↔ d ∈ theirs) :
    Rearranged (.intersection i mine) (.intersection j theirs)
  | shape {i j mine theirs} (distinct : (mine.map Prod.fst).Nodup) (same : mine.Perm theirs) :
    Rearranged (.shape i mine) (.shape j theirs)
  | constraint {i j bases bases' mine theirs} (bases_same : ∀ d, d ∈ bases ↔ d ∈ bases')
    (distinct : (mine.map Prod.fst).Nodup) (same : mine.Perm theirs) :
    Rearranged (.constraint i bases mine) (.constraint j bases' theirs)

/-- The tests of the parts of a descriptor on a value. -/
def tests (e : Engine) (v : Value) : Descriptor → List (Act Bool)
  | .union _ types | .intersection _ types => types.map fun d => e.accepts d v
  | .shape _ fields => fields.map (fieldMatches e v.field?)
  | .constraint _ bases predicates =>
    bases.map (fun d => e.accepts d v) ++ predicates.map (fieldMatches e (readAttribute? e v))
  | _ => []

def isUnion : Descriptor → Bool
  | .union .. => true
  | _ => false

variable {e : Engine} {a b : Descriptor} {v : Value}

theorem Rearranged.symm (h : Rearranged a b) : Rearranged b a := by
  cases h with
  | union same => exact .union fun d => (same d).symm
  | intersection same => exact .intersection fun d => (same d).symm
  | shape distinct same => exact .shape ((same.map _).nodup_iff.mp distinct) same.symm
  | constraint bases distinct same =>
    exact .constraint (fun d => (bases d).symm) ((same.map _).nodup_iff.mp distinct) same.symm

section Comparing

theorem namedBelow_affirms (self : ∀ d, (e.subtype d d).Affirms) {mine theirs : List (String × Descriptor)}
    (distinct : (mine.map Prod.fst).Nodup) (known : ∀ f ∈ theirs, f ∈ mine) : (namedBelow e mine theirs).Affirms := by
  rw [namedBelow_eq]
  refine .allM fun f hf => ?_
  rw [fieldBelow, named?_of_distinct distinct (known f hf)]
  exact self f.2

/-- The rules of a variant do not refute a rearranged descriptor. -/
theorem Rearranged.sameVariantBelow_affirms (self : ∀ d, (e.subtype d d).Affirms) (h : Rearranged a b) :
    (sameVariantBelow e a b).Affirms := by
  have each {mine theirs : List Descriptor} (same : ∀ d, d ∈ mine ↔ d ∈ theirs) :
      (someBelowEach e mine theirs).Affirms :=
    .allM fun t ht => .anyM ((same t).mpr ht) (self t)
  cases h with
  | union same => exact .allM fun m hm => .anyM ((same m).mp hm) (self m)
  | intersection same => exact each same
  | shape distinct same => exact namedBelow_affirms self distinct fun f hf => same.mem_iff.mpr hf
  | constraint bases distinct same =>
    exact .and (each bases) (namedBelow_affirms self distinct fun f hf => same.mem_iff.mpr hf)

theorem Rearranged.subtypeStep_affirms (self : ∀ d, (e.subtype d d).Affirms) (h : Rearranged a b) :
    (subtypeStep e a b).Affirms := by
  have rule := h.sameVariantBelow_affirms self
  cases h <;> exact .ite .yes (.bind fun _ => .bind fun _ => .ite .yes rule)

/-- A descriptor is known for its own subtype without a look at it. -/
theorem subtype_self_affirms (functions : Library) (n : Nat) (d : Descriptor) :
    ((Engine.ofDepth functions n).subtype d d).Affirms := by
  intro s t no
  have same : d.same d = true := by simp [Descriptor.same]
  cases n with
  | zero => cases no
  | succ n =>
    simp only [Engine.ofDepth, Engine.step] at no
    cases d <;> simp [subtypeStep, uncover, same] at no

/-- A comparison with a rearranged descriptor never answers no. -/
theorem Rearranged.subtype_affirms (h : Rearranged a b) (functions : Library) (n : Nat) :
    ((Engine.ofDepth functions n).subtype a b).Affirms := by
  cases n with
  | zero =>
    intro s t no
    cases no
  | succ n => exact h.subtypeStep_affirms (subtype_self_affirms functions n)

end Comparing

section Matching

theorem anyM_map (f : α → β) (p : β → Act Bool) (xs : List α) : (xs.map f).anyM p = xs.anyM fun x => p (f x) := by
  induction xs with
  | nil => rfl
  | cons x xs ih => simp only [List.map_cons, List.anyM, ih]

theorem allM_append (p : α → Act Bool) (xs ys : List α) :
    (xs ++ ys).allM p = (do if ← xs.allM p then ys.allM p else return false) := by
  induction xs with
  | nil => rfl
  | cons x xs ih =>
    simp only [List.cons_append, List.allM, ih, bind_assoc]
    congr 1
    funext answer
    cases answer <;> rfl

theorem allNamed_eq_allM (read : String → Act (Option Value)) (fields : List (String × Descriptor)) :
    allNamed e read fields = (fields.map (fieldMatches e read)).allM id := by
  rw [allNamed_eq, allM_map]
  rfl

/-- A union asks whether one of its tests is met. -/
theorem acceptsStep_union {i : Ident} {types : List Descriptor} :
    acceptsStep e (.union i types) v = ((Descriptor.union i types).tests e v).anyM id :=
  (anyM_map _ id types).symm

/-- The others ask whether all of them are. -/
theorem Rearranged.acceptsStep_all (h : Rearranged a b) (all : a.isUnion = false) :
    acceptsStep e a v = (a.tests e v).allM id := by
  cases h with
  | union => cases all
  | @intersection _ _ mine => exact (allM_map _ id mine).symm
  | shape => exact allNamed_eq_allM _ _
  | @constraint _ _ bases _ mine =>
    unfold tests
    rw [allM_append, allM_map, ← allNamed_eq_allM]
    rfl

theorem Rearranged.isUnion (h : Rearranged a b) : a.isUnion = b.isUnion := by
  cases h <;> rfl

theorem Rearranged.tests_iff (h : Rearranged a b) (x : Act Bool) : x ∈ a.tests e v ↔ x ∈ b.tests e v := by
  cases h with
  | union same | intersection same => simp only [tests, List.mem_map, same]
  | shape _ same => simp only [tests, List.mem_map, same.mem_iff]
  | constraint bases _ same => simp only [tests, List.mem_append, List.mem_map, bases, same.mem_iff]

/-- Settled tests come to one answer in any order. -/
theorem Rearranged.accepts_settled (h : Rearranged a b) (settled : ∀ x ∈ a.tests e v, x.Settled inv) :
    ∃ answer, (acceptsStep e a v).Delivers inv (· = answer) ∧ (acceptsStep e b v).Delivers inv (· = answer) := by
  have settled' : ∀ x ∈ b.tests e v, x.Settled inv := fun x hx => settled x ((h.tests_iff x).mpr hx)
  cases kind : a.isUnion with
  | true =>
    have some_met : (∃ x ∈ a.tests e v, x.Delivers inv (· = true)) ↔ ∃ x ∈ b.tests e v, x.Delivers inv (· = true) := by
      simp only [h.tests_iff]
    cases h with
    | union same =>
      rw [acceptsStep_union, acceptsStep_union]
      exact Act.Decides.common (.anyM fun x hx => (settled x hx).decides)
        (.anyM fun x hx => (settled' x hx).decides) some_met
    | _ => cases kind
  | false =>
    have all_met : (∀ x ∈ a.tests e v, x.Delivers inv (· = true)) ↔ ∀ x ∈ b.tests e v, x.Delivers inv (· = true) := by
      simp only [h.tests_iff]
    rw [h.acceptsStep_all kind, h.symm.acceptsStep_all (h.isUnion ▸ kind)]
    exact Act.Decides.common (.allM fun x hx => (settled x hx).decides)
      (.allM fun x hx => (settled' x hx).decides) all_met

/-- Steady tests that must all be met are met in every order or in none. -/
theorem Rearranged.accepts_steady (h : Rearranged a b) (all : a.isUnion = false)
    (steady : ∀ x ∈ a.tests e v, x.Steady inv) {s t : Session} (hs : inv s) (run : acceptsStep e a v s = .ok true t) :
    ∃ t', acceptsStep e b v s = .ok true t' := by
  rw [h.acceptsStep_all all] at run
  rw [h.symm.acceptsStep_all (h.isUnion ▸ all)]
  have met := Act.Steady.of_allM steady hs run
  have yes := Act.allM_yes fun x hx => met x ((h.tests_iff x).mpr hx)
  obtain ⟨_, t', run', -, rfl⟩ := yes s hs
  exact ⟨t', run'⟩

end Matching

end Descriptor

namespace Outlook

open Descriptor

variable {O : Outlook} {a b : Descriptor} {s : Session}

/-- No chain of requests is endless if neither side unfolds for ever. -/
theorem Asks.acc_of_unfolds {stands : Descriptor → Descriptor → Prop}
    (ha : Acc (Unfolds stands) a) (hb : Acc (Unfolds stands) b) : Acc (Asks stands) (a, b) := by
  refine (Asks.acc_of_finite (F := Acc (Unfolds stands)) ?_ ?_ ?_ ha b hb).1
  · exact fun d hd c hc => hd.inv (.child hc)
  · exact fun d c hd hc => hd.inv (.target hc)
  · exact fun d hd => Subrelation.accessible (fun h => .target h) hd

/-- A comparison that ends and never answers no ends with yes, if with an answer. -/
theorem Stops.affirmed {x : Nat → Act Bool} (stops : O.Stops x s) (affirms : ∀ n, (x n).Affirms) :
    O.Ends x s fun answer _ => answer = true := by
  obtain ⟨n, r, same, ends⟩ := stops
  refine ⟨n, r, same, ?_⟩
  cases r with
  | error f t => exact ends
  | ok answer t =>
    cases answer with
    | true => exact ⟨ends.1, rfl⟩
    | false => exact absurd (same n (Nat.le_refl n)) (affirms n s t)

/-- **Order and repetition do not matter.** A descriptor and a rearranged one that do not unfold for ever are found
below each other: from some depth on each comparison comes to yes, or to a failure of one of the thunks or
equalities that it asks for. And a value matches them alike. If the tests of the parts are settled, matching comes
to one answer in both orders. Where all of them must be met it is enough that they are steady, so that each may as
well raise: then the value matches in both orders or in none. -/
theorem rearranged_alike (compares : O.Compares) (h : Rearranged a b) (moment : O.Moment s) (ha : O.family a)
    (hb : O.family b) (la : a.Live s.heap) (lb : b.Live s.heap) (finite : Acc (Unfolds O.stands) a)
    (finite' : Acc (Unfolds O.stands) b) :
    O.Ends (fun n => (O.engine n).subtype a b) s (fun answer _ => answer = true) ∧
    O.Ends (fun n => (O.engine n).subtype b a) s (fun answer _ => answer = true) ∧
    ∀ (n : Nat) (v : Value) (inv : Session → Prop),
      ((∀ x ∈ a.tests (O.engine n) v, x.Settled inv) →
        ∃ answer, ((O.engine (n + 1)).accepts a v).Delivers inv (· = answer) ∧
          ((O.engine (n + 1)).accepts b v).Delivers inv (· = answer)) ∧
      (a.isUnion = false → (∀ x ∈ a.tests (O.engine n) v, x.Steady inv) → ∀ u, inv u →
        ((∃ t, (O.engine (n + 1)).accepts a v u = .ok true t) ↔
          ∃ t, (O.engine (n + 1)).accepts b v u = .ok true t)) := by
  have stops := compares.subtype (Asks.acc_of_unfolds finite finite') s moment ha hb la lb
  have stops' := compares.subtype (Asks.acc_of_unfolds finite' finite) s moment hb ha lb la
  refine ⟨stops.affirmed (h.subtype_affirms O.functions), stops'.affirmed (h.symm.subtype_affirms O.functions), ?_⟩
  intro n v inv
  refine ⟨h.accepts_settled, ?_⟩
  intro all steady u hu
  have steady' : ∀ x ∈ b.tests (O.engine n) v, x.Steady inv := fun x hx => steady x ((h.tests_iff x).mpr hx)
  constructor
  · rintro ⟨t, run⟩
    exact h.accepts_steady all steady hu run
  · rintro ⟨t, run⟩
    exact h.symm.accepts_steady (h.isUnion ▸ all) steady' hu run

section Mixtures

open Compares

/-- A choice that is made later, and a flag. -/
abbrev mixture : Descriptor := .union 3 [later, .boolean]

/-- The same choices the other way round, the later one twice. -/
abbrev mixture' : Descriptor := .union 4 [.boolean, later, later]

def mixtureOutlook : Outlook where
  functions := choiceLibrary
  start := {}
  family d := d ∈ [later, laterCases, .boolean, .void, mixture, mixture']
  stands d c := d = later ∧ c = laterCases
  faults _ := False

theorem mixture_children {d : Descriptor} (hd : mixtureOutlook.family d) : ∀ c ∈ d.children, mixtureOutlook.family c := by
  simp only [mixtureOutlook, List.mem_cons, List.not_mem_nil, or_false] at hd ⊢
  rintro c hc
  obtain rfl | rfl | rfl | rfl | rfl | rfl := hd <;>
    simp only [Descriptor.children, List.mem_cons, List.not_mem_nil, or_false] at hc
  · simp [hc]
  · obtain rfl | rfl := hc <;> simp
  · obtain rfl | rfl | rfl := hc <;> simp

theorem mixture_live {d : Descriptor} {h : Heap} (hd : mixtureOutlook.family d) : d.Live h := by
  simp only [mixtureOutlook, List.mem_cons, List.not_mem_nil, or_false] at hd
  obtain rfl | rfl | rfl | rfl | rfl | rfl := hd <;> simp [Descriptor.Live, Value.Live]

theorem mixture_compares : mixtureOutlook.Compares where
  children := mixture_children
  identity := by
    intro id thunk thunk' hd hd'
    simp only [mixtureOutlook, List.mem_cons, List.not_mem_nil, or_false, Descriptor.deferred.injEq] at hd hd'
    simp_all
  thunks := by
    intro id thunk hd s moment
    have known : .deferred id thunk = later := by simpa [mixtureOutlook] using hd
    cases known
    exact .deepen (.pure moment ⟨by simp [mixtureOutlook], mixture_live (by simp [mixtureOutlook]), rfl, rfl⟩)
  texts := by
    intro d hd s _ _ f failed
    simp only [mixtureOutlook, List.mem_cons, List.not_mem_nil, or_false] at hd
    obtain rfl | rfl | rfl | rfl | rfl | rfl := hd <;> cases failed
  equality := by
    intro a b ha hb s _ _ _ f failed
    simp only [mixtureOutlook, List.mem_cons, List.not_mem_nil, or_false] at ha hb
    obtain rfl | rfl | rfl | rfl | rfl | rfl := ha <;> obtain rfl | rfl | rfl | rfl | rfl | rfl := hb <;> cases failed

theorem mixture_moment : mixtureOutlook.Moment {} where
  since := .refl _
  sound := {
    closed := .empty
    ancestors := by simp
    resolved := by simp [Session.resolution?]
    elements := fun _ => (by simp [mixtureOutlook] : mixtureOutlook.family .void) }
  stands := by simp [Session.resolution?]

/-- Neither choice unfolds for ever. -/
theorem mixture_finite : Acc (Unfolds mixtureOutlook.stands) mixture ∧ Acc (Unfolds mixtureOutlook.stands) mixture' := by
  have parts : ∀ c ∈ mixture'.children, Acc (Unfolds choiceOutlook.stands) c := by
    simpa [Descriptor.children] using ⟨choice_finite .boolean, choice_finite .later⟩
  exact ⟨choice_finite .flags, choice_flat parts (by simp)⟩

/-- The choice has been made. -/
def Chosen (s : Session) : Prop :=
  s.resolved.find? (·.1 == 1) = some (1, laterCases)

/-- Once the choice has been made, the tests of a flag are settled. -/
theorem mixture_settled : ∀ x ∈ mixture.tests (mixtureOutlook.engine 3) (.bool true), x.Settled Chosen := by
  intro x hx
  simp only [tests, List.map_cons, List.map_nil, List.mem_cons, List.not_mem_nil, or_false] at hx
  refine ⟨true, fun s hs => ⟨true, s, ?_, hs, rfl⟩⟩
  obtain rfl | rfl := hx
  · have looked : (get : Act Session) s = .ok s s := rfl
    have resolved : resolve (mixtureOutlook.engine 2) 1 (.fn { name := "later", traced := false, bare := true }) s =
        .ok laterCases s := by
      unfold resolve
      unfold Chosen at hs
      rw [Act.bind_of_ok looked, hs]
      rfl
    exact Act.bind_of_ok resolved
  · rfl

/-- The flag matches the two choices alike, and each is found below the other. -/
theorem mixture_alike :
    mixtureOutlook.Ends (fun n => (mixtureOutlook.engine n).subtype mixture mixture') {} (fun answer _ => answer = true) ∧
    mixtureOutlook.Ends (fun n => (mixtureOutlook.engine n).subtype mixture' mixture) {} (fun answer _ => answer = true) ∧
    ∃ answer, ((mixtureOutlook.engine 4).accepts mixture (.bool true)).Delivers Chosen (· = answer) ∧
      ((mixtureOutlook.engine 4).accepts mixture' (.bool true)).Delivers Chosen (· = answer) := by
  obtain ⟨forth, back, alike⟩ := rearranged_alike mixture_compares (.union fun d => by simp [or_comm]) mixture_moment
    (by simp [mixtureOutlook]) (by simp [mixtureOutlook]) (mixture_live (by simp [mixtureOutlook]))
    (mixture_live (by simp [mixtureOutlook])) mixture_finite.1 mixture_finite.2
  exact ⟨forth, back, (alike 3 (.bool true) Chosen).1 mixture_settled⟩

end Mixtures

section Disorder

open Compares

/-- A list that has one item, to be had by taking it away. -/
def oneItem : Session := { heap := { lists := #[[.int .base 5 1]] } }

/-- Lists that hold nothing once an item is taken away. -/
def lastTaken : Descriptor :=
  .constraint 1 [.instanceOf 2 .list] [("pop", .void), ("__len__", .equal 3 (.int .base 4 0))]

/-- The same conditions the other way round. -/
def lastTaken' : Descriptor :=
  .constraint 1 [.instanceOf 2 .list] [("__len__", .equal 3 (.int .base 4 0)), ("pop", .void)]

/-- A comparison of a choice with a rearranged one comes to the thunk of the broken part. And where reading one
field changes what is read of another, the order shows. -/
theorem order_shows :
    (∀ n, ∃ c t, (Engine.ofDepth brokenLibrary (n + 3)).subtype (.union 2 [broken, .boolean])
      (.union 3 [.boolean, broken]) {} = .error (.cause c) t) ∧
    (∃ t, (Engine.ofDepth Zoo.library 3).accepts lastTaken (.list .base 0) oneItem = .ok true t) ∧
    ∃ t, (Engine.ofDepth Zoo.library 3).accepts lastTaken' (.list .base 0) oneItem = .ok false t :=
  ⟨fun _ => ⟨_, _, rfl⟩, ⟨_, rfl⟩, ⟨_, rfl⟩⟩

end Disorder

end Outlook

end Conform
