import Conform.Proofs.Parts

/-!
What matching and comparing pass on. Some properties of actions pass from the parts of an action to the whole. If
the judgements of an engine on the descriptors of a family have such a property, and so has what the engine reads
and calls, then the judgements that are written over this engine have it as well.

Main statements: `Engine.Compares.subtypeStep` and `Engine.Judges.acceptsStep`.
-/
namespace Conform

/-- The descriptors that a descriptor is made of. -/
def Descriptor.children : Descriptor → List Descriptor
  | .union _ ds | .intersection _ ds | .tupleOf _ ds => ds
  | .negation _ d | .nilable _ d | .rangeOf _ d | .collection _ _ d | .checkedListOf _ d => [d]
  | .constraint _ bases predicates => bases ++ predicates.map (·.2)
  | .shape _ fields => fields.map (·.2)
  | .mappingOf _ key value => [key, value]
  | _ => []

section Children

variable {i : Ident} {bases : List Descriptor} {predicates : List (String × Descriptor)}

theorem Descriptor.base_mem {d : Descriptor} (hd : d ∈ bases) : d ∈ (constraint i bases predicates).children :=
  List.mem_append_left _ hd

theorem Descriptor.predicate_mem {f : String × Descriptor} (hf : f ∈ predicates) :
    f.2 ∈ (constraint i bases predicates).children :=
  List.mem_append_right _ (List.mem_map_of_mem hf)

end Children

namespace Engine

/-- An engine whose comparisons have a property, among the descriptors of a family. -/
structure Compares (e : Engine) (P : ∀ {α : Type}, Act α → Prop) (T : Descriptor → Prop) : Prop where
  passes : Act.Passes P
  children : ∀ {d}, T d → ∀ c ∈ d.children, T c
  subtype : ∀ {a b}, T a → T b → P (e.subtype a b)
  isSubclass : ∀ v c, P (Nominal.isSubclass v c)
  resolved : ∀ {α : Type} {id thunk} {f : Descriptor → Act α}, T (.deferred id thunk) → (∀ d, T d → P (f d)) →
    P (Descriptor.resolve e id thunk >>= f)

/-- An engine whose judgements have a property, among the descriptors of a family. -/
structure Judges (e : Engine) (P : ∀ {α : Type}, Act α → Prop) (T : Descriptor → Prop) : Prop
    extends e.Compares P T where
  accepts : ∀ {d}, T d → ∀ v, P (e.accepts d v)
  isInstance : ∀ v c, P (Nominal.isInstance v c)
  isWithin : ∀ container v, P (Descriptor.isWithin container v)
  walks : ∀ {kind v} {test : Value → Act Bool}, Descriptor.isContainer kind v = true → (∀ w, P (test w)) →
    P (v.allItems test)
  predicates : ∀ {id message fn}, T (.predicate id message fn) → ∀ v, P (e.call fn [v] [])
  attributes : ∀ {id bases predicates}, T (.constraint id bases predicates) → ∀ f ∈ predicates, ∀ v,
    P (Descriptor.readAttribute? e v f.1)
  fields : ∀ {id fields}, T (.shape id fields) → ∀ f ∈ fields, ∀ v : Value, P (v.field? f.1)
  methods : ∀ {id names}, T (.interface id names) → ∀ name ∈ names, ∀ v, P (Descriptor.respondsTo v name)
  elements : ∀ {id element}, T (.checkedListOf id element) → ∀ v,
    P (Descriptor.acceptsStep e (.checkedListOf id element) v)

variable {e : Engine} {P : ∀ {α : Type}, Act α → Prop} {T : Descriptor → Prop}

namespace Compares

variable (h : e.Compares P T)
include h

theorem pairwiseBelow {as bs : List Descriptor} (ha : ∀ a ∈ as, T a) (hb : ∀ b ∈ bs, T b) :
    P (Descriptor.pairwiseBelow e as bs) := by
  rw [Descriptor.pairwiseBelow_eq]
  exact h.passes.allM fun x hx => h.subtype (ha x.1 (List.of_mem_zip hx).1) (hb x.2 (List.of_mem_zip hx).2)

theorem fieldBelow {mine : List (String × Descriptor)} {f : String × Descriptor} (hm : ∀ f ∈ mine, T f.2)
    (hf : T f.2) : P (Descriptor.fieldBelow e mine f) := by
  unfold Descriptor.fieldBelow
  split
  · exact h.passes.pure false
  · next found => exact h.subtype (hm _ (mem_of_named? found).1) hf

theorem namedBelow {mine theirs : List (String × Descriptor)} (hm : ∀ f ∈ mine, T f.2) (ht : ∀ f ∈ theirs, T f.2) :
    P (Descriptor.namedBelow e mine theirs) := by
  rw [Descriptor.namedBelow_eq]
  exact h.passes.allM fun f hf => h.fieldBelow hm (ht f hf)

/-- The rules for two descriptors, one case for each. -/
theorem sameVariantBelow {a b : Descriptor} (ha : T a) (hb : T b) : P (Descriptor.sameVariantBelow e a b) := by
  have mine := h.children ha
  have theirs := h.children hb
  have passes := h.passes
  unfold Descriptor.sameVariantBelow
  split <;> simp only [Descriptor.children, List.mem_append, List.mem_map, List.mem_cons, List.not_mem_nil, or_false,
    forall_eq, forall_eq_or_imp] at mine theirs
  case h_1 => exact passes.allM fun m hm => passes.anyM fun t ht => h.subtype (mine m hm) (theirs t ht)
  case h_2 => exact passes.allM fun t ht => passes.anyM fun m hm => h.subtype (mine m hm) (theirs t ht)
  case h_3 => exact h.subtype theirs mine
  case h_5 =>
    refine passes.bind (passes.allM fun t ht => passes.anyM fun m hm => ?_) fun _ => passes.ite ?_ (passes.pure false)
    · exact h.subtype (mine m (.inl hm)) (theirs t (.inl ht))
    · exact h.namedBelow (fun f hf => mine _ (.inr ⟨f, hf, rfl⟩)) fun f hf => theirs _ (.inr ⟨f, hf, rfl⟩)
  case h_7 => exact passes.ite (h.pairwiseBelow mine theirs) (passes.pure false)
  case h_8 => exact h.namedBelow (fun f hf => mine _ ⟨f, hf, rfl⟩) fun f hf => theirs _ ⟨f, hf, rfl⟩
  case h_9 => exact passes.ite (h.subtype mine theirs) (passes.pure false)
  case h_10 =>
    refine passes.bind (h.subtype mine.1 theirs.1) fun _ => passes.ite ?_ (passes.pure false)
    exact h.subtype mine.2 theirs.2
  all_goals
    first
    | exact h.isSubclass _ _
    | exact h.subtype mine theirs
    | exact passes.pure _

/-- What goes on with a descriptor, or with what it is resolved to if it is deferred. -/
theorem uncovered {α : Type} {b : Descriptor} (hb : T b) {f : Descriptor → Act α} (hf : ∀ d, T d → P (f d)) :
    P (Descriptor.uncover e b >>= f) := by
  unfold Descriptor.uncover
  split
  · exact h.resolved hb hf
  · simpa only [pure_bind] using hf b hb

/-- Comparing has the property that comparing the parts has. -/
theorem subtypeStep {a b : Descriptor} (ha : T a) (hb : T b) : P (Descriptor.subtypeStep e a b) := by
  have passes := h.passes
  unfold Descriptor.subtypeStep
  split
  · exact passes.pure true
  · exact passes.ite (passes.pure true) (h.resolved ha fun d hd => h.subtype hd hb)
  · refine h.uncovered hb fun b hb => ?_
    refine passes.ite (passes.pure true) (passes.bind (passes.lift (Value.equal_overlooks _ _)) fun same => ?_)
    refine passes.bind (passes.lift same.truth_overlooks) fun _ => passes.ite (passes.pure true) ?_
    split
    · exact passes.pure true
    · exact h.sameVariantBelow ha hb

end Compares

namespace Judges

variable (h : e.Judges P T)
include h

theorem fieldMatches {read : String → Act (Option Value)} {f : String × Descriptor} (hr : P (read f.1)) (hf : T f.2) :
    P (Descriptor.fieldMatches e read f) := by
  refine h.passes.bind hr fun found => ?_
  cases found with
  | none => exact h.passes.pure false
  | some v => exact h.accepts hf v

theorem allNamed {read : String → Act (Option Value)} {fields : List (String × Descriptor)}
    (hr : ∀ f ∈ fields, P (read f.1)) (hf : ∀ f ∈ fields, T f.2) : P (Descriptor.allNamed e read fields) := by
  rw [Descriptor.allNamed_eq]
  exact h.passes.allM fun f member => h.fieldMatches (hr f member) (hf f member)

theorem isPlainData (hd : T .jsonData) (v : Value) : P (Descriptor.isPlainData e v) := by
  have passes := h.passes
  cases v with
  | list k i => exact passes.reading (fun _ _ _ => rfl) fun _ => passes.allM fun w _ => h.accepts hd w
  | dict k i =>
    refine passes.reading (fun _ _ _ => rfl) fun _ => passes.allM fun entry _ => ?_
    exact passes.ite (h.accepts hd entry.2) (passes.pure false)
  | nil | bool | int | float | str => exact passes.pure true
  | _ => exact passes.pure false

/-- Matching has the property that matching the parts has, one case for each kind of descriptor. -/
theorem acceptsStep {d : Descriptor} (hd : T d) (v : Value) : P (Descriptor.acceptsStep e d v) := by
  have parts := h.children hd
  have passes := h.passes
  cases d with
  | any | void | never | unit => exact passes.pure _
  | boolean => cases v <;> exact passes.pure _
  | truthy => exact passes.lift v.truth_overlooks
  | falsy => exact passes.bind (passes.lift v.truth_overlooks) fun _ => passes.pure _
  | jsonData => exact h.isPlainData hd v
  | union id types => exact passes.anyM fun t ht => h.accepts (parts t ht) v
  | intersection id types => exact passes.allM fun t ht => h.accepts (parts t ht) v
  | negation id inner =>
    exact passes.bind (h.accepts (parts inner (by simp [Descriptor.children])) v) fun _ => passes.pure _
  | nilable id inner =>
    exact passes.ite (passes.pure true) (h.accepts (parts inner (by simp [Descriptor.children])) v)
  | constraint id bases predicates =>
    refine passes.bind (passes.allM fun b hb => ?_) fun _ => passes.ite ?_ (passes.pure _)
    · exact h.accepts (parts b (Descriptor.base_mem hb)) v
    · exact h.allNamed (fun f hf => h.attributes hd f hf v) fun f hf => parts f.2 (Descriptor.predicate_mem hf)
  | rangeOf id element =>
    simp only [Descriptor.acceptsStep, Descriptor.endpointsMatch]
    split
    · exact passes.pure false
    · exact passes.allM fun w _ => h.accepts (parts element (by simp [Descriptor.children])) w
  | tupleOf id types =>
    refine passes.reading (fun h c b => by cases v <;> rfl) fun _ => ?_
    split
    · refine passes.ite ?_ (passes.pure false)
      rw [Descriptor.allPaired_eq]
      exact passes.allM fun x hx => h.accepts (parts x.1 (List.of_mem_zip hx).1) x.2
    · exact passes.pure false
  | shape id fields =>
    exact h.allNamed (fun f hf => h.fields hd f hf v) fun f hf => parts f.2 (List.mem_map_of_mem hf)
  | collection id kind element =>
    simp only [Descriptor.acceptsStep]
    split
    · next container => exact h.walks container (h.accepts (parts element (by simp [Descriptor.children])))
    · exact passes.pure false
  | mappingOf id key value =>
    refine passes.reading (fun h c b => by cases v <;> rfl) fun _ => ?_
    split
    · refine passes.allM fun entry _ => passes.bind (h.accepts (parts key (by simp [Descriptor.children])) entry.1) ?_
      exact fun _ => passes.ite (h.accepts (parts value (by simp [Descriptor.children])) entry.2) (passes.pure false)
    · exact passes.pure false
  | instanceOf id c => exact h.isInstance v c
  | classOf id c => exact h.isSubclass v c
  | descendantOf id c => exact passes.ite (passes.pure false) (h.isSubclass v c)
  | interface id names => exact passes.allM fun name hn => h.methods hd name hn v
  | predicate id message fn =>
    exact passes.bind (h.predicates hd v) fun w => passes.lift w.truth_overlooks
  | equal id obj =>
    exact passes.bind (passes.lift (Value.equal_overlooks v obj)) fun w => passes.lift w.truth_overlooks
  | within id container => exact h.isWithin container v
  | regex id pattern =>
    simp only [Descriptor.acceptsStep, Descriptor.isFound]
    split
    · exact passes.pure false
    · exact passes.ite (passes.throw _) (passes.pure _)
  | deferred id thunk => exact h.resolved hd fun d dd => h.accepts dd v
  | checkedListOf id element => exact h.elements hd v

end Judges

end Engine

end Conform
