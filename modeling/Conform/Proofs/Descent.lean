import Mathlib.Logic.Relation
import Conform.Proofs.Comparison
import Conform.Proofs.Matching

/-!
When matching comes to an end. A descriptor asks its parts about the value it is asked about itself, about
an attribute or field of it, or, at an element position, about the elements of it. If no chain of parts
avoids the element positions for ever, and there is no endless descent from elements to elements, matching
ends. Texts are no containers to an element position, so a descent ends at them.

What is read from a value counts as belonging to it. The words of a text are texts again, so a descriptor
that asks for the words of words has no end, although its cycle passes through an element position:
`words_unending`. Main statement: `accepts_ends`.
-/
namespace Conform

open Value Descriptor

/-- What the element positions of descriptors come by in a value. -/
inductive Value.Holds (h : Heap) (v w : Value) : Prop
  | item {kind items} (container : isContainer kind v = true)
    (walk : walkedAt (valueDepth - 1) v h = .ok items) (hw : w ∈ items)
  | position {items} (found : positional? h v = some items) (hw : w ∈ items)
  | entry {entries e} (found : entries? h v = some entries) (he : e ∈ entries) (hw : w = e.1 ∨ w = e.2)
  | endpoint {ends} (found : presentEnds? v = some ends) (hw : w ∈ ends)

/-- A text holds nothing that an element position could ask about. -/
theorem Value.not_holds_of_isText {h : Heap} {v w : Value} (text : v.isText = true) :
    ¬v.Holds h w := by
  intro holds
  cases v with
  | str | bytes | bytearray =>
    cases holds with
    | @item kind _ container => cases kind <;> cases container
    | position found => cases found
    | entry found => cases found
    | endpoint found => cases found
  | _ => cases text

theorem Value.mem_of_holds_list {h : Heap} {kind : Flavour} {i : Handle} {w : Value}
    (holds : (Value.list kind i).Holds h w) : w ∈ h.list i := by
  cases holds with
  | item _ walk hw =>
    cases walk
    exact hw
  | position found hw =>
    cases found
    exact hw
  | entry found => cases found
  | endpoint found => cases found

/-- The second descriptor asks the first about the value that it is asked about, or about an attribute or
field of it. -/
inductive Descriptor.Unguarded (stands : Descriptor → Descriptor → Prop) (c : Descriptor) :
    Descriptor → Prop
  | union {id types} (hc : c ∈ types) : Unguarded stands c (.union id types)
  | intersection {id types} (hc : c ∈ types) : Unguarded stands c (.intersection id types)
  | negation {id} : Unguarded stands c (.negation id c)
  | nilable {id} : Unguarded stands c (.nilable id c)
  | base {id bases predicates} (hc : c ∈ bases) : Unguarded stands c (.constraint id bases predicates)
  | named {id bases predicates name} (hc : (name, c) ∈ predicates) :
    Unguarded stands c (.constraint id bases predicates)
  | field {id fields name} (hc : (name, c) ∈ fields) : Unguarded stands c (.shape id fields)
  | target {id thunk} (hc : stands (.deferred id thunk) c) : Unguarded stands c (.deferred id thunk)

namespace Outlook

/-- From a value at one moment to the same value, or what is read from it for a member of the family, at a
later one. -/
inductive Reads (O : Outlook) : Session × Value → Session × Value → Prop
  | wait {s t v} (later : O.Later s t) : Reads O (s, v) (t, v)
  | named {s t v w n id bases predicates f} (later : O.Later s t)
    (member : O.family (.constraint id bases predicates)) (hf : f ∈ predicates)
    (run : readAttribute? (O.engine n) v f.1 s = .ok (some w) t) : Reads O (s, v) (t, w)
  | field {s t v w id fields f} (later : O.Later s t) (member : O.family (.shape id fields))
    (hf : f ∈ fields) (run : v.field? f.1 s = .ok (some w) t) : Reads O (s, v) (t, w)

/-- The first value is an element of the second, or of what is read from it. -/
def Inside (O : Outlook) (q p : Session × Value) : Prop :=
  ∃ r, Relation.ReflTransGen O.Reads p r ∧ q.1 = r.1 ∧ r.2.Holds r.1.heap q.2

/-- What is come to from a value: it, what is read and the elements, and so on. -/
inductive Meets (O : Outlook) (p : Session × Value) : Session × Value → Prop
  | start : Meets O p p
  | read {q r} (met : Meets O p q) (step : O.Reads q r) : Meets O p r
  | element {s v w} (met : Meets O p (s, v)) (holds : v.Holds s.heap w) : Meets O p (s, w)

/-- A family that a value can be matched against: what is asked of the values themselves that are come to
from it ends. -/
structure Matches (O : Outlook) (p : Session × Value) : Prop extends Resolves O where
  predicates : ∀ {id message fn}, O.family (.predicate id message fn) → ∀ s v, O.Meets p (s, v) →
    O.Stops (fun n => do (← (O.engine n).call fn [v] []).truth : Nat → Act Bool) s
  truths : O.family .truthy ∨ O.family .falsy → ∀ s v, O.Meets p (s, v) →
    O.Stops (fun _ => liftM v.truth) s
  equals : ∀ {id obj}, O.family (.equal id obj) → ∀ s v, O.Meets p (s, v) →
    O.Stops (fun _ => do (← v.equal obj).truth : Nat → Act Bool) s
  bounds : ∀ {id container}, O.family (.within id container) → ∀ s v, O.Meets p (s, v) →
    O.Stops (fun _ => isWithin container v) s
  methods : ∀ {id names}, O.family (.interface id names) → ∀ m ∈ names, ∀ s v, O.Meets p (s, v) →
    O.Stops (fun _ => respondsTo v m) s
  attributes : ∀ {id bases predicates}, O.family (.constraint id bases predicates) → ∀ f ∈ predicates,
    ∀ s v, O.Meets p (s, v) →
      O.Ends (fun n => readAttribute? (O.engine n) v f.1) s fun r t => ∀ w ∈ r, w.Live t.heap
  fields : ∀ {id fields}, O.family (.shape id fields) → ∀ f ∈ fields, ∀ s v, O.Meets p (s, v) →
    O.Ends (fun _ => v.field? f.1) s fun r t => ∀ w ∈ r, w.Live t.heap
  walks : ∀ {id kind element}, O.family (.collection id kind element) → ∀ s v, O.Meets p (s, v) →
    isContainer kind v = true → ∀ f, walkedAt (valueDepth - 1) v s.heap = .error f → O.faults f

variable {O : Outlook} {p : Session × Value} {s : Session} {d : Descriptor} {v : Value}

namespace Ends

theorem traced {α : Type} {x : Nat → Act α} {Q : α → Session → Prop} (h : O.Ends x s Q) :
    O.Ends x s fun a t => Q a t ∧ ∃ n, x n s = .ok a t := by
  obtain ⟨n, r, same, ends⟩ := h
  refine ⟨n, r, same, ?_⟩
  cases r with
  | ok a t => exact ⟨ends.1, ends.2, n, same n (Nat.le_refl n)⟩
  | error f t => exact ends

theorem isInstance (moment : O.Moment s) (v : Value) (c : Class) :
    O.Stops (fun _ => Nominal.isInstance v c) s := by
  refine .ite (fun _ => .pure moment trivial) fun _ => .bind (.ancestors moment _) ?_
  intro known t st _
  refine .ite (fun _ => .pure st.moment trivial) fun _ => ?_
  split
  · exact .pure st.moment trivial
  · refine .bind (.trace st.moment nofun) ?_
    exact fun _ u tu _ => .pure tu.moment trivial

/-- Named reads end if each of them does and what it comes by can be matched. -/
theorem allNamed {read : Nat → String → Act (Option Value)} {fields : List (String × Descriptor)}
    (moment : O.Moment s)
    (hr : ∀ f ∈ fields, ∀ t, O.Later s t → O.Ends (fun n => read n f.1) t fun r u =>
      ∀ w ∈ r, O.Stops (fun n => (O.engine n).accepts f.2 w) u) :
    O.Stops (fun n => Descriptor.allNamed (O.engine n) (read n) fields) s := by
  simp only [allNamed_eq]
  refine .allM moment fun f hf t st => .bind (hr f hf t st) ?_
  intro r u tu matched
  cases r with
  | none => exact .pure tu.moment trivial
  | some w => exact matched w rfl

theorem allPaired {ds : List Descriptor} {vs : List Value} (moment : O.Moment s)
    (hp : ∀ d ∈ ds, ∀ v ∈ vs, ∀ t, O.Later s t → O.Stops (fun n => (O.engine n).accepts d v) t) :
    O.Stops (fun n => Descriptor.allPaired (O.engine n) ds vs) s := by
  simp only [allPaired_eq]
  exact .allM moment fun x hx => hp x.1 (List.of_mem_zip hx).1 x.2 (List.of_mem_zip hx).2

end Ends

namespace Matches

/-- A walk that asks about every element ends if it comes by the elements and each of them can be asked. -/
theorem allItems {test : Nat → Value → Act Bool} {id : Ident} {kind : CollectionKind}
    {element : Descriptor} (env : O.Matches p) (strict : ∀ f, O.faults f ↔ f ≠ .exhausted)
    (moment : O.Moment s) (met : O.Meets p (s, v)) (hd : O.family (.collection id kind element))
    (lv : v.Live s.heap) (container : isContainer kind v = true)
    (each : ∀ w, w.Live s.heap → v.Holds s.heap w → ∀ t, O.Later s t → O.Stops (fun n => test n w) t) :
    O.Stops (fun n => v.allItems (test n)) s := by
  have lasting := isContainer_lasting container
  have closed := moment.sound.closed
  cases walk : walkedAt (valueDepth - 1) v s.heap with
  | error f =>
    have counts := env.walks hd s v met container f walk
    have refused (n : Nat) : v.allItems (test n) s = .error f s :=
      allItemsAt_of_unwalked closed lasting walk ((strict f).mp counts)
    exact ⟨0, .error f s, fun m _ => refused m, counts⟩
  | ok items =>
    have live := ((walkedAt_carries (.refl _) closed _ lv).ok walk).2
    have asked : O.Stops (fun n => items.allM (test n)) s :=
      .allM moment fun w hw => each w (live w hw) (.item container walk hw)
    have same (n : Nat) : v.allItems (test n) s = items.allM (test n) s :=
      allItemsAt_of_walked closed lasting walk
    obtain ⟨n, r, settled, ends⟩ := asked
    exact ⟨n, r, fun m hm => (same m).trans (settled m hm), ends⟩

/-- Matching ends at every value that is read from one without an endless descent. -/
theorem accepts (env : O.Matches p) (strict : ∀ f, O.faults f ↔ f ≠ .exhausted)
    (guarded : ∀ d, O.family d → Acc (Unguarded O.stands) d)
    (unchecked : ∀ id element, ¬O.family (.checkedListOf id element)) {q : Session × Value}
    (finite : Acc O.Inside q) :
    ∀ r, Relation.ReflTransGen O.Reads q r → O.Meets p r → ∀ d, O.family d → O.Moment r.1 →
      r.2.Live r.1.heap → O.Stops (fun n => (O.engine n).accepts d r.2) r.1 := by
  induction finite with
  | intro q _ elements =>
    intro r reach met d hd
    have unguarded := guarded d hd
    induction unguarded generalizing r with
    | intro d _ parts =>
      intro moment live
      obtain ⟨s, v⟩ := r
      have children := env.children hd
      have held {w : Value} (holds : v.Holds s.heap w) (lw : w.Live s.heap) {c : Descriptor}
          (hc : O.family c) (t : Session) (st : O.Later s t) :
          O.Stops (fun n => (O.engine n).accepts c w) t :=
        elements (s, w) ⟨(s, v), reach, rfl, holds⟩ (t, w) (.single (.wait st))
          ((met.element holds).read (.wait st)) c hc st.moment (st.before.live lw)
      have again {c : Descriptor} (hc : O.family c) (asked : Unguarded O.stands c d) (t : Session)
          (st : O.Later s t) : O.Stops (fun n => (O.engine n).accepts c v) t :=
        parts c asked (t, v) (reach.tail (.wait st)) (met.read (.wait st)) hc st.moment
          (st.before.live live)
      refine .deepen ?_
      cases d with
      | any | void | never | unit => exact .pure moment trivial
      | boolean => cases v <;> exact .pure moment trivial
      | truthy => exact env.truths (.inl hd) s v met
      | falsy =>
        refine .bind (env.truths (.inr hd) s v met) ?_
        exact fun _ t st _ => .pure st.moment trivial
      | jsonData =>
        cases v with
        | list kind i =>
          refine .allM moment fun w hw => held (.position rfl hw) ?_ hd
          exact moment.sound.closed.lists i w hw
        | dict kind i =>
          refine .allM moment fun e he t st => .ite (fun _ => ?_) fun _ => .pure st.moment trivial
          exact held (.entry rfl he (.inr rfl)) (moment.sound.closed.dicts i e he).2 hd t st
        | _ => exact .pure moment trivial
      | union id types => exact .anyM moment fun c hc => again (children c hc) (.union hc)
      | intersection id types => exact .allM moment fun c hc => again (children c hc) (.intersection hc)
      | negation id inner =>
        refine .bind (again (children inner (.head _)) .negation s moment.refl) ?_
        exact fun _ t st _ => .pure st.moment trivial
      | nilable id inner =>
        refine .ite (fun _ => .pure moment trivial) fun _ => ?_
        exact again (children inner (.head _)) .nilable s moment.refl
      | constraint id bases predicates =>
        refine .bind (.allM moment fun c hc => ?_) ?_
        · exact again (children c (base_mem hc)) (.base hc)
        intro yes t st _
        refine .ite (fun _ => .allNamed st.moment ?_) fun _ => .pure st.moment trivial
        intro f hf u tu
        have waiting : O.Reads (s, v) (u, v) := .wait (st.trans tu)
        refine (env.attributes hd f hf u v (met.read waiting)).traced.mono ?_
        rintro r x ux ⟨there, n, run⟩ w hw
        obtain rfl := Option.mem_def.mp hw
        have reading : O.Reads (u, v) (x, w) := .named ux hd hf run
        exact parts f.2 (.named hf) (x, w) ((reach.tail waiting).tail reading)
          ((met.read waiting).read reading)
          (children f.2 (predicate_mem hf)) ux.moment (there w rfl)
      | rangeOf id element =>
        simp only [Engine.ofDepth, Engine.step, acceptsStep, endpointsMatch]
        split
        · exact .pure moment trivial
        · next ends found =>
          refine .allM moment fun w hw => held (.endpoint found hw) ?_ (children element (.head _))
          exact presentEnds?_live live found w hw
      | tupleOf id types =>
        refine .getHeap ?_
        split
        · next items found =>
          refine .ite (fun _ => .allPaired moment fun c hc w hw => ?_) fun _ => .pure moment trivial
          exact held (.position found hw) (positional?_live moment.sound.closed live found w hw)
            (children c hc)
        · exact .pure moment trivial
      | shape id fields =>
        refine .allNamed moment ?_
        intro f hf t st
        have waiting : O.Reads (s, v) (t, v) := .wait st
        refine (env.fields hd f hf t v (met.read waiting)).traced.mono ?_
        rintro r u tu ⟨there, n, run⟩ w hw
        obtain rfl := Option.mem_def.mp hw
        have reading : O.Reads (t, v) (u, w) := .field tu hd hf run
        exact parts f.2 (.field hf) (u, w) ((reach.tail waiting).tail reading)
          ((met.read waiting).read reading)
          (children f.2 (List.mem_map_of_mem hf)) tu.moment (there w rfl)
      | collection id kind element =>
        refine .ite (fun container => ?_) fun _ => .pure moment trivial
        refine env.allItems strict moment met hd live container ?_
        exact fun w lw holds => held holds lw (children element (.head _))
      | mappingOf id key value =>
        refine .getHeap ?_
        split
        · next entries found =>
          have there := entries?_live moment.sound.closed live found
          refine .allM moment fun e he t st => ?_
          have hk := held (.entry found he (.inl rfl)) (there e he).1 (children key (.head _))
          have hw := held (.entry found he (.inr rfl)) (there e he).2 (children value (.tail _ (.head _)))
          refine .bind (hk t st) fun yes u tu _ => ?_
          exact .ite (fun _ => hw u (st.trans tu)) fun _ => .pure tu.moment trivial
        · exact .pure moment trivial
      | instanceOf id c => exact .isInstance moment v c
      | classOf id c => exact .isSubclass moment v c
      | descendantOf id c => exact .ite (fun _ => .pure moment trivial) fun _ => .isSubclass moment v c
      | interface id names =>
        exact .allM moment fun m hm t st => env.methods hd m hm t v (met.read (.wait st))
      | predicate id message fn => exact env.predicates hd s v met
      | equal id obj => exact env.equals hd s v met
      | within id container => exact env.bounds hd s v met
      | regex id pattern =>
        simp only [Engine.ofDepth, Engine.step, acceptsStep, isFound]
        split
        · exact .pure moment trivial
        · refine .ite (fun _ => .fault rfl ?_) fun _ => .pure moment trivial
          exact (strict _).mpr (by simp)
      | deferred id thunk =>
        refine .bind (env.resolve moment hd) ?_
        rintro c t st ⟨hc, -, stands⟩
        exact again hc (.target stands) t st
      | checkedListOf id element => exact absurd hd (unchecked id element)

section Readless

variable (bare : ∀ id bases predicates, ¬O.family (.constraint id bases predicates))
  (plain : ∀ id fields, ¬O.family (.shape id fields))

include bare plain

/-- Where nothing is read from values, only time passes. -/
theorem eq_of_reads {r : Session × Value} (reach : Relation.ReflTransGen O.Reads (s, v) r) :
    r.2 = v ∧ s.Before r.1 := by
  induction reach with
  | refl => exact ⟨rfl, .refl s⟩
  | tail _ step ih =>
    cases step with
    | wait later => exact ⟨ih.1, ih.2.trans later.before⟩
    | named _ member => exact absurd member (bare _ _ _)
    | field _ member => exact absurd member (plain _ _)

theorem acc_of_not_holds (empty : ∀ h w, ¬v.Holds h w) : Acc O.Inside (s, v) := by
  constructor
  rintro q ⟨r, reach, -, holds⟩
  rw [(eq_of_reads bare plain reach).1] at holds
  exact absurd holds (empty _ _)

theorem acc_of_list {kind : Flavour} {i : Handle} (bound : i < s.heap.lists.size)
    (items : ∀ w ∈ s.heap.list i, ∀ t, s.Before t → Acc O.Inside (t, w)) :
    Acc O.Inside (s, .list kind i) := by
  constructor
  rintro ⟨t, w⟩ ⟨⟨u, v⟩, reach, here, holds⟩
  obtain ⟨rfl, before⟩ := eq_of_reads bare plain reach
  obtain rfl : t = u := here
  have same : t.heap.list i = s.heap.list i := before.heap.list_eq bound
  exact items w (same ▸ mem_of_holds_list holds) t before

end Readless

/-- Matching ends, with an answer or an exception and from some depth on always the same, if every cycle of
the descriptors passes through an element position and there is no endless descent into the value and what
is read from it. Where nothing is read from values, texts are such values. -/
theorem accepts_ends (env : O.Matches (s, v)) (strict : ∀ f, O.faults f ↔ f ≠ .exhausted)
    (guarded : ∀ d, O.family d → Acc (Unguarded O.stands) d)
    (unchecked : ∀ id element, ¬O.family (.checkedListOf id element)) (moment : O.Moment s)
    (hd : O.family d) (live : v.Live s.heap)
    (finite : Acc O.Inside (s, v) ∨ v.isText = true ∧
      (∀ id bases predicates, ¬O.family (.constraint id bases predicates)) ∧
      ∀ id fields, ¬O.family (.shape id fields)) :
    ∃ n r, (∀ m, n ≤ m → (Engine.ofDepth O.functions m).accepts d v s = r) ∧
      ∀ t, r ≠ .error .exhausted t := by
  have acc : Acc O.Inside (s, v) := by
    obtain acc | ⟨text, bare, plain⟩ := finite
    · exact acc
    · exact acc_of_not_holds bare plain fun _ _ => not_holds_of_isText text
  obtain ⟨n, r, same, ends⟩ := 
    env.accepts strict guarded unchecked acc (s, v) .refl .start d hd moment live
  refine ⟨n, r, same, ?_⟩
  rintro t rfl
  exact (strict _).mp ends rfl

section Nested

open InPlay Lawful Compares

/-- The nested lists, where every fault but giving up counts as an end. -/
abbrev nestedReading : Outlook :=
  nestedOutlook (· ≠ .exhausted)

theorem nested_readless {d : Descriptor} (hd : nestedReading.family d) :
    (∀ id bases predicates, d ≠ .constraint id bases predicates) ∧ ∀ id fields, d ≠ .shape id fields := by
  rcases hd with ⟨_ | _ | _ | _ | _ | _⟩ | _ <;> exact ⟨nofun, nofun⟩

theorem nested_bare (id : Ident) (bases : List Descriptor) (predicates : List (String × Descriptor)) :
    ¬nestedReading.family (.constraint id bases predicates) :=
  fun hd => (nested_readless hd).1 _ _ _ rfl

theorem nested_plain (id : Ident) (fields : List (String × Descriptor)) :
    ¬nestedReading.family (.shape id fields) :=
  fun hd => (nested_readless hd).2 _ _ rfl

theorem bool_not_holds (b : Bool) (h : Heap) (w : Value) : ¬(Value.bool b).Holds h w := by
  rintro (@⟨kind, _, container, _, _⟩ | ⟨found, _⟩ | ⟨found, _, _⟩ | ⟨found, _⟩)
  · cases kind <;> cases container
  · cases found
  · cases found
  · cases found

/-- The values that are come to from the list at hand. -/
theorem nested_met {q : Session × Value} (met : nestedReading.Meets (nestedStart, .list .base 0) q) :
    nestedStart.Before q.1 ∧ q.2 ∈ [.list .base 0, .bool true, .list .base 1] := by
  induction met with
  | start => exact ⟨.refl _, .head _⟩
  | @read q r _ step ih =>
    cases step with
    | wait later => exact ⟨ih.1.trans later.before, ih.2⟩
    | named _ member => exact absurd member (nested_bare _ _ _)
    | field _ member => exact absurd member (nested_plain _ _)
  | @element s v w _ holds ih =>
    obtain ⟨before, hv⟩ := ih
    have first : s.heap.list 0 = [.bool true, .list .base 1] := before.heap.list_eq (by decide)
    have second : s.heap.list 1 = [] := before.heap.list_eq (by decide)
    refine ⟨before, ?_⟩
    simp only [List.mem_cons, List.not_mem_nil, or_false] at hv
    obtain rfl | rfl | rfl := hv
    · exact .tail _ (first ▸ mem_of_holds_list holds)
    · exact absurd holds (bool_not_holds _ _ _)
    · cases second ▸ mem_of_holds_list holds

theorem nested_matches : nestedReading.Matches (nestedStart, .list .base 0) where
  toResolves := nested_resolves _
  predicates := by rintro _ _ _ ⟨⟨⟩⟩
  truths := by
    rintro (hd | hd)
    · rcases hd with hd | _
      cases hd
    · rcases hd with hd | _
      cases hd
  equals := by rintro _ _ ⟨⟨⟩⟩
  bounds := by rintro _ _ ⟨⟨⟩⟩
  methods := by rintro _ _ ⟨⟨⟩⟩
  attributes := by rintro _ _ _ ⟨⟨⟩⟩
  fields := by rintro _ _ ⟨⟨⟩⟩
  walks := by
    intro id kind element _ s v met container f hf
    have hv := (nested_met met).2
    simp only [List.mem_cons, List.not_mem_nil, or_false] at hv
    obtain rfl | rfl | rfl := hv
    · cases hf
    · cases kind <;> cases container
    · cases hf

theorem nested_unguarded {d : Descriptor} (hd : nestedReading.family d) :
    Acc (Unguarded nestedReading.stands) d := by
  have lists (id : Ident) (kind : CollectionKind) (c : Descriptor) :
      Acc (Unguarded nestedReading.stands) (.collection id kind c) := ⟨_, nofun⟩
  have bool : Acc (Unguarded nestedReading.stands) (.instanceOf 5 .bool) := ⟨_, nofun⟩
  have whole : Acc (Unguarded nestedReading.stands) nestedCases := by
    constructor
    rintro c (hc | _ | _ | _ | _ | _ | _ | _)
    simp only [List.mem_cons, List.not_mem_nil, or_false] at hc
    obtain rfl | rfl := hc
    · exact bool
    · exact lists _ _ _
  rcases hd with ⟨_ | _ | _ | _ | _ | _⟩ | _
  · constructor
    rintro c (_ | _ | _ | _ | _ | _ | _ | ⟨-, rfl⟩)
    exact whole
  · exact lists _ _ _
  · exact lists _ _ _
  · exact whole
  · exact bool
  · exact ⟨_, nofun⟩
  · exact lists _ _ _

theorem nested_finite : Acc nestedReading.Inside (nestedStart, .list .base 0) := by
  refine acc_of_list nested_bare nested_plain (by decide) ?_
  intro w hw t before
  obtain rfl | rfl : w = .bool true ∨ w = .list .base 1 := by simpa [nestedStart, Heap.list] using hw
  · exact acc_of_not_holds nested_bare nested_plain (bool_not_holds true)
  · have bound : 1 < t.heap.lists.size := Grows.lt_size before.heap.lists (by decide)
    have empty : t.heap.list 1 = [] := before.heap.list_eq (by decide)
    refine acc_of_list nested_bare nested_plain bound ?_
    simp [empty]

theorem nestedLists_end :
    Acc nestedReading.Inside (nestedStart, .list .base 0) ∧
      ∃ n r, (∀ m, n ≤ m → (Engine.ofDepth nestedLibrary m).accepts nestedLists (.list .base 0)
        nestedStart = r) ∧ ∀ t, r ≠ .error .exhausted t :=
  ⟨nested_finite, accepts_ends nested_matches (fun _ => .rfl) (fun _ => nested_unguarded)
    (fun id element => by rintro ⟨⟨⟩⟩) (nested_moment _) (.nested .lists) (by simp [Value.Live, nestedStart]) (.inl nested_finite)⟩

end Nested

section Words

/-- Texts whose words are lists of such texts. -/
abbrev worded : Descriptor := .deferred 1 (.fn { name := "worded", traced := false, bare := true })

abbrev wordLists : Descriptor := .collection 2 .array worded

abbrev wordCases : Descriptor := .constraint 3 [.instanceOf 4 .str] [("split", wordLists)]

def wordLibrary : Library := fun _ _ _ _ => return .descriptor wordCases

abbrev word (id : Ident) : Value := .str .base id "word"

/-- A session in which the deferred descriptor is resolved. -/
abbrev wordedResolved (s : Session) : Session :=
  { s with resolved := [(1, wordCases)] }

/-- The session after a word has been split into words. -/
abbrev afterSplit (s : Session) : Session :=
  { s with
    nextIdent := s.nextIdent + 1
    heap := { s.heap with lists := s.heap.lists.push [word s.nextIdent] } }

variable {t : Session} {n : Nat} {id : Ident}

theorem splitText_word : splitText "word" [] s = .ok (.list .base s.heap.lists.size) (afterSplit s) := by
  have once : Text.words Text.isSpace "word".toList [] = [['w', 'o', 'r', 'd']] := by decide +kernel
  simp only [splitText, once, pure_bind]
  rfl

theorem readAttribute?_word : readAttribute? (.ofDepth wordLibrary (n + 1)) (word id) "split" s =
    .ok (some (.list .base s.heap.lists.size)) (afterSplit s) := by
  have called : (Engine.ofDepth wordLibrary (n + 1)).call (.method (word id) "split" .builtin) [] [] s =
      .ok (.list .base s.heap.lists.size) (afterSplit s) := splitText_word
  exact (Act.bind_of_ok rfl).trans (Act.bind_of_ok called)

theorem wordLists_unending {v : Value} {i : Handle} (one : s.heap.list i = [v])
    (inner : (Engine.ofDepth wordLibrary n).accepts worded v s = .error .exhausted t) :
    (Engine.ofDepth wordLibrary (n + 1)).accepts wordLists (.list .base i) s = .error .exhausted t := by
  change (s.heap.list i).allM ((Engine.ofDepth wordLibrary n).accepts worded) s = _
  rw [one]
  exact Act.bind_of_error inner

theorem wordCases_unending
    (inner : (Engine.ofDepth wordLibrary n).accepts worded (word s.nextIdent) (afterSplit s) =
      .error .exhausted t) :
    (Engine.ofDepth wordLibrary (n + 2)).accepts wordCases (word id) s = .error .exhausted t := by
  have one : (afterSplit s).heap.list s.heap.lists.size = [word s.nextIdent] := by simp [Heap.list]
  have lists := wordLists_unending one inner
  have bases : [.instanceOf 4 .str].allM ((Engine.ofDepth wordLibrary (n + 1)).accepts · (word id)) s =
      .ok true s := rfl
  have named : allNamed (.ofDepth wordLibrary (n + 1))
      (readAttribute? (.ofDepth wordLibrary (n + 1)) (word id)) [("split", wordLists)] s =
        .error .exhausted t :=
    (Act.bind_of_ok readAttribute?_word).trans (Act.bind_of_error lists)
  exact (Act.bind_of_ok bases).trans named

theorem worded_unending : ∀ (n : Nat) (s : Session) (id : Ident),
    ∃ t, (Engine.ofDepth wordLibrary n).accepts worded (word id) (wordedResolved s) = .error .exhausted t
  | 0, _, _ => ⟨_, rfl⟩
  | 1, _, _ => ⟨_, rfl⟩
  | 2, _, _ => ⟨_, rfl⟩
  -- Three levels on, the word that the word was split into is asked about.
  | n + 3, s, id => by
    obtain ⟨t, inner⟩ := worded_unending n (afterSplit s) s.nextIdent
    have split : (Engine.ofDepth wordLibrary (n + 2)).accepts wordCases (word id) (wordedResolved s) =
        .error .exhausted t := wordCases_unending inner
    exact ⟨t, (Act.bind_of_ok rfl).trans split⟩

theorem worded_guarded {d : Descriptor} (hd : d ∈ [worded, wordCases, wordLists, .instanceOf 4 .str]) :
    Acc (Unguarded fun d c => d = worded ∧ c = wordCases) d := by
  have lists : Acc (Unguarded fun d c => d = worded ∧ c = wordCases) wordLists := ⟨_, nofun⟩
  have texts : Acc (Unguarded fun d c => d = worded ∧ c = wordCases) (.instanceOf 4 .str) := ⟨_, nofun⟩
  have whole : Acc (Unguarded fun d c => d = worded ∧ c = wordCases) wordCases := by
    constructor
    rintro c (_ | _ | _ | _ | hc | hc | _ | _)
    · exact List.mem_singleton.mp hc ▸ texts
    · cases List.mem_singleton.mp hc
      exact lists
  simp only [List.mem_cons, List.not_mem_nil, or_false] at hd
  obtain rfl | rfl | rfl | rfl := hd
  · constructor
    rintro c (_ | _ | _ | _ | _ | _ | _ | ⟨-, rfl⟩)
    exact whole
  · exact whole
  · exact lists
  · exact texts

/-- Every cycle of the descriptors passes through an element position and the text holds nothing, but
matching has no end: no depth suffices. -/
theorem words_unending :
    (∀ d ∈ [worded, wordCases, wordLists, .instanceOf 4 .str],
        Acc (Unguarded fun d c => d = worded ∧ c = wordCases) d) ∧
      (∀ h w, ¬(word 5).Holds h w) ∧
      ∀ n, ∃ t, (Engine.ofDepth wordLibrary n).accepts worded (word 5) {} = .error .exhausted t := by
  refine ⟨fun d hd => worded_guarded hd, fun h w => not_holds_of_isText rfl, fun n => ?_⟩
  obtain _ | _ | _ | n := n
  · exact ⟨_, rfl⟩
  · exact ⟨_, rfl⟩
  · exact ⟨_, rfl⟩
  · obtain ⟨t, inner⟩ := worded_unending n (afterSplit {}) ({} : Session).nextIdent
    have split : (Engine.ofDepth wordLibrary (n + 2)).accepts wordCases (word 5) (wordedResolved {}) =
        .error .exhausted t := wordCases_unending inner
    exact ⟨t, (Act.bind_of_ok rfl).trans split⟩

end Words

end Matches

end Outlook

end Conform
