import Conform.Proofs.History
import Conform.Proofs.Overlooking

/-!
Habits of the library. A habit is a property of actions: it may say what an action leaves alone, with which
faults it ends, or how its runs from two sessions compare. Matching, comparing, checking and all operations of
checked lists have a habit as soon as it passes from parts to wholes, plain actions have it, and the few steps
that are not plain have it: remembering the ancestors of a class, making a checked list, writing to it and
freezing it.

Main statements: `Habit.Kept.acceptsStep`, `Habit.Kept.subtypeStep`, `Habit.Kept.operate`.
-/
namespace Conform

/-- A property of actions, with the descriptors, calls and checked lists for which it is claimed. -/
structure Habit where
  /-- What holds of the sessions that come up. -/
  inv : Session → Prop
  holds : ∀ {α : Type}, Act α → Prop
  /-- How far plain actions may reach. -/
  reach : Reach
  /-- The descriptors that come up. -/
  types : Descriptor → Prop
  /-- The values that are called. -/
  callees : Value → Prop
  /-- The checked lists that are written to. -/
  receivers : Handle → Prop
  /-- The checked lists that are not asked whether they are frozen. -/
  secret : Handle → Prop
  plain : ∀ {α : Type} {x : Act α}, x.Plain reach → (∀ c, secret c → x.Overlooks) → holds x
  reading : ∀ {α : Type} {f : Heap → Act α}, (∀ c, secret c → ∀ h b, f (h.flagged c b) = f h) →
    (∀ s, inv s → holds (f s.heap)) → holds (Act.getHeap >>= f)
  andThen : ∀ {α β : Type} {x : Act α} {f : α → Act β}, holds x →
    (∀ s a t, inv s → x s = .ok a t → holds (f a)) → holds (x >>= f)
  remembered : ∀ c, holds (Nominal.ancestors c)
  made : ∀ {c l}, types l.element → types l.collection → l.frozen = false → holds (Act.newChecked c l)
  written : ∀ {self : CheckedList.Self}, receivers self.at_ → ∀ method items, holds (self.write method items)
  frozen : ∀ {self : CheckedList.Self}, receivers self.at_ → ∀ e, holds (CheckedList.Op.freeze.perform e self)
  apart : ∀ {i}, receivers i → ¬secret i
  children : ∀ {d}, types d → ∀ c ∈ d.children, types c
  predicates : ∀ {id message fn}, types (.predicate id message fn) → callees fn
  attributes : ∀ {id bases predicates}, types (.constraint id bases predicates) → ∀ f ∈ predicates,
    ∀ v : Value, holds (v.attribute? f.1)
  methods : ∀ {id bases predicates}, types (.constraint id bases predicates) → ∀ f ∈ predicates,
    ∀ {v w : Value} {s t}, v.attribute? f.1 s = .ok (some w) t → w.isBoundMethod → callees w
  fields : ∀ {id fields}, types (.shape id fields) → ∀ f ∈ fields, ∀ v : Value, holds (v.field? f.1)
  responds : ∀ {id names}, types (.interface id names) → ∀ name ∈ names, ∀ v,
    holds (Descriptor.respondsTo v name)
  elements : ∀ {s}, inv s → ∀ i, types (s.heap.checkedList i).element ∧ types (s.heap.checkedList i).collection
  newcomers : ∀ {s}, inv s → receivers s.heap.checked.size
  lookups : ∀ {s element fn found t}, inv s → Transforms.lookup element fn s = .ok found t → ∀ d ∈ found, types d
  arrays : ∀ {d}, types d → ∀ id, types (.collection id .array d)

namespace Habit

variable {α β : Type} {H : Habit}

/-- Where every list may be asked whether it is frozen, the heap is read as whatever else is answered. -/
theorem reading_of_andThen (inv : Session → Prop) (holds : ∀ {α : Type}, Act α → Prop) (read : holds Act.getHeap)
    (andThen : ∀ {α β : Type} {x : Act α} {f : α → Act β}, holds x →
      (∀ s a t, inv s → x s = .ok a t → holds (f a)) → holds (x >>= f))
    {f : Heap → Act α} (hf : ∀ s, inv s → holds (f s.heap)) : holds (Act.getHeap >>= f) := by
  refine andThen read fun s h t here run => ?_
  obtain ⟨rfl, rfl⟩ := Act.getHeap_eq_ok.mp run
  exact hf s here

def Has (H : Habit) (x : Act α) : Prop :=
  H.holds x

namespace Has

theorem plain {x : Act α} (hx : x.Plain H.reach) (overlooks : x.Overlooks) : H.Has x :=
  H.plain hx fun _ _ => overlooks

theorem pure (a : α) : H.Has (pure a) :=
  plain (.pure a) (.pure a)

theorem throw (f : Fault) : H.Has (throw f : Act α) :=
  plain (.throw f) (.throw f)

theorem fail (c : Cause) : H.Has (Act.fail c : Act α) :=
  plain (.fail c) (.fail c)

theorem lift {l : Look α} (hl : l.Overlooks) : H.Has (liftM l : Act α) :=
  plain (.lift l) (.lift hl)

/-- An action that goes on with what another one answers. -/
theorem andThen {x : Act α} {f : α → Act β} (hx : H.Has x)
    (hf : ∀ s a t, H.inv s → x s = .ok a t → H.Has (f a)) : H.Has (x >>= f) :=
  H.andThen hx hf

theorem bind {x : Act α} {f : α → Act β} (hx : H.Has x) (hf : ∀ a, H.Has (f a)) : H.Has (x >>= f) :=
  andThen hx fun _ a _ _ _ => hf a

/-- An action that depends on the heap as it is when the action starts. -/
theorem reading {f : Heap → Act α} (same : ∀ h c b, f (h.flagged c b) = f h)
    (hf : ∀ s, H.inv s → H.Has (f s.heap)) : H.Has (Act.getHeap >>= f) :=
  H.reading (fun c _ h b => same h c b) hf

theorem getHeap {f : Heap → Act α} (same : ∀ h c b, f (h.flagged c b) = f h) (hf : ∀ h, H.Has (f h)) :
    H.Has (Act.getHeap >>= f) :=
  reading same fun s _ => hf s.heap

/-- An action that depends on a checked list as it is when the action starts. -/
theorem state {self : CheckedList.Self} {f : CheckedList → Act α}
    (same : H.secret self.at_ → ∀ l b, f { l with frozen := b } = f l)
    (hf : ∀ l, H.types l.element → H.types l.collection → H.Has (f l)) : H.Has (self.state >>= f) := by
  have read : (self.state >>= f) = Act.getHeap >>= fun h => f (h.checkedList self.at_) := by
    simp only [CheckedList.Self.state, bind_assoc, pure_bind]
  rw [read]
  refine H.reading (fun c secret h b => ?_) fun s inv => ?_
  · by_cases own : self.at_ = c
    · obtain ⟨mark, marked⟩ := h.checkedList_flagged c self.at_ b
      rw [marked]
      exact same (own ▸ secret) _ mark
    · rw [Heap.checkedList_flagged_of_ne own]
  · have known := H.elements inv self.at_
    exact hf _ known.1 known.2

theorem ite {c : Prop} [Decidable c] {x y : Act α} (hx : H.Has x) (hy : H.Has y) :
    H.Has (if c then x else y) := by
  split
  · exact hx
  · exact hy

theorem remembered (c : Class) : H.Has (Nominal.ancestors c) :=
  H.remembered c

theorem passes : Act.Passes H.Has :=
  ⟨pure, throw, lift, getHeap, bind⟩

theorem mapM {f : α → Act β} {xs : List α} (hf : ∀ x, H.Has (f x)) : H.Has (xs.mapM f) :=
  passes.mapM fun x _ => hf x

theorem filterM {p : α → Act Bool} {xs : List α} (hp : ∀ x, H.Has (p x)) : H.Has (xs.filterM p) :=
  passes.filterM fun x _ => hp x

end Has

/-- An engine whose judgements have a habit. -/
structure Kept (H : Habit) (e : Engine) : Prop where
  accepts : ∀ {d}, H.types d → ∀ v, H.Has (e.accepts d v)
  subtype : ∀ {a b}, H.types a → H.types b → H.Has (e.subtype a b)
  call : ∀ {f}, H.callees f → ∀ args keywords, H.Has (e.call f args keywords)
  resolve : ∀ {id thunk}, H.types (.deferred id thunk) → H.Has (Descriptor.resolve e id thunk)
  target : ∀ {id thunk}, H.types (.deferred id thunk) → ∀ {s d t}, H.inv s →
    Descriptor.resolve e id thunk s = .ok d t → H.types d

section Matching

theorem isInstance_has (v : Value) (c : Class) : H.Has (Nominal.isInstance v c) := by
  refine .ite (.pure true) (.bind (.remembered _) fun known => .ite (.pure true) ?_)
  split
  · exact .pure _
  · exact .bind (.plain (trace_plain (.pure _)) (trace_overlooks (.pure _))) fun _ => .pure _

theorem isSubclass_has (v : Value) (c : Class) : H.Has (Nominal.isSubclass v c) := by
  cases v with
  | cls k =>
    refine .bind (.remembered k) fun known => .ite (.pure true) ?_
    split <;> exact .pure _
  | _ => exact .pure false

namespace Kept

variable {e : Engine}

theorem readAttribute? (kept : H.Kept e) {v : Value} {name : String} (read : H.Has (v.attribute? name))
    (methods : ∀ {w s t}, v.attribute? name s = .ok (some w) t → w.isBoundMethod → H.callees w) :
    H.Has (Descriptor.readAttribute? e v name) := by
  refine .andThen read fun s found t inv run => ?_
  split
  · split
    · next bound => exact .bind (kept.call (methods run bound) [] []) fun _ => .pure _
    · exact .pure _
  · exact .pure none

/-- Judgements over an engine that has a habit have it as well. -/
theorem judges (kept : H.Kept e) : e.Judges H.Has H.types where
  passes := Has.passes
  children := H.children
  subtype := kept.subtype
  isSubclass := isSubclass_has
  resolved hd hf := .andThen (kept.resolve hd) fun _ d _ inv run => hf d (kept.target hd inv run)
  accepts := kept.accepts
  isInstance := isInstance_has
  isWithin container v := by
    cases container with
    | range id r => exact .lift (Value.inSpan_overlooks r v)
    | slice id start stop step =>
      refine .plain (.handle (.lift _) fun _ => .pure false) (.handle (.lift ?_) fun _ => .pure false)
      exact Descriptor.betweenBounds_overlooks start stop v
    | _ => exact .pure false
  walks _ hp := Value.allItemsAt_passes Has.passes (.plain .fresh .fresh)
    (fun i vs => .plain (.setIter i vs) (.setIter i vs)) hp
  predicates hd v := kept.call (H.predicates hd) [v] []
  attributes hd f hf v := kept.readAttribute? (H.attributes hd f hf v) (H.methods hd f hf)
  fields := H.fields
  methods := H.responds
  elements {id element} hd v := by
    cases v with
    | checked c i =>
      refine .reading (fun h c b => by simp only [Heap.element_flagged]) fun s inv => ?_
      exact kept.subtype (H.elements inv i).1 (H.children hd element (by simp [Descriptor.children]))
    | _ => exact .pure false

/-- Matching has a habit. -/
theorem acceptsStep (kept : H.Kept e) {d : Descriptor} (hd : H.types d) (v : Value) :
    H.Has (Descriptor.acceptsStep e d v) :=
  kept.judges.acceptsStep hd v

/-- Comparing has a habit. -/
theorem subtypeStep (kept : H.Kept e) {a b : Descriptor} (ha : H.types a) (hb : H.types b) :
    H.Has (Descriptor.subtypeStep e a b) :=
  kept.judges.subtypeStep ha hb

/-- Matching and comparing have a habit at every depth, once it is that of calls and of resolving. -/
theorem ofDepth {functions : Library} (call : ∀ n {f}, H.callees f → ∀ args keywords,
      H.Has ((Engine.ofDepth functions n).call f args keywords))
    (resolve : ∀ n {id thunk}, H.types (.deferred id thunk) →
      H.Has (Descriptor.resolve (Engine.ofDepth functions n) id thunk))
    (target : ∀ n {id thunk}, H.types (.deferred id thunk) → ∀ {s d t}, H.inv s →
      Descriptor.resolve (Engine.ofDepth functions n) id thunk s = .ok d t → H.types d) (n : Nat) :
    H.Kept (Engine.ofDepth functions n) := by
  induction n with
  | zero => exact ⟨fun _ _ => .throw _, fun _ _ => .throw _, call 0, resolve 0, target 0⟩
  | succ n ih => exact ⟨ih.acceptsStep, ih.subtypeStep, call (n + 1), resolve (n + 1), target (n + 1)⟩

end Kept

end Matching

section Arranging

variable {less : α → α → Act Bool} {report : List α → Act Unit}

variable (hl : ∀ a b, H.Has (less a b))
include hl

theorem runLength_has (down : Bool) (x : α) (xs : List α) : H.Has (Sorting.runLength less down x xs) := by
  induction xs generalizing x with
  | nil => exact .pure 0
  | cons y ys ih => exact .bind (hl y x) fun _ => .ite (.bind (ih y) fun _ => .pure _) (.pure 0)

theorem searchPlace_has (sorted : Array α) (pivot : α) (fuel low high : Nat) :
    H.Has (Sorting.searchPlace less sorted pivot fuel low high) := by
  induction fuel generalizing low high with
  | zero => exact .pure low
  | succ fuel ih =>
    refine .ite ?_ (.pure low)
    dsimp only
    split
    · exact .pure low
    · exact .bind (hl pivot _) fun _ => .ite (ih _ _) (ih _ _)

theorem insertAll_has (hr : ∀ xs, H.Has (report xs)) (sorted xs : List α) :
    H.Has (Sorting.insertAll less report sorted xs) := by
  induction xs generalizing sorted with
  | nil => exact .pure sorted
  | cons x xs ih => exact .bind (hr _) fun _ => .bind (searchPlace_has hl _ _ _ _ _) fun place => ih _

theorem sortReporting_has (hr : ∀ xs, H.Has (report xs)) (xs : List α) :
    H.Has (Sorting.sortReporting less report xs) := by
  have first : H.Has (Sorting.firstRun less xs) := by
    unfold Sorting.firstRun
    split
    · exact .pure _
    · exact .pure _
    · exact .bind (hl _ _) fun down => .bind (runLength_has hl down _ _) fun _ => .pure _
  exact .bind first fun run => insertAll_has hl hr _ _

theorem sort_has (xs : List α) : H.Has (Sorting.sort less xs) :=
  sortReporting_has hl (fun _ => .pure ()) xs

theorem climb_has (start : Nat) (heap : Array α) (i : Nat) : H.Has (Selection.climb less start heap i) := by
  induction i using Nat.strongRecOn generalizing heap with
  | _ i ih =>
    unfold Selection.climb
    split
    · next above =>
      dsimp only
      split
      · exact .bind (hl _ _) fun _ => .ite (ih _ (by omega) _) (.pure heap)
      · exact .pure heap
    · exact .pure heap

theorem sink_has (start fuel : Nat) (heap : Array α) (i : Nat) :
    H.Has (Selection.sink less start fuel heap i) := by
  induction fuel generalizing heap i with
  | zero => exact climb_has hl start heap i
  | succ fuel ih =>
    have child : H.Has (Selection.topChild less heap i) := by
      unfold Selection.topChild
      split
      · exact .bind (hl _ _) fun _ => .ite (.pure _) (.pure _)
      · exact .pure _
    exact .ite (.bind child fun _ => ih _ _) (climb_has hl start heap i)

theorem heapify_has (heap : Array α) : H.Has (Selection.heapify less heap) := by
  have settled (n : Nat) (heap : Array α) : H.Has (Selection.settleAll less n heap) := by
    induction n generalizing heap with
    | zero => exact .pure heap
    | succ n ih => exact .bind (sink_has hl _ _ _ _) fun heap => ih heap
  exact settled _ heap

end Arranging

section Lists

open CheckedList

/-- Whether what a value is read as is among the descriptors that come up. -/
def Reads (H : Habit) (v : Value) : Prop :=
  ∀ s d t, H.inv s → Descriptor.ofValue v s = .ok d t → H.types d

theorem Reads.bind {v : Value} (reads : H.Reads v) {f : Descriptor → Act α}
    (hf : ∀ d, H.types d → H.Has (f d)) : H.Has (Descriptor.ofValue v >>= f) :=
  .andThen (.plain (ofValue_plain v) (ofValue_overlooks v)) fun s d t inv run => hf d (reads s d t inv run)

/-- Whether looking for a declared transform has the habit. -/
def Looks (H : Habit) : Prop :=
  ∀ (d : Descriptor) (fn : Value), H.Has (Transforms.lookup (.descriptor d) fn)

theorem Looks.of_reach (records : H.reach.records = true) (switch : H.reach.switch = true) : H.Looks :=
  fun _ fn => .plain (lookup_plain records switch _ fn) (Transforms.lookup_overlooks _ fn)

/-- An action with a habit that ends by making a checked list, which is not frozen. -/
inductive Copying (H : Habit) (k : Class) : Act Value → Prop
  | made {l : CheckedList} (element : H.types l.element) (collection : H.types l.collection)
    (unfrozen : l.frozen = false) : Copying H k (Act.newChecked k l)
  | state {self : Self} {f : CheckedList → Act Value} (same : ∀ l b, f { l with frozen := b } = f l)
    (hf : ∀ l, H.types l.element → H.types l.collection → Copying H k (f l)) : Copying H k (self.state >>= f)
  | andThen {α : Type} {x : Act α} {f : α → Act Value} (hx : H.Has x)
    (hf : ∀ s a t, H.inv s → x s = .ok a t → Copying H k (f a)) : Copying H k (x >>= f)

namespace Copying

variable {k : Class}

theorem has {x : Act Value} (copying : H.Copying k x) : H.Has x := by
  induction copying with
  | made element collection unfrozen => exact H.made element collection unfrozen
  | state same _ ih => exact .state (fun _ => same) ih
  | andThen hx _ ih => exact .andThen hx ih

theorem bind {x : Act α} {f : α → Act Value} (hx : H.Has x) (hf : ∀ a, H.Copying k (f a)) : H.Copying k (x >>= f) :=
  .andThen hx fun _ a _ _ _ => hf a

theorem ite {c : Prop} [Decidable c] {x y : Act Value} (hx : H.Copying k x) (hy : H.Copying k y) :
    H.Copying k (if c then x else y) := by
  split
  · exact hx
  · exact hy

theorem sameTypes (self : Self) (items : List Value) : H.Copying self.cls (self.with items) :=
  .state (fun _ _ => rfl) fun _ element collection => .made element collection rfl

end Copying

namespace Kept

variable {e : Engine} {self : Self}

variable (kept : H.Kept e)
include kept

theorem verify (v : Value) {d : Descriptor} (hd : H.types d) {enrich : Handle → Act Unit}
    (he : ∀ i, H.Has (enrich i)) : H.Has (Check.verify e v d enrich) := by
  refine .bind (kept.accepts hd v) fun _ => .ite (.pure none) ?_
  refine .bind (.plain (.newContext _) (.newContext _)) fun i => .bind (he i) fun _ => ?_
  refine .getHeap (fun _ _ _ => rfl) fun h => ?_
  refine .bind (.plain (trace_plain (by grind)) (trace_overlooks (by grind))) fun _ => ?_
  exact .bind (.plain (mismatchError_plain _ _ _ _) (mismatchError_overlooks _ _ _ _)) fun _ => .pure _

theorem vet (v : Value) {d : Descriptor} (hd : H.types d) (operation : String) (position : Option Int) :
    H.Has (self.vet e v d operation position) := by
  refine .bind (kept.verify v hd fun i => ?_) fun found => ?_
  · exact .plain (sign_plain self operation position i) (sign_overlooks self operation position i)
  split
  · exact .pure ()
  · exact .throw _

theorem vetElement (v : Value) (operation : String) (position : Int) :
    H.Has (self.vetElement e v operation position) :=
  .state (fun _ _ _ => rfl) fun _ he _ => kept.vet v he operation (some position)

theorem collect (v : Value) (operation : String) (position : Option Int) :
    H.Has (self.collect e v operation position) := by
  have rest (whole : Value) : H.Has (do
      self.vet e whole (← self.state).collection operation position
      whole.items : Act (List Value)) :=
    .state (fun _ _ _ => rfl) fun _ _ hc => .bind (kept.vet whole hc operation position) fun _ =>
      .plain whole.items_plain whole.items_overlooks
  unfold Self.collect
  split
  · exact .bind (.pure v) rest
  · exact .bind (.plain v.items_plain v.items_overlooks) fun items =>
      .bind (.plain (.newList items) (.newList items)) rest

theorem trusts (other : Value) : H.Has (self.trusts e other) := by
  cases other with
  | checked c i =>
    refine .reading (fun h c b => by simp only [Heap.element_flagged]) fun s inv => ?_
    exact .state (fun _ _ _ => rfl) fun l he _ => kept.subtype (H.elements inv i).1 he
  | _ => exact .pure false

theorem foreignValues (other : Value) (operation : String) :
    H.Has (self.foreignValues e other operation) := by
  refine .bind (.plain (operandValues_plain other operation) (operandValues_overlooks other operation)) fun values => ?_
  refine .bind (kept.trusts other) fun _ => .ite (.pure values) ?_
  refine .bind (.plain (.newList values) (.newList values)) fun whole => .state (fun _ _ _ => rfl) fun l _ hc => ?_
  exact .bind (kept.vet whole hc operation (some 0)) fun _ => .plain whole.items_plain whole.items_overlooks

theorem construct (c : Class) (values : Value) {element : Value} (reads : H.Reads element) :
    H.Has (CheckedList.construct e c values element) := by
  refine reads.bind fun d hd => .bind (.plain .fresh .fresh) fun id => ?_
  refine .reading (fun h c b => by simp only [Heap.flagged, Array.size_setIfInBounds]) fun s inv => ?_
  refine .bind (H.made hd (H.arrays hd id) rfl) fun v => .bind (kept.collect values "__init__" none) fun _ => ?_
  exact .bind (H.written (H.newcomers inv) none _) fun _ => .pure v

theorem keyOf {key : Value} (hk : key ≠ .nil → H.callees key) (item : Value) : H.Has (keyOf e key item) := by
  unfold CheckedList.keyOf
  split
  · exact .pure item
  · next absent => exact kept.call (hk absent) [item] []

theorem goesBefore {comparator : Value} (hc : comparator ≠ .nil → H.callees comparator) (a b : Keyed) :
    H.Has (goesBefore e comparator a b) := by
  unfold CheckedList.goesBefore
  split
  · exact .lift (Value.ordered_overlooks _ _ _)
  · next absent => exact .bind (kept.call (hc absent) _ _) fun _ => .lift (Value.ordered_overlooks _ _ _)

theorem keyed {key : Value} (hk : key ≠ .nil → H.callees key) (items : List Value) :
    H.Has (keyed e key items) :=
  .mapM fun item => .bind (kept.keyOf hk item) fun _ => .pure _

theorem sortItems {comparator key : Value} (hc : comparator ≠ .nil → H.callees comparator)
    (hk : key ≠ .nil → H.callees key) (falling : Value) (items : List Value)
    {report : List Value → Act Unit} (hr : ∀ xs, H.Has (report xs)) :
    H.Has (sortItems e comparator key falling items report) := by
  have rest : H.Has (do
      let falling ← falling.asFlag
      let arrange (xs : List Keyed) : List Value :=
        (if falling then xs.reverse else xs).map (·.item)
      let entries ← CheckedList.keyed e key items
      let sorted ← Sorting.sortReporting (CheckedList.goesBefore e comparator) (fun xs => report (arrange xs))
        (if falling then entries.reverse else entries)
      return arrange sorted : Act (List Value)) := by
    refine .bind (.lift falling.asFlag_overlooks) fun falling => ?_
    refine .bind (kept.keyed hk items) fun entries => .bind ?_ fun _ => .pure _
    exact sortReporting_has (kept.goesBefore hc) (fun xs => hr _) _
  exact .ite (.bind (.fail _) fun _ => rest) rest

theorem best? (side : Extreme) {key : Value} (hk : key ≠ .nil → H.callees key) (items : List Value) :
    H.Has (best? e side key items) := by
  have from_ (champion : Keyed) (items : List Value) : H.Has (bestFrom e side key champion items) := by
    induction items generalizing champion with
    | nil => exact .pure _
    | cons item rest ih =>
      exact .bind (kept.keyOf hk item) fun k => .bind (.lift (Value.ordered_overlooks _ _ _)) fun _ =>
        .ite (ih _) (ih _)
  cases items with
  | nil => exact .pure none
  | cons item rest => exact .bind (kept.keyOf hk item) fun k => .bind (from_ _ rest) fun _ => .pure _

theorem select (side : Extreme) {key : Value} (hk : key ≠ .nil → H.callees key) (count : Nat)
    (items : List Value) : H.Has (select e side key count items) := by
  have less (a b : Candidate) : H.Has (a.less b) :=
    .bind (.lift (Value.isAlike_overlooks _ _)) fun _ => .ite (.pure _) (.lift (Value.ordered_overlooks _ _ _))
  have above (a b : Candidate) : H.Has (a.above side b) := by
    cases side
    · exact less a b
    · exact less b a
  have chosen (items : List Value) (n : Nat) (heap : Array Candidate) :
      H.Has (selectRest e side key items n heap) := by
    induction items generalizing n heap with
    | nil => exact .pure heap
    | cons item rest ih =>
      refine .bind (kept.keyOf hk item) fun k => ?_
      split
      · exact .pure heap
      · split
        all_goals
          exact .bind (.lift (Value.ordered_overlooks _ _ _)) fun _ =>
            .ite (.bind (sink_has above _ _ _ _) fun _ => ih _ _) (ih _ _)
  refine .bind (kept.keyed hk _) fun firsts => .ite (.pure []) (.bind (heapify_has above _) fun heap => ?_)
  refine .bind (chosen _ count heap) fun heap => ?_
  cases side
  · exact .bind (.bind (sort_has less _) fun _ => .pure _) fun _ => .pure _
  · exact .bind (sort_has less _) fun _ => .pure _

theorem extremes (side : Extreme) (count : Value) {key : Value} (hk : key ≠ .nil → H.callees key)
    (items : List Value) : H.Has (extremes e side count key items) := by
  refine .bind (.lift (Value.equal_overlooks _ _)) fun one => .bind (.lift one.truth_overlooks) fun _ => ?_
  refine .ite (.bind (kept.best? side hk items) fun _ => .pure _) ?_
  refine .bind (.plain (.newInt _) (.newInt _)) fun size => ?_
  refine .bind (.lift (Value.ordered_overlooks _ _ _)) fun _ => .ite ?_ ?_
  · refine .bind (kept.sortItems (absurd rfl) hk _ items fun _ => .pure ()) fun sorted => ?_
    exact .bind (.lift (Value.asSlice_overlooks _ _ _ _)) fun _ => .pure _
  · exact .bind (.lift count.asCount_overlooks) fun n => kept.select side hk n.toNat items

theorem keepIf {test : Value} (ht : H.callees test) (wanted : Bool) (items : List Value) :
    H.Has (keepIf e test wanted items) :=
  .filterM fun v => .bind (kept.call ht [v] []) fun answer => .bind (.lift answer.truth_overlooks) fun _ => .pure _

theorem runExtend (own : H.receivers self.at_) (values : Value) : H.Has (Op.runExtend e self values) := by
  have stored (incoming : List Value) :
      H.Has (do self.write (some "extend") ((← self.state).items ++ incoming) : Act Unit) :=
    .state (fun _ _ _ => rfl) fun _ _ _ => H.written own _ _
  unfold Op.runExtend
  split
  · exact .bind (kept.foreignValues _ _) stored
  · exact .bind (kept.collect _ _ _) stored

theorem runSetItem (own : H.receivers self.at_) (index value : Value) :
    H.Has (Op.runSetItem e self index value) := by
  unfold Op.runSetItem
  split
  · refine .bind (kept.collect value "__setitem__" (some 1)) fun incoming => .state (fun _ _ _ => rfl) fun l _ _ => ?_
    exact .bind (.lift (Value.assignedSlice_overlooks _ _ _ _ _)) fun _ => H.written own _ _
  · refine .bind (kept.vetElement value "__setitem__" 1) fun _ => .state (fun _ _ _ => rfl) fun l _ _ => ?_
    exact .bind (.lift (Value.assignedAt_overlooks _ _ _)) fun _ => H.written own _ _

/-- What a function gives is made into a list last. -/
theorem runMap (looks : H.Looks) {element fn : Value} (reads : H.Reads element) (hf : H.callees fn) :
    H.Copying self.cls (Op.runMap e self element fn) := by
  have mapped (items : List Value) : H.Has (items.mapM fun v => e.call fn [v] []) :=
    .mapM fun v => kept.call hf [v] []
  have rest {target : Descriptor} (ht : H.types target) (items : List Value) (fast : Bool) : H.Copying self.cls (do
      if fast then
        let mapped ← items.mapM fun v => e.call fn [v] []
        let collection := Descriptor.collection (← Act.fresh) .array target
        Act.newChecked self.cls { items := mapped, element := target, collection, frozen := false }
      else
        Logging.trace (do return "checked.CheckedList.map: Validating mapped values against " ++
          (← target.describe))
        let collection := Descriptor.collection (← Act.fresh) .array target
        let mapped ← items.mapM fun v => e.call fn [v] []
        let whole ← Act.newList mapped
        self.vet e whole collection "map" none
        Act.newChecked self.cls
          { items := ← whole.items, element := target, collection, frozen := false } : Act Value) := by
    refine .ite (.bind (mapped items) fun ys => .bind (.plain .fresh .fresh) fun id => ?_) ?_
    · exact .made ht (H.arrays ht id) rfl
    · refine .bind (.plain (trace_plain (by grind)) (trace_overlooks (by grind))) fun _ => ?_
      refine .bind (.plain .fresh .fresh) fun id => .bind (mapped items) fun ys => ?_
      refine .bind (.plain (.newList ys) (.newList ys)) fun whole => ?_
      refine .bind (kept.vet whole (H.arrays ht id) "map" none) fun _ => ?_
      exact .bind (.plain whole.items_plain whole.items_overlooks) fun _ => .made ht (H.arrays ht id) rfl
  refine .andThen (.plain (ofValue_plain element) (ofValue_overlooks element)) fun s target t inv read => ?_
  have ht := reads s target t inv read
  refine .state (fun _ _ => rfl) fun l _ _ => .state (fun _ _ => rfl) fun l' _ _ => ?_
  refine .andThen (looks _ _) fun s found t inv run => ?_
  cases found with
  | none => exact .bind (.pure false) (rest ht l.items)
  | some declared =>
    have known := H.lookups inv run declared rfl
    refine .bind (kept.subtype known ht) fun below => ?_
    cases below
    · exact rest ht l.items false
    · exact .bind (.plain (trace_plain (by grind)) (trace_overlooks (by grind))) fun _ => rest ht l.items true

/-- Copies are made last. -/
theorem perform_copying {op : Op} (copies : op.copies = true) (looks : H.Looks)
    (calls : ∀ f ∈ op.callees, H.callees f) (reads : ∀ v ∈ op.element?, H.Reads v) :
    H.Copying self.cls (op.perform e self) := by
  refine .state (fun l b => ?_) fun l _ _ => ?_
  · cases op with
    | getItem index =>
      cases index with
      | slice => rfl
      | _ => cases copies
    | extreme side count key => cases count <;> rfl
    | _ => first | rfl | cases copies
  cases op with
  | getItem index =>
    cases index with
    | slice id start stop step => exact .bind (.lift (Value.asSlice_overlooks _ _ _ _)) fun _ => .sameTypes self _
    | _ => cases copies
  | filter test | reject test =>
    exact .bind (kept.keepIf (calls test (by simp [Op.callees])) _ _) fun _ => .sameTypes self _
  | sort comparator key falling =>
    refine .bind (kept.sortItems (fun _ => calls _ (by simp [Op.callees]))
      (fun _ => calls _ (by simp [Op.callees])) falling l.items fun xs => .pure ()) fun _ => ?_
    exact .sameTypes self _
  | extreme side count key =>
    have called (_ : key ≠ .nil) : H.callees key := calls key (by simp [Op.callees])
    cases count with
    | nil => cases copies
    | _ => exact .bind (kept.extremes side _ called l.items) fun _ => .sameTypes self _
  | map element fn => exact kept.runMap looks (reads element rfl) (calls fn (by simp [Op.callees]))
  | and other =>
    refine .bind (.plain (operandValues_plain _ _) (operandValues_overlooks _ _)) fun _ => ?_
    exact .bind (.lift (uniqueCommon_overlooks _ _)) fun _ => .sameTypes self _
  | sub other =>
    refine .bind (.plain (operandValues_plain _ _) (operandValues_overlooks _ _)) fun _ => ?_
    exact .bind (.lift (keepAbsent_overlooks _ _)) fun _ => .sameTypes self _
  | or other =>
    refine .bind (kept.foreignValues other "|") fun _ => .state (fun _ _ => rfl) fun _ _ _ => ?_
    exact .bind (.lift (unique_overlooks _)) fun _ => .sameTypes self _
  | add other =>
    exact .bind (kept.foreignValues other "+") fun _ => .state (fun _ _ => rfl) fun _ _ _ => .sameTypes self _
  | _ => cases copies

/-- The operations of a checked list have a habit. -/
theorem perform {op : Op} (own : op.writes = true → H.receivers self.at_)
    (told : op.namesStorage = true → ¬H.secret self.at_) (looks : H.Looks)
    (calls : ∀ f ∈ op.callees, H.callees f) (reads : ∀ v ∈ op.element?, H.Reads v) :
    H.Has (op.perform e self) := by
  by_cases freezes : op = .freeze
  · subst freezes
    exact H.frozen (own rfl) e
  by_cases copies : op.copies = true
  · exact (kept.perform_copying copies looks calls reads).has
  refine .state (fun secret l b => ?_) fun l he hc => ?_
  · cases op with
    | iterate | indexOf => exact absurd secret (told rfl)
    | getItem index =>
      cases index with
      | slice => rfl
      | _ => exact absurd secret (told rfl)
    | extreme side count key => cases count <;> rfl
    | _ => rfl
  have changed (writes : op.writes = true) (method : Option String) (items : List Value) (v : Value) :
      H.Has (do
        self.write method items
        return v : Act Value) := .bind (H.written (own writes) method items) fun _ => .pure v
  cases op with
  | length => exact .plain (.newInt _) (.newInt _)
  | iterate | reversed => exact .bind (.plain .fresh .fresh) fun _ => .pure _
  | contains value =>
    exact .bind (.lift (Value.memberOf_overlooks Value.isAlike_overlooks value l.items)) fun _ => .pure _
  | getItem index =>
    cases index with
    | slice => exact absurd rfl copies
    | _ => exact .lift (Value.itemAt_overlooks _ _ _)
  | toList => exact .plain (.newList _) (.newList _)
  | indexOf value start stop => exact .plain (search_plain _ _ _ _ _) (search_overlooks _ _ _ _ _)
  | count value =>
    exact .bind (.filterM fun v => .lift (Value.isAlike_overlooks v value)) fun _ => .plain (.newInt _) (.newInt _)
  | setItem index value => exact .bind (kept.runSetItem (own rfl) index value) fun _ => .pure _
  | insert index value =>
    refine .bind (kept.vetElement value "insert" 1) fun _ => .state (fun _ _ _ => rfl) fun l _ _ => ?_
    exact .bind (.lift (Value.insertedAt_overlooks _ _ _)) fun _ => changed rfl _ _ _
  | append value =>
    exact .bind (kept.vetElement value "append" 0) fun _ => .state (fun _ _ _ => rfl) fun l _ _ => changed rfl _ _ _
  | prepend value =>
    exact .bind (kept.vetElement value "prepend" 0) fun _ => .state (fun _ _ _ => rfl) fun l _ _ => changed rfl _ _ _
  | extend values => exact .bind (kept.runExtend (own rfl) values) fun _ => .pure _
  | push values =>
    refine .bind (.plain (.newList values) (.newList values)) fun whole => ?_
    refine .bind (kept.vet whole hc "push" none) fun _ => .state (fun _ _ _ => rfl) fun l _ _ => ?_
    exact changed rfl _ _ _
  | addInPlace values => exact .bind (kept.runExtend (own rfl) values) fun _ => .pure _
  | deleteItem index => exact .bind (.lift (Value.deletedAt_overlooks _ _)) fun _ => changed rfl _ _ _
  | pop index | shift => exact .bind (.lift (Value.poppedAt_overlooks _ _)) fun _ => changed rfl _ _ _
  | remove value => exact .bind (.lift (removeFirst_overlooks _ _)) fun _ => changed rfl _ _ _
  | clear | reverse => exact changed rfl _ _ _
  | filterInPlace test | rejectInPlace test =>
    exact .bind (kept.keepIf (calls test (by simp [Op.callees])) _ _) fun _ => changed rfl _ _ _
  | sortInPlace comparator key falling =>
    refine .bind (kept.sortItems (fun _ => calls _ (by simp [Op.callees]))
      (fun _ => calls _ (by simp [Op.callees])) falling l.items fun xs => H.written (own rfl) _ xs) fun _ => ?_
    exact changed rfl _ _ _
  | extreme side count key =>
    have called (_ : key ≠ .nil) : H.callees key := calls key (by simp [Op.callees])
    cases count with
    | nil => exact .bind (kept.best? side called l.items) fun _ => .pure _
    | _ => exact absurd rfl copies
  | minmax key =>
    have called (_ : key ≠ .nil) : H.callees key := calls key (by simp [Op.callees])
    refine .bind (kept.best? .smallest called l.items) fun _ => .bind (kept.best? .largest called l.items) fun _ => ?_
    exact .plain (.newTuple _) (.newTuple _)
  | filter | reject | sort | map | and | sub | or | add => exact absurd rfl copies
  | freeze => exact absurd rfl freezes

/-- What answers with a copy never looks whether its receiver is frozen. -/
theorem operate_copying {op : Op} (copies : op.copies = true) (looks : H.Looks)
    (calls : ∀ f ∈ op.callees, H.callees f) (reads : ∀ v ∈ op.element?, H.Reads v) :
    H.Copying self.cls (op.run e self) := by
  have performed : op.run e self = op.perform e self := by
    cases op <;> first | rfl | cases copies
  rw [performed]
  exact kept.perform_copying copies looks calls reads

theorem operate {op : Op} (own : op.writes = true → H.receivers self.at_)
    (told : op.namesStorage = true → ¬H.secret self.at_) (looks : H.Looks)
    (calls : ∀ f ∈ op.callees, H.callees f) (reads : ∀ v ∈ op.element?, H.Reads v) :
    H.Has (op.run e self) := by
  have performed := kept.perform own told looks calls reads
  unfold Op.run
  split
  · next change =>
    -- Only a list that is changed is asked whether it is frozen.
    have receiver := own (Op.writes_of_change change)
    refine .bind (.state (fun secret => absurd secret (H.apart receiver)) fun l _ _ => ?_) fun _ => performed
    exact .ite (.fail _) (.pure _)
  · exact performed

end Kept

end Lists

end Habit

end Conform
