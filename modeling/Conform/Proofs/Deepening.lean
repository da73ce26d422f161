import Mathlib.Data.List.Forall2
import Mathlib.Tactic.GCongr
import Conform.Calling
import Conform.Proofs.Parts

/-!
What a deeper engine changes. An engine gives up where its depth is used up, and nothing takes that failure back.
So an action over an engine ends as over a deeper one, unless it gives up on the way: the rules for matching,
comparing and calling pass this on from the engine that they are written over. An answer that an engine gives, and
a failure other than giving up, is final.

Main statement: `Engine.ofDepth_approximates`.
-/
namespace Conform

/-- An action that ends as another one does, unless it gives up. -/
def Act.Approximates {α : Type} (x y : Act α) : Prop :=
  ∀ s, x s = y s ∨ ∃ t, x s = .error .exhausted t

namespace Act.Approximates

variable {α β : Type} {x y z : Act α}

@[refl] theorem refl (x : Act α) : x.Approximates x :=
  fun _ => .inl rfl

@[trans] theorem trans (hxy : x.Approximates y) (hyz : y.Approximates z) : x.Approximates z := by
  intro s
  rcases hxy s with same | givenUp
  · rw [same]
    exact hyz s
  · exact .inr givenUp

/-- Giving up falls short of everything. -/
theorem exhausted (y : Act α) : (throw .exhausted : Act α).Approximates y :=
  fun s => .inr ⟨s, rfl⟩

@[gcongr] theorem bind {f g : α → Act β} (hx : x.Approximates y) (hf : ∀ a, (f a).Approximates (g a)) :
    (x >>= f).Approximates (y >>= g) := by
  intro s
  rcases hx s with same | ⟨t, givenUp⟩
  · cases run : y s with
    | ok a t =>
      rw [bind_of_ok (same.trans run), bind_of_ok run]
      exact hf a t
    | error e t => exact .inl (by rw [bind_of_error (same.trans run), bind_of_error run])
  · exact .inr ⟨t, bind_of_error givenUp⟩

@[gcongr] theorem ite {c : Prop} [Decidable c] {x' y' : Act α} (hx : x.Approximates x') (hy : y.Approximates y') :
    (if c then x else y).Approximates (if c then x' else y') := by
  split
  · exact hx
  · exact hy

section Lists

variable {p : α → Act Bool} {q : β → Act Bool} {xs : List α} {ys : List β}
  (h : List.Forall₂ (fun a b => (p a).Approximates (q b)) xs ys)

include h

/-- Tests of two lists, item by item. -/
theorem allM_of_forall₂ : (xs.allM p).Approximates (ys.allM q) := by
  induction h with
  | nil => rfl
  | cons head _ ih =>
    refine bind head fun found => ?_
    cases found with
    | true => exact ih
    | false => rfl

theorem anyM_of_forall₂ : (xs.anyM p).Approximates (ys.anyM q) := by
  induction h with
  | nil => rfl
  | cons head _ ih =>
    refine bind head fun found => ?_
    cases found with
    | true => rfl
    | false => exact ih

end Lists

variable {p q : α → Act Bool} {xs : List α}

@[gcongr] theorem allM (h : ∀ a, (p a).Approximates (q a)) : (xs.allM p).Approximates (xs.allM q) :=
  allM_of_forall₂ (List.forall₂_same.mpr fun a _ => h a)

@[gcongr] theorem anyM (h : ∀ a, (p a).Approximates (q a)) : (xs.anyM p).Approximates (xs.anyM q) :=
  anyM_of_forall₂ (List.forall₂_same.mpr fun a _ => h a)

@[gcongr] theorem mapM {f g : α → Act β} (h : ∀ a, (f a).Approximates (g a)) :
    (xs.mapM f).Approximates (xs.mapM g) := by
  induction xs with
  | nil => rfl
  | cons a xs ih =>
    rw [List.mapM_cons, List.mapM_cons]
    gcongr
    exact h a

@[gcongr] theorem filterM (h : ∀ a, (p a).Approximates (q a)) : (xs.filterM p).Approximates (xs.filterM q) := by
  have aux (kept : List α) : (xs.filterAuxM p kept).Approximates (xs.filterAuxM q kept) := by
    induction xs generalizing kept with
    | nil => rfl
    | cons a xs ih => exact bind (h a) fun keep => ih (cond keep (a :: kept) kept)
  exact bind (aux []) fun _ => refl _

end Act.Approximates

/-- An engine whose judgements end as those of another one, unless they give up. -/
structure Engine.Approximates (e e' : Engine) : Prop where
  accepts : ∀ d v, (e.accepts d v).Approximates (e'.accepts d v)
  subtype : ∀ a b, (e.subtype a b).Approximates (e'.subtype a b)
  call : ∀ f args keywords, (e.call f args keywords).Approximates (e'.call f args keywords)

attribute [gcongr] Engine.Approximates.accepts Engine.Approximates.subtype Engine.Approximates.call

/-- Functions that end as over a deeper engine, unless they give up: they see of the engine only what their own
calls answer, and a call that gives up ends them. -/
def Library.Monotone (functions : Library) : Prop :=
  ∀ {e e' : Engine}, e.Approximates e' → ∀ name args keywords,
    (functions e name args keywords).Approximates (functions e' name args keywords)

section Walking

open Act

variable {p q : Value → Act Bool} (h : ∀ v, (p v).Approximates (q v))

include h

theorem Value.drawWhile_approximates (at_ : Handle) (n : Nat) :
    (Value.drawWhile p at_ n).Approximates (Value.drawWhile q at_ n) := by
  induction n with
  | zero => rfl
  | succ n ih =>
    unfold Value.drawWhile
    gcongr with heap
    split
    · rfl
    · gcongr
      exact h _

theorem Value.allFrom_approximates (r : Span) (n i : Nat) :
    (Value.allFrom r (fun k => p (Value.passingInt k)) n i).Approximates
      (Value.allFrom r (fun k => q (Value.passingInt k)) n i) := by
  induction n generalizing i with
  | zero => rfl
  | succ n ih =>
    unfold Value.allFrom
    gcongr
    · exact h _
    · exact ih (i + 1)

@[gcongr] theorem Value.allItems_approximates (v : Value) : (v.allItems p).Approximates (v.allItems q) := by
  have walk (fuel : Nat) (v : Value) : (Value.allItemsAt p fuel v).Approximates (Value.allItemsAt q fuel v) := by
    induction fuel generalizing v with
    | zero => rfl
    | succ fuel ih =>
      unfold Value.allItemsAt
      split
      · exact Value.allFrom_approximates h _ _ _
      · gcongr
        exact h _
      · gcongr
        exact h _
      · gcongr
        exact h _
      · gcongr
        exact Value.drawWhile_approximates h _ _
      · gcongr
        exact ih _
      · gcongr
        exact ih _
      · gcongr
        exact h _
  exact walk valueDepth v

end Walking

section Sorting

variable {α : Type} {less less' : α → α → Act Bool} (h : ∀ a b, (less a b).Approximates (less' a b))

include h

namespace Sorting

theorem runLength_approximates (down : Bool) (previous : α) (xs : List α) :
    (runLength less down previous xs).Approximates (runLength less' down previous xs) := by
  induction xs generalizing previous with
  | nil => rfl
  | cons x xs ih =>
    unfold runLength
    gcongr
    · exact h x previous
    · exact ih x

theorem firstRun_approximates (xs : List α) : (firstRun less xs).Approximates (firstRun less' xs) := by
  unfold firstRun
  split
  · rfl
  · rfl
  · gcongr
    · exact h _ _
    · exact runLength_approximates h _ _ _

theorem searchPlace_approximates (sorted : Array α) (pivot : α) (fuel low high : Nat) :
    (searchPlace less sorted pivot fuel low high).Approximates (searchPlace less' sorted pivot fuel low high) := by
  induction fuel generalizing low high with
  | zero => rfl
  | succ fuel ih =>
    unfold searchPlace
    gcongr
    dsimp only
    split
    · rfl
    · gcongr
      · exact h _ _
      · exact ih _ _
      · exact ih _ _

theorem insertAll_approximates (report : List α → Act Unit) (sorted xs : List α) :
    (insertAll less report sorted xs).Approximates (insertAll less' report sorted xs) := by
  induction xs generalizing sorted with
  | nil => rfl
  | cons x xs ih =>
    unfold insertAll
    gcongr
    · exact searchPlace_approximates h _ _ _ _ _
    · exact ih _

@[gcongr] theorem sortReporting_approximates (report : List α → Act Unit) (xs : List α) :
    (sortReporting less report xs).Approximates (sortReporting less' report xs) := by
  unfold sortReporting
  gcongr
  · exact firstRun_approximates h xs
  · exact insertAll_approximates h report _ _

end Sorting

end Sorting

namespace Engine.Approximates

variable {e e' : Engine} (h : e.Approximates e')

include h

section Matching

open Descriptor

@[gcongr] theorem resolve (id : Ident) (thunk : Value) :
    (Descriptor.resolve e id thunk).Approximates (Descriptor.resolve e' id thunk) := by
  unfold Descriptor.resolve
  gcongr
  split
  · rfl
  · gcongr

@[gcongr] theorem readAttribute? (v : Value) (name : String) :
    (Descriptor.readAttribute? e v name).Approximates (Descriptor.readAttribute? e' v name) := by
  unfold Descriptor.readAttribute?
  gcongr
  split
  · gcongr
  · rfl

omit h in
/-- Two lists of named descriptors, name by name. -/
theorem allNamed_of_forall₂ {read read' : String → Act (Option Value)} {mine theirs : List (String × Descriptor)}
    (hr : ∀ name, (read name).Approximates (read' name))
    (hf : List.Forall₂ (fun f g => f.1 = g.1 ∧ ∀ v, (e.accepts f.2 v).Approximates (e'.accepts g.2 v)) mine theirs) :
    (Descriptor.allNamed e read mine).Approximates (Descriptor.allNamed e' read' theirs) := by
  rw [Descriptor.allNamed_eq, Descriptor.allNamed_eq]
  refine .allM_of_forall₂ (hf.imp fun f g alike => ?_)
  rw [Descriptor.fieldMatches, Descriptor.fieldMatches, alike.1]
  refine .bind (hr _) fun found => ?_
  cases found with
  | none => rfl
  | some v => exact alike.2 v

@[gcongr] theorem allNamed {read read' : String → Act (Option Value)}
    (hr : ∀ name, (read name).Approximates (read' name)) (fields : List (String × Descriptor)) :
    (Descriptor.allNamed e read fields).Approximates (Descriptor.allNamed e' read' fields) :=
  allNamed_of_forall₂ hr (List.forall₂_same.mpr fun f _ => ⟨rfl, h.accepts f.2⟩)

@[gcongr] theorem allPaired (ds : List Descriptor) (vs : List Value) :
    (Descriptor.allPaired e ds vs).Approximates (Descriptor.allPaired e' ds vs) := by
  rw [Descriptor.allPaired_eq, Descriptor.allPaired_eq]
  gcongr

@[gcongr] theorem endpointsMatch (element : Descriptor) (v : Value) :
    (Descriptor.endpointsMatch e element v).Approximates (Descriptor.endpointsMatch e' element v) := by
  unfold Descriptor.endpointsMatch
  split
  · rfl
  · gcongr

@[gcongr] theorem isPlainData (v : Value) :
    (Descriptor.isPlainData e v).Approximates (Descriptor.isPlainData e' v) := by
  unfold Descriptor.isPlainData
  cases v with
  | list kind i =>
    dsimp only
    gcongr
  | dict kind i =>
    dsimp only
    gcongr
  | _ => rfl

theorem acceptsStep (d : Descriptor) (v : Value) :
    (Descriptor.acceptsStep e d v).Approximates (Descriptor.acceptsStep e' d v) := by
  unfold Descriptor.acceptsStep
  cases d with
  | tupleOf id types =>
    dsimp only
    gcongr
    split
    · gcongr
    · rfl
  | mappingOf id key value =>
    dsimp only
    gcongr
    split
    · gcongr
    · rfl
  | checkedListOf id element =>
    dsimp only
    split
    · gcongr
    · rfl
  | _ =>
    dsimp only
    gcongr

end Matching

section Comparing

@[gcongr] theorem pairwiseBelow (mine theirs : List Descriptor) :
    (Descriptor.pairwiseBelow e mine theirs).Approximates (Descriptor.pairwiseBelow e' mine theirs) := by
  rw [Descriptor.pairwiseBelow_eq, Descriptor.pairwiseBelow_eq]
  gcongr

@[gcongr] theorem namedBelow (mine theirs : List (String × Descriptor)) :
    (Descriptor.namedBelow e mine theirs).Approximates (Descriptor.namedBelow e' mine theirs) := by
  rw [Descriptor.namedBelow_eq, Descriptor.namedBelow_eq]
  refine .allM fun f => ?_
  unfold Descriptor.fieldBelow
  split
  · rfl
  · gcongr

@[gcongr] theorem sameVariantBelow (a b : Descriptor) :
    (Descriptor.sameVariantBelow e a b).Approximates (Descriptor.sameVariantBelow e' a b) := by
  unfold Descriptor.sameVariantBelow Descriptor.eachBelowSome Descriptor.someBelowEach
  split
  all_goals gcongr

@[gcongr] theorem uncover (d : Descriptor) :
    (Descriptor.uncover e d).Approximates (Descriptor.uncover e' d) := by
  unfold Descriptor.uncover
  split
  · gcongr
  · rfl

theorem subtypeStep (a b : Descriptor) :
    (Descriptor.subtypeStep e a b).Approximates (Descriptor.subtypeStep e' a b) := by
  unfold Descriptor.subtypeStep
  split
  · rfl
  · gcongr
  · gcongr
    split
    · rfl
    · gcongr

end Comparing

section Admission

@[gcongr] theorem verify (actual : Value) (d : Descriptor) (enrich : Handle → Act Unit) :
    (Check.verify e actual d enrich).Approximates (Check.verify e' actual d enrich) := by
  unfold Check.verify
  gcongr

@[gcongr] theorem vet (self : CheckedList.Self) (v : Value) (expected : Descriptor) (operation : String)
    (position : Option Int) :
    (self.vet e v expected operation position).Approximates (self.vet e' v expected operation position) := by
  unfold CheckedList.Self.vet Check.require
  gcongr

@[gcongr] theorem vetElement (self : CheckedList.Self) (v : Value) (operation : String) (position : Int) :
    (self.vetElement e v operation position).Approximates (self.vetElement e' v operation position) := by
  unfold CheckedList.Self.vetElement
  gcongr

@[gcongr] theorem collect (self : CheckedList.Self) (v : Value) (operation : String) (position : Option Int) :
    (self.collect e v operation position).Approximates (self.collect e' v operation position) := by
  unfold CheckedList.Self.collect
  dsimp only
  gcongr

@[gcongr] theorem trusts (self : CheckedList.Self) (other : Value) :
    (self.trusts e other).Approximates (self.trusts e' other) := by
  unfold CheckedList.Self.trusts
  split
  · gcongr
  · rfl

@[gcongr] theorem foreignValues (self : CheckedList.Self) (other : Value) (operation : String) :
    (self.foreignValues e other operation).Approximates (self.foreignValues e' other operation) := by
  unfold CheckedList.Self.foreignValues
  gcongr

@[gcongr] theorem constructChecked (c : Class) (values element : Value) :
    (CheckedList.construct e c values element).Approximates (CheckedList.construct e' c values element) := by
  unfold CheckedList.construct
  dsimp only
  gcongr

end Admission

section Ordering

open CheckedList

@[gcongr] theorem keyOf (key item : Value) :
    (CheckedList.keyOf e key item).Approximates (CheckedList.keyOf e' key item) := by
  unfold CheckedList.keyOf
  split
  · rfl
  · gcongr

@[gcongr] theorem keyed (key : Value) (items : List Value) :
    (CheckedList.keyed e key items).Approximates (CheckedList.keyed e' key items) := by
  unfold CheckedList.keyed
  gcongr

@[gcongr] theorem goesBefore (comparator : Value) (a b : Keyed) :
    (CheckedList.goesBefore e comparator a b).Approximates (CheckedList.goesBefore e' comparator a b) := by
  unfold CheckedList.goesBefore
  split
  · rfl
  · gcongr

@[gcongr] theorem sortItems (comparator key reverse : Value) (items : List Value) (report : List Value → Act Unit) :
    (CheckedList.sortItems e comparator key reverse items report).Approximates
      (CheckedList.sortItems e' comparator key reverse items report) := by
  unfold CheckedList.sortItems
  dsimp only
  gcongr

theorem bestFrom (side : Extreme) (key : Value) (champion : Keyed) (items : List Value) :
    (CheckedList.bestFrom e side key champion items).Approximates
      (CheckedList.bestFrom e' side key champion items) := by
  induction items generalizing champion with
  | nil => rfl
  | cons item rest ih =>
    unfold CheckedList.bestFrom
    gcongr
    · exact ih _
    · exact ih _

@[gcongr] theorem best? (side : Extreme) (key : Value) (items : List Value) :
    (CheckedList.best? e side key items).Approximates (CheckedList.best? e' side key items) := by
  cases items with
  | nil => rfl
  | cons item rest =>
    unfold CheckedList.best?
    dsimp only
    gcongr
    exact h.bestFrom _ _ _ _

theorem selectRest (side : Extreme) (key : Value) (items : List Value) (n : Nat) (heap : Array Candidate) :
    (CheckedList.selectRest e side key items n heap).Approximates
      (CheckedList.selectRest e' side key items n heap) := by
  induction items generalizing n heap with
  | nil => rfl
  | cons item rest ih =>
    unfold CheckedList.selectRest
    dsimp only
    gcongr
    split
    · rfl
    · split
      all_goals
        gcongr
        · exact ih _ _
        · exact ih _ _

@[gcongr] theorem extremes (side : Extreme) (count key : Value) (items : List Value) :
    (CheckedList.extremes e side count key items).Approximates
      (CheckedList.extremes e' side count key items) := by
  unfold CheckedList.extremes CheckedList.select
  dsimp only
  gcongr
  exact h.selectRest _ _ _ _ _

end Ordering

section Operations

open CheckedList

@[gcongr] theorem keepIf (predicate : Value) (wanted : Bool) (items : List Value) :
    (CheckedList.keepIf e predicate wanted items).Approximates
      (CheckedList.keepIf e' predicate wanted items) := by
  unfold CheckedList.keepIf
  gcongr

@[gcongr] theorem runExtend (self : Self) (values : Value) :
    (Op.runExtend e self values).Approximates (Op.runExtend e' self values) := by
  unfold Op.runExtend
  dsimp only
  split
  all_goals gcongr

@[gcongr] theorem runSetItem (self : Self) (index value : Value) :
    (Op.runSetItem e self index value).Approximates (Op.runSetItem e' self index value) := by
  unfold Op.runSetItem
  split
  all_goals gcongr

@[gcongr] theorem runMap (self : Self) (element fn : Value) :
    (Op.runMap e self element fn).Approximates (Op.runMap e' self element fn) := by
  unfold Op.runMap
  dsimp only
  gcongr
  split
  all_goals gcongr

@[gcongr] theorem perform (self : Self) (op : Op) : (op.perform e self).Approximates (op.perform e' self) := by
  unfold Op.perform
  gcongr
  split
  all_goals gcongr

@[gcongr] theorem runOp (self : Self) (op : Op) : (op.run e self).Approximates (op.run e' self) := by
  unfold Op.run
  dsimp only
  split
  all_goals gcongr

end Operations

section Values

@[gcongr] theorem applyShown (o : Operator) (shown : String) (a b : Value) :
    (Operator.applyShown e o shown a b).Approximates (Operator.applyShown e' o shown a b) := by
  unfold Operator.applyShown
  dsimp only
  split
  · split
    · gcongr
    · rfl
  · rfl

@[gcongr] theorem getSubscript (v subscript : Value) :
    (Subscript.get e v subscript).Approximates (Subscript.get e' v subscript) := by
  unfold Subscript.get
  gcongr
  split
  · gcongr
  all_goals rfl

@[gcongr] theorem construct (c : Class) (args : List Value) (keywords : Keywords) :
    (Construction.construct e c args keywords).Approximates (Construction.construct e' c args keywords) := by
  unfold Construction.construct
  split
  all_goals gcongr

@[gcongr] theorem ofHint (hint : String) (args : List Value) (keywords : Keywords) :
    (Construction.ofHint e hint args keywords).Approximates (Construction.ofHint e' hint args keywords) := by
  unfold Construction.ofHint
  dsimp only
  gcongr

end Values

section Outcomes

open Outcome

@[gcongr] theorem raise (error : Value) : (Outcome.raise e error).Approximates (Outcome.raise e' error) := by
  unfold Outcome.raise
  cases error
  case cls c =>
    dsimp only
    gcongr
  all_goals rfl

theorem runSteps (raising : Bool) (index : Nat) (current : Value) (steps : List Value) (last : Value) :
    (Outcome.runSteps e raising index current steps last).Approximates
      (Outcome.runSteps e' raising index current steps last) := by
  induction steps generalizing index current last with
  | nil => rfl
  | cons step rest ih =>
    unfold Outcome.runSteps
    gcongr
    split
    · gcongr
    · exact ih _ _ _
    · rfl

@[gcongr] theorem liftFrom (raising : Bool) (error : Value) (steps : List Value) :
    (Outcome.liftFrom e raising error steps).Approximates (Outcome.liftFrom e' raising error steps) := by
  unfold Outcome.liftFrom
  gcongr
  exact h.runSteps _ _ _ _ _

@[gcongr] theorem runOutcome (self : Value) (op : Outcome.Op) :
    (op.run e self).Approximates (op.run e' self) := by
  unfold Outcome.Op.run
  split
  · cases op with
    | filter predicate onReject =>
      dsimp only [Outcome.Op.onSuccess]
      gcongr
      split
      all_goals gcongr
    | _ =>
      dsimp only [Outcome.Op.onSuccess]
      gcongr
  · cases op
    all_goals
      dsimp only [Outcome.Op.onFailure]
      gcongr
  · rfl

end Outcomes

section Methods

omit h in
theorem rel_refl (x : Option (Act Value)) : Option.Rel Act.Approximates x x := by
  cases x with
  | some x => exact .some (.refl x)
  | none => exact .none

omit h in
/-- Two methods that are both missing, or of which the first ends as the second unless it gives up. -/
theorem getD {x y : Option (Act Value)} (hxy : Option.Rel Act.Approximates x y) (absent : Act Value) :
    (x.getD absent).Approximates (y.getD absent) := by
  cases hxy with
  | some hxy => exact hxy
  | none => rfl

theorem invokeChecked? (self : CheckedList.Self) (name : String) (args : List Value) (keywords : Keywords) :
    Option.Rel Act.Approximates (CheckedList.invoke? e self name args keywords)
      (CheckedList.invoke? e' self name args keywords) := by
  unfold CheckedList.invoke?
  cases CheckedList.signature? name with
  | none => exact .none
  | some signature =>
    refine .some ?_
    dsimp only
    gcongr
    split
    · gcongr
    · rfl

theorem invokeOutcome? (self : Value) (name : String) (args : List Value) (keywords : Keywords) :
    Option.Rel Act.Approximates (Outcome.invoke? e self name args keywords)
      (Outcome.invoke? e' self name args keywords) := by
  unfold Outcome.invoke?
  cases Outcome.signature? self.className name with
  | none => exact .none
  | some signature =>
    refine .some ?_
    dsimp only
    gcongr
    split
    · gcongr
    · rfl

theorem listMethod? (v : Value) (at_ : Handle) (items : List Value) (name : String) (args : List Value)
    (keywords : Keywords) :
    Option.Rel Act.Approximates (v.listMethod? e at_ items name args keywords)
      (v.listMethod? e' at_ items name args keywords) := by
  unfold Value.listMethod?
  dsimp only
  split
  -- of the methods of a plain list only sorting makes calls
  any_goals exact rel_refl _
  refine .some ?_
  gcongr
  all_goals
    split
    · rfl
    · gcongr

theorem ownMethod? (heap : Heap) (v : Value) (name : String) (args : List Value) (keywords : Keywords) :
    Option.Rel Act.Approximates (Value.ownMethod? e heap v name args keywords)
      (Value.ownMethod? e' heap v name args keywords) := by
  unfold Value.ownMethod?
  cases v with
  | list kind i => exact h.listMethod? _ _ _ _ _ _
  | _ => exact rel_refl _

/-- A method of a plain value is looked up in the same way over both engines, and what is found is run at once. -/
theorem plainMethod? (v : Value) (name : String) (args : List Value) (keywords : Keywords) (absent : Act Value) :
    (do match ← Value.plainMethod? e v name args keywords with
      | some body => body
      | none => absent).Approximates
    (do match ← Value.plainMethod? e' v name args keywords with
      | some body => body
      | none => absent) := by
  simp only [Value.plainMethod?, bind_assoc]
  refine .bind (.refl _) fun heap => ?_
  have found := h.ownMethod? heap v name args keywords
  generalize Value.ownMethod? e heap v name args keywords = x at found
  generalize Value.ownMethod? e' heap v name args keywords = y at found
  cases found with
  | some found =>
    simp only [Option.orElse_eq_orElse, Option.orElse, pure_bind]
    gcongr
  | none => rfl

end Methods

section Evaluation

omit h

mutual

theorem evaluate (h : e.Approximates e') (x : Expr) : (x.evaluate e).Approximates (x.evaluate e') := by
  unfold Expr.evaluate
  cases x with
  | list _ items | tuple items | set items | frozenset items | iter items | range items | slice items =>
    exact .bind (h.evaluateAll items) fun _ => .refl _
  | dict _ entries | frozenMap entries => exact .bind (h.evaluateEntries entries []) fun _ => .refl _
  | success value | failure value => exact .bind (h.evaluate value) fun _ => .refl _
  | pair left right => exact .bind (h.evaluate left) fun _ => .bind (h.evaluate right) fun _ => .refl _
  | thing c attributes => exact .bind (h.evaluateNamed attributes []) fun _ => .refl _
  | exception c args => exact .bind (h.evaluateAll args) fun _ => h.construct c _ []
  | checked c values element frozen =>
    refine .bind (h.evaluate values) fun vs => .bind (h.evaluate element) fun t => ?_
    gcongr
    split
    · gcongr
    · rfl
  | factory name args keywords =>
    exact .bind (h.evaluateAll args) fun _ => .bind (h.evaluateNamed keywords []) fun _ => .refl _
  | _ => rfl

theorem evaluateAll (h : e.Approximates e') (xs : List Expr) :
    (Expr.evaluateAll e xs).Approximates (Expr.evaluateAll e' xs) := by
  cases xs with
  | nil => rfl
  | cons x rest =>
    unfold Expr.evaluateAll
    exact .bind (h.evaluate x) fun _ => .bind (h.evaluateAll rest) fun _ => .refl _

theorem evaluateEntries (h : e.Approximates e') (entries : List (Expr × Expr)) (known : List (Value × Value)) :
    (Expr.evaluateEntries e entries known).Approximates (Expr.evaluateEntries e' entries known) := by
  match entries with
  | [] => rfl
  | (key, value) :: rest =>
    unfold Expr.evaluateEntries
    refine .bind (h.evaluate key) fun _ => .bind (h.evaluate value) fun _ => ?_
    exact .bind (.refl _) fun _ => .bind (.refl _) fun _ => h.evaluateEntries rest _

theorem evaluateNamed (h : e.Approximates e') (named : List (String × Expr)) (known : Keywords) :
    (Expr.evaluateNamed e named known).Approximates (Expr.evaluateNamed e' named known) := by
  match named with
  | [] => rfl
  | (name, value) :: rest =>
    unfold Expr.evaluateNamed
    exact .bind (h.evaluate value) fun _ => h.evaluateNamed rest _

end

end Evaluation

section Calls

@[gcongr] theorem testPattern (r : Regex) (evaluator v : Value) :
    (Calling.testPattern e r evaluator v).Approximates (Calling.testPattern e' r evaluator v) := by
  unfold Calling.testPattern
  dsimp only
  split
  · rfl
  · gcongr
    all_goals
      split
      · rfl
      · gcongr

@[gcongr] theorem buildChecked (c : Class) (element : Descriptor) (args : List Value) (keywords : Keywords) :
    (Calling.buildChecked e c element args keywords).Approximates
      (Calling.buildChecked e' c element args keywords) := by
  unfold Calling.buildChecked
  gcongr

@[gcongr] theorem isBelow (d : Descriptor) (other : Value) :
    (Calling.isBelow e d other).Approximates (Calling.isBelow e' d other) := by
  unfold Calling.isBelow
  split
  · gcongr
  · gcongr

@[gcongr] theorem descriptorMethod (d : Descriptor) (name : String) (args : List Value) (keywords : Keywords) :
    (Calling.descriptorMethod e d name args keywords).Approximates
      (Calling.descriptorMethod e' d name args keywords) := by
  unfold Calling.descriptorMethod
  dsimp only
  split
  · gcongr
  · gcongr
    split
    all_goals gcongr

@[gcongr] theorem boundMethod (owner : Value) (name : String) (args : List Value) (keywords : Keywords) :
    (Calling.boundMethod e owner name args keywords).Approximates
      (Calling.boundMethod e' owner name args keywords) := by
  unfold Calling.boundMethod
  cases owner with
  | checked c i => exact getD (h.invokeChecked? _ _ _ _) _
  | success | failure => exact getD (h.invokeOutcome? _ _ _ _) _
  | descriptor d => exact h.descriptorMethod d name args keywords
  | fn | thunk | typeHint => exact h.call _ args keywords
  | cls c =>
    dsimp only
    split
    all_goals gcongr
  | context | thing | frozenMap | iter => rfl
  | _ =>
    dsimp only
    exact h.plainMethod? _ name args keywords _

@[gcongr] theorem unboundMethod (c : Class) (name : String) (args : List Value) (keywords : Keywords) :
    (Calling.unboundMethod e c name args keywords).Approximates
      (Calling.unboundMethod e' c name args keywords) := by
  unfold Calling.unboundMethod
  split
  · rfl
  · gcongr

theorem callStep {functions : Library} (monotone : functions.Monotone) (callee : Value) (args : List Value)
    (keywords : Keywords) :
    (Calling.callStep functions e callee args keywords).Approximates
      (Calling.callStep functions e' callee args keywords) := by
  unfold Calling.callStep
  split
  · dsimp only
    gcongr
    all_goals exact monotone h _ _ _
  · gcongr
    exact h.evaluate _
  · gcongr
  · gcongr
  · gcongr
  · gcongr
  · split
    all_goals gcongr
  · split
    all_goals gcongr
  all_goals gcongr

end Calls

theorem step {functions : Library} (monotone : functions.Monotone) :
    (e.step functions).Approximates (e'.step functions) :=
  ⟨h.acceptsStep, h.subtypeStep, h.callStep monotone⟩

end Engine.Approximates

namespace Engine

/-- The engine that gives up falls short of every engine. -/
theorem exhausted_approximates (e : Engine) : exhausted.Approximates e :=
  ⟨fun _ _ => .exhausted _, fun _ _ => .exhausted _, fun _ _ _ => .exhausted _⟩

/-- **Answers are final.** What an engine does not give up, it ends as any deeper engine does: with the same answer
or failure, in the same session. -/
theorem ofDepth_approximates {functions : Library} (monotone : functions.Monotone) (n k : Nat) :
    (ofDepth functions n).Approximates (ofDepth functions (n + k)) := by
  induction n with
  | zero => exact exhausted_approximates _
  | succ n ih =>
    rw [Nat.succ_add]
    exact ih.step monotone

end Engine

namespace Zoo

theorem unary?_approximates {e e' : Engine} (h : e.Approximates e') (name : String) (x : Value) :
    Option.Rel Act.Approximates (unary? e name x) (unary? e' name x) := by
  unfold unary? Operator.apply
  dsimp only
  split
  any_goals exact .none
  all_goals
    refine .some ?_
    gcongr

/-- The named functions see of an engine only what their calls answer. -/
theorem library_monotone : Library.Monotone library := by
  intro e e' h name args keywords
  unfold library
  split
  · rfl
  · gcongr
    exact Engine.Approximates.getD (unary?_approximates h _ _) _

end Zoo

end Conform
