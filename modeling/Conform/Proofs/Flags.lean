import Conform.CheckedList.Operation

/-!
Whether a checked list is frozen is a mark that is looked at in a few places only. Lengths, truth values,
equality, order, hashes, texts and subscripts are read from what a list holds and from its types; none of them
depends on the mark.

Main statements: `Value.equal_overlooks`, `Value.ordered_overlooks`, `Value.hash_overlooks`,
`Value.shown_overlooks`.
-/
namespace Conform

/-- The heap with a checked list marked as frozen or as not frozen. -/
def Heap.flagged (h : Heap) (c : Handle) (b : Bool) : Heap :=
  { h with checked := h.checked.setIfInBounds c { h.checkedList c with frozen := b } }

namespace Heap

variable {h : Heap} {c i : Handle} {b : Bool}

theorem checkedList_flagged_of_ne (other : i ≠ c) : (h.flagged c b).checkedList i = h.checkedList i := by
  simp only [flagged, checkedList, Array.getElem?_setIfInBounds_ne other.symm]

theorem checkedList_flagged_self (there : c < h.checked.size) :
    (h.flagged c b).checkedList c = { h.checkedList c with frozen := b } := by
  simp [flagged, checkedList, there]

/-- A mark changes nothing else about a list. -/
theorem checkedList_flagged (h : Heap) (c i : Handle) (b : Bool) :
    ∃ mark, (h.flagged c b).checkedList i = { h.checkedList i with frozen := mark } := by
  by_cases own : i = c
  · subst own
    by_cases there : i < h.checked.size
    · exact ⟨b, checkedList_flagged_self there⟩
    · have same : h.flagged i b = h := by simp [flagged, Array.setIfInBounds, there]
      exact ⟨_, by rw [same]⟩
  · exact ⟨_, checkedList_flagged_of_ne own⟩

@[simp]
theorem items_flagged : ((h.flagged c b).checkedList i).items = (h.checkedList i).items := by
  obtain ⟨mark, same⟩ := checkedList_flagged h c i b
  rw [same]

@[simp]
theorem element_flagged : ((h.flagged c b).checkedList i).element = (h.checkedList i).element := by
  obtain ⟨mark, same⟩ := checkedList_flagged h c i b
  rw [same]

@[simp]
theorem collection_flagged : ((h.flagged c b).checkedList i).collection = (h.checkedList i).collection := by
  obtain ⟨mark, same⟩ := checkedList_flagged h c i b
  rw [same]

end Heap

/-- A reading that does not look whether a checked list is frozen. -/
def Look.Overlooks {α : Type} (l : Look α) : Prop :=
  ∀ h c b, l (h.flagged c b) = l h

namespace Look.Overlooks

variable {α β : Type}

@[grind ←]
theorem pure (a : α) : (pure a : Look α).Overlooks :=
  fun _ _ _ => rfl

@[grind ←]
theorem throw (f : Fault) : (throw f : Look α).Overlooks :=
  fun _ _ _ => rfl

@[grind ←]
theorem fail (c : Cause) : (Look.fail c : Look α).Overlooks :=
  fun _ _ _ => rfl

@[grind ←]
theorem bind {x : Look α} {f : α → Look β} (hx : x.Overlooks) (hf : ∀ a, (f a).Overlooks) :
    (x >>= f).Overlooks := by
  intro h c b
  change (x (h.flagged c b) >>= fun a => f a (h.flagged c b)) = (x h >>= fun a => f a h)
  have rest : (fun a => f a (h.flagged c b)) = fun a => f a h := funext fun a => hf a h c b
  rw [hx, rest]

theorem read {f : Heap → Look β} (same : ∀ h c b, f (h.flagged c b) = f h) (hf : ∀ h, (f h).Overlooks) :
    (read >>= f).Overlooks := by
  intro h c b
  change f (h.flagged c b) (h.flagged c b) = f h h
  rw [same]
  exact hf h h c b

theorem ite {p : Prop} [Decidable p] {x y : Look α} (hx : x.Overlooks) (hy : y.Overlooks) :
    (if p then x else y).Overlooks := by
  split
  · exact hx
  · exact hy

@[grind ←]
theorem mapM {f : α → Look β} {xs : List α} (hf : ∀ x, (f x).Overlooks) : (xs.mapM f).Overlooks := by
  induction xs with
  | nil => exact pure []
  | cons x xs ih =>
    rw [List.mapM_cons]
    exact bind (hf x) fun y => bind ih fun ys => pure (y :: ys)

@[grind ←]
theorem allM {p : α → Look Bool} {xs : List α} (hp : ∀ x, (p x).Overlooks) : (xs.allM p).Overlooks := by
  induction xs with
  | nil => exact pure true
  | cons x xs ih =>
    unfold List.allM
    refine bind (hp x) fun answer => ?_
    cases answer
    · exact pure false
    · exact ih

@[grind ←]
theorem foldlM {f : β → α → Look β} {xs : List α} (hf : ∀ b x, (f b x).Overlooks) (b : β) :
    (xs.foldlM f b).Overlooks := by
  induction xs generalizing b with
  | nil => exact pure b
  | cons x xs ih =>
    rw [List.foldlM_cons]
    exact bind (hf b x) ih

@[grind ←]
theorem filterM {p : α → Look Bool} {xs : List α} (hp : ∀ x, (p x).Overlooks) : (xs.filterM p).Overlooks := by
  have kept (ys : List α) : (xs.filterAuxM p ys).Overlooks := by
    induction xs generalizing ys with
    | nil => exact pure ys
    | cons x xs ih => exact bind (hp x) fun keep => ih (cond keep (x :: ys) ys)
  exact bind (kept []) fun ys => pure ys.reverse

end Look.Overlooks

open Look.Overlooks

namespace Value

variable {test : Value → Value → Look Bool} {eq : Value → Value → Look Value}

@[grind ←]
theorem needAttribute_overlooks (c : Class) (i : Handle) (name : String) : (needAttribute c i name).Overlooks := by
  refine read (fun _ _ _ => rfl) fun h => ?_
  split <;> grind

theorem length_overlooks (v : Value) : v.length.Overlooks := by
  have counted (n : Nat) (v : Value) : (lengthAt n v).Overlooks := by
    induction n generalizing v with
    | zero => exact throw _
    | succ n ih =>
      refine read (fun h c b => ?_) fun h => ?_
      · split <;> first | rfl | simp only [Heap.items_flagged]
      · split <;> grind
  exact counted valueDepth v

@[grind ←]
theorem truth_overlooks (v : Value) : v.truth.Overlooks := by
  have counted := length_overlooks v
  unfold truth
  split <;> grind

section Equality

@[grind ←]
theorem alike_overlooks (he : ∀ a b, (eq a b).Overlooks) (a b : Value) : (alike eq a b).Overlooks := by
  unfold alike
  grind

section

variable (ht : ∀ a b, (test a b).Overlooks)
include ht

@[grind ←]
theorem allAlike_overlooks (as bs : List Value) : (allAlike test as bs).Overlooks := by
  induction as generalizing bs with
  | nil => cases bs <;> exact pure _
  | cons a as ih =>
    cases bs with
    | nil => exact pure _
    | cons b bs => exact bind (ht a b) fun _ => ite (ih bs) (pure _)

@[grind ←]
theorem memberOf_overlooks (v : Value) (as : List Value) : (memberOf test v as).Overlooks := by
  induction as with
  | nil => exact pure _
  | cons a as ih => exact bind (ht a v) fun _ => ite (pure _) ih

theorem entryAt_overlooks (key : Value) (entries : List (Value × Value)) :
    (entryAt test key entries).Overlooks := by
  induction entries with
  | nil => exact pure _
  | cons entry entries ih => exact bind (ht entry.1 key) fun _ => ite (pure _) ih

@[grind ←]
theorem subset_overlooks (as bs : List Value) : (subset test as bs).Overlooks :=
  allM fun a => memberOf_overlooks ht a bs

@[grind ←]
theorem sameEntries_overlooks (as bs : List (Value × Value)) : (sameEntries test as bs).Overlooks := by
  refine ite (pure _) (allM fun entry => bind (entryAt_overlooks ht entry.1 bs) fun found => ?_)
  split
  · exact ht _ _
  · exact pure _

@[grind ←]
theorem sameItems_overlooks (as bs : List Value) : (sameItems test as bs).Overlooks :=
  ite (pure _) (allAlike_overlooks ht as bs)

theorem sameChildren_overlooks (as bs : List Descriptor) : (sameChildren test as bs).Overlooks := by
  induction as generalizing bs with
  | nil => cases bs <;> exact pure _
  | cons a as ih =>
    cases bs with
    | nil => exact pure _
    | cons b bs => exact bind (ht _ _) fun _ => ite (ih bs) (pure _)

theorem sameNamed_overlooks (as bs : List (String × Descriptor)) : (sameNamed test as bs).Overlooks := by
  induction as generalizing bs with
  | nil => cases bs <;> exact pure _
  | cons a as ih =>
    cases bs with
    | nil => exact pure _
    | cons b bs => exact ite (pure _) (bind (ht _ _) fun _ => ite (ih bs) (pure _))

theorem sameParts_overlooks (as bs : List Descriptor.Part) : (sameParts test as bs).Overlooks := by
  have part (a b : Descriptor.Part) : (samePart test a b).Overlooks := by
    unfold samePart
    split
    · exact ht _ _
    · exact ht _ _
    · exact sameChildren_overlooks ht _ _
    · exact sameNamed_overlooks ht _ _
    · exact pure _
    · exact pure _
  induction as generalizing bs with
  | nil => cases bs <;> exact pure _
  | cons a as ih =>
    cases bs with
    | nil => exact pure _
    | cons b bs => exact bind (part a b) fun _ => ite (ih bs) (pure _)

@[grind ←]
theorem descriptorEqual?_overlooks (a b : Descriptor) : (descriptorEqual? test a b).Overlooks := by
  unfold descriptorEqual?
  split
  · exact pure _
  · exact pure _
  · exact ite (bind (sameParts_overlooks ht _ _) fun _ => pure _) (pure _)

end

theorem ownEqual?_overlooks (he : ∀ a b, (eq a b).Overlooks) (a b : Value) : (ownEqual? eq a b).Overlooks := by
  have test := alike_overlooks he
  refine read (fun h c mark => ?_) fun h => ?_
  · cases a with
    | checked =>
      dsimp only
      split <;> simp only [Heap.items_flagged] <;> rfl
    | thing k i => cases k <;> rfl
    | _ => rfl
  · dsimp only
    split <;> grind

theorem askBoth_overlooks {α : Type} {ask : Value → Value → Look (Option α)} (ha : ∀ a b, (ask a b).Overlooks)
    (a b : Value) (otherwise : α) : (askBoth ask a b otherwise).Overlooks := by
  refine bind (ha _ _) fun answer => ?_
  cases answer with
  | none => exact bind (ha _ _) fun _ => pure _
  | some r => exact pure r

@[grind ←]
theorem equal_overlooks (a b : Value) : (equal a b).Overlooks := by
  have compared (n : Nat) (a b : Value) : (equalAt n a b).Overlooks := by
    induction n generalizing a b with
    | zero => exact throw _
    | succ n ih => exact askBoth_overlooks (ownEqual?_overlooks ih) a b _
  exact compared valueDepth a b

@[grind ←]
theorem isAlike_overlooks (a b : Value) : (isAlike a b).Overlooks :=
  alike_overlooks equal_overlooks a b

end Equality

section Order

theorem lexicographic_overlooks {order : Value → Value → Look Bool} (ho : ∀ a b, (order a b).Overlooks)
    (c : Comparison) (as bs : List Value) : (lexicographic order c as bs).Overlooks := by
  have difference (as bs : List Value) : (firstDifference (alike equal) as bs).Overlooks := by
    induction as generalizing bs with
    | nil => exact pure _
    | cons a as ih =>
      cases bs with
      | nil => exact pure _
      | cons b bs => exact bind (isAlike_overlooks a b) fun _ => ite (ih bs) (pure _)
  refine bind (difference as bs) fun found => ?_
  cases found with
  | none => exact pure _
  | some found => exact ho _ _

theorem inclusion_overlooks (c : Comparison) (as bs : List Value) : (inclusion c as bs).Overlooks := by
  unfold inclusion
  split <;> grind

theorem ownOrder?_overlooks {order : Comparison → Value → Value → Look Bool}
    (ho : ∀ c a b, (order c a b).Overlooks) (c : Comparison) (a b : Value) :
    (ownOrder? order c a b).Overlooks := by
  have words := lexicographic_overlooks (ho c) c
  have sets := inclusion_overlooks c
  refine read (fun h c mark => ?_) fun h => ?_
  · cases a with
    | thing k i => cases k <;> rfl
    | _ => rfl
  · split <;> grind

@[grind ←]
theorem ordered_overlooks (c : Comparison) (a b : Value) : (ordered c a b).Overlooks := by
  have compared (n : Nat) (c : Comparison) (a b : Value) : (orderedAt n c a b).Overlooks := by
    induction n generalizing c a b with
    | zero => exact throw _
    | succ n ih =>
      have own := ownOrder?_overlooks ih
      unfold orderedAt
      grind
  exact compared valueDepth c a b

end Order

@[grind ←]
theorem hash_overlooks (v : Value) : v.hash.Overlooks := by
  have hashed (n : Nat) (v : Value) : (hashAt n v).Overlooks := by
    induction n generalizing v with
    | zero => exact throw _
    | succ n ih =>
      have part (p : Descriptor.Part) : (hashPart (hashAt n) p).Overlooks := by
        unfold hashPart
        split <;> grind
      unfold hashAt
      split <;> grind
  exact hashed valueDepth v

end Value

/-- Whether no text that is worked out to a depth tells whether a list is frozen. -/
structure Unmarked (n : Nat) : Prop where
  value : ∀ trail v, (Value.shownAt n trail v).Overlooks
  entries : ∀ trail es, (Value.entriesShown n trail es).Overlooks
  type : ∀ trail d, (Value.describeAt n trail d).Overlooks
  bound : ∀ trail v, (Value.boundShown n trail v).Overlooks
  named : ∀ trail fields, (Value.namedShown n trail fields).Overlooks
  plain : ∀ trail v, (Value.plainAt n trail v).Overlooks

namespace Unmarked

open Value

theorem zero : Unmarked 0 :=
  ⟨fun _ _ => throw _, fun _ _ => throw _, fun _ _ => throw _, fun _ _ => throw _, fun _ _ => throw _,
    fun _ _ => throw _⟩

theorem succ {n : Nat} (ih : Unmarked n) : Unmarked (n + 1) := by
  obtain ⟨value, entries, type, bound, named, plain⟩ := ih
  constructor
  · intro trail v
    unfold shownAt
    refine read (fun h c b => ?_) fun h => ?_
    · cases v with
      | checked => simp only [Heap.items_flagged, Heap.element_flagged]
      | _ => rfl
    · split <;> grind
  · intro trail es
    unfold entriesShown
    grind
  · intro trail d
    unfold describeAt
    split <;> grind
  · intro trail v
    unfold boundShown
    grind
  · intro trail fields
    unfold namedShown
    grind
  · intro trail v
    unfold plainAt
    split <;> grind

theorem all (n : Nat) : Unmarked n := by
  induction n with
  | zero => exact zero
  | succ n ih => exact ih.succ

end Unmarked

@[grind ←]
theorem Value.shown_overlooks (v : Value) : v.shown.Overlooks :=
  (Unmarked.all valueDepth).value [] v

@[grind ←]
theorem Descriptor.describe_overlooks (d : Descriptor) : d.describe.Overlooks :=
  (Unmarked.all valueDepth).type [] d

@[grind ←]
theorem Value.mismatchMessage_overlooks (expected actual : Value) : (mismatchMessage expected actual).Overlooks := by
  unfold mismatchMessage shownBriefly
  grind

@[grind ←]
theorem Descriptor.functionName_overlooks (v : Value) : (functionName v).Overlooks := by
  unfold functionName
  split <;> grind

section Subscripts

namespace Value

@[grind ←]
theorem asSubscript_overlooks (kind : String) (v : Value) : (asSubscript kind v).Overlooks := by
  unfold asSubscript
  grind

@[grind ←]
theorem asOffset_overlooks (v : Value) : v.asOffset.Overlooks := by
  unfold asOffset
  grind

@[grind ←]
theorem asCount_overlooks (v : Value) : v.asCount.Overlooks := by
  unfold asCount
  grind

@[grind ←]
theorem asFlag_overlooks (v : Value) : v.asFlag.Overlooks := by
  unfold asFlag
  grind

@[grind ←]
theorem asBound_overlooks (v : Value) : v.asBound.Overlooks := by
  unfold asBound
  grind

@[grind ←]
theorem asSlice_overlooks (length : Nat) (start stop step : Value) : (asSlice length start stop step).Overlooks := by
  unfold asSlice
  grind

@[grind ←]
theorem itemAt_overlooks {α : Type} (kind : String) (xs : List α) (subscript : Value) :
    (itemAt kind xs subscript).Overlooks := by
  unfold itemAt
  grind

@[grind ←]
theorem assignedAt_overlooks (xs : List Value) (subscript value : Value) :
    (assignedAt xs subscript value).Overlooks := by
  unfold assignedAt
  grind

@[grind ←]
theorem assignedSlice_overlooks (xs : List Value) (start stop step : Value) (values : List Value) :
    (assignedSlice xs start stop step values).Overlooks := by
  unfold assignedSlice
  grind

@[grind ←]
theorem deletedAt_overlooks (xs : List Value) (subscript : Value) : (deletedAt xs subscript).Overlooks := by
  unfold deletedAt
  grind

@[grind ←]
theorem poppedAt_overlooks (xs : List Value) (index : Value) : (poppedAt xs index).Overlooks := by
  unfold poppedAt
  grind

@[grind ←]
theorem insertedAt_overlooks (xs : List Value) (index value : Value) : (insertedAt xs index value).Overlooks := by
  unfold insertedAt
  grind

@[grind ←]
theorem inSpan_overlooks (r : Span) (v : Value) : (inSpan r v).Overlooks := by
  unfold inSpan
  grind

end Value

@[grind ←]
theorem Descriptor.betweenBounds_overlooks (start stop v : Value) : (betweenBounds start stop v).Overlooks := by
  unfold betweenBounds atOrAfter isBefore
  grind

end Subscripts

namespace CheckedList

theorem addUnique_overlooks (kept : List Value) (v : Value) : (addUnique kept v).Overlooks := by
  unfold addUnique
  grind

@[grind ←]
theorem unique_overlooks (items : List Value) : (unique items).Overlooks :=
  foldlM addUnique_overlooks []

@[grind ←]
theorem uniqueCommon_overlooks (others items : List Value) : (uniqueCommon others items).Overlooks := by
  refine foldlM (fun kept v => bind ?_ fun _ => ite (addUnique_overlooks kept v) (pure kept)) []
  exact Value.memberOf_overlooks Value.isAlike_overlooks v others

@[grind ←]
theorem keepAbsent_overlooks (others items : List Value) : (keepAbsent others items).Overlooks := by
  unfold keepAbsent
  grind

@[grind ←]
theorem removeFirst_overlooks (value : Value) (items : List Value) : (removeFirst value items).Overlooks := by
  induction items with
  | nil => exact fail _
  | cons v rest ih => exact bind (Value.isAlike_overlooks v value) fun _ => ite (pure _) (bind ih fun _ => pure _)

end CheckedList

@[grind ←]
theorem Transforms.find?_overlooks (key : TransformKey) (fn : Value) (table : List Transform) :
    (find? key fn table).Overlooks := by
  have wanted (t : Transform) : (isFor key fn t).Overlooks := by
    unfold isFor sameKey
    grind
  induction table with
  | nil => exact pure _
  | cons t rest ih => exact bind (wanted t) fun _ => ite (pure _) ih

end Conform
