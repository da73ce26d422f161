import Conform.Proofs.Effects

/-!
Actions that do not look whether a list is frozen. From a session in which some list is marked otherwise, such
an action gives the same answer or the same fault, and it ends in the same session but for the mark. What is put
together from such actions is one.

Main statements: `Value.items_overlooks`, `Value.attribute?_overlooks`, `lookup_overlooks`, `search_overlooks`.
-/
namespace Conform

/-- The session with a checked list marked as frozen or as not frozen. -/
def Session.flagged (s : Session) (c : Handle) (b : Bool) : Session :=
  { s with heap := s.heap.flagged c b }

/-- An action that does not look whether a checked list is frozen. -/
def Act.Overlooks {α : Type} (x : Act α) : Prop :=
  ∀ s c b, x (s.flagged c b) = elsewhere (·.flagged c b) (x s)

namespace Act.Overlooks

variable {α β : Type}

@[grind ←]
theorem pure (a : α) : (pure a : Act α).Overlooks :=
  fun _ _ _ => rfl

@[grind ←]
theorem throw (f : Fault) : (throw f : Act α).Overlooks :=
  fun _ _ _ => rfl

@[grind ←]
theorem fail (cause : Cause) : (Act.fail cause : Act α).Overlooks :=
  fun _ _ _ => rfl

@[grind ←]
theorem lift {l : Look α} (hl : l.Overlooks) : (liftM l : Act α).Overlooks :=
  fun s c b => lift_elsewhere (g := (·.flagged c b)) (hl s.heap c b)

@[grind ←]
theorem bind {x : Act α} {f : α → Act β} (hx : x.Overlooks) (hf : ∀ a, (f a).Overlooks) : (x >>= f).Overlooks :=
  fun s c b => bind_elsewhere (hx s c b) fun a t _ => hf a t c b

@[grind ←]
theorem handle {k : Class} {x : Act α} {f : Fault → Act α} (hx : x.Overlooks) (hf : ∀ e, (f e).Overlooks) :
    (Act.handle k x f).Overlooks :=
  fun s c b => handle_elsewhere (hx s c b) fun e t => hf e t c b

theorem get {f : Session → Act α} (same : ∀ s c b, f (s.flagged c b) = f s) (hf : ∀ s, (f s).Overlooks) :
    (get >>= f).Overlooks := by
  intro s c b
  change f (s.flagged c b) (s.flagged c b) = elsewhere _ (f s s)
  rw [same]
  exact hf s s c b

/-- What depends on the heap, but not on the mark of a list. -/
theorem reading {f : Heap → Act α} (same : ∀ h c b, f (h.flagged c b) = f h) (hf : ∀ h, (f h).Overlooks) :
    (Act.getHeap >>= f).Overlooks :=
  get (fun s c b => same s.heap c b) fun s => hf s.heap

theorem modify {f : Session → Session} (apart : ∀ s c b, f (s.flagged c b) = (f s).flagged c b) :
    (modify f : Act PUnit).Overlooks :=
  fun s c b => congrArg (EStateM.Result.ok PUnit.unit) (apart s c b)

theorem ite {p : Prop} [Decidable p] {x y : Act α} (hx : x.Overlooks) (hy : y.Overlooks) :
    (if p then x else y).Overlooks := by
  split
  · exact hx
  · exact hy

theorem passes : Passes fun x => x.Overlooks :=
  ⟨pure, throw, lift, reading, bind⟩

@[grind ←]
theorem mapM {f : α → Act β} {xs : List α} (hf : ∀ x, (f x).Overlooks) : (xs.mapM f).Overlooks :=
  passes.mapM fun x _ => hf x

@[grind ←]
theorem fresh : Act.fresh.Overlooks :=
  fun _ _ _ => rfl

@[grind ←]
theorem newInt (n : Int) : (Act.newInt n).Overlooks := by
  unfold Act.newInt
  grind

@[grind ←]
theorem newFloat (x : Binary64) : (Act.newFloat x).Overlooks := by
  unfold Act.newFloat
  grind

@[grind ←]
theorem newStr (s : String) : (Act.newStr s).Overlooks := by
  unfold Act.newStr
  grind

@[grind ←]
theorem newTuple (items : List Value) : (Act.newTuple items).Overlooks := by
  unfold Act.newTuple
  grind

@[grind ←]
theorem newList (items : List Value) : (Act.newList items).Overlooks :=
  fun _ _ _ => rfl

@[grind ←]
theorem newContext (c : CheckContext) : (Act.newContext c).Overlooks :=
  fun _ _ _ => rfl

@[grind ←]
theorem setContext (i : Handle) (c : CheckContext) : (Act.setContext i c).Overlooks :=
  fun _ _ _ => rfl

theorem setIter (i : Handle) (items : List Value) : (Act.setIter i items).Overlooks :=
  fun _ _ _ => rfl

end Act.Overlooks

open Act.Overlooks

theorem record_overlooks (severity : Logging.Severity) (message : String) :
    (Logging.record severity message).Overlooks := by
  refine modify fun s c b => ?_
  by_cases loud : s.level ≤ severity.rank
  · have louder : (s.flagged c b).level ≤ severity.rank := loud
    rw [if_pos loud, if_pos louder]
    rfl
  · have quieter : ¬(s.flagged c b).level ≤ severity.rank := loud
    rw [if_neg loud, if_neg quieter]

@[grind ←]
theorem trace_overlooks {message : Look String} (words : message.Overlooks) : (Logging.trace message).Overlooks := by
  refine get (fun _ _ _ => rfl) fun s => ite ?_ (pure _)
  exact bind (lift words) fun _ => record_overlooks _ _

theorem ancestors_overlooks (c : Class) : (Nominal.ancestors c).Overlooks := by
  refine get (fun _ _ _ => rfl) fun s => ?_
  split
  · exact pure _
  · exact bind (trace_overlooks (.pure _)) fun _ => bind (modify fun _ _ _ => rfl) fun _ => pure _

namespace Value

@[grind ←]
theorem items_overlooks (v : Value) : v.items.Overlooks :=
  itemsAt_passes passes fresh setIter

/-- Whether reading an attribute tells whether a list is frozen. -/
def asksMark (v : Value) (name : String) : Bool :=
  match v with
  | .checked .. => name == "is_frozen"
  | _ => false

theorem name_of_asksMark {v : Value} {name : String} (asks : v.asksMark name = true) : name = "is_frozen" := by
  unfold asksMark at asks
  split at asks
  · exact beq_iff_eq.mp asks
  · cases asks

theorem asksMark_of_ne {v : Value} {name : String} (other : name ≠ "is_frozen") : v.asksMark name = false :=
  Bool.eq_false_iff.mpr fun asks => other (name_of_asksMark asks)

theorem dataAttribute?_overlooks (v : Value) (name : String) : (v.dataAttribute? name).Overlooks := by
  unfold dataAttribute?
  grind

theorem descriptorAttribute?_overlooks (d : Descriptor) (name : String) : (descriptorAttribute? d name).Overlooks := by
  have named (fields : List (String × Descriptor)) : (namedTuple fields).Overlooks := by
    unfold namedTuple
    grind
  unfold descriptorAttribute? descriptorTuple
  split
  case h_24 => exact get (fun _ _ _ => rfl) fun _ => pure _
  all_goals grind

theorem fieldAttribute?_overlooks {v : Value} {name : String} (asks : v.asksMark name = false) :
    (v.fieldAttribute? name).Overlooks := by
  have parts := descriptorAttribute?_overlooks
  refine reading (fun h c b => ?_) fun h => ?_
  · split
    case h_9 => cases asks
    all_goals first | rfl | simp only [Heap.element_flagged, Heap.collection_flagged]
  · unfold contextMismatch
    split <;> grind

theorem classAttribute?_overlooks (c : Class) (name : String) : (classAttribute? c name).Overlooks := by
  unfold classAttribute?
  repeat' first
    | with_reducible refine Act.Overlooks.ite ?_ ?_
    | split
  all_goals grind

theorem hintAttribute?_overlooks (hint name : String) : (hintAttribute? hint name).Overlooks := by
  have shared := classAttribute?_overlooks
  unfold hintAttribute?
  grind

theorem thingAttribute?_overlooks (c : Class) (i : Handle) (name : String) :
    (thingAttribute? c i name).Overlooks := by
  unfold thingAttribute?
  repeat' first
    | with_reducible refine Act.Overlooks.ite ?_ ?_
    | with_reducible refine Act.Overlooks.reading (fun _ _ _ => rfl) fun _ => ?_
    | with_reducible refine Act.Overlooks.bind ?_ fun _ => ?_
    | split
  all_goals grind

theorem attribute?_overlooks {v : Value} {name : String} (asks : v.asksMark name = false) :
    (v.attribute? name).Overlooks := by
  have data := dataAttribute?_overlooks v name
  have fields := fieldAttribute?_overlooks asks
  have things := thingAttribute?_overlooks
  have classes := classAttribute?_overlooks
  have hints := hintAttribute?_overlooks
  unfold attribute?
  grind

theorem field?_overlooks {v : Value} {name : String} (asks : v.asksMark name = false) :
    (v.field? name).Overlooks := by
  have member := attribute?_overlooks asks
  refine reading (fun h c b => ?_) fun h => ?_
  · cases v <;> rfl
  · split <;> grind

/-- Whether a value responds to a method does not depend on marks: a mark cannot be called. -/
theorem respondsTo_overlooks (v : Value) (name : String) : (Descriptor.respondsTo v name).Overlooks := by
  cases asks : v.asksMark name with
  | false =>
    refine bind (attribute?_overlooks asks) fun found => ?_
    cases found <;> exact pure _
  | true =>
    intro s c b
    obtain rfl := name_of_asksMark asks
    cases v with
    | checked => rfl
    | _ => cases asks

end Value

@[grind ←]
theorem ofValue_overlooks (v : Value) : (Descriptor.ofValue v).Overlooks := by
  unfold Descriptor.ofValue
  grind

namespace Transforms

theorem query_overlooks (element fn : Value) : (query element fn).Overlooks := by
  have key (d : Descriptor) : (keyOf d).Overlooks :=
    handle (bind (lift (Value.hash_overlooks _)) fun _ => pure _) fun _ => pure _
  unfold query
  grind

theorem lookup_overlooks (element fn : Value) : (lookup element fn).Overlooks := by
  refine get (fun _ _ _ => rfl) fun s => ite (pure _) (bind (query_overlooks element fn) fun key => ?_)
  exact get (fun _ _ _ => rfl) fun s => bind (lift (find?_overlooks key fn _)) fun _ => pure _

end Transforms

theorem fillReceiver_overlooks (i : Handle) (p : Check.Performer) : (Check.fillReceiver i p).Overlooks :=
  reading (fun _ _ _ => rfl) fun _ => setContext i _

theorem mismatchError_overlooks (expected actual context message : Value) :
    (Check.mismatchError expected actual context message).Overlooks := by
  unfold Check.mismatchError
  grind

namespace CheckedList

/-- Whether the answer of an operation, or the text of its error, names what a list keeps its items in. -/
def Op.namesStorage : Op → Bool
  | .iterate | .indexOf .. => true
  | .getItem (.slice ..) => false
  | .getItem _ => true
  | _ => false

theorem sign_overlooks (self : Self) (operation : String) (position : Option Int) (i : Handle) :
    (self.sign operation position i).Overlooks := by
  have filled := fillReceiver_overlooks i
  unfold Self.sign place
  grind

theorem operandValues_overlooks (other : Value) (operation : String) : (operandValues other operation).Overlooks := by
  unfold operandValues
  split
  · exact reading (fun h c b => by rw [Heap.items_flagged]) fun _ => pure _
  · exact reading (fun _ _ _ => rfl) fun _ => pure _
  · exact fail _

theorem searchFrom_overlooks (storage : String) (items : List Value) (value stop : Value) (fuel : Nat) (i : Value) :
    (searchFrom storage items value stop fuel i).Overlooks := by
  induction fuel generalizing i with
  | zero => exact fail _
  | succ fuel ih =>
    have found : (Act.handle .indexError (do return some (← Value.itemAt storage items i)) fun _ =>
        return none).Overlooks :=
      handle (bind (lift (Value.itemAt_overlooks _ _ _)) fun _ => pure _) fun _ => pure none
    unfold searchFrom
    split <;> grind

theorem search_overlooks (storage : String) (items : List Value) (value start stop : Value) :
    (search storage items value start stop).Overlooks := by
  have looked := searchFrom_overlooks storage items value
  unfold search fromEnd
  grind

end CheckedList

end Conform
