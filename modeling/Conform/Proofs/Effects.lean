import Conform.Calling
import Conform.Proofs.Texts

/-!
What plain data can do to a session. Numbers, texts, lists, sets, mappings, attributes, subscripts and
signatures are worked with without a look at a type: that takes up identities, writes to the log and changes
tables of the heap, but leaves the checked lists alone, the deferred descriptors that are resolved, the
ancestors that are remembered and the calls that are recorded.

An action with such an effect is plain. What is put together from plain actions is plain; `grind` puts them
together. What else is to be said of plain actions is said once, of the steps they are put together from.
-/
namespace Conform

/-- Whether the checked lists, the resolved descriptors, the remembered ancestors, the declared transforms, the
level of the log and the recorded calls are left alone. -/
structure Session.Plainly (s t : Session) : Prop where
  checked : t.heap.checked = s.heap.checked
  resolved : t.resolved = s.resolved
  ancestors : t.ancestors = s.ancestors
  transforms : t.transforms = s.transforms
  level : t.level = s.level
  calls : t.calls = s.calls

theorem Session.Plainly.trans {s t u : Session} (st : s.Plainly t) (tu : t.Plainly u) : s.Plainly u :=
  ⟨tu.checked.trans st.checked, tu.resolved.trans st.resolved, tu.ancestors.trans st.ancestors,
    tu.transforms.trans st.transforms, tu.level.trans st.level, tu.calls.trans st.calls⟩

instance : IsPreorder Session Session.Plainly where
  refl _ := ⟨rfl, rfl, rfl, rfl, rfl, rfl⟩
  trans _ _ _ := .trans

/-- How far a plain action may reach. -/
structure Reach where
  /-- Whether it may write to plain lists that are there. -/
  lists : Bool
  /-- Whether it may read what the session remembers. -/
  records : Bool
  /-- Whether it may ask, or say, if declared transforms are used. -/
  switch : Bool

/-- The reach of all plain actions. -/
def Reach.all : Reach :=
  ⟨true, true, true⟩

/-- The reach of the plain actions that calls are put together from. -/
def Reach.calls : Reach :=
  ⟨true, true, false⟩

@[grind =]
theorem Reach.all_records : Reach.all.records = true :=
  rfl

@[grind =]
theorem Reach.all_switch : Reach.all.switch = true :=
  rfl

@[grind =]
theorem Reach.calls_lists : Reach.calls.lists = true :=
  rfl

/-- The session with the use of declared transforms turned on or off. -/
def Session.switched (s : Session) (on : Bool) : Session :=
  { s with transformsEnabled := on }

/-- Whether two sessions look the same to whoever does not read the log, and, without a look at the records, to
whoever does not ask what is remembered. The first may be the louder one. -/
structure Session.Alike (records : Bool) (s t : Session) : Prop where
  heap : t.heap = s.heap
  nextIdent : t.nextIdent = s.nextIdent
  names : t.names = s.names
  level : s.level ≤ t.level
  resolved : records = true → t.resolved = s.resolved
  ancestors : records = true → t.ancestors = s.ancestors
  strayAncestors : records = true → t.strayAncestors = s.strayAncestors
  transforms : records = true → t.transforms = s.transforms
  transformsEnabled : records = true → t.transformsEnabled = s.transformsEnabled
  calls : records = true → t.calls = s.calls

/-- Whether the plain lists that are there are left alone. -/
def Session.Sparing (s t : Session) : Prop :=
  ∀ i < s.heap.lists.size, t.heap.lists[i]? = s.heap.lists[i]?

instance : IsPreorder Session Session.Sparing where
  refl _ _ _ := rfl
  trans s t u st tu i hi := by
    have there : i < t.heap.lists.size := by
      have same := st i hi
      rw [Array.getElem?_eq_getElem hi] at same
      exact (Array.getElem?_eq_some_iff.mp same).1
    exact (tu i there).trans (st i hi)

/-- An action that is put together from steps with such an effect, and that reads no more of the session than
its reach allows. The text of a trace line is worked out only at some levels, so it must not fail otherwise than
by giving up. -/
inductive Act.Plain (r : Reach) : {α : Type} → Act α → Prop
  | pure {α : Type} (a : α) : Plain r (Pure.pure a)
  | throw {α : Type} (f : Fault) : Plain r (MonadExcept.throw f : Act α)
  | lift {α : Type} (l : Look α) : Plain r (liftM l : Act α)
  | bind {α β : Type} {x : Act α} {f : α → Act β} (hx : Plain r x) (hf : ∀ a, Plain r (f a)) : Plain r (x >>= f)
  | handle {α : Type} {c : Class} {x : Act α} {f : Fault → Act α} (hx : Plain r x) (hf : ∀ e, Plain r (f e)) :
    Plain r (Act.handle c x f)
  | get {α : Type} {f : Session → Act α} (sees : ∀ s t, s.Alike r.records t → f t = f s)
    (blind : r.switch = false → ∀ (s : Session) on, f (s.switched on) = f s) (hf : ∀ s, Plain r (f s)) :
    Plain r (MonadState.get >>= f)
  | modify {f : Session → Session} (plainly : ∀ s : Session, s.Plainly (f s))
    (sparing : r.lists = false → ∀ s : Session, s.Sparing (f s))
    (alike : ∀ s t : Session, s.Alike r.records t → (f s).Alike r.records (f t))
    (blind : r.switch = false → ∀ (s : Session) on, f (s.switched on) = (f s).switched on) :
    Plain r (modify f : Act PUnit)
  | trace {message : Look String} (words : ∀ h f, message h = .error f → f = .exhausted) :
    Plain r (Logging.trace message)

namespace Act.Plain

variable {α β : Type} {r : Reach}

attribute [grind ←] pure throw lift bind handle

theorem leads {x : Act α} (hx : x.Plain r) : x.Leads Session.Plainly := by
  induction hx with
  | pure a => exact .pure a
  | throw f => exact .throw f
  | lift l => exact .lift l
  | bind _ _ hx hf => exact .bind hx hf
  | handle _ _ hx hf => exact .handle hx hf
  | get _ _ _ hf => exact .bind .get hf
  | modify plainly _ _ _ => exact .modify plainly
  | trace _ =>
    refine .bind .get fun _ => .ite (.bind (.lift _) fun _ => .modify fun s => ?_) (.pure _)
    split
    · exact ⟨rfl, rfl, rfl, rfl, rfl, rfl⟩
    · exact ⟨rfl, rfl, rfl, rfl, rfl, rfl⟩

/-- Whatever calls are put together from is among all plain actions. -/
theorem all {x : Act α} (hx : x.Plain .calls) : x.Plain .all := by
  induction hx with
  | pure a => exact .pure a
  | throw f => exact .throw f
  | lift l => exact .lift l
  | bind _ _ hx hf => exact .bind hx hf
  | handle _ _ hx hf => exact .handle hx hf
  | get sees _ _ hf => exact .get sees (fun off => by cases off) hf
  | modify plainly _ alike _ => exact .modify plainly (fun careful => by cases careful) alike fun off => by cases off
  | trace words => exact .trace words

/-- Lists are left alone by whoever may not write to them. -/
theorem spares {x : Act α} (hx : x.Plain r) (careful : r.lists = false) : x.Leads Session.Sparing := by
  induction hx with
  | pure a => exact .pure a
  | throw f => exact .throw f
  | lift l => exact .lift l
  | bind _ _ hx hf => exact .bind hx hf
  | handle _ _ hx hf => exact .handle hx hf
  | get _ _ _ hf => exact .bind .get hf
  | modify _ sparing _ _ => exact .modify (sparing careful)
  | trace _ =>
    refine .bind .get fun _ => .ite (.bind (.lift _) fun _ => .modify fun s i hi => ?_) (.pure _)
    split <;> rfl

@[grind ←]
theorem fail (c : Cause) : (Act.fail c : Act α).Plain r :=
  throw (.cause c)

@[grind ←]
theorem getHeap : Act.getHeap.Plain r :=
  get (fun _ _ alike => by rw [alike.heap]) (fun _ _ _ => rfl) fun s => pure s.heap

theorem passes : Passes fun x => x.Plain r :=
  ⟨pure, throw, fun _ => lift _, fun _ => bind getHeap, bind⟩

theorem ite {c : Prop} [Decidable c] {x y : Act α} (hx : x.Plain r) (hy : y.Plain r) :
    (if c then x else y).Plain r := by
  split
  · exact hx
  · exact hy

@[grind ←]
theorem mapM {f : α → Act β} {xs : List α} (hf : ∀ x, (f x).Plain r) : (xs.mapM f).Plain r :=
  passes.mapM fun x _ => hf x

@[grind ←]
theorem filterM {p : α → Act Bool} {xs : List α} (hp : ∀ x, (p x).Plain r) : (xs.filterM p).Plain r :=
  passes.filterM fun x _ => hp x

@[grind ←]
theorem foldlM {f : β → α → Act β} {xs : List α} (hf : ∀ b x, (f b x).Plain r) (b : β) :
    (xs.foldlM f b).Plain r := by
  induction xs generalizing b with
  | nil => exact pure b
  | cons x xs ih =>
    rw [List.foldlM_cons]
    exact bind (hf b x) ih

@[grind ←]
theorem findM? {p : α → Act Bool} {xs : List α} (hp : ∀ x, (p x).Plain r) : (xs.findM? p).Plain r := by
  induction xs with
  | nil => exact pure none
  | cons x xs ih =>
    unfold List.findM?
    refine bind (hp x) fun found => ?_
    cases found
    · exact ih
    · exact pure (some x)

/-- A change of the heap that leaves the checked lists alone. -/
theorem modifyHeap {f : Heap → Heap} (checked : ∀ h, (f h).checked = h.checked)
    (lists : r.lists = false → ∀ h, ∀ i < h.lists.size, (f h).lists[i]? = h.lists[i]?) :
    (Act.modifyHeap f).Plain r :=
  modify (fun s => ⟨checked s.heap, rfl, rfl, rfl, rfl, rfl⟩) (fun careful s => lists careful s.heap)
    (fun _ _ alike => { alike with heap := congrArg f alike.heap }) fun _ _ _ => rfl

/-- A change of the heap that leaves all lists alone. -/
theorem aside {f : Heap → Heap} (checked : ∀ h, (f h).checked = h.checked) (lists : ∀ h, (f h).lists = h.lists) :
    (Act.modifyHeap f).Plain r :=
  modifyHeap checked fun _ h _ _ => by rw [lists h]

@[grind ←]
theorem fresh : Act.fresh.Plain r := by
  refine get (f := fun s => do
    modifyThe Session fun s => { s with nextIdent := s.nextIdent + 1 }
    return s.nextIdent) (fun _ _ alike => by rw [alike.nextIdent]) (fun _ _ _ => rfl)
    fun s => bind (modify ?_ ?_ ?_ fun _ _ _ => rfl) fun _ => pure _
  · exact fun _ => ⟨rfl, rfl, rfl, rfl, rfl, rfl⟩
  · exact fun _ _ _ _ => rfl
  · exact fun _ _ alike => { alike with nextIdent := congrArg (· + 1) alike.nextIdent }

@[grind ←]
theorem newInt (n : Int) : (Act.newInt n).Plain r :=
  bind fresh fun _ => pure _

@[grind ←]
theorem newFloat (x : Binary64) : (Act.newFloat x).Plain r :=
  bind fresh fun _ => pure _

@[grind ←]
theorem newStr (s : String) : (Act.newStr s).Plain r :=
  bind fresh fun _ => pure _

@[grind ←]
theorem newTuple (items : List Value) : (Act.newTuple items).Plain r :=
  bind fresh fun _ => pure _

@[grind ←]
theorem newListOf (kind : Flavour) (items : List Value) : (Act.newListOf kind items).Plain r := by
  refine get (fun _ _ alike => by rw [alike.heap]) (fun _ _ _ => rfl) fun _ =>
    bind (modifyHeap (fun _ => rfl) ?_) fun _ => pure _
  intro _ h i hi
  rw [Array.getElem?_push_lt hi, Array.getElem?_eq_getElem hi]

@[grind ←]
theorem newList (items : List Value) : (Act.newList items).Plain r :=
  newListOf .base items

@[grind ←]
theorem newDict (kind : Flavour) (entries : List (Value × Value)) : (Act.newDict kind entries).Plain r :=
  get (fun _ _ alike => by rw [alike.heap]) (fun _ _ _ => rfl) fun _ =>
    bind (aside (fun _ => rfl) fun _ => rfl) fun _ => pure _

@[grind ←]
theorem newSet (items : List Value) : (Act.newSet items).Plain r :=
  get (fun _ _ alike => by rw [alike.heap]) (fun _ _ _ => rfl) fun _ =>
    bind (aside (fun _ => rfl) fun _ => rfl) fun _ => pure _

@[grind ←]
theorem newBuffer (bs : List UInt8) : (Act.newBuffer bs).Plain r :=
  get (fun _ _ alike => by rw [alike.heap]) (fun _ _ _ => rfl) fun _ =>
    bind (aside (fun _ => rfl) fun _ => rfl) fun _ => pure _

@[grind ←]
theorem newIter (items : List Value) : (Act.newIter items).Plain r :=
  get (fun _ _ alike => by rw [alike.heap]) (fun _ _ _ => rfl) fun _ =>
    bind (aside (fun _ => rfl) fun _ => rfl) fun _ => pure _

@[grind ←]
theorem newThing (c : Class) (attributes : List (String × Value)) : (Act.newThing c attributes).Plain r :=
  get (fun _ _ alike => by rw [alike.heap]) (fun _ _ _ => rfl) fun _ =>
    bind (aside (fun _ => rfl) fun _ => rfl) fun _ => pure _

@[grind ←]
theorem newContext (c : CheckContext) : (Act.newContext c).Plain r :=
  get (fun _ _ alike => by rw [alike.heap]) (fun _ _ _ => rfl) fun _ =>
    bind (aside (fun _ => rfl) fun _ => rfl) fun _ => pure _

@[grind ←]
theorem setThing (i : Handle) (attributes : List (String × Value)) : (Act.setThing i attributes).Plain r :=
  aside (fun _ => rfl) fun _ => rfl

@[grind ←]
theorem setList (writes : r.lists = true) (i : Handle) (items : List Value) : (Act.setList i items).Plain r :=
  modifyHeap (fun _ => rfl) fun careful => by simp [writes] at careful

@[grind ←]
theorem setDict (i : Handle) (entries : List (Value × Value)) : (Act.setDict i entries).Plain r :=
  aside (fun _ => rfl) fun _ => rfl

@[grind ←]
theorem setSet (i : Handle) (items : List Value) : (Act.setSet i items).Plain r :=
  aside (fun _ => rfl) fun _ => rfl

@[grind ←]
theorem setBuffer (i : Handle) (bs : List UInt8) : (Act.setBuffer i bs).Plain r :=
  aside (fun _ => rfl) fun _ => rfl

@[grind ←]
theorem setIter (i : Handle) (items : List Value) : (Act.setIter i items).Plain r :=
  aside (fun _ => rfl) fun _ => rfl

@[grind ←]
theorem setContext (i : Handle) (c : CheckContext) : (Act.setContext i c).Plain r :=
  aside (fun _ => rfl) fun _ => rfl

end Act.Plain

variable {r : Reach}

section Records

@[grind ←]
theorem record_plain (severity : Logging.Severity) (message : String) :
    (Logging.record severity message).Plain r := by
  refine .modify (fun s => ?_) (fun _ s i hi => ?_) (fun s t alike => ?_) fun _ s on => ?_
  · split <;> exact ⟨rfl, rfl, rfl, rfl, rfl, rfl⟩
  · split <;> rfl
  · split <;> split <;> exact { alike with }
  · unfold Session.switched
    dsimp only
    split <;> rfl

@[grind ←]
theorem trace_plain {message : Look String} (words : message.Speaks) : (Logging.trace message).Plain r :=
  .trace words

@[grind ←]
theorem accept_plain (signature : Signature) (args : List Value) (keywords : Keywords) :
    (signature.accept args keywords).Plain r := by
  unfold Signature.accept
  grind

@[grind ←]
theorem lookupName_plain (name : String) : (lookupName name).Plain r := by
  refine .get (fun s t alike => by rw [alike.names]) (fun _ _ _ => rfl) fun s => ?_
  grind

end Records

namespace Value

@[grind ←]
theorem dataAttribute?_plain (v : Value) (name : String) : (v.dataAttribute? name).Plain r := by
  unfold dataAttribute?
  split <;> grind

@[grind ←]
theorem namedTuple_plain (fields : List (String × Descriptor)) : (namedTuple fields).Plain r := by
  unfold namedTuple
  grind

/-- Whether reading an attribute asks what is remembered: whether a deferred descriptor is resolved. -/
def recalls (v : Value) (name : String) : Bool :=
  match v with
  | .descriptor (.deferred ..) => name == "is_resolved"
  | _ => false

@[grind →]
theorem name_of_recalls {v : Value} {name : String} (h : v.recalls name = true) : name = "is_resolved" := by
  unfold recalls at h
  split at h
  · exact beq_iff_eq.mp h
  · cases h

@[grind ←]
theorem descriptorAttribute?_plain (d : Descriptor) {name : String}
    (reach : (descriptor d).recalls name = true → r.records = true) : (descriptorAttribute? d name).Plain r := by
  unfold descriptorAttribute? descriptorTuple
  split
  case h_24 => exact .get (fun _ _ alike => by rw [alike.resolved (reach rfl)]) (fun _ _ _ => rfl) fun _ => .pure _
  all_goals grind

@[grind ←]
theorem fieldAttribute?_plain (v : Value) {name : String} (reach : v.recalls name = true → r.records = true) :
    (v.fieldAttribute? name).Plain r := by
  refine .bind .getHeap fun h => ?_
  unfold contextMismatch
  split <;> grind

@[grind ←]
theorem classAttribute?_plain (c : Class) (name : String) : (classAttribute? c name).Plain r := by
  unfold classAttribute?
  repeat' first
    | with_reducible refine Act.Plain.ite ?_ ?_
    | split
  all_goals grind

@[grind ←]
theorem hintAttribute?_plain (hint name : String) : (hintAttribute? hint name).Plain r := by
  unfold hintAttribute?
  grind

@[grind ←]
theorem thingAttribute?_plain (c : Class) (i : Handle) (name : String) :
    (thingAttribute? c i name).Plain r := by
  unfold thingAttribute?
  repeat' first
    | with_reducible refine Act.Plain.ite ?_ ?_
    | with_reducible refine Act.Plain.bind ?_ fun _ => ?_
    | split
  all_goals grind

@[grind ←]
theorem attribute?_plain (v : Value) {name : String} (reach : v.recalls name = true → r.records = true) :
    (v.attribute? name).Plain r := by
  refine .ite (.pure _) ?_
  split
  · exact classAttribute?_plain _ name
  · exact hintAttribute?_plain _ name
  · exact thingAttribute?_plain _ _ name
  · refine .bind (dataAttribute?_plain v name) fun data => ?_
    split
    · exact .pure _
    · exact .bind (fieldAttribute?_plain v reach) fun field => by grind

@[grind ←]
theorem getAttribute_plain (v : Value) {name : String} (reach : v.recalls name = true → r.records = true) :
    (v.getAttribute name).Plain r := by
  refine .bind (attribute?_plain v reach) fun found => ?_
  cases found
  · exact .fail _
  · exact .pure _

@[grind ←]
theorem field?_plain (v : Value) {name : String} (reach : v.recalls name = true → r.records = true) :
    (v.field? name).Plain r := by
  refine .bind .getHeap fun h => ?_
  split
  · exact .pure _
  · exact attribute?_plain v reach

section Walking

variable {P : ∀ {α : Type}, Act α → Prop} (passes : Act.Passes P) (fresh : P Act.fresh)
  (draws : ∀ i vs, P (Act.setIter i vs))

include passes fresh draws

/-- Walking through a value uses up identities and one-shot iterators. -/
theorem itemsAt_passes {n : Nat} {v : Value} : P (v.itemsAt n) := by
  induction n generalizing v with
  | zero => exact passes.throw _
  | succ n ih =>
    have made {β : Type} (xs : List β) (f : β → Ident → Value) : P (xs.mapM fun x => do return f x (← Act.fresh)) :=
      passes.mapM fun x _ => passes.bind fresh fun _ => passes.pure _
    refine passes.reading (fun h c b => ?_) fun h => ?_
    · cases v with
      | checked => simp only [Heap.items_flagged]
      | thing k i => cases k <;> rfl
      | _ => rfl
    split
    case h_12 => exact passes.bind (draws _ _) fun _ => passes.pure _
    case h_14 =>
      split
      · exact passes.pure _
      · exact passes.throw _
    all_goals
      first
      | exact passes.pure _
      | exact passes.throw _
      | exact passes.bind (passes.lift (needAttribute_overlooks _ _ _)) fun _ => ih
      | exact made _ _

/-- Walking through a value and asking about each item on the way does to the session what asking does. -/
theorem allItemsAt_passes {p : Value → Act Bool} (hp : ∀ v, P (p v)) {n : Nat} {v : Value} :
    P (v.allItemsAt p n) := by
  have counted (r : Span) (n i : Nat) : P (allFrom r (fun k => p (passingInt k)) n i) := by
    induction n generalizing i with
    | zero => exact passes.pure true
    | succ n ih =>
      refine passes.bind (hp _) fun answer => ?_
      cases answer
      · exact passes.pure false
      · exact ih _
  have drawn (i : Handle) (n : Nat) : P (drawWhile p i n) := by
    induction n with
    | zero => exact passes.pure true
    | succ n ih =>
      refine passes.reading (fun _ _ _ => rfl) fun h => ?_
      split
      · exact passes.pure true
      · refine passes.bind (draws i _) fun _ => passes.bind (hp _) fun answer => ?_
        cases answer
        · exact passes.pure false
        · exact ih
  induction n generalizing v with
  | zero => exact passes.throw _
  | succ n ih =>
    unfold allItemsAt
    split
    · exact counted _ _ _
    · exact passes.allM fun c _ => hp (passingLetter c)
    · exact passes.allM fun b _ => hp (passingInt b.toNat)
    · exact passes.reading (fun _ _ _ => rfl) fun h => passes.allM fun b _ => hp (passingInt b.toNat)
    · exact passes.reading (fun _ _ _ => rfl) fun h => drawn _ _
    · exact passes.bind (passes.lift (needAttribute_overlooks _ _ _)) fun _ => ih
    · exact passes.bind (passes.lift (needAttribute_overlooks _ _ _)) fun _ => ih
    · exact passes.bind (itemsAt_passes passes fresh draws) fun vs => passes.allM fun v _ => hp v

end Walking

theorem itemsAt_leads {R : Session → Session → Prop} [IsPreorder Session R] (fresh : Act.fresh.Leads R)
    (draws : ∀ i vs, (Act.setIter i vs).Leads R) {n : Nat} {v : Value} : (v.itemsAt n).Leads R :=
  itemsAt_passes Act.Leads.passes fresh draws

@[grind ←]
theorem items_plain (v : Value) : v.items.Plain r :=
  itemsAt_passes Act.Plain.passes .fresh .setIter

@[grind ←]
theorem contains_plain (container v : Value) : (container.contains v).Plain r := by
  have walk (w : Value) : (w.allItems fun item => do return !(← isAlike item v)).Plain r :=
    allItemsAt_passes Act.Plain.passes .fresh .setIter fun item => .bind (.lift _) fun _ => .pure _
  have found {n : Nat} {container : Value} : (containsAt n container v).Plain r := by
    induction n generalizing container with
    | zero => exact .throw _
    | succ n ih =>
      refine .bind .getHeap fun h => ?_
      split <;> grind
  exact found

end Value

section Descriptors

open Factory

@[grind ←]
theorem ofValue_plain (v : Value) : (Descriptor.ofValue v).Plain r := by
  unfold Descriptor.ofValue
  grind

@[grind ←]
theorem coerceNamed_plain (fields : Keywords) : (coerceNamed fields).Plain r := by
  unfold coerceNamed
  grind

@[grind ←]
theorem union_plain (types : List Value) : (union types).Plain r := by
  unfold union coerceAll
  grind

@[grind ←]
theorem intersection_plain (types : List Value) : (intersection types).Plain r := by
  unfold intersection coerceAll
  grind

@[grind ←]
theorem negation_plain (types : List Value) : (negation types).Plain r := by
  unfold negation
  grind

@[grind ←]
theorem constraint_plain (bases : List Value) (predicates : Keywords) :
    (Factory.constraint bases predicates).Plain r := by
  unfold Factory.constraint coerceAll
  grind

@[grind ←]
theorem shape_plain (fields : Keywords) : (shape fields).Plain r := by
  unfold shape
  grind

@[grind ←]
theorem needClass_plain (who : String) (v : Value) : (needClass who v).Plain r := by
  unfold needClass
  grind

@[grind ←]
theorem distinct_plain (vs : List Value) : (distinct vs).Plain r := by
  unfold distinct
  grind

@[grind ←]
theorem interface_plain (methods : List Value) : (interface methods).Plain r := by
  unfold interface
  grind

@[grind ←]
theorem predicate_plain (message fn : Value) : (predicate message fn).Plain r := by
  unfold predicate
  grind

@[grind ←]
theorem within_plain (container : Value) : (within container).Plain r := by
  unfold within
  grind

@[grind ←]
theorem deferred_plain (thunk : Value) : (deferred thunk).Plain r := by
  unfold deferred
  grind

@[grind ←]
theorem compile_plain (source : String) (binary ignoreCase : Bool) :
    (compile source binary ignoreCase).Plain r := by
  unfold compile
  grind

@[grind ←]
theorem pattern_plain (source evaluator : Value) : (pattern source evaluator).Plain r := by
  unfold pattern
  grind

@[grind ←]
theorem buildNamed_plain (name : String) (b : Bound) : (buildNamed name b).Plain r := by
  unfold buildNamed coerceAll unknown
  split <;> grind

@[grind ←]
theorem build_plain (name : String) (args : List Value) (keywords : Keywords) :
    (build name args keywords).Plain r := by
  unfold build
  split <;> grind

end Descriptors

section Tables

open Transforms

@[grind ←]
theorem keyOf_plain (d : Descriptor) : (keyOf d).Plain r :=
  .handle (.bind (.lift _) fun _ => .pure _) fun _ => .pure _

@[grind ←]
theorem query_plain (element fn : Value) : (query element fn).Plain r := by
  unfold query
  grind

@[grind ←]
theorem lookup_plain (recalls : r.records = true) (switch : r.switch = true) (element fn : Value) :
    (lookup element fn).Plain r := by
  refine .get (fun _ _ alike => by rw [alike.transformsEnabled recalls]) (fun off => by simp [switch] at off)
    fun _ => .ite (.pure _) (.bind (query_plain element fn) fun _ => ?_)
  refine .get (fun _ _ alike => by rw [alike.transforms recalls]) (fun _ _ _ => rfl) fun _ => ?_
  grind

@[grind ←]
theorem setEnabled_plain (switch : r.switch = true) (flag : Value) : (setEnabled flag).Plain r := by
  refine .bind (.lift _) fun on => .bind (.modify ?_ ?_ ?_ fun off => by simp [switch] at off) fun _ => record_plain _ _
  · exact fun _ => ⟨rfl, rfl, rfl, rfl, rfl, rfl⟩
  · exact fun _ _ _ _ => rfl
  · exact fun _ _ alike => { alike with transformsEnabled := fun _ => rfl }

end Tables

section Checking

open CheckedList

/-- What an operation calls. -/
def CheckedList.Op.callees : Op → List Value
  | .filterInPlace test | .rejectInPlace test | .filter test | .reject test => [test]
  | .sortInPlace comparator key _ | .sort comparator key _ => [comparator, key]
  | .extreme _ _ key | .minmax key => [key]
  | .map _ function => [function]
  | _ => []

/-- The element type that an operation is given. -/
def CheckedList.Op.element? : Op → Option Value
  | .map element _ => some element
  | _ => none

/-- Whether an operation changes its receiver. -/
def CheckedList.Op.writes : Op → Bool
  | .freeze => true
  | op => op.change?.isSome

theorem CheckedList.Op.writes_of_change {op : Op} {what : String} (change : op.change? = some what) :
    op.writes = true := by
  unfold writes
  split
  · rfl
  · rw [change]
    rfl

/-- Whether an operation answers with a checked list that it makes. -/
def CheckedList.Op.copies : Op → Bool
  | .getItem (.slice ..) | .filter _ | .reject _ | .sort .. | .map .. | .and _ | .sub _ | .or _ | .add _ => true
  | .extreme _ .nil _ => false
  | .extreme .. => true
  | _ => false

theorem CheckedList.Op.writes_of_copies {op : Op} (copies : op.copies = true) : op.writes = false := by
  cases op with
  | getItem | filter | reject | sort | extreme | map | and | sub | or | add => rfl
  | _ => cases copies

theorem checkedList_set {h : Heap} {i j : Handle} {l : CheckedList} (hi : i < h.checked.size) :
    ({ h with checked := h.checked.setIfInBounds i l } : Heap).checkedList j =
      if j = i then l else h.checkedList j := by
  simp only [Heap.checkedList, Array.getElem?_setIfInBounds]
  by_cases hj : j = i
  · subst hj
    simp [hi]
  · simp [hj, Ne.symm hj]

theorem checkedList_push {h : Heap} {j : Handle} {l : CheckedList} :
    ({ h with checked := h.checked.push l } : Heap).checkedList j =
      if j = h.checked.size then l else h.checkedList j := by
  simp only [Heap.checkedList, Array.getElem?_push]
  split <;> rfl

/-- A list that is not frozen takes new contents. -/
theorem CheckedList.Self.write_ok {self : CheckedList.Self} {method : Option String} {items : List Value}
    {s : Session} (unfrozen : (s.heap.checkedList self.at_).frozen = false) :
    self.write method items s = .ok () { s with heap := { s.heap with
      checked := s.heap.checked.setIfInBounds self.at_ { s.heap.checkedList self.at_ with items } } } := by
  have known : self.state s = .ok (s.heap.checkedList self.at_) s := rfl
  unfold write
  rw [Act.bind_of_ok known, if_neg (by simp [unfrozen])]
  rfl

/-- A list that does not take new contents stays as it is. -/
theorem CheckedList.Self.write_error {self : CheckedList.Self} {method : Option String}
    {items : List Value} {s t : Session} {f : Fault} (run : self.write method items s = .error f t) :
    s = t := by
  cases frozen : (s.heap.checkedList self.at_).frozen with
  | false =>
    rw [write_ok frozen] at run
    cases run
  | true =>
    have known : self.state s = .ok (s.heap.checkedList self.at_) s := rfl
    unfold write at run
    rw [Act.bind_of_ok known, if_pos frozen] at run
    exact (Act.fail_eq_error.mp run).2

@[grind ←]
theorem fillReceiver_plain (i : Handle) (p : Check.Performer) : (Check.fillReceiver i p).Plain r := by
  unfold Check.fillReceiver
  grind

@[grind ←]
theorem mismatchError_plain (expected actual context message : Value) :
    (Check.mismatchError expected actual context message).Plain r := by
  unfold Check.mismatchError
  grind

@[grind ←]
theorem state_plain (self : Self) : self.state.Plain r := by
  unfold Self.state
  grind

@[grind ←]
theorem sign_plain (self : Self) (operation : String) (position : Option Int) (i : Handle) :
    (self.sign operation position i).Plain r := by
  unfold Self.sign place
  grind

@[grind ←]
theorem operandValues_plain (other : Value) (operation : String) : (operandValues other operation).Plain r := by
  unfold operandValues
  grind

theorem searchFrom_plain (storage : String) (items : List Value) (value stop : Value) (fuel : Nat) (i : Value) :
    (searchFrom storage items value stop fuel i).Plain r := by
  induction fuel generalizing i with
  | zero => exact .fail _
  | succ fuel ih =>
    have read : (Act.handle .indexError (do return some (← Value.itemAt storage items i)) fun _ =>
        return none).Plain r :=
      .handle (.bind (.lift _) fun _ => .pure _) fun _ => .pure none
    unfold searchFrom
    split <;> grind

@[grind ←]
theorem search_plain (storage : String) (items : List Value) (value start stop : Value) :
    (search storage items value start stop).Plain r := by
  have looked := searchFrom_plain (r := r) storage items value
  unfold search fromEnd
  grind

end Checking

namespace Operator

@[grind ←]
theorem float?_plain (v : Value) : (float? v).Plain r := by
  unfold float?
  grind

@[grind ←]
theorem onInts_plain (o : Operator) (a b : Value) (m n : Int) : (onInts o a b m n).Plain r := by
  unfold onInts
  grind

@[grind ←]
theorem onFloats_plain (o : Operator) (x y : Binary64) : (onFloats o x y).Plain r := by
  unfold onFloats
  grind

@[grind ←]
theorem onNumbers?_plain (o : Operator) (a b : Value) : (onNumbers? o a b).Plain r := by
  unfold onNumbers?
  grind

@[grind ←]
theorem onSets?_plain (o : Operator) (a b : Value) : (onSets? o a b).Plain r := by
  refine .bind .getHeap fun h => ?_
  unfold CheckedList.unique
  split <;> grind

@[grind ←]
theorem onMappings?_plain (o : Operator) (a b : Value) : (onMappings? o a b).Plain r := by
  unfold onMappings?
  grind

@[grind ←]
theorem join?_plain (a b : Value) : (join? a b).Plain r := by
  unfold join?
  grind

@[grind ←]
theorem repetitions_plain (v : Value) : (repetitions v).Plain r := by
  unfold repetitions
  grind

@[grind ←]
theorem times_plain (a : Value) (n : Nat) : (times a n).Plain r := by
  unfold times
  grind

@[grind ←]
theorem negate_plain (v : Value) : (negate v).Plain r := by
  unfold negate
  grind

end Operator

namespace Construction

@[grind ←]
theorem toInt_plain (v : Value) : (toInt v).Plain r := by
  unfold toInt
  grind

@[grind ←]
theorem toFloat_plain (v : Value) : (toFloat v).Plain r := by
  unfold toFloat
  grind

@[grind ←]
theorem entryOf_plain (place : Nat) (v : Value) : (entryOf place v).Plain r := by
  refine .bind (.handle v.items_plain fun _ => .fail _) fun items => ?_
  grind

@[grind ←]
theorem toEntries_plain (args : List Value) (keywords : Keywords) : (toEntries args keywords).Plain r := by
  unfold toEntries putEntries
  repeat' first
    | with_reducible refine Act.Plain.bind ?_ fun _ => ?_
    | split
  all_goals grind

@[grind ←]
theorem toBytes_plain (kind : String) (v : Value) : (toBytes kind v).Plain r := by
  have items : (Act.handle .typeError v.items fun _ => Act.fail (.notBytes kind v.operandName)).Plain r :=
    .handle v.items_plain fun _ => .fail _
  refine .bind .getHeap fun h => ?_
  split <;> grind

@[grind ←]
theorem toSpan_plain (bounds : List Value) : (toSpan bounds).Plain r := by
  unfold toSpan Value.refuseCall
  split <;> grind

@[grind ←]
theorem toSlice_plain (bounds : List Value) : (toSlice bounds).Plain r := by
  unfold toSlice Value.refuseCall
  grind

@[grind ←]
theorem bare_plain (c : Class) (args : List Value) (keywords : Keywords) : (bare c args keywords).Plain r := by
  unfold bare Value.refuseCall
  grind

@[grind ←]
theorem optionalArgument_plain (name : String) (args : List Value) (keywords : Keywords) :
    (optionalArgument name args keywords).Plain r := by
  unfold optionalArgument Value.refuseCall
  grind

@[grind ←]
theorem converted_plain (name : String) (args : List Value) (keywords : Keywords) :
    (converted name args keywords).Plain r := by
  unfold converted Value.refuseCall
  grind

@[grind ←]
theorem itemsOf_plain (v : Option Value) : (itemsOf v).Plain r := by
  unfold itemsOf
  grind

@[grind ←]
theorem day_plain (args : List Value) : (day args).Plain r := by
  unfold day Value.refuseCall
  grind

@[grind ←]
theorem plain_plain (c : Class) (args : List Value) (keywords : Keywords) :
    (plain c args keywords).Plain r := by
  unfold plain Value.refuseCall
  split <;> grind

end Construction

namespace Value

@[grind ←]
theorem refuseCall_plain {α : Type} (text : String) : (refuseCall text : Act α).Plain r := by
  unfold refuseCall
  grind

@[grind ←]
theorem noKeywords_plain (v : Value) (name : String) (keywords : Keywords) :
    (v.noKeywords name keywords).Plain r := by
  unfold noKeywords
  grind

@[grind ←]
theorem taking0_plain {v : Value} {name : String} {args : List Value} {body : Act Value} (hb : body.Plain r) :
    (taking0 v name args body).Plain r := by
  unfold taking0
  grind

@[grind ←]
theorem taking1_plain {v : Value} {name : String} {args : List Value} {body : Value → Act Value}
    (hb : ∀ a, (body a).Plain r) : (taking1 v name args body).Plain r := by
  unfold taking1
  grind

@[grind ←]
theorem takingOperand_plain {args : List Value} {body : Value → Act Value} (hb : ∀ a, (body a).Plain r) :
    (takingOperand args body).Plain r := by
  unfold takingOperand
  grind

@[grind ←]
theorem iterator_plain (v : Value) : (v.iterator).Plain r := by
  unfold iterator
  grind

@[grind ←]
theorem joinTexts_plain (separator : String) (source : Value) : (joinTexts separator source).Plain r := by
  refine .bind (.handle source.items_plain fun _ => .fail _) fun items => ?_
  grind

@[grind ←]
theorem splitText_plain (s : String) (args : List Value) : (splitText s args).Plain r := by
  unfold splitText
  split <;> grind

@[grind ←]
theorem likeBytes_plain (v : Value) (bs : List UInt8) : (likeBytes v bs).Plain r := by
  unfold likeBytes
  grind

@[grind ←]
theorem positionOf_plain (items : List Value) (absent : Cause) (args : List Value) :
    (positionOf items absent args).Plain r := by
  unfold positionOf
  repeat' first
    | with_reducible refine Act.Plain.ite ?_ ?_
    | with_reducible refine Act.Plain.bind ?_ fun _ => ?_
    | split
  all_goals grind

@[grind ←]
theorem countOf_plain (items : List Value) (value : Value) : (countOf items value).Plain r := by
  unfold countOf
  grind

@[grind ←]
theorem popKey_plain (i : Handle) (key : Value) (default? : Option Value) :
    (popKey i key default?).Plain r := by
  refine .bind .getHeap fun h => .bind (.lift _) fun _ => .bind (.lift _) fun found => ?_
  split <;> grind

theorem sharedMethod?_plain (v : Value) (name : String) (args : List Value) :
    ∀ body ∈ sharedMethod? v name args, body.Plain r := by
  unfold sharedMethod?
  split <;> simp only [Option.mem_def, reduceCtorEq, Option.some.injEq, forall_eq', false_implies, implies_true]
  all_goals grind

theorem numberMethod?_plain (v : Value) (name : String) (args : List Value) :
    ∀ body ∈ numberMethod? v name args, body.Plain r := by
  unfold numberMethod?
  split <;> simp only [Option.mem_def, Option.some.injEq, forall_eq']
  all_goals grind

theorem textMethod?_plain (v : Value) (s name : String) (args : List Value) :
    ∀ body ∈ textMethod? v s name args, body.Plain r := by
  unfold textMethod?
  split <;> simp only [Option.mem_def, reduceCtorEq, Option.some.injEq, forall_eq', false_implies, implies_true]
  all_goals grind

theorem bytesMethod?_plain (v : Value) (bs : List UInt8) (name : String) (args : List Value) :
    ∀ body ∈ bytesMethod? v bs name args, body.Plain r := by
  unfold bytesMethod?
  split <;> simp only [Option.mem_def, reduceCtorEq, Option.some.injEq, forall_eq', false_implies, implies_true]
  case h_8 =>
    refine taking1_plain fun source => .bind (.handle source.items_plain fun _ => .fail _) fun items => ?_
    grind
  all_goals grind

theorem bufferMethod?_plain (v : Value) (i : Handle) (bs : List UInt8) (name : String) (args : List Value) :
    ∀ body ∈ bufferMethod? v i bs name args, body.Plain r := by
  unfold bufferMethod?
  split
  case h_6 => exact bytesMethod?_plain v bs name args
  all_goals
    simp only [Option.mem_def, Option.some.injEq, forall_eq']
    grind

theorem tupleMethod?_plain (v : Value) (items : List Value) (name : String) (args : List Value) :
    ∀ body ∈ tupleMethod? v items name args, body.Plain r := by
  unfold tupleMethod?
  split <;> simp only [Option.mem_def, reduceCtorEq, Option.some.injEq, forall_eq', false_implies, implies_true]
  all_goals grind

theorem setMethod?_plain (v : Value) (name : String) (args : List Value) :
    ∀ body ∈ setMethod? v name args, body.Plain r := by
  unfold setMethod?
  split <;> simp only [Option.mem_def, reduceCtorEq, Option.some.injEq, forall_eq', false_implies, implies_true]
  all_goals grind

theorem dictMethod?_plain (v : Value) (i : Handle) (name : String) (args : List Value) :
    ∀ body ∈ dictMethod? v i name args, body.Plain r := by
  unfold dictMethod?
  split <;> simp only [Option.mem_def, reduceCtorEq, Option.some.injEq, forall_eq', false_implies, implies_true]
  all_goals grind

theorem regexMethod?_plain (pattern : Regex) (name : String) (args : List Value) :
    ∀ body ∈ regexMethod? pattern name args, body.Plain r := by
  unfold regexMethod?
  split <;> simp only [Option.mem_def, reduceCtorEq, Option.some.injEq, forall_eq', false_implies, implies_true]
  all_goals grind

end Value

namespace Subscript

@[grind ←]
theorem pick_plain {α : Type} {kind : String} {xs : List α} {subscript : Value} {one : α → Act Value}
    {many : List α → Act Value} (ho : ∀ x, (one x).Plain r) (hm : ∀ ys, (many ys).Plain r) :
    (pick kind xs subscript one many).Plain r := by
  unfold pick
  grind

@[grind ←]
theorem pickBytes_plain {kind : String} {outOfRange : Cause} {bs : List UInt8} {subscript : Value}
    {many : List UInt8 → Act Value} (hm : ∀ part, (many part).Plain r) :
    (pickBytes kind outOfRange bs subscript many).Plain r := by
  unfold pickBytes
  grind

@[grind ←]
theorem pickSpan_plain (span : Span) (subscript : Value) : (pickSpan span subscript).Plain r := by
  unfold pickSpan
  grind

@[grind ←]
theorem pickEntry_plain (entries : List (Value × Value)) (key : Value) : (pickEntry entries key).Plain r := by
  unfold pickEntry
  grind

@[grind ←]
theorem incoming_plain (step v : Value) : (incoming step v).Plain r :=
  .handle v.items_plain fun _ => .fail _

end Subscript

namespace Zoo

@[grind ←]
theorem onInt_plain {v : Value} {f : Int → Act Value} (hf : ∀ n, (f n).Plain r) : (onInt v f).Plain r := by
  unfold onInt
  grind

@[grind ←]
theorem raise_plain (c : Class) (args : List Value) : (raise c args).Plain r := by
  unfold raise
  grind

@[grind ←]
theorem succeed_plain (v : Value) : (succeed v).Plain r := by
  unfold succeed
  grind

@[grind ←]
theorem fail_plain (v : Value) : (fail v).Plain r := by
  unfold fail
  grind

@[grind ←]
theorem threeWay_plain (a b : Value) : (threeWay a b).Plain r := by
  unfold threeWay
  grind

theorem comparator?_plain (name : String) (a b : Value) :
    ∀ body ∈ comparator? name a b, body.Plain r := by
  unfold comparator?
  split <;> simp only [Option.mem_def, reduceCtorEq, Option.some.injEq, forall_eq', false_implies, implies_true]
  all_goals grind

theorem variadic?_plain (name : String) (args : List Value) (keywords : Keywords) :
    ∀ body ∈ variadic? name args keywords, body.Plain r := by
  unfold variadic?
  split <;> simp only [Option.mem_def, reduceCtorEq, Option.some.injEq, forall_eq', false_implies, implies_true]
  all_goals grind

theorem evaluator?_plain (name : String) (args : List Value) (keywords : Keywords) :
    ∀ body ∈ evaluator? name args keywords, body.Plain r := by
  unfold evaluator?
  split <;> simp only [Option.mem_def, reduceCtorEq, Option.some.injEq, forall_eq', false_implies, implies_true]
  all_goals grind

theorem method?_plain (owner : Value) (c : Class) (name : String) (args : List Value) (keywords : Keywords) :
    ∀ body ∈ method? owner c name args keywords, body.Plain r := by
  unfold method?
  split <;> simp only [Option.mem_def, reduceCtorEq, Option.some.injEq, forall_eq', false_implies, implies_true]
  all_goals grind

end Zoo

namespace Outcome

@[grind ←]
theorem ensure_plain (result step : Value) : (ensure result step).Plain r := by
  unfold ensure
  grind

@[grind ←]
theorem payloadError_plain (payload : Value) : (payloadError payload).Plain r := by
  unfold payloadError
  grind

end Outcome

@[grind ←]
theorem Calling.fillReceiver_plain (i : Handle) (args : List Value) (keywords : Keywords) :
    (fillReceiver i args keywords).Plain r := by
  unfold fillReceiver
  grind

end Conform
