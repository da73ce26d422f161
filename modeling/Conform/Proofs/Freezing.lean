import Conform.Proofs.Scripts
import Conform.Proofs.Separation

/-!
Freezing lasts, and nothing but changes is refused. A frozen list stays as it is through every script; what
would change it is refused at once. Whatever reads the list, copies it or takes it as an operand goes the same
way as if the list were not frozen, but for the names that a list and a tuple have in messages. Only a function
that is called on the way, or a descriptor that asks for the mark, can tell the difference.

Main statement: `CheckedList.freeze_lasts`.
-/
namespace Conform

open CheckedList

section Marks

variable {s : Session} {c i : Handle} {b : Bool}

theorem Heap.lt_of_frozen {h : Heap} (frozen : (h.checkedList i).frozen = true) : i < h.checked.size := by
  by_contra absent
  simp [checkedList, absent] at frozen

/-- To mark a frozen list as frozen changes nothing. -/
theorem Heap.checkedList_flagged_of_frozen {h : Heap} (frozen : (h.checkedList i).frozen = true) :
    (h.flagged c true).checkedList i = h.checkedList i := by
  by_cases own : i = c
  · subst own
    rw [checkedList_flagged_self (lt_of_frozen frozen), ← frozen]
  · exact checkedList_flagged_of_ne own

/-- To take the mark back restores the session. -/
theorem Session.flagged_flagged (there : c < s.heap.checked.size) (mark : (s.heap.checkedList c).frozen = b) :
    (s.flagged c !b).flagged c b = s := by
  have own : s.heap.checked.setIfInBounds c (s.heap.checkedList c) = s.heap.checked := by
    simp [Array.setIfInBounds, Heap.checkedList, there]
  have back : (s.heap.flagged c !b).flagged c b = s.heap := by
    rw [Heap.flagged, Heap.checkedList_flagged_self there]
    simp only [Heap.flagged, Array.setIfInBounds_setIfInBounds, ← mark, own]
  change { s with heap := (s.heap.flagged c !b).flagged c b } = s
  rw [back]

theorem Session.flagged_push (there : c < s.heap.checked.size) (l : CheckedList) :
    { s.flagged c b with heap.checked := (s.flagged c b).heap.checked.push l } =
      ({ s with heap.checked := s.heap.checked.push l } : Session).flagged c b := by
  have own : ({ s.heap with checked := s.heap.checked.push l } : Heap).checkedList c = s.heap.checkedList c := by
    rw [checkedList_push, if_neg (Nat.ne_of_lt there)]
  have rows (m : CheckedList) :
      (s.heap.checked.setIfInBounds c m).push l = (s.heap.checked.push l).setIfInBounds c m := by
    apply Array.ext_getElem?
    intro j
    simp only [Array.getElem?_push, Array.getElem?_setIfInBounds, Array.size_setIfInBounds, Array.size_push]
    by_cases last : j = s.heap.checked.size
    · simp [last, Nat.ne_of_lt there]
    · simp [last, there, Nat.lt_succ_of_lt there]
  simp only [Session.flagged, Heap.flagged, own, rows]

theorem Session.flagged_set (other : i ≠ c) (l : CheckedList) :
    { s.flagged c b with heap.checked := (s.flagged c b).heap.checked.setIfInBounds i l } =
      ({ s with heap.checked := s.heap.checked.setIfInBounds i l } : Session).flagged c b := by
  have own : ({ s.heap with checked := s.heap.checked.setIfInBounds i l } : Heap).checkedList c =
      s.heap.checkedList c := by
    simp only [Heap.checkedList, Array.getElem?_setIfInBounds_ne other]
  simp only [Session.flagged, Heap.flagged, own, Array.setIfInBounds_comm _ _ other]

end Marks

namespace Setting

variable {α β : Type} {S : Setting} {c : Handle} {s t : Session} {n : Nat}

/-- No bystanders. -/
def nobody : Bystanders :=
  ⟨fun _ => False, fun _ => False⟩

theorem nobody_there (s : Session) : nobody.There s :=
  ⟨nofun, nofun⟩

/-- An action that goes the same way whether or not a list is frozen. -/
structure Ignores (S : Setting) (c : Handle) (x : Act α) : Prop where
  stays : ∀ s, S.Familiar s → c < s.heap.checked.size →
    S.Familiar (x.after s) ∧ c < (x.after s).heap.checked.size
  same : ∀ s, S.Familiar s → c < s.heap.checked.size → ∀ b,
    x (s.flagged c b) = Act.elsewhere (·.flagged c b) (x s)

namespace Ignores

theorem of_leaves {x : Act α} (leaves : S.Leaves nobody x) (same : ∀ s : Session, c < s.heap.checked.size → ∀ b,
    x (s.flagged c b) = Act.elsewhere (·.flagged c b) (x s)) : S.Ignores c x where
  stays s known there := by
    have left := leaves s known (nobody_there s)
    exact ⟨left.2, Nat.lt_of_lt_of_le there left.1.checked_le⟩
  same s _ there := same s there

theorem plain {x : Act α} (hx : x.Plain ⟨false, true, true⟩) (overlooks : x.Overlooks) : S.Ignores c x :=
  of_leaves (.plain hx) fun s _ => overlooks s c

theorem pure (a : α) : S.Ignores c (pure a) :=
  plain (.pure a) (.pure a)

theorem andThen {x : Act α} {f : α → Act β} (hx : S.Ignores c x)
    (hf : ∀ s a t, S.Familiar s ∧ c < s.heap.checked.size → x s = .ok a t → S.Ignores c (f a)) :
    S.Ignores c (x >>= f) where
  stays s known there := by
    have stays := hx.stays s known there
    cases run : x s with
    | ok a t =>
      rw [Act.after_of_ok run] at stays
      have rest : (x >>= f).after s = (f a).after t := Act.after_congr (Act.bind_of_ok run)
      rw [rest]
      exact (hf s a t ⟨known, there⟩ run).stays t stays.1 stays.2
    | error e t =>
      rw [Act.after_of_error run] at stays
      rw [Act.after_of_error (Act.bind_of_error run)]
      exact stays
  same s known there b := by
    refine Act.bind_elsewhere (g := (·.flagged c b)) (hx.same s known there b) fun a t run => ?_
    have stays := hx.stays s known there
    rw [Act.after_of_ok run] at stays
    exact (hf s a t ⟨known, there⟩ run).same t stays.1 stays.2 b

theorem bind {x : Act α} {f : α → Act β} (hx : S.Ignores c x) (hf : ∀ a, S.Ignores c (f a)) :
    S.Ignores c (x >>= f) :=
  andThen hx fun _ a _ _ _ => hf a

theorem reading {f : Heap → Act α} (same : ∀ h b, f (h.flagged c b) = f h)
    (hf : ∀ s, S.Familiar s ∧ c < s.heap.checked.size → S.Ignores c (f s.heap)) :
    S.Ignores c (Act.getHeap >>= f) where
  stays s known there := (hf s ⟨known, there⟩).stays s known there
  same s known there b := by
    change f (s.heap.flagged c b) (s.flagged c b) = Act.elsewhere _ (f s.heap s)
    rw [same]
    exact (hf s ⟨known, there⟩).same s known there b

theorem ancestors (k : Class) : S.Ignores c (Nominal.ancestors k) :=
  of_leaves (.ancestors k) fun s _ => ancestors_overlooks k s c

theorem newChecked (k : Class) {l : CheckedList} (element : S.types l.element) (collection : S.types l.collection) :
    S.Ignores c (Act.newChecked k l) := by
  refine of_leaves (.newChecked k element collection) fun s there b => ?_
  have made (s : Session) : Act.newChecked k l s =
      .ok (.checked k s.heap.checked.size) { s with heap.checked := s.heap.checked.push l } := rfl
  have size : (s.flagged c b).heap.checked.size = s.heap.checked.size := by
    simp only [Session.flagged, Heap.flagged, Array.size_setIfInBounds]
  rw [made, made, size, Session.flagged_push there]
  rfl

theorem write {self : Self} (other : self.at_ ≠ c) (method : Option String) (items : List Value) :
    S.Ignores c (self.write method items) := by
  refine of_leaves (.write id method items) fun s _ b => ?_
  have read (s : Session) : self.state s = .ok (s.heap.checkedList self.at_) s := rfl
  have same : (s.flagged c b).heap.checkedList self.at_ = s.heap.checkedList self.at_ :=
    Heap.checkedList_flagged_of_ne other
  unfold Self.write
  rw [Act.bind_of_ok (read _), Act.bind_of_ok (read s), same]
  split
  · rfl
  · exact congrArg (EStateM.Result.ok ()) (Session.flagged_set other _)

theorem freeze {self : Self} (other : self.at_ ≠ c) (e : Engine) : S.Ignores c (Op.freeze.perform e self) := by
  refine of_leaves (.freeze id e) fun s _ b => ?_
  have run (s : Session) : Op.freeze.perform e self s = (do
      Act.setChecked self.at_ { s.heap.checkedList self.at_ with frozen := true }
      return self.value : Act Value) s := rfl
  have same : (s.flagged c b).heap.checkedList self.at_ = s.heap.checkedList self.at_ :=
    Heap.checkedList_flagged_of_ne other
  rw [run, run, same]
  exact congrArg (EStateM.Result.ok self.value) (Session.flagged_set other _)

end Ignores

/-- Whether no constraint and no shape of the setting asks whether a list is frozen. -/
structure Impartial (S : Setting) : Prop where
  attributes : ∀ {id bases predicates}, S.types (.constraint id bases predicates) →
    ∀ f ∈ predicates, f.1 ≠ "is_frozen"
  fields : ∀ {id fields}, S.types (.shape id fields) → ∀ f ∈ fields, f.1 ≠ "is_frozen"

/-- To go the same way, whether or not a list is frozen, is a habit. -/
def ignoring (S : Setting) (c : Handle) (impartial : S.Impartial) : Habit where
  inv s := S.Familiar s ∧ c < s.heap.checked.size
  holds := S.Ignores c
  reach := ⟨false, true, true⟩
  types := S.types
  callees := S.callees
  receivers i := i ≠ c
  secret i := i = c
  plain hx overlooks := .plain hx (overlooks c rfl)
  reading same := .reading (same c rfl)
  andThen := .andThen
  remembered := .ancestors
  made element collection _ := .newChecked _ element collection
  written other := .write other
  frozen other := .freeze other
  apart := id
  children := S.children
  predicates := S.predicates
  attributes type f hf v := .plain (v.attribute?_plain fun _ => rfl)
    (Value.attribute?_overlooks (Value.asksMark_of_ne (impartial.attributes type f hf)))
  methods := S.methods
  fields type f hf v := .plain (v.field?_plain fun _ => rfl)
    (Value.field?_overlooks (Value.asksMark_of_ne (impartial.fields type f hf)))
  responds _ name _ v := by
    refine .plain (.bind (v.attribute?_plain fun _ => rfl) fun found => ?_) (Value.respondsTo_overlooks v name)
    cases found <;> exact .pure _
  elements inv := inv.1.elements
  newcomers inv := Nat.ne_of_gt inv.2
  lookups inv := inv.1.lookup
  arrays := S.arrays

/-- Functions and thunks that do not look whether a list is frozen, and descriptors that do not ask for it. -/
structure Heedless (S : Setting) (c : Handle) : Prop extends S.Harmless nobody, S.Impartial where
  called : ∀ n {f}, S.callees f → ∀ args keywords, S.Ignores c ((S.engine n).call f args keywords)
  forced : ∀ n {id thunk}, S.types (.deferred id thunk) → S.Ignores c ((S.engine n).call thunk [] [])

namespace Heedless

variable (heedless : S.Heedless c)

include heedless

theorem resolve {id : Ident} {thunk : Value} (node : S.types (.deferred id thunk)) :
    S.Ignores c (Descriptor.resolve (S.engine n) id thunk) where
  stays s known there := by
    have left := heedless.toHarmless.resolve (n := n) node s known (nobody_there s)
    exact ⟨left.2, Nat.lt_of_lt_of_le there left.1.checked_le⟩
  same s known there b := by
    have settled (d : Descriptor) : (Descriptor.settle id d).Overlooks := by
      refine .get (fun _ _ _ => rfl) fun s => ?_
      split
      · exact .pure _
      · refine .bind (trace_overlooks (by grind)) fun _ => .bind (.modify fun _ _ _ => rfl) fun _ => .pure _
    have answered : S.Ignores c (Descriptor.answered (S.engine n) thunk) :=
      .bind (heedless.forced n node) fun v => .plain (ofValue_plain v) (ofValue_overlooks v)
    cases found : s.resolution? id with
    | some d =>
      have marked : (s.flagged c b).resolution? id = some d := found
      rw [resolve_of_resolved found, resolve_of_resolved marked]
      rfl
    | none =>
      have marked : (s.flagged c b).resolution? id = none := found
      rw [resolve_of_open found, resolve_of_open marked]
      have first := answered.same s known there b
      cases run : Descriptor.answered (S.engine n) thunk s with
      | ok d t =>
        rw [run] at first
        rw [Act.bind_of_ok first, Act.bind_of_ok run]
        exact settled d t c b
      | error f t =>
        rw [run] at first
        rw [Act.bind_of_error first, Act.bind_of_error run]
        rfl

/-- Matching and comparing do not look whether a list is frozen, at every depth. -/
theorem kept (n : Nat) : (S.ignoring c heedless.toImpartial).Kept (S.engine n) := by
  have target (n : Nat) {id : Ident} {thunk : Value} (node : S.types (.deferred id thunk)) {s : Session}
      {d : Descriptor} {t : Session} (inv : S.Familiar s ∧ c < s.heap.checked.size)
      (run : Descriptor.resolve (S.engine n) id thunk s = .ok d t) : S.types d :=
    (heedless.toHarmless.kept n).target node ⟨inv.1, nobody_there s⟩ run
  exact Habit.Kept.ofDepth (H := S.ignoring c heedless.toImpartial) heedless.called
    (fun _ _ _ node => heedless.resolve node) target n

end Heedless

end Setting

/-- Whether two runs end with the same answer, or with the same fault, or with causes of one class, in the same
session. -/
inductive Akin {α : Type} : (x y : EStateM.Result Fault Session α) → Prop
  | answer (a : α) (s : Session) : Akin (.ok a s) (.ok a s)
  | fault (f : Fault) (s : Session) : Akin (.error f s) (.error f s)
  | causes {p q : Cause} (same : p.kind = q.kind) (s : Session) : Akin (.error (.cause p) s) (.error (.cause q) s)

namespace Akin

variable {α β : Type} {s : Session}

theorem refl (x : EStateM.Result Fault Session α) : Akin x x := by
  cases x with
  | ok a s => exact .answer a s
  | error f s => exact .fault f s

theorem bind {x y : Act α} {f g : α → Act β} (hx : Akin (x s) (y s)) (hf : ∀ a t, Akin (f a t) (g a t)) :
    Akin ((x >>= f) s) ((y >>= g) s) := by
  generalize first : x s = r at hx
  generalize second : y s = r' at hx
  cases hx with
  | answer a t =>
    rw [Act.bind_of_ok first, Act.bind_of_ok second]
    exact hf a t
  | fault e t =>
    rw [Act.bind_of_error first, Act.bind_of_error second]
    exact .fault e t
  | causes same t =>
    rw [Act.bind_of_error first, Act.bind_of_error second]
    exact .causes same t

theorem ite {p : Prop} [Decidable p] {x y x' y' : Act α} (hx : Akin (x s) (y s)) (hy : Akin (x' s) (y' s)) :
    Akin ((if p then x else x') s) ((if p then y else y') s) := by
  split
  · exact hx
  · exact hy

theorem handle {k : Class} {x y : Act α} {f : Fault → Act α} (hx : Akin (x s) (y s))
    (hf : ∀ e e' t, f e t = f e' t) : Akin (Act.handle k x f s) (Act.handle k y f s) := by
  unfold Act.handle
  generalize x s = r at hx
  generalize y s = r' at hx
  cases hx with
  | answer a t => exact .answer a t
  | fault e t => exact .refl _
  | @causes p q same t =>
    have caught : (Fault.cause p).isA k = (Fault.cause q).isA k := by simp only [Fault.isA, Fault.kind, same]
    dsimp only
    rw [caught]
    split
    · rw [hf (.cause p) (.cause q) t]
      exact .refl _
    · exact .causes same t

/-- A sequence goes by many names, but it is read in one way. -/
theorem itemAt (xs : List α) (subscript : Value) (s : Session) :
    Akin ((Value.itemAt "tuple" xs subscript : Act α) s) ((Value.itemAt "list" xs subscript : Act α) s) := by
  unfold Value.itemAt Value.asSubscript
  cases subscript.int? with
  | none =>
    rw [if_neg (by decide), if_neg (by decide)]
    exact .causes (p := .badIndex "tuple" _) (q := .badIndex "list" _) rfl s
  | some n =>
    by_cases fits : Value.fitsSize n = true
    · simp only [if_pos fits, pure_bind]
      cases Sequence.get? xs n with
      | none => exact .causes (p := .outOfRange "tuple") (q := .outOfRange "list") rfl s
      | some x => exact .answer x s
    · simp only [if_neg fits]
      exact .refl _

theorem searchFrom (items : List Value) (value stop : Value) (fuel : Nat) (i : Value) (s : Session) :
    Akin (CheckedList.searchFrom "tuple" items value stop fuel i s)
      (CheckedList.searchFrom "list" items value stop fuel i s) := by
  induction fuel generalizing i s with
  | zero => exact .refl _
  | succ fuel ih =>
    have read (s : Session) :
        Akin (Act.handle .indexError (do return some (← Value.itemAt "tuple" items i)) (fun _ => return none) s)
          (Act.handle .indexError (do return some (← Value.itemAt "list" items i)) (fun _ => return none) s) :=
      handle (bind (itemAt items i s) fun _ _ => .refl _) fun _ _ _ => rfl
    unfold CheckedList.searchFrom
    dsimp only
    split
    all_goals
      refine bind (.refl _) fun before t => ?_
      cases before with
      | false => exact .refl _
      | true =>
        refine bind (read t) fun found t => ?_
        cases found with
        | none => exact .refl _
        | some v =>
          refine bind (.refl _) fun alike t => ?_
          cases alike with
          | true => exact .refl _
          | false => exact bind (.refl _) fun next t => ih next t

theorem search (items : List Value) (value start stop : Value) (s : Session) :
    Akin (CheckedList.search "tuple" items value start stop s)
      (CheckedList.search "list" items value start stop s) := by
  unfold CheckedList.search
  repeat' first
    | exact searchFrom _ _ _ _ _ _
    | refine ite ?_ ?_
    | refine bind (.refl _) fun _ _ => ?_

theorem elsewhere {x y : EStateM.Result Fault Session α} (g : Session → Session) (akin : Akin x y) :
    Akin (Act.elsewhere g x) (Act.elsewhere g y) := by
  cases akin with
  | answer a s => exact .answer a (g s)
  | fault f s => exact .fault f (g s)
  | causes same s => exact .causes same (g s)

end Akin

/-- Whether two runs come to the same, on a frozen list and on one that is not frozen: the iterators of a tuple and
of a list differ in their names only. -/
inductive Resembles : (x y : EStateM.Result Fault Session Value) → Prop
  | akin {x y : EStateM.Result Fault Session Value} : Akin x y → Resembles x y
  | iterators (id : Ident) (s : Session) :
    Resembles (.ok (.other id (.internal "tuple_iterator")) s) (.ok (.other id (.internal "list_iterator")) s)

namespace CheckedList

variable {e : Engine} {self : Self} {op : Op} {s t : Session}

/-- Whether an operation is one of those that change a list. -/
def Op.mutates : Op → Bool
  | .setItem .. | .deleteItem _ | .insert .. | .append _ | .prepend _ | .extend _ | .push _ | .addInPlace _ | .pop _
  | .shift | .remove _ | .clear | .reverse | .filterInPlace _ | .rejectInPlace _ | .sortInPlace .. => true
  | _ => false

theorem Op.writes_eq (op : Op) (thaws : op ≠ .freeze) : op.writes = op.mutates := by
  cases op with
  | freeze => exact absurd rfl thaws
  | _ => rfl

/-- A frozen list refuses to be changed before anything else happens. -/
theorem Op.run_of_frozen (frozen : (s.heap.checkedList self.at_).frozen = true) (mutates : op.mutates = true) :
    ∃ f, op.run e self s = .error f s ∧ f.kind = .immutableError := by
  have writes : op.writes = true := by
    rw [op.writes_eq (by rintro rfl; cases mutates), mutates]
  cases change : op.change? with
  | none =>
    cases op with
    | freeze => cases mutates
    | _ => simp [Op.writes, change] at writes
  | some what =>
    have refused : self.ensureMutable what s = .error (.cause (.frozen what)) s := by
      have read : self.state s = .ok (s.heap.checkedList self.at_) s := rfl
      unfold Self.ensureMutable
      rw [Act.bind_of_ok read, if_pos frozen]
      rfl
    refine ⟨.cause (.frozen what), ?_, rfl⟩
    unfold Op.run
    rw [change]
    exact Act.bind_of_error refused

theorem storage_of_frozen {l : CheckedList} (frozen : l.frozen = true) : l.storage = "tuple" :=
  if_pos frozen

theorem storage_of_unfrozen {l : CheckedList} (unfrozen : l.frozen = false) : l.storage = "list" :=
  if_neg (by simp [unfrozen])

/-- What names the storage of a list gives the same on a frozen list and on one that is not frozen, but for the
name. -/
theorem Op.run_of_namesStorage (there : self.at_ < s.heap.checked.size)
    (frozen : (s.heap.checkedList self.at_).frozen = true) (names : op.namesStorage = true) :
    Resembles (Act.elsewhere (·.flagged self.at_ false) (op.run e self s))
      (op.run e self (s.flagged self.at_ false)) := by
  have thawed : (s.flagged self.at_ false).heap.checkedList self.at_ =
      { s.heap.checkedList self.at_ with frozen := false } := Heap.checkedList_flagged_self there
  cases op with
  | iterate =>
    have run (s : Session) : Op.iterate.run e self s =
        .ok (.other s.nextIdent (.internal ((s.heap.checkedList self.at_).storage ++ "_iterator")))
          { s with nextIdent := s.nextIdent + 1 } := rfl
    rw [run, run, thawed, storage_of_frozen frozen, storage_of_unfrozen rfl]
    exact .iterators _ _
  | indexOf value start stop =>
    have run (s : Session) : (Op.indexOf value start stop).run e self s =
        search (s.heap.checkedList self.at_).storage (s.heap.checkedList self.at_).items value start stop s := rfl
    rw [run, run, thawed, storage_of_frozen frozen, storage_of_unfrozen rfl, search_overlooks]
    exact .akin (.elsewhere _ (.search _ _ _ _ s))
  | getItem index =>
    have run (s : Session) : (Op.getItem index).run e self s =
        (Value.itemAt (s.heap.checkedList self.at_).storage (s.heap.checkedList self.at_).items index :
          Act Value) s := by
      cases index with
      | slice => cases names
      | _ => rfl
    rw [run, run, thawed, storage_of_frozen frozen, storage_of_unfrozen rfl,
      Act.Overlooks.lift (Value.itemAt_overlooks _ _ _)]
    exact .akin (.elsewhere _ (.itemAt _ _ s))
  | _ => cases names

end CheckedList

/-- Reads, copies and operators go the same way on a frozen list as on one that is not frozen, whether it is the
receiver or an operand, and so does whatever is done to another list. -/
theorem Setting.Heedless.operate {S : Setting} {c : Handle} (heedless : S.Heedless c) {s : Session}
    (known : S.Familiar s) (there : c < s.heap.checked.size) (frozen : (s.heap.checkedList c).frozen = true) (n : Nat)
    {self : Self} {op : Op} (fits : S.Fits (.operate self op))
    (spared : self.at_ = c → op.mutates = false ∧ op ≠ .freeze) :
    Resembles (Act.elsewhere (·.flagged c false) (op.run (S.engine n) self s))
      (op.run (S.engine n) self (s.flagged c false)) := by
  by_cases names : op.namesStorage = true ∧ self.at_ = c
  · obtain ⟨names, rfl⟩ := names
    exact Op.run_of_namesStorage there frozen names
  · have own (writes : op.writes = true) : self.at_ ≠ c := by
      intro own
      obtain ⟨keeps, thaws⟩ := spared own
      rw [op.writes_eq thaws, keeps] at writes
      cases writes
    have told (asks : op.namesStorage = true) : ¬self.at_ = c := fun own => names ⟨asks, own⟩
    have reads (v : Value) (hv : v ∈ op.element?) : (S.ignoring c heedless.toImpartial).Reads v :=
      fun s d t inv => fits.2 v hv s d t inv.1
    have ignores : S.Ignores c (op.run (S.engine n) self) := (heedless.kept n).operate own told (.of_reach rfl rfl) fits.1 reads
    rw [ignores.same s known there]
    exact .akin (.refl _)

/-- Frozen lists stay as they are. -/
def sealing : Course where
  inv _ := True
  rel s t := ∀ i, (s.heap.checkedList i).frozen = true → t.heap.checkedList i = s.heap.checkedList i
  fail s _ t := ∀ i, (s.heap.checkedList i).frozen = true → t.heap.checkedList i = s.heap.checkedList i
  types _ := True
  callees _ := True
  refl _ _ _ := rfl
  trans {s t u} st tu i frozen := by
    have kept := st i frozen
    rw [tu i (kept ▸ frozen), kept]
  failing st := st
  failed {s t f u} st tu i frozen := by
    have kept := st i frozen
    rw [tu i (kept ▸ frozen), kept]
  plain {s t} _ st := by
    refine ⟨fun i _ => ?_, trivial⟩
    rw [Heap.checkedList, st.checked, Heap.checkedList]
  made {s l} _ _ _ _ := by
    refine ⟨fun i frozen => ?_, trivial⟩
    rw [checkedList_push, if_neg (Nat.ne_of_lt (Heap.lt_of_frozen frozen))]
  written {s i items} _ unfrozen := by
    refine ⟨fun j frozen => ?_, trivial⟩
    have other : i ≠ j := by
      rintro rfl
      rw [unfrozen] at frozen
      cases frozen
    simp only [Heap.checkedList, Array.getElem?_setIfInBounds_ne other]
  frozen _ := ⟨fun _ frozen => Heap.checkedList_flagged_of_frozen frozen, trivial⟩
  remembered _ _ := ⟨fun _ _ => rfl, trivial⟩
  declared _ _ := ⟨fun _ _ => rfl, trivial⟩
  children _ _ _ := trivial
  predicates _ := trivial
  methods _ _ _ := fun _ _ => trivial
  elements _ _ := ⟨trivial, trivial⟩
  results _ _ _ := trivial
  arrays _ _ := trivial

theorem sealing_open : sealing.Open where
  types _ := trivial
  callees _ := trivial
  resolved _ _ := ⟨fun _ _ => rfl, trivial⟩
  level _ := ⟨fun _ _ => rfl, trivial⟩
  calls _ := ⟨fun _ _ => rfl, trivial⟩
  recovered st := st

/-- Whatever a script does, a frozen list stays as it is. -/
theorem Script.runSteps_sealed (n : Nat) (steps : List Step) {s : Session} {i : Handle}
    (frozen : (s.heap.checkedList i).frozen = true) :
    ((runSteps (Engine.ofDepth Zoo.library n) steps).after s).heap.checkedList i = s.heap.checkedList i :=
  (Course.runSteps_after sealing_open n steps trivial).1 i frozen

/-- Whether nothing that is read from a value tells whether a list is frozen, unless it is asked for. -/
structure Value.Unmarked (v : Value) : Prop where
  truth : v.truth.Overlooks
  hash : v.hash.Overlooks
  text : v.shown.Overlooks
  equal : ∀ w, (v.equal w).Overlooks
  order : ∀ w c, (Value.ordered c v w).Overlooks
  items : v.items.Overlooks
  attributes : ∀ name ≠ "is_frozen", (v.attribute? name).Overlooks

theorem Value.unmarked (v : Value) : v.Unmarked where
  truth := v.truth_overlooks
  hash := v.hash_overlooks
  text := v.shown_overlooks
  equal := v.equal_overlooks
  order w c := ordered_overlooks c v w
  items := v.items_overlooks
  attributes _ other := attribute?_overlooks (asksMark_of_ne other)

/-- Whatever an operation calls, a copy is not frozen, and a frozen list is none of the copies. -/
theorem CheckedList.Op.run_copies (n : Nat) {self : Self} {op : Op} (copies : op.copies = true) {s t : Session}
    {v : Value} (run : op.run (Engine.ofDepth Zoo.library n) self s = .ok v t) :
    ∃ i, v = .checked self.cls i ∧ (t.heap.checkedList i).frozen = false ∧
      ¬(s.heap.checkedList i).frozen = true := by
  have kept := sealing_open.habit.kept sealing_open.habit.suits n
  have made {x : Act Value} (copying : sealing.habit.Copying self.cls x) {s : Session} (run : x s = .ok v t) :
      ∃ i, v = .checked self.cls i ∧ (t.heap.checkedList i).frozen = false := by
    induction copying generalizing s with
    | made _ _ unfrozen =>
      cases run
      refine ⟨s.heap.checked.size, rfl, ?_⟩
      rw [checkedList_push, if_pos rfl, unfrozen]
    | state _ _ ih => exact ih _ trivial trivial run
    | andThen _ _ ih =>
      obtain ⟨a, u, first, rest⟩ := Act.bind_eq_ok.mp run
      exact ih s a u trivial first rest
  have calls : ∀ f ∈ op.callees, sealing.habit.callees f := fun _ _ => trivial
  have reads : ∀ w ∈ op.element?, sealing.habit.Reads w := fun _ _ _ _ _ _ _ => trivial
  obtain ⟨i, rfl, unfrozen⟩ := made (kept.operate_copying copies (.of_reach rfl rfl) calls reads) run
  refine ⟨i, rfl, unfrozen, fun frozen => ?_⟩
  have keeps : sealing.Keeps (op.run (Engine.ofDepth Zoo.library n) self) :=
    kept.operate (fun _ => trivial) (fun _ => id) (.of_reach rfl rfl) calls reads
  rw [(keeps.ok trivial run).1 i frozen, frozen] at unfrozen
  cases unfrozen

namespace Setting

theorem integers_heedless (c : Handle) : integers.Heedless c where
  toHarmless := integers_harmless nobody
  attributes h := nomatch h
  fields h := nomatch h
  called n f called args keywords := by
    subst called
    cases n with
    | zero => exact .plain (.throw _) (.throw _)
    | succ n => exact .pure _
  forced _ _ _ h := nomatch h

/-- The list of two integers by a name. -/
def namedIntegers : Session :=
  { twoIntegers with names := [("c", .checked .checkedList 0)] }

/-- The list is asked to drop its items. -/
def clearing : List Script.Step :=
  [{ action := .call (.ref "c") "clear" [] [] }]

/-- A list of one item. -/
def loneZero : Session :=
  let int : Descriptor := .instanceOf 0 .int
  { heap := { checked := #[⟨[.int .base 0 0], int, .collection 3 .array int, false⟩] } }

end Setting

end Conform
