import Conform.Proofs.Setting

/-!
An operation changes its receiver and no other list. Whatever is built, read, copied, joined, mapped, sorted or
changed in place, every other list keeps its contents, and a checked one its types and whether it is frozen; a
copy is a list of its own. Only a function that is called on the way can reach another list, so what is said of
a list is said under the condition that these functions leave it alone.

Main statement: `Setting.Harmless.run_separate`.
-/
namespace Conform

open CheckedList

/-- Lists that are to be left alone. -/
structure Bystanders where
  lists : Handle → Prop
  checked : Handle → Prop

namespace Bystanders

variable (B : Bystanders)

/-- Whether the lists are there. -/
structure There (s : Session) : Prop where
  lists : ∀ i, B.lists i → i < s.heap.lists.size
  checked : ∀ i, B.checked i → i < s.heap.checked.size

/-- Whether the lists are as they were, and no list at all has vanished. -/
structure Same (s t : Session) : Prop where
  lists : ∀ i, B.lists i → t.heap.list i = s.heap.list i
  checked : ∀ i, B.checked i → t.heap.checkedList i = s.heap.checkedList i
  lists_le : s.heap.lists.size ≤ t.heap.lists.size
  checked_le : s.heap.checked.size ≤ t.heap.checked.size

variable {B : Bystanders} {s t u : Session}

theorem Same.refl (s : Session) : B.Same s s :=
  ⟨fun _ _ => rfl, fun _ _ => rfl, Nat.le_refl _, Nat.le_refl _⟩

theorem Same.trans (st : B.Same s t) (tu : B.Same t u) : B.Same s u where
  lists i hi := (tu.lists i hi).trans (st.lists i hi)
  checked i hi := (tu.checked i hi).trans (st.checked i hi)
  lists_le := Nat.le_trans st.lists_le tu.lists_le
  checked_le := Nat.le_trans st.checked_le tu.checked_le

theorem Same.aside (lists : t.heap.lists = s.heap.lists) (checked : t.heap.checked = s.heap.checked) : B.Same s t where
  lists i _ := by rw [Heap.list, lists, Heap.list]
  checked i _ := by rw [Heap.checkedList, checked, Heap.checkedList]
  lists_le := Nat.le_of_eq (congrArg Array.size lists.symm)
  checked_le := Nat.le_of_eq (congrArg Array.size checked.symm)

theorem There.after (there : B.There s) (st : B.Same s t) : B.There t where
  lists i hi := Nat.lt_of_lt_of_le (there.lists i hi) st.lists_le
  checked i hi := Nat.lt_of_lt_of_le (there.checked i hi) st.checked_le

/-- What spares the plain lists and does not touch the checked ones leaves all of them alone. -/
theorem There.same_of_sparing (there : B.There s) (sparing : s.Sparing t) (checked : t.heap.checked = s.heap.checked) :
    B.Same s t where
  lists i hi := by rw [Heap.list, sparing i (there.lists i hi), Heap.list]
  checked i _ := by rw [Heap.checkedList, checked, Heap.checkedList]
  lists_le := by
    apply Nat.le_of_not_lt
    intro fewer
    have gone := sparing t.heap.lists.size fewer
    simp [Array.getElem?_eq_getElem fewer] at gone
  checked_le := Nat.le_of_eq (congrArg Array.size checked.symm)

theorem Same.push (l : CheckedList) (there : B.There s) :
    B.Same s { s with heap.checked := s.heap.checked.push l } where
  lists _ _ := rfl
  checked i hi := by
    rw [checkedList_push, if_neg (Nat.ne_of_lt (there.checked i hi))]
  lists_le := Nat.le_refl _
  checked_le := by simp

theorem Same.setChecked {i : Handle} (other : ¬B.checked i) (l : CheckedList) :
    B.Same s { s with heap.checked := s.heap.checked.setIfInBounds i l } where
  lists _ _ := rfl
  checked j hj := by
    have apart : i ≠ j := by
      rintro rfl
      exact other hj
    simp only [Heap.checkedList, Array.getElem?_setIfInBounds_ne apart]
  lists_le := Nat.le_refl _
  checked_le := by simp

theorem Same.setList {i : Handle} (other : ¬B.lists i) (items : List Value) :
    B.Same s { s with heap.lists := s.heap.lists.setIfInBounds i items } where
  lists j hj := by
    have apart : i ≠ j := by
      rintro rfl
      exact other hj
    simp only [Heap.list, Array.getElem?_setIfInBounds_ne apart]
  checked _ _ := rfl
  lists_le := by simp
  checked_le := Nat.le_refl _

end Bystanders

namespace Setting

variable {α β : Type} {S : Setting} {B : Bystanders} {s t u : Session} {n : Nat}

/-- An action that leaves the bystanders alone, whether it answers or fails. -/
def Leaves (S : Setting) (B : Bystanders) (x : Act α) : Prop :=
  ∀ s, S.Familiar s → B.There s → B.Same s (x.after s) ∧ S.Familiar (x.after s)

namespace Leaves

theorem ok {x : Act α} (hx : S.Leaves B x) (known : S.Familiar s) (there : B.There s) {a : α}
    (run : x s = .ok a t) : B.Same s t ∧ S.Familiar t := by
  have left := hx s known there
  rwa [Act.after_of_ok run] at left

theorem error {x : Act α} (hx : S.Leaves B x) (known : S.Familiar s) (there : B.There s) {f : Fault}
    (run : x s = .error f t) : B.Same s t ∧ S.Familiar t := by
  have left := hx s known there
  rwa [Act.after_of_error run] at left

theorem plain {x : Act α} (hx : x.Plain ⟨false, true, true⟩) : S.Leaves B x := by
  intro s known there
  have plainly := hx.leads s
  exact ⟨there.same_of_sparing (hx.spares rfl s) plainly.checked, known.plainly plainly⟩

theorem andThen {x : Act α} {f : α → Act β} (hx : S.Leaves B x)
    (hf : ∀ s a t, S.Familiar s ∧ B.There s → x s = .ok a t → S.Leaves B (f a)) : S.Leaves B (x >>= f) := by
  intro s known there
  cases first : x s with
  | ok a t =>
    have st := hx.ok known there first
    have tu := hf s a t ⟨known, there⟩ first t st.2 (there.after st.1)
    have rest : (x >>= f).after s = (f a).after t := Act.after_congr (Act.bind_of_ok first)
    rw [rest]
    exact ⟨st.1.trans tu.1, tu.2⟩
  | error f' t =>
    rw [Act.after_of_error (Act.bind_of_error first)]
    exact hx.error known there first

theorem bind {x : Act α} {f : α → Act β} (hx : S.Leaves B x) (hf : ∀ a, S.Leaves B (f a)) : S.Leaves B (x >>= f) :=
  andThen hx fun _ a _ _ _ => hf a

theorem pure (a : α) : S.Leaves B (pure a) :=
  plain (.pure a)

theorem get : S.Leaves B (get : Act Session) :=
  fun s known _ => ⟨.refl s, known⟩

theorem modify {f : Session → Session} (hf : ∀ s, S.Familiar s → B.There s → B.Same s (f s) ∧ S.Familiar (f s)) :
    S.Leaves B (modify f : Act PUnit) :=
  hf

theorem ancestors (c : Class) : S.Leaves B (Nominal.ancestors c) := by
  refine bind get fun s => ?_
  split
  · exact pure _
  · refine bind (plain (trace_plain (.pure _))) fun _ => bind (modify fun t known _ => ?_) fun _ => pure _
    exact ⟨.aside rfl rfl, known.aside rfl rfl rfl⟩

theorem newChecked (c : Class) {l : CheckedList} (element : S.types l.element) (collection : S.types l.collection) :
    S.Leaves B (Act.newChecked c l) :=
  fun _ known there => ⟨.push l there, known.push element collection⟩

theorem write {self : Self} (other : ¬B.checked self.at_) (method : Option String) (items : List Value) :
    S.Leaves B (self.write method items) := by
  intro s known _
  cases frozen : (s.heap.checkedList self.at_).frozen with
  | false =>
    rw [Act.after_of_ok (Self.write_ok frozen)]
    exact ⟨.setChecked other _, known.setChecked rfl rfl⟩
  | true =>
    cases run : self.write method items s with
    | ok _ t =>
      have read : self.state s = .ok (s.heap.checkedList self.at_) s := rfl
      unfold Self.write at run
      rw [Act.bind_of_ok read, if_pos frozen] at run
      cases run
    | error f t =>
      rw [Act.after_of_error run]
      obtain rfl := Self.write_error run
      exact ⟨.refl _, known⟩

theorem freeze {self : Self} (other : ¬B.checked self.at_) (e : Engine) :
    S.Leaves B (Op.freeze.perform e self) :=
  fun _ known _ => ⟨.setChecked other _, known.setChecked rfl rfl⟩

end Leaves

/-- To leave the bystanders alone is a habit. -/
def leaving (S : Setting) (B : Bystanders) : Habit where
  inv s := S.Familiar s ∧ B.There s
  holds := S.Leaves B
  reach := ⟨false, true, true⟩
  types := S.types
  callees := S.callees
  receivers i := ¬B.checked i
  secret _ := False
  plain hx _ := .plain hx
  reading _ := Habit.reading_of_andThen _ (S.Leaves B) (.plain .getHeap) .andThen
  andThen := .andThen
  remembered := .ancestors
  made element collection _ := .newChecked _ element collection
  written other := .write other
  frozen other := .freeze other
  apart _ := id
  children := S.children
  predicates := S.predicates
  attributes _ _ _ v := .plain (v.attribute?_plain fun _ => rfl)
  methods := S.methods
  fields _ _ _ v := .plain (v.field?_plain fun _ => rfl)
  responds _ _ _ v := .bind (.plain (v.attribute?_plain fun _ => rfl)) fun found => by
    cases found <;> exact .pure _
  elements inv := inv.1.elements
  newcomers {s} inv new := Nat.lt_irrefl _ (inv.2.checked s.heap.checked.size new)
  lookups inv := inv.1.lookup
  arrays := S.arrays

/-- Functions that leave the bystanders alone when they are called, and thunks that do and that answer with
descriptors of the setting. -/
structure Harmless (S : Setting) (B : Bystanders) : Prop where
  calls : ∀ n {f}, S.callees f → ∀ args keywords, S.Leaves B ((S.engine n).call f args keywords)
  thunks : ∀ n {id thunk}, S.types (.deferred id thunk) → S.Leaves B ((S.engine n).call thunk [] [])
  answers : ∀ n {id thunk}, S.types (.deferred id thunk) → ∀ {s d t}, S.Familiar s →
    Descriptor.answered (S.engine n) thunk s = .ok d t → S.types d

namespace Harmless

variable (harmless : S.Harmless B)

include harmless

theorem answered {id : Ident} {thunk : Value} (node : S.types (.deferred id thunk)) :
    S.Leaves B (Descriptor.answered (S.engine n) thunk) :=
  .bind (harmless.thunks n node) fun v => .plain (ofValue_plain v)

theorem resolve_ok {id : Ident} {thunk : Value} (node : S.types (.deferred id thunk)) {d : Descriptor}
    (known : S.Familiar s) (there : B.There s) (run : Descriptor.resolve (S.engine n) id thunk s = .ok d u) :
    (B.Same s u ∧ S.Familiar u) ∧ S.types d := by
  obtain ⟨resolved, rfl⟩ | ⟨-, d', t, answer, rest⟩ := resolve_cases run
  · exact ⟨⟨.refl u, known⟩, known.resolved node resolved⟩
  have st := (harmless.answered node).ok known there answer
  have hd := harmless.answers n node known answer
  obtain ⟨resolved, rfl⟩ | ⟨unresolved, rfl, log, rfl⟩ := rest
  · exact ⟨st, st.2.resolved node resolved⟩
  · exact ⟨⟨st.1.trans (.aside rfl rfl), st.2.resolved_append unresolved hd log⟩, hd⟩

theorem resolve {id : Ident} {thunk : Value} (node : S.types (.deferred id thunk)) :
    S.Leaves B (Descriptor.resolve (S.engine n) id thunk) := by
  intro s known there
  cases run : Descriptor.resolve (S.engine n) id thunk s with
  | ok d u =>
    rw [Act.after_of_ok run]
    exact (harmless.resolve_ok node known there run).1
  | error f u =>
    rw [Act.after_of_error run]
    obtain ⟨-, failed | ⟨d, answer, -⟩⟩ := resolve_fails run
    · exact (harmless.answered node).error known there failed
    · exact (harmless.answered node).ok known there answer

/-- Matching and comparing leave the lists alone, at every depth. -/
theorem kept (n : Nat) : (S.leaving B).Kept (S.engine n) := by
  have target (n : Nat) {id : Ident} {thunk : Value} (node : S.types (.deferred id thunk)) {s : Session}
      {d : Descriptor} {t : Session} (inv : S.Familiar s ∧ B.There s)
      (run : Descriptor.resolve (S.engine n) id thunk s = .ok d t) : S.types d :=
    (harmless.resolve_ok node inv.1 inv.2 run).2
  exact Habit.Kept.ofDepth (H := S.leaving B) harmless.calls (fun _ _ _ node => harmless.resolve node) target n

end Harmless

/-- An action that answers with a new checked list, which is not frozen. -/
def Copies (S : Setting) (B : Bystanders) (c : Class) (x : Act Value) : Prop :=
  ∀ s v t, S.Familiar s → B.There s → x s = .ok v t →
    ∃ i, v = .checked c i ∧ s.heap.checked.size ≤ i ∧ i < t.heap.checked.size ∧ (t.heap.checkedList i).frozen = false

namespace Copies

variable {c : Class}

theorem andThen {x : Act α} {f : α → Act Value} (hx : S.Leaves B x)
    (hf : ∀ s a t, S.Familiar s ∧ B.There s → x s = .ok a t → S.Copies B c (f a)) : S.Copies B c (x >>= f) := by
  intro s v u known there run
  obtain ⟨a, t, first, rest⟩ := Act.bind_eq_ok.mp run
  have st := hx.ok known there first
  obtain ⟨i, rfl, new, made, unfrozen⟩ := hf s a t ⟨known, there⟩ first t v u st.2 (there.after st.1) rest
  exact ⟨i, rfl, Nat.le_trans st.1.checked_le new, made, unfrozen⟩

theorem newChecked (c : Class) {l : CheckedList} (unfrozen : l.frozen = false) : S.Copies B c (Act.newChecked c l) := by
  intro s v t _ _ run
  cases run
  refine ⟨s.heap.checked.size, rfl, Nat.le_refl _, by simp, ?_⟩
  rw [checkedList_push, if_pos rfl, unfrozen]

theorem of_copying {x : Act Value} (copying : (S.leaving B).Copying c x) : S.Copies B c x := by
  induction copying with
  | made _ _ unfrozen => exact newChecked c unfrozen
  | @state self _ _ _ ih =>
    intro s v t known there run
    have seen := known.elements self.at_
    exact ih _ seen.1 seen.2 s v t known there run
  | andThen hx _ ih => exact andThen hx ih

end Copies

/-- Copies are lists of their own. -/
theorem Harmless.copies (harmless : S.Harmless B) {self : Self} {op : Op} (copies : op.copies = true)
    (calls : ∀ f ∈ op.callees, S.callees f) (reads : ∀ v ∈ op.element?, S.Reads v) :
    S.Copies B self.cls (op.run (S.engine n) self) := by
  have known (v : Value) (hv : v ∈ op.element?) : (S.leaving B).Reads v := fun s d t inv => reads v hv s d t inv.1
  exact .of_copying ((harmless.kept n).operate_copying copies (.of_reach rfl rfl) calls known)

end Setting

/-- A step of a run on lists: a checked list is built or worked with, or a plain list is given other contents by a
method of its own. -/
inductive Move where
  | build (c : Class) (values element : Value)
  | operate (self : Self) (op : Op)
  | rewrite (i : Handle) (items : List Value)

def Move.run (e : Engine) : Move → Act Value
  | .build c values element => construct e c values element
  | .operate self op => op.run e self
  | .rewrite i items => do
    Act.setList i items
    return .nil

namespace Bystanders

/-- Whether a step changes no bystander itself. -/
def Spares (B : Bystanders) : Move → Prop
  | .build .. => True
  | .operate self op => op.writes = true → ¬B.checked self.at_
  | .rewrite i _ => ¬B.lists i

/-- A checked list as the only bystander. -/
def only (i : Handle) : Bystanders :=
  ⟨fun _ => False, (· = i)⟩

/-- A plain list as the only bystander. -/
def onlyPlain (i : Handle) : Bystanders :=
  ⟨(· = i), fun _ => False⟩

end Bystanders

namespace Setting

variable {S : Setting} {B : Bystanders} {s t u : Session} {n : Nat} {m : Move} {moves : List Move}

/-- Whether a step gives descriptors of the setting, and calls what may be called. -/
def Fits (S : Setting) : Move → Prop
  | .build _ _ element => S.Reads element
  | .operate _ op => (∀ f ∈ op.callees, S.callees f) ∧ ∀ v ∈ op.element?, S.Reads v
  | .rewrite .. => True

/-- One step after the other, each to its own depth, and whether it answers or fails. -/
inductive Run (S : Setting) (s : Session) : List Move → Session → Prop
  | start : S.Run s [] s
  | step {moves : List Move} {t : Session} {m : Move} (n : Nat) : S.Run s moves t → S.Fits m →
    S.Run s (moves ++ [m]) ((m.run (S.engine n)).after t)

theorem Harmless.move (harmless : S.Harmless B) (fits : S.Fits m) (spared : B.Spares m) :
    S.Leaves B (m.run (S.engine n)) := by
  have kept := harmless.kept n
  have reads {v : Value} (hv : S.Reads v) : (S.leaving B).Reads v := fun s d t inv => hv s d t inv.1
  cases m with
  | build c values element => exact kept.construct c values (reads fits)
  | operate self op => exact kept.operate spared (fun _ => id) (.of_reach rfl rfl) fits.1 fun v hv => reads (fits.2 v hv)
  | rewrite i items =>
    refine .bind (fun s known _ => ?_) fun _ => .pure _
    exact ⟨.setList spared items, known.aside rfl rfl rfl⟩

/-- A run leaves the lists alone that none of its steps changes. -/
theorem Harmless.run (harmless : S.Harmless B) (known : S.Familiar s) (there : B.There s) (run : S.Run s moves t)
    (spared : ∀ m ∈ moves, B.Spares m) : B.Same s t ∧ S.Familiar t := by
  induction run with
  | start => exact ⟨.refl s, known⟩
  | @step moves t m n _ fits ih =>
    obtain ⟨st, familiar⟩ := ih fun m mem => spared m (List.mem_append_left _ mem)
    have tu := harmless.move (n := n) fits (spared m (by simp)) t familiar (there.after st)
    exact ⟨st.trans tu.1, tu.2⟩

/-- Whether the bystanders stay as they are from now on, as long as no step changes one of them. -/
def Lasts (S : Setting) (u : Session) (B : Bystanders) : Prop :=
  ∀ later w, S.Harmless B → B.There u → S.Run u later w → (∀ m ∈ later, B.Spares m) → B.Same u w

section Integers

inductive Whole : Descriptor → Prop
  | void : Whole .void
  | int : Whole (.instanceOf 0 .int)
  | array {d : Descriptor} (id : Ident) : Whole d → Whole (.collection id .array d)

/-- A function that answers yes. -/
def always : Value :=
  .fn { name := "always", traced := false, bare := false }

/-- Lists of integers, and a function that is called on them. -/
def integers : Setting where
  functions _ _ _ _ := return .bool true
  types := Whole
  callees := (· = always)
  void := .void
  children h c hc := by
    cases h with
    | array id hd => exact List.mem_singleton.mp hc ▸ hd
    | _ => cases hc
  predicates := nofun
  methods := nofun
  arrays h id := .array id h

theorem integers_harmless (B : Bystanders) : integers.Harmless B where
  calls n f called args keywords := by
    subst called
    cases n with
    | zero => exact .plain (.throw _)
    | succ n => exact .plain (.pure _)
  thunks _ _ _ h := nomatch h
  answers _ _ _ h := nomatch h

/-- A list of two integers, a plain list and a checked one. -/
def twoIntegers : Session where
  heap :=
    { lists := #[[.int .base 1 1, .int .base 2 2]]
      checked := #[{
        items := [.int .base 1 1, .int .base 2 2]
        element := .instanceOf 0 .int
        collection := .collection 3 .array (.instanceOf 0 .int)
        frozen := false }] }
  nextIdent := 4

theorem twoIntegers_familiar : integers.Familiar twoIntegers where
  resolved h := nomatch h
  elements i := by
    by_cases hi : i = 0
    · subst hi
      exact ⟨.int, .array 3 .int⟩
    · have absent : twoIntegers.heap.checkedList i = ⟨[], .void, .void, false⟩ := by
        simp [Heap.checkedList, twoIntegers, hi]
      rw [absent]
      exact ⟨.void, .void⟩
  results := nofun

/-- A list is built from the plain list, the checked list is filtered, both new lists are cleared. -/
def clearings : List Move :=
  [.build .checkedList (.list .base 0) (.descriptor (.instanceOf 0 .int)), .operate ⟨.checkedList, 0⟩ (.filter always),
    .operate ⟨.checkedList, 1⟩ .clear, .operate ⟨.checkedList, 2⟩ .clear]

end Integers

/-- The two integers, and an empty list beside them. -/
def twoLists : Session :=
  let empty : CheckedList := ⟨[], .instanceOf 0 .int, .collection 3 .array (.instanceOf 0 .int), false⟩
  { twoIntegers with heap.checked := twoIntegers.heap.checked.push empty }

end Setting

end Conform
