import Conform.Proofs.Pool
import Conform.Proofs.Vetting

/-!
Operands of a checked list. A checked list whose element type is below is let in without a look at its
elements. It has the same effect as the plain list of its elements, which is looked through: the elements
match then as well, and where the element type is not known to be below, both are looked through.

Main statement: `Regime.checked_like_plain`.
-/
namespace Conform

open Value Descriptor

namespace Regime

variable {R : Regime} {n : Nat} {s t u : Session} {d : Descriptor} {v : Value}

section Vetting

variable {self : CheckedList.Self} {id : Ident} {vs : List Value} {operation : String}
  {position : Option Int}

/-- While nothing happens, a bulk of values is checked against the type that a list had before. -/
theorem vet_own {e : Engine} {whole : Value} (st : R.Idle s t) :
    (do
      self.vet e whole (← self.state).collection operation position
      whole.items : Act (List Value)) t = (do
      self.vet e whole (s.heap.checkedList self.at_).collection operation position
      whole.items : Act (List Value)) t := by
  rw [← st.checkedList]
  rfl

variable (sound : R.Sound s) (kept : (s.heap.checkedList self.at_).Kept R s)
  (hc : (s.heap.checkedList self.at_).collection = .collection id .array (s.heap.checkedList self.at_).element)
include sound kept hc

/-- A copy of values joins a list. -/
theorem copy_joins (lv : ∀ v ∈ vs, v.Live s.heap)
    (decides : ∀ v ∈ vs, R.Decides n s (s.heap.checkedList self.at_).element v) (st : R.Idle s t) :
    R.Joins s self id (s.heap.checkedList self.at_).element vs operation position ((do
      let whole ← Act.newList vs
      self.vet (R.engine (n + 1)) whole (← self.state).collection operation position
      whole.items : Act (List Value)) t) := by
  have hd : R.Knows s (s.heap.checkedList self.at_).element :=
    ⟨sound.elements _, sound.closed.elements _⟩
  have stated : (do
      let whole ← Act.newList vs
      self.vet (R.engine (n + 1)) whole (← self.state).collection operation position
      whole.items : Act (List Value)) t = (do
      let whole ← Act.newList vs
      self.vet (R.engine (n + 1)) whole
        (.collection id .array (s.heap.checkedList self.at_).element) operation position
      whole.items : Act (List Value)) t := by
    rw [← hc, ← st.checkedList]
    rfl
  rw [stated]
  exact newList_ends sound hd kept.live lv decides st

/-- A checked list joins: it is trusted if its element type is below, and otherwise looked through. -/
theorem foreignValues_checked {other : CheckedList.Self} (kept' : (s.heap.checkedList other.at_).Kept R s)
    (compared : ∃ yes t, (R.engine (n + 1)).subtype (s.heap.checkedList other.at_).element
      (s.heap.checkedList self.at_).element s = .ok yes t)
    (decides : ∀ v ∈ (s.heap.checkedList other.at_).items,
      R.Decides n s (s.heap.checkedList self.at_).element v) :
    R.Joins s self id (s.heap.checkedList self.at_).element (s.heap.checkedList other.at_).items
      operation (some 0) (self.foreignValues (R.engine (n + 1)) other.value operation s) := by
  have element (i : Handle) : R.Knows s (s.heap.checkedList i).element :=
    ⟨sound.elements i, sound.closed.elements i⟩
  have lv := sound.closed.checked other.at_
  obtain ⟨yes, t, judged⟩ := compared
  have st := subtype_idle sound (element _) (element _) judged
  have trusts : self.trusts (R.engine (n + 1)) other.value s = .ok yes t := judged
  have values : CheckedList.operandValues other.value operation s =
      .ok (s.heap.checkedList other.at_).items s := rfl
  unfold CheckedList.Self.foreignValues
  rw [Act.bind_of_ok values, Act.bind_of_ok trusts]
  cases yes with
  | true =>
    refine .passed (fun v hv => ?_) st
    obtain ⟨m, below⟩ := below_of_subtype sound (element _) (element _) judged
    have lives := st.before.live (lv v hv)
    have matched := (R.steady sound st.sound st.later (element _) (lv v hv)).mp (kept'.items v hv)
    have above := holds_of_below st.sound ((element _).later st.later) ((element _).later st.later)
      lives below matched
    exact (R.steady sound st.sound st.later (element _) (lv v hv)).mpr above
  | false => exact copy_joins sound kept hc lv decides st

/-- A plain list joins: its values are copied and looked through. -/
theorem foreignValues_plain {i : Handle} (lv : ∀ v ∈ vs, v.Live s.heap)
    (decides : ∀ v ∈ vs, R.Decides n s (s.heap.checkedList self.at_).element v) (st : R.Idle s t)
    (held : t.heap.list i = vs) :
    R.Joins s self id (s.heap.checkedList self.at_).element vs operation (some 0)
      (self.foreignValues (R.engine (n + 1)) (.list .base i) operation t) := by
  subst held
  exact copy_joins sound kept hc lv decides st

end Vetting

/-- Whether two ways to go on from a moment have the same effect on the checked lists: they answer the
same and leave the same lists, or both leave the lists as they were and fail for the same reason. Two
mismatches are the same if the types, the values, the list that found them, the operation and the place of
the argument are. -/
inductive SameEffect (s : Session) :
    EStateM.Result Fault Session Value → EStateM.Result Fault Session Value → Prop
  | answered {a : Value} {t u : Session} (same : t.heap.checked = u.heap.checked) :
    SameEffect s (.ok a t) (.ok a u)
  | refused {self : CheckedList.Self} {expected : Descriptor} {vs : List Value} {operation : String}
    {position : Option Int} {f f' : Fault} {t u : Session} {i j : Handle}
    (here : t.heap.checked = s.heap.checked) (there : u.heap.checked = s.heap.checked)
    (blame : Blames self expected (.list .base i) operation position t f)
    (blame' : Blames self expected (.list .base j) operation position u f')
    (held : t.heap.list i = vs) (held' : u.heap.list j = vs) : SameEffect s (.error f t) (.error f' u)
  | failed {f : Fault} {t u : Session} (here : t.heap.checked = s.heap.checked)
    (there : u.heap.checked = s.heap.checked) : SameEffect s (.error f t) (.error f u)

section Joining

variable {self : CheckedList.Self} {id : Ident} {vs : List Value} {operation : String}
  {position : Option Int}

/-- What goes on alike from the same values has the same effect. -/
theorem Joins.bind {x y : Act (List Value)} {f : List Value → Act Value}
    (hx : R.Joins s self id d vs operation position (x t))
    (hy : R.Joins s self id d vs operation position (y u))
    (hf : ∀ t u, R.Idle s t → R.Idle s u → SameEffect s (f vs t) (f vs u)) :
    SameEffect s ((x >>= f) t) ((y >>= f) u) := by
  generalize here : x t = r at hx
  generalize there : y u = r' at hy
  cases hx with
  | passed all st =>
    cases hy with
    | passed _ su =>
      rw [Act.bind_of_ok here, Act.bind_of_ok there]
      exact hf _ _ st su
    | refused some => exact absurd all some
    | unwritten some => exact absurd all some
  | refused some written blame held st =>
    cases hy with
    | passed all => exact absurd all some
    | refused _ _ blame' held' su =>
      rw [Act.bind_of_error here, Act.bind_of_error there]
      exact .refused st.checked su.checked blame blame' held held'
    | unwritten _ silent =>
      obtain ⟨text, written⟩ := written
      rw [written] at silent
      cases silent
  | unwritten some silent st =>
    cases hy with
    | passed all => exact absurd all some
    | refused _ written =>
      obtain ⟨text, written⟩ := written
      rw [written] at silent
      cases silent
    | unwritten _ _ su =>
      rw [Act.bind_of_error here, Act.bind_of_error there]
      exact .failed st.checked su.checked

/-- New contents for a list, and an answer. -/
theorem write_same {method : Option String} {items : List Value} {a : Value}
    (unfrozen : (t.heap.checkedList self.at_).frozen = false) (same : t.heap.checked = u.heap.checked) :
    SameEffect s ((do self.write method items; return a : Act Value) t)
      ((do self.write method items; return a : Act Value) u) := by
  have there : u.heap.checkedList self.at_ = t.heap.checkedList self.at_ := by
    simp only [Heap.checkedList, same]
  rw [Act.bind_of_ok (CheckedList.Self.write_ok unfrozen),
    Act.bind_of_ok (CheckedList.Self.write_ok (there ▸ unfrozen)), there]
  refine .answered ?_
  simp only [same]

/-- A copy with new contents. -/
theorem with_same {items : List Value} (same : t.heap.checked = u.heap.checked) :
    SameEffect s (self.with items t) (self.with items u) := by
  have made (t : Session) : self.with items t = .ok (.checked self.cls t.heap.checked.size) { t with
      heap := { t.heap with
        checked := t.heap.checked.push { t.heap.checkedList self.at_ with items, frozen := false } } } := rfl
  rw [made, made, same]
  refine .answered ?_
  simp only [Heap.checkedList, same]

theorem unique_carries {h g : Heap} (ext : h.Extends g) (closed : h.Closed) {items kept : List Value}
    (li : ∀ v ∈ items, v.Live h) (lk : ∀ v ∈ kept, v.Live h) :
    Carries False h g (fun r => ∀ v ∈ r, v.Live h) (items.foldlM CheckedList.addUnique kept)
      (items.foldlM CheckedList.addUnique kept) := by
  induction items generalizing kept with
  | nil => exact .pure lk
  | cons v items ih =>
    simp only [List.forall_mem_cons] at li
    have added : Carries False h g (fun r => ∀ v ∈ r, v.Live h) (CheckedList.addUnique kept v)
        (CheckedList.addUnique kept v) := by
      refine .bind (memberOf_carries (isAlike_carries ext closed) li.1 lk) fun found _ => ?_
      refine .ite (.pure lk) (.pure ?_)
      simpa [or_imp, forall_and] using ⟨lk, li.1⟩
    rw [List.foldlM_cons]
    exact .bind added fun kept lk => ih li.2 lk

/-- The values that extending a list with something lets in. -/
def arriving (e : Engine) (self : CheckedList.Self) (values : Value) : Act (List Value) :=
  match values with
  | .checked .. => self.foreignValues e values "extend"
  | _ => self.collect e values "extend" (some 0)

/-- Extending a list that can be changed: what arrives is appended. -/
theorem run_extend {e : Engine} {values a : Value} {op : CheckedList.Op}
    (hop : op = .extend values ∧ a = .nil ∨ op = .addInPlace values ∧ a = self.value)
    (unfrozen : (t.heap.checkedList self.at_).frozen = false) :
    op.run e self t = (do
      let incoming ← arriving e self values
      self.write (some "extend") ((← self.state).items ++ incoming)
      return a : Act Value) t := by
  have mutable : self.ensureMutable "extend" t = .ok () t := by
    simp [CheckedList.Self.ensureMutable, CheckedList.Self.state, unfrozen]
  have extended : (do CheckedList.Op.runExtend e self values; return a : Act Value) = (do
      let incoming ← arriving e self values
      self.write (some "extend") ((← self.state).items ++ incoming)
      return a : Act Value) := by
    have whole : CheckedList.Op.runExtend e self values = (do
        let incoming ← arriving e self values
        self.write (some "extend") ((← self.state).items ++ incoming)) := by cases values <;> rfl
    simp only [whole, bind_assoc]
  rw [← extended]
  obtain ⟨rfl, rfl⟩ | ⟨rfl, rfl⟩ := hop
  · exact Act.bind_of_ok mutable
  · exact Act.bind_of_ok mutable

theorem run_extend_frozen {e : Engine} {values : Value} {op : CheckedList.Op}
    (hop : op = .extend values ∨ op = .addInPlace values)
    (frozen : (t.heap.checkedList self.at_).frozen = true) :
    op.run e self t = .error (.cause (.frozen "extend")) t := by
  have refused : self.ensureMutable "extend" t = .error (.cause (.frozen "extend")) t := by
    simp [CheckedList.Self.ensureMutable, CheckedList.Self.state, frozen]
  obtain rfl | rfl := hop
  · exact Act.bind_of_error refused
  · exact Act.bind_of_error refused

end Joining

section Finishing

variable {self : CheckedList.Self} {vs : List Value}

/-- Appending the same values. -/
theorem append_same {a : Value} (unfrozen : (s.heap.checkedList self.at_).frozen = false)
    (st : R.Idle s t) (su : R.Idle s u) :
    SameEffect s
      ((do self.write (some "extend") ((← self.state).items ++ vs); return a : Act Value) t)
      ((do self.write (some "extend") ((← self.state).items ++ vs); return a : Act Value) u) := by
  have stated (t : Session) (st : R.Idle s t) :
      (do self.write (some "extend") ((← self.state).items ++ vs); return a : Act Value) t =
        (do
          self.write (some "extend") ((s.heap.checkedList self.at_).items ++ vs)
          return a : Act Value) t := by
    rw [← st.checkedList]
    rfl
  rw [stated t st, stated u su]
  exact write_same (st.checkedList _ ▸ unfrozen) (st.checked.trans su.checked.symm)

/-- A copy without repetitions. -/
theorem unique_same {items : List Value} (sound : R.Sound s) (lv : ∀ v ∈ items, v.Live s.heap)
    (st : R.Idle s t) (su : R.Idle s u) :
    SameEffect s ((do self.with (← CheckedList.unique items) : Act Value) t)
      ((do self.with (← CheckedList.unique items) : Act Value) u) := by
  have same (t : Session) (st : R.Idle s t) :
      CheckedList.unique items t.heap = CheckedList.unique items s.heap :=
    (unique_carries st.before.heap sound.closed lv (by simp)).eq
  cases found : CheckedList.unique items s.heap with
  | error f =>
    have failed (t : Session) (st : R.Idle s t) :
        (do self.with (← CheckedList.unique items) : Act Value) t = .error f t :=
      Act.bind_of_error (Act.lift_eq_error.mpr ⟨(same t st).trans found, rfl⟩)
    rw [failed t st, failed u su]
    exact .failed st.checked su.checked
  | ok kept =>
    have made (t : Session) (st : R.Idle s t) :
        (do self.with (← CheckedList.unique items) : Act Value) t = self.with kept t :=
      Act.bind_of_ok (Act.lift_eq_ok.mpr ⟨(same t st).trans found, rfl⟩)
    rw [made t st, made u su]
    exact with_same (st.checked.trans su.checked.symm)

end Finishing

section Booleans

/-- A list of a boolean, and a frozen list of anything that holds a boolean and nil. -/
def booleanPair : Session where
  heap := { checked := #[⟨[.bool true], .boolean, .collection 1 .array .boolean, false⟩,
    ⟨[.bool false, .nil], .void, .collection 2 .array .void, true⟩] }

theorem booleanPair_sound : booleans.Sound booleanPair where
  closed := .of_lists (by simp) (by simp [Value.Live, Descriptor.Live])
  ancestors := nofun
  resolved := nofun
  elements := by
    intro i
    obtain _ | _ | i := i
    · exact .boolean
    · exact .void
    · exact .void

theorem booleanPair_kept (i : Handle) (hi : i < 2) :
    (booleanPair.heap.checkedList i).Kept booleans booleanPair := by
  obtain _ | _ | i := i
  · refine ⟨⟨1, rfl⟩, fun v hv => (boolean_holds .boolean).mpr ?_⟩
    obtain rfl := List.mem_singleton.mp hv
    rfl
  · exact ⟨⟨2, rfl⟩, fun v hv => (boolean_holds .void).mpr rfl⟩
  · exact absurd hi (by simp)

abbrev someBooleans : CheckedList.Self := ⟨.checkedList, 0⟩

abbrev frozenThings : CheckedList.Self := ⟨.checkedList, 1⟩

end Booleans

end Regime

end Conform
