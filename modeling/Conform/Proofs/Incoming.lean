import Conform.Proofs.Refusal

/-!
What a checked list takes up. An operation that puts values into a list first asks about all of them, and
only then writes. So if a value does not match, or if it cannot be told whether it does, then the list is as
it was.

Main statement: `CheckedList.Op.admitted_verdict`.
-/
namespace Conform

open Value Descriptor

namespace CheckedList

namespace Op

/-- The values that an operation is about to put into a list, as its argument yields them. -/
def taken : Op → Act (List Value)
  | .append v | .prepend v | .insert _ v => return [v]
  | .setItem (.slice ..) v | .extend v | .addInPlace v => v.items
  | .setItem _ v => return [v]
  | .push vs => return vs
  | _ => return []

/-- How values come to stand among the items of a list. -/
def placed : Op → List Value → List Value → Look (List Value)
  | .prepend _, items, values => return values ++ items
  | .insert index v, items, _ => insertedAt items index v
  | .setItem (.slice _ start stop step) _, items, values => assignedSlice items start stop step values
  | .setItem index v, items, _ => assignedAt items index v
  | _, items, values => return items ++ values

/-- Asks about the items of a plain list. -/
def askList (functions : Library) (n : Nat) (d : Descriptor) (i : Handle) : Act Bool := do
  ((← Act.getHeap).list i).allM ((Engine.ofDepth functions n).accepts d)

/-- Asks about values once a copy of them has been made. -/
def askCopy (functions : Library) (n : Nat) (d : Descriptor) (values : List Value) : Act Bool := do
  let i := (← Act.getHeap).lists.size
  let _ ← Act.newList values
  askList functions n d i

/-- Asks about a bulk of values. Texts and mappings do not count as bulks. -/
def askBulk (functions : Library) (n : Nat) (d : Descriptor) : Value → Act Bool
  | .list _ i => askList functions n d i
  | v => if v.isText || v.isMapping then return false else do askCopy functions n d (← v.items)

/-- Whether the values that an operation is about to put into a list match a type. A checked list need not
be asked about its items if its element type is below. -/
def asked (functions : Library) (n : Nat) (d : Descriptor) : Op → Act Bool
  | .append v | .prepend v | .insert _ v => (Engine.ofDepth functions (n + 1)).accepts d v
  | .setItem (.slice ..) v => askBulk functions n d v
  | .setItem _ v => (Engine.ofDepth functions (n + 1)).accepts d v
  | .extend (.checked _ i) | .addInPlace (.checked _ i) => do
    let other := (← Act.getHeap).checkedList i
    if ← (Engine.ofDepth functions (n + 1)).subtype other.element d then return true
    askCopy functions n d other.items
  | .extend v | .addInPlace v => askBulk functions n d v
  | .push vs => askCopy functions n d vs
  | _ => return true

/-- Whether the values that an operation is about to put into a list match a type, if each of them is asked
about. -/
def matching (functions : Library) (n : Nat) (d : Descriptor) : Op → Act Bool
  | .extend (.checked _ i) | .addInPlace (.checked _ i) => do
    let other := (← Act.getHeap).checkedList i
    let _ ← (Engine.ofDepth functions (n + 1)).subtype other.element d
    askCopy functions n d other.items
  | op => op.asked functions n d

/-- Whether a checked list whose element type is found to be below holds no value that does not match. -/
def Sincere (functions : Library) (n : Nat) (d : Descriptor) (s : Session) : Op → Prop
  | .extend (.checked _ i) | .addInPlace (.checked _ i) => ∀ t u,
    (Engine.ofDepth functions (n + 1)).subtype (s.heap.checkedList i).element d s = .ok true t →
    askCopy functions n d (s.heap.checkedList i).items t ≠ .ok false u
  | _ => True

/-- Whether a question leaves a checked list as it is. -/
def Calm (c : Self) (x : Act Bool) (s : Session) : Prop :=
  (x.after s).heap.checkedList c.at_ = s.heap.checkedList c.at_

/-- Whether a plain list can be asked about so that it stays as it is, and so does a checked list. -/
structure CalmList (functions : Library) (n : Nat) (c : Self) (d : Descriptor) (i : Handle) (s : Session) :
    Prop where
  calm : Calm c (askList functions n d i) s
  walked : ((askList functions n d i).after s).heap.list i = s.heap.list i

/-- Whether a copy of values can be asked about in this way. -/
def CalmCopy (functions : Library) (n : Nat) (c : Self) (d : Descriptor) (values : List Value) (s : Session) :
    Prop :=
  CalmList functions n c d s.heap.lists.size { s with heap := { s.heap with lists := s.heap.lists.push values } }

/-- Whether a bulk of values can be asked about in this way. -/
def CalmBulk (functions : Library) (n : Nat) (c : Self) (d : Descriptor) (v : Value) (s : Session) : Prop :=
  match v with
  | .list _ i => CalmList functions n c d i s
  | v => ∀ values t, v.items s = .ok values t → CalmCopy functions n c d values t

/-- Whether what an operation asks leaves a checked list alone, and the list that is walked through, too. -/
def Discreet (functions : Library) (n : Nat) (c : Self) (d : Descriptor) (s : Session) : Op → Prop
  | .append v | .prepend v | .insert _ v => Calm c ((Engine.ofDepth functions (n + 1)).accepts d v) s
  | .setItem (.slice ..) v => CalmBulk functions n c d v s
  | .setItem _ v => Calm c ((Engine.ofDepth functions (n + 1)).accepts d v) s
  | .extend (.checked _ i) | .addInPlace (.checked _ i) =>
    let other := s.heap.checkedList i
    let below := (Engine.ofDepth functions (n + 1)).subtype other.element d
    Calm c below s ∧ ∀ t, below s = .ok false t → CalmCopy functions n c d other.items t
  | .extend v | .addInPlace v => CalmBulk functions n c d v s
  | .push vs => Calm c (askCopy functions n d vs) s
  | _ => True

/-- What an operation checks before it writes, and the values that have passed. -/
def admitted (e : Engine) (self : Self) : Op → Act (List Value)
  | .append v => do self.vetElement e v "append" 0; return [v]
  | .prepend v => do self.vetElement e v "prepend" 0; return [v]
  | .insert _ v => do self.vetElement e v "insert" 1; return [v]
  | .setItem (.slice ..) v => self.collect e v "__setitem__" (some 1)
  | .setItem _ v => do self.vetElement e v "__setitem__" 1; return [v]
  | .extend v | .addInPlace v =>
    match v with
    | .checked .. => self.foreignValues e v "extend"
    | _ => self.collect e v "extend" (some 0)
  | .push vs => do
    let whole ← Act.newList vs
    self.vet e whole (← self.state).collection "push" none
    return vs
  | _ => return []

/-- Whether an operation puts values into a list. -/
def inserts : Op → Bool
  | .append _ | .prepend _ | .insert .. | .setItem .. | .extend _ | .addInPlace _ | .push _ => true
  | _ => false

/-- What an operation that puts values into a list answers. -/
def answer (self : Self) : Op → Value
  | .push _ | .addInPlace _ => self.value
  | _ => .nil

/-- A list that is not frozen lets itself be changed. -/
theorem run_unfrozen {e : Engine} {self : Self} {op : Op} {s : Session} {what : String}
    (changes : op.change? = some what) (unfrozen : (s.heap.checkedList self.at_).frozen = false) :
    op.run e self s = op.perform e self s := by
  have mutable : self.ensureMutable what s = .ok () s := by
    simp [Self.ensureMutable, Self.state, unfrozen]
  rw [run, changes]
  exact Act.bind_of_ok mutable

/-- The method of the storage that an operation puts values in by, if it does not assign them. -/
def storing : Op → Option String
  | .append _ => some "append"
  | .insert .. | .prepend _ => some "insert"
  | .extend _ | .addInPlace _ | .push _ => some "extend"
  | _ => none

/-- An operation that puts values into a list checks them, then places them, then writes. -/
theorem run_inserts {e : Engine} {self : Self} {op : Op} {s : Session} (inserts : op.inserts = true)
    (unfrozen : (s.heap.checkedList self.at_).frozen = false) :
    op.run e self s = (do
      let values ← op.admitted e self
      self.write op.storing (← op.placed (← self.state).items values)
      return op.answer self : Act Value) s := by
  cases op with
  | append v =>
    rw [run_unfrozen rfl unfrozen]
    simp only [admitted, bind_assoc, pure_bind]
    rfl
  | prepend v =>
    rw [run_unfrozen rfl unfrozen]
    simp only [admitted, bind_assoc, pure_bind]
    rfl
  | insert index v =>
    rw [run_unfrozen rfl unfrozen]
    simp only [admitted, bind_assoc, pure_bind]
    rfl
  | push vs =>
    rw [run_unfrozen rfl unfrozen]
    simp only [admitted, bind_assoc, pure_bind]
    rfl
  | setItem index v =>
    have assigned : (Op.setItem index v).perform e self s =
        (do runSetItem e self index v; return .nil : Act Value) s := rfl
    rw [run_unfrozen rfl unfrozen, assigned]
    cases index <;> simp only [runSetItem, admitted, placed, storing, answer, bind_assoc, pure_bind]
  | extend v =>
    rw [run_unfrozen rfl unfrozen]
    have extended : runExtend e self v = (do
        let incoming ← (Op.extend v).admitted e self
        self.write (some "extend") ((← self.state).items ++ incoming)) := by cases v <;> rfl
    have whole : (Op.extend v).perform e self s = (do runExtend e self v; return .nil : Act Value) s := rfl
    rw [whole, extended, bind_assoc]
    simp only [bind_assoc]
    rfl
  | addInPlace v =>
    rw [run_unfrozen rfl unfrozen]
    have extended : runExtend e self v = (do
        let incoming ← (Op.addInPlace v).admitted e self
        self.write (some "extend") ((← self.state).items ++ incoming)) := by cases v <;> rfl
    have whole : (Op.addInPlace v).perform e self s =
        (do runExtend e self v; return self.value : Act Value) s := rfl
    rw [whole, extended, bind_assoc]
    simp only [bind_assoc]
    rfl
  | _ => cases inserts

end Op

/-- What comes of a check for each answer to what it asks: values that have a property pass, or they are
refused, or what kept them from being asked about comes out. -/
inductive Verdict (self : Self) (l : CheckedList) (P : List Value → Prop) :
    EStateM.Result Fault Session Bool → EStateM.Result Fault Session (List Value) → Prop
  | passed {t : Session} {values : List Value} (yields : P values) :
    Verdict self l P (.ok true t) (.ok values t)
  | refused {t u : Session} {f : Fault} {d : Descriptor} {v : Value} {operation : String}
    {position : Option Int} (expected : d = l.element ∨ d = l.collection)
    (refuses : self.Refuses d v operation position t f u) : Verdict self l P (.ok false t) (.error f u)
  | failed {t : Session} {f : Fault} : Verdict self l P (.error f t) (.error f t)

section Verdicts

variable {functions : Library} {n : Nat} {self : Self} {l : CheckedList} {id : Ident}
  {P : List Value → Prop} {operation : String} {position : Option Int} {s : Session} {v : Value}
  {values : List Value}

/-- A check of a value, and what passes then. -/
theorem vet_verdict {e : Engine} {d : Descriptor} {x : Act (List Value)}
    (expected : d = l.element ∨ d = l.collection)
    (yields : ∀ t, e.accepts d v s = .ok true t → ∃ values, x t = .ok values t ∧ P values) :
    Verdict self l P (e.accepts d v s) ((do self.vet e v d operation position; x : Act (List Value)) s) := by
  cases asked : e.accepts d v s with
  | error f t =>
    rw [Act.bind_of_error (Self.vet_failed asked)]
    exact .failed
  | ok answer t =>
    cases answer with
    | true =>
      obtain ⟨values, ends, yields⟩ := yields t asked
      rw [Act.bind_of_ok (Self.vet_passed asked), ends]
      exact .passed yields
    | false =>
      obtain ⟨f, u, vetted, refuses⟩ := self.vet_refused operation position asked
      rw [Act.bind_of_error vetted]
      exact .refused expected refuses

/-- Walking through a value leaves checked lists alone. -/
theorem items_calm (v : Value) :
    v.items.Leads fun s t => t.heap.checkedList self.at_ = s.heap.checkedList self.at_ := by
  refine itemsAt_spares.mono fun s t spares => ?_
  simp only [Heap.checkedList, spares.checked]

section

variable (typed : l.collection = .collection id .array l.element)
include typed

/-- A list matches the type of the list if its items match the element type. -/
theorem accepts_list (kind : Flavour) {i : Handle} :
    (Engine.ofDepth functions (n + 1)).accepts l.collection (.list kind i) s =
      Op.askList functions n l.element i s := by
  rw [typed]
  rfl

theorem list_verdict {kind : Flavour} {i : Handle} (calm : Op.CalmList functions n self l.element i s)
    (yields : P (s.heap.list i)) :
    Verdict self l P (Op.askList functions n l.element i s) ((do
      self.vet (Engine.ofDepth functions (n + 1)) (.list kind i) l.collection operation position
      Value.items (.list kind i) : Act (List Value)) s) := by
  rw [← accepts_list typed kind]
  refine vet_verdict (.inr rfl) fun t asked => ⟨t.heap.list i, rfl, ?_⟩
  have same := calm.walked
  rw [← Act.after_congr (accepts_list typed kind), Act.after_of_ok asked] at same
  rw [same]
  exact yields

/-- A copy is made of values and checked against the type of the list. -/
theorem copy_verdict (cell : s.heap.checkedList self.at_ = l)
    (calm : Op.CalmCopy functions n self l.element values s) (yields : P values) :
    Verdict self l P (Op.askCopy functions n l.element values s) ((do
      let whole ← Act.newList values
      self.vet (Engine.ofDepth functions (n + 1)) whole (← self.state).collection operation position
      whole.items : Act (List Value)) s) := by
  let t : Session := { s with heap := { s.heap with lists := s.heap.lists.push values } }
  have held : t.heap.list s.heap.lists.size = values := by simp [t, list_push]
  subst cell
  exact list_verdict (s := t) typed calm (held.symm ▸ yields)

/-- A bulk of values is checked as it is if it is a list, and otherwise as a copy. -/
theorem collect_verdict (cell : s.heap.checkedList self.at_ = l)
    (calm : Op.CalmBulk functions n self l.element v s) :
    Verdict self l (fun values => ∃ t, v.items s = .ok values t) (Op.askBulk functions n l.element v s)
      (self.collect (Engine.ofDepth functions (n + 1)) v operation position s) := by
  subst cell
  by_cases whole : isWhole v = true
  · have vetted : self.collect (Engine.ofDepth functions (n + 1)) v operation position s = (do
        self.vet (Engine.ofDepth functions (n + 1)) v (s.heap.checkedList self.at_).collection operation position
        v.items : Act (List Value)) s := by
      simp only [Self.collect, whole, if_true]
      rfl
    rw [vetted]
    by_cases list : v.isList = true
    · obtain ⟨kind, i, rfl⟩ : ∃ kind i, v = .list kind i := by
        cases v <;> first | exact ⟨_, _, rfl⟩ | cases list
      exact list_verdict typed calm ⟨s, rfl⟩
    · -- A text or a mapping is no array, whatever is in it.
      have unmatched : (Engine.ofDepth functions (n + 1)).accepts (s.heap.checkedList self.at_).collection v s =
          .ok false s := by
        rw [typed]
        cases v <;> first | rfl | exact absurd rfl list
      have question : Op.askBulk functions n (s.heap.checkedList self.at_).element v s = .ok false s := by
        cases v <;> first | rfl | exact absurd rfl list | cases whole
      rw [question, ← unmatched]
      refine vet_verdict (.inr rfl) fun t yes => ?_
      rw [unmatched] at yes
      cases yes
  · have copied : self.collect (Engine.ofDepth functions (n + 1)) v operation position s = (do
        let items ← v.items
        let whole ← Act.newList items
        self.vet (Engine.ofDepth functions (n + 1)) whole (← self.state).collection operation position
        whole.items : Act (List Value)) s := by
      simp only [Self.collect, whole, Bool.false_eq_true, if_false]
    have question : Op.askBulk functions n (s.heap.checkedList self.at_).element v s =
        (do Op.askCopy functions n (s.heap.checkedList self.at_).element (← v.items) : Act Bool) s := by
      cases v <;> first | rfl | exact absurd rfl whole
    have calm : ∀ values t, v.items s = .ok values t →
        Op.CalmCopy functions n self (s.heap.checkedList self.at_).element values t := by
      cases v <;> first | exact calm | exact absurd rfl whole
    rw [copied, question]
    cases walked : v.items s with
    | error f t =>
      rw [Act.bind_of_error walked, Act.bind_of_error walked]
      exact .failed
    | ok values t =>
      rw [Act.bind_of_ok walked, Act.bind_of_ok walked]
      exact copy_verdict typed ((items_calm v).ok walked) (calm values t walked) ⟨t, rfl⟩

/-- A checked list passes if its element type is below, and otherwise a copy of its items is checked. -/
theorem foreign_verdict {c : Class} {i : Handle} (cell : s.heap.checkedList self.at_ = l)
    (discreet : (Op.extend (.checked c i)).Discreet functions n self l.element s) :
    Verdict self l (fun values => ∃ t, (Value.checked c i).items s = .ok values t)
      ((Op.extend (.checked c i)).asked functions n l.element s)
      (self.foreignValues (Engine.ofDepth functions (n + 1)) (.checked c i) operation s) := by
  subst cell
  have question : (Op.extend (.checked c i)).asked functions n (s.heap.checkedList self.at_).element s = (do
      if ← (Engine.ofDepth functions (n + 1)).subtype (s.heap.checkedList i).element
        (s.heap.checkedList self.at_).element then return true
      Op.askCopy functions n (s.heap.checkedList self.at_).element (s.heap.checkedList i).items : Act Bool) s :=
    rfl
  have foreign : self.foreignValues (Engine.ofDepth functions (n + 1)) (.checked c i) operation s = (do
      if ← (Engine.ofDepth functions (n + 1)).subtype (s.heap.checkedList i).element
        (s.heap.checkedList self.at_).element then return (s.heap.checkedList i).items
      let whole ← Act.newList (s.heap.checkedList i).items
      self.vet (Engine.ofDepth functions (n + 1)) whole (← self.state).collection operation (some 0)
      whole.items : Act (List Value)) s := rfl
  obtain ⟨calm, copies⟩ := discreet
  rw [question, foreign]
  cases compared : (Engine.ofDepth functions (n + 1)).subtype (s.heap.checkedList i).element
      (s.heap.checkedList self.at_).element s with
  | error f t =>
    rw [Act.bind_of_error compared, Act.bind_of_error compared]
    exact .failed
  | ok below t =>
    rw [Act.bind_of_ok compared, Act.bind_of_ok compared]
    cases below with
    | true => exact .passed ⟨s, rfl⟩
    | false =>
      rw [Op.Calm, Act.after_of_ok compared] at calm
      exact copy_verdict typed calm (copies t compared) ⟨s, rfl⟩

end

theorem Op.asked_extend {d : Descriptor} (unchecked : ∀ c i, v ≠ .checked c i) :
    (Op.extend v).asked functions n d = askBulk functions n d v := by
  cases v <;> first | rfl | exact absurd rfl (unchecked _ _)

theorem Op.discreet_extend {d : Descriptor} (unchecked : ∀ c i, v ≠ .checked c i) :
    (Op.extend v).Discreet functions n self d s ↔ CalmBulk functions n self d v s := by
  cases v <;> first | exact .rfl | exact absurd rfl (unchecked _ _)

theorem Op.asked_addInPlace (d : Descriptor) :
    (Op.addInPlace v).asked functions n d = (Op.extend v).asked functions n d := by
  cases v <;> rfl

theorem Op.discreet_addInPlace {d : Descriptor} (discreet : (Op.addInPlace v).Discreet functions n self d s) :
    (Op.extend v).Discreet functions n self d s := by
  cases v <;> exact discreet

theorem Op.matching_addInPlace (d : Descriptor) :
    (Op.addInPlace v).matching functions n d = (Op.extend v).matching functions n d := by
  cases v <;> rfl

/-- The question about a checked list, taken apart. -/
theorem Op.matching_checked {d : Descriptor} {c : Class} {i : Handle} {t : Session} {answer : Bool}
    (matching : (Op.extend (.checked c i)).matching functions n d s = .ok answer t) : ∃ below u,
      (Engine.ofDepth functions (n + 1)).subtype (s.heap.checkedList i).element d s = .ok below u ∧
      askCopy functions n d (s.heap.checkedList i).items u = .ok answer t ∧
      (Op.extend (.checked c i)).asked functions n d s =
        if below then .ok true u else .ok answer t := by
  have parts : (Op.extend (.checked c i)).matching functions n d s = (do
      let _ ← (Engine.ofDepth functions (n + 1)).subtype (s.heap.checkedList i).element d
      askCopy functions n d (s.heap.checkedList i).items : Act Bool) s := rfl
  obtain ⟨below, u, compared, copied⟩ := Act.bind_eq_ok.mp (parts.symm.trans matching)
  have asked : (Op.extend (.checked c i)).asked functions n d s = (do
      if below then return true
      askCopy functions n d (s.heap.checkedList i).items : Act Bool) u := Act.bind_of_ok compared
  refine ⟨below, u, compared, copied, asked.trans ?_⟩
  cases below with
  | true => rfl
  | false => exact copied

/-- Values that match pass the question. -/
theorem Op.asked_of_matching {op : Op} {d : Descriptor} {t : Session}
    (matching : op.matching functions n d s = .ok true t) : ∃ u, op.asked functions n d s = .ok true u := by
  have extended (v : Value) (matching : (Op.extend v).matching functions n d s = .ok true t) :
      ∃ u, (Op.extend v).asked functions n d s = .ok true u := by
    cases v with
    | checked c i =>
      obtain ⟨below, u, -, -, asked⟩ := matching_checked matching
      cases below with
      | true => exact ⟨u, asked⟩
      | false => exact ⟨t, asked⟩
    | _ => exact ⟨t, matching⟩
  cases op with
  | extend v => exact extended v matching
  | addInPlace v =>
    rw [matching_addInPlace] at matching
    rw [asked_addInPlace]
    exact extended v matching
  | _ => exact ⟨t, matching⟩

/-- Values that do not match do not pass, if checked lists keep what their types promise. -/
theorem Op.asked_of_mismatch {op : Op} {d : Descriptor} {t : Session}
    (sincere : op.Sincere functions n d s) (mismatch : op.matching functions n d s = .ok false t) :
    op.asked functions n d s = .ok false t := by
  have extended (v : Value) (sincere : (Op.extend v).Sincere functions n d s)
      (mismatch : (Op.extend v).matching functions n d s = .ok false t) :
      (Op.extend v).asked functions n d s = .ok false t := by
    cases v with
    | checked c i =>
      obtain ⟨below, u, compared, copied, asked⟩ := matching_checked mismatch
      cases below with
      | true => exact absurd copied (sincere u t compared)
      | false => exact asked
    | _ => exact mismatch
  cases op with
  | extend v => exact extended v sincere mismatch
  | addInPlace v =>
    rw [matching_addInPlace] at mismatch
    rw [asked_addInPlace]
    refine extended v ?_ mismatch
    cases v <;> exact sincere
  | _ => exact mismatch

/-- Only what puts values into a list can be refused. -/
theorem Op.inserts_of_mismatch {op : Op} {d : Descriptor} {t : Session}
    (mismatch : op.asked functions n d s = .ok false t) : op.inserts = true := by
  cases op <;> first | rfl | cases mismatch

/-- What an operation lets in is what its argument yields, if that matches. -/
theorem Op.admitted_verdict {op : Op} (inserts : op.inserts = true)
    (cell : s.heap.checkedList self.at_ = l) (typed : l.collection = .collection id .array l.element)
    (discreet : op.Discreet functions n self l.element s) :
    Verdict self l (fun values => ∃ t, op.taken s = .ok values t) (op.asked functions n l.element s)
      (op.admitted (Engine.ofDepth functions (n + 1)) self s) := by
  have single (operation : String) (position : Int) (v : Value) :
      Verdict self l (fun values => ∃ t, (return [v] : Act (List Value)) s = .ok values t)
        ((Engine.ofDepth functions (n + 1)).accepts l.element v s)
        ((do
          self.vetElement (Engine.ofDepth functions (n + 1)) v operation position
          return [v] : Act (List Value)) s) := by
    subst cell
    exact vet_verdict (.inl rfl) fun t _ => ⟨[v], rfl, s, rfl⟩
  have extended (v : Value) (discreet : (Op.extend v).Discreet functions n self l.element s) :
      Verdict self l (fun values => ∃ t, v.items s = .ok values t)
        ((Op.extend v).asked functions n l.element s)
        ((Op.extend v).admitted (Engine.ofDepth functions (n + 1)) self s) := by
    cases v with
    | checked c i => exact foreign_verdict typed cell discreet
    | _ => exact collect_verdict typed cell discreet
  cases op with
  | append v => exact single "append" 0 v
  | prepend v => exact single "prepend" 0 v
  | insert index v => exact single "insert" 1 v
  | setItem index v =>
    cases index with
    | slice id start stop step => exact collect_verdict typed cell discreet
    | _ => exact single "__setitem__" 1 v
  | extend v => exact extended v discreet
  | addInPlace v =>
    rw [asked_addInPlace]
    exact extended v (discreet_addInPlace discreet)
  | push vs =>
    have question : (Op.push vs).asked functions n l.element s = _ := (accepts_list typed .base).symm
    rw [question]
    subst cell
    exact vet_verdict (.inr rfl) fun t _ => ⟨vs, rfl, s, rfl⟩
  | _ => cases inserts

theorem copy_calm (calm : Op.CalmCopy functions n self l.element values s) :
    Op.Calm self (Op.askCopy functions n l.element values) s :=
  calm.calm

/-- What is asked about a bulk of values leaves the list alone. -/
theorem bulk_calm (calm : Op.CalmBulk functions n self l.element v s) :
    Op.Calm self (Op.askBulk functions n l.element v) s := by
  have other (calm : ∀ values t, v.items s = .ok values t → Op.CalmCopy functions n self l.element values t) :
      Op.Calm self (if v.isText || v.isMapping then return false else do
        Op.askCopy functions n l.element (← v.items)) s := by
    split
    · rfl
    · cases walked : v.items s with
      | error f t =>
        rw [Op.Calm, Act.after_of_error (Act.bind_of_error walked)]
        exact (items_calm v).error walked
      | ok values t =>
        have goes : (do Op.askCopy functions n l.element (← v.items) : Act Bool) s = _ := Act.bind_of_ok walked
        rw [Op.Calm, Act.after_congr goes]
        exact (copy_calm (calm values t walked)).trans ((items_calm v).ok walked)
  cases v with
  | list kind i => exact calm.calm
  | _ => exact other calm

/-- What is asked about a checked list leaves the list alone. -/
theorem foreign_calm {c : Class} {i : Handle}
    (discreet : (Op.extend (.checked c i)).Discreet functions n self l.element s) :
    Op.Calm self ((Op.extend (.checked c i)).asked functions n l.element) s := by
  obtain ⟨calm, copies⟩ := discreet
  let below := (Engine.ofDepth functions (n + 1)).subtype (s.heap.checkedList i).element l.element
  have question : (Op.extend (.checked c i)).asked functions n l.element s = (do
      if ← below then return true
      Op.askCopy functions n l.element (s.heap.checkedList i).items : Act Bool) s := rfl
  rw [Op.Calm, Act.after_congr question]
  cases compared : below s with
  | error f t =>
    rw [Op.Calm, Act.after_of_error compared] at calm
    rw [Act.after_of_error (Act.bind_of_error compared)]
    exact calm
  | ok answer t =>
    rw [Op.Calm, Act.after_of_ok compared] at calm
    rw [Act.after_congr (Act.bind_of_ok compared)]
    cases answer with
    | true => exact calm
    | false => exact (copy_calm (copies t compared)).trans calm

/-- What is asked about values leaves the list alone. -/
theorem Op.asked_calm {op : Op} (discreet : op.Discreet functions n self l.element s) :
    Calm self (op.asked functions n l.element) s := by
  have extended (v : Value) (discreet : (Op.extend v).Discreet functions n self l.element s) :
      Calm self ((Op.extend v).asked functions n l.element) s := by
    by_cases checked : ∃ c i, v = .checked c i
    · obtain ⟨c, i, rfl⟩ := checked
      exact foreign_calm discreet
    · have unchecked : ∀ c i, v ≠ .checked c i := fun c i same => checked ⟨c, i, same⟩
      rw [asked_extend unchecked]
      exact bulk_calm ((discreet_extend unchecked).mp discreet)
  cases op with
  | append v | prepend v | insert _ v => exact discreet
  | setItem index v =>
    cases index with
    | slice => exact bulk_calm discreet
    | _ => exact discreet
  | extend v => exact extended v discreet
  | addInPlace v =>
    rw [asked_addInPlace]
    exact extended v (discreet_addInPlace discreet)
  | push vs => exact discreet
  | _ => exact rfl

/-- What is refused leaves the list alone. -/
theorem refuses_calm {d : Descriptor} {f : Fault} {t u : Session}
    (refuses : self.Refuses d v operation position t f u) :
    u.heap.checkedList self.at_ = t.heap.checkedList self.at_ := by
  obtain ⟨log, nextIdent, rfl⟩ := refuses.noted
  rfl

/-- Until values are let in, the list is as it was. -/
theorem Op.admitted_keeps {op : Op} (inserts : op.inserts = true) (cell : s.heap.checkedList self.at_ = l)
    (typed : l.collection = .collection id .array l.element)
    (discreet : op.Discreet functions n self l.element s) :
    ((op.admitted (Engine.ofDepth functions (n + 1)) self).after s).heap.checkedList self.at_ = l := by
  have verdict := op.admitted_verdict inserts cell typed discreet
  have calm := (op.asked_calm discreet).trans cell
  generalize asked : op.asked functions n l.element s = r at verdict
  generalize admitted : op.admitted (Engine.ofDepth functions (n + 1)) self s = r' at verdict
  cases verdict with
  | passed yields =>
    rw [Act.after_of_ok asked] at calm
    rw [Act.after_of_ok admitted]
    exact calm
  | refused expected refuses =>
    rw [Act.after_of_ok asked] at calm
    rw [Act.after_of_error admitted]
    exact (refuses_calm refuses).trans calm
  | failed =>
    rw [Act.after_of_error asked] at calm
    rw [Act.after_of_error admitted]
    exact calm

/-- If an operation that puts values into a list fails, then the list is as it was. -/
theorem Op.inserts_keeps {op : Op} {f : Fault} {t : Session} (inserts : op.inserts = true)
    (cell : s.heap.checkedList self.at_ = l) (unfrozen : l.frozen = false)
    (typed : l.collection = .collection id .array l.element)
    (discreet : op.Discreet functions n self l.element s)
    (run : op.run (Engine.ofDepth functions (n + 1)) self s = .error f t) :
    t.heap.checkedList self.at_ = l := by
  have keeps := op.admitted_keeps inserts cell typed discreet
  rw [run_inserts inserts (cell ▸ unfrozen)] at run
  cases admitted : op.admitted (Engine.ofDepth functions (n + 1)) self s with
  | error g u =>
    rw [Act.bind_of_error admitted] at run
    rw [Act.after_of_error admitted] at keeps
    cases run
    exact keeps
  | ok values u =>
    rw [Act.bind_of_ok admitted] at run
    rw [Act.after_of_ok admitted] at keeps
    have state : self.state u = .ok (u.heap.checkedList self.at_) u := rfl
    rw [Act.bind_of_ok state] at run
    obtain failed | ⟨items, w, placed, failed⟩ := Act.bind_eq_error.mp run
    · obtain ⟨-, rfl⟩ := Act.lift_eq_error.mp failed
      exact keeps
    · obtain ⟨-, rfl⟩ := Act.lift_eq_ok.mp placed
      obtain failed | ⟨_, _, -, failed⟩ := Act.bind_eq_error.mp failed
      · exact Self.write_error failed ▸ keeps
      · cases failed

end Verdicts

end CheckedList

end Conform
