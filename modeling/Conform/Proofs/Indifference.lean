import Conform.Proofs.Scripts

/-!
Mapping while nothing is declared. Two runs, one with the use of declared transforms turned on and one with it
turned off, go through sessions that differ in the switch alone, since only a query asks for it and no query
finds anything. The runs part only where the first one asks for a transform of a function that has no hash: the
query fails, and the run ends there. Turned off, nothing is asked.

Main statement: `Transforms.map_while_nothing_declared`.
-/
namespace Conform

open Transforms

/-- With which fault no transform can be asked for. A type that is refused as unhashable has a key all the same,
but not one whose hash is not to be had for another reason; a function always needs a hash. -/
inductive Transforms.Keyless (d : Descriptor) (fn : Value) (h : Heap) : Fault → Prop
  | type {f : Fault} (failed : Value.hash (.descriptor d) h = .error f) (other : f.isA .typeError = false) :
    Keyless d fn h f
  | function {f : Fault} (keyed : ∀ g, Value.hash (.descriptor d) h = .error g → g.isA .typeError = true)
    (failed : fn.hash h = .error f) : Keyless d fn h f

/-- Whether a run with declared transforms in use ends as a run without: the same is answered or raised, still
nothing is declared, and the sessions differ in the switch alone. It may also end where no transform can be asked
for. -/
inductive Indifferent {α : Type} : (used unused : EStateM.Result Fault Session α) → Prop
  | answered {a : α} {t : Session} (empty : t.transforms = []) :
    Indifferent (.ok a (t.switched true)) (.ok a (t.switched false))
  | failed {f : Fault} {t : Session} (empty : t.transforms = []) :
    Indifferent (.error f (t.switched true)) (.error f (t.switched false))
  | keyless {d : Descriptor} {fn : Value} {f : Fault} {t : Session} {r : EStateM.Result Fault Session α}
    (failed : Keyless d fn t.heap f) : Indifferent (.error f t) r

theorem Indifferent.bind {α β : Type} {x : Act α} {f : α → Act β} {s t : Session} (hx : Indifferent (x s) (x t))
    (hf : ∀ a (u : Session), x s = .ok a (u.switched true) → u.transforms = [] →
      Indifferent (f a (u.switched true)) (f a (u.switched false))) :
    Indifferent ((x >>= f) s) ((x >>= f) t) := by
  generalize used : x s = r at hx
  generalize unused : x t = r' at hx
  cases hx with
  | answered empty =>
    rw [Act.bind_of_ok used, Act.bind_of_ok unused]
    exact hf _ _ used empty
  | failed empty =>
    rw [Act.bind_of_error used, Act.bind_of_error unused]
    exact .failed empty
  | keyless failed =>
    -- The run with transforms in use is over, wherever the other one goes.
    rw [Act.bind_of_error used]
    exact .keyless failed

/-- An action that goes the same way with declared transforms in use and without, while nothing is declared. -/
def Act.Indifferent {α : Type} (x : Act α) : Prop :=
  ∀ s : Session, s.transforms = [] → Conform.Indifferent (x (s.switched true)) (x (s.switched false))

theorem trace_switched (message : Look String) (s : Session) (on : Bool) :
    Logging.trace message (s.switched on) = Act.elsewhere (·.switched on) (Logging.trace message s) := by
  have recorded (text : String) (t : Session) : Logging.record .debug text (t.switched on) =
      Act.elsewhere (·.switched on) (Logging.record .debug text t) := by
    change EStateM.Result.ok _ (if t.level ≤ _ then _ else _) =
      EStateM.Result.ok _ (Session.switched (if _ then _ else _) on)
    split <;> rfl
  change (if s.level ≤ Logging.Severity.debug.rank then _ else _ : Act Unit) _ =
    Act.elsewhere _ ((if s.level ≤ Logging.Severity.debug.rank then _ else _ : Act Unit) s)
  split
  · exact Act.bind_elsewhere (Act.lift_elsewhere (g := (·.switched on)) rfl) fun text t _ => recorded _ t
  · rfl

/-- A plain action that may not ask for the switch does the same at either position of it. -/
theorem Act.Plain.switched {α : Type} {r : Reach} {x : Act α} (hx : x.Plain r) (off : r.switch = false)
    (s : Session) (on : Bool) : x (s.switched on) = elsewhere (·.switched on) (x s) := by
  induction hx generalizing s with
  | pure a => rfl
  | throw f => rfl
  | lift l => exact lift_elsewhere (g := (·.switched on)) rfl
  | bind _ _ hx hf => exact bind_elsewhere (hx s) fun a t _ => hf a t
  | handle _ _ hx hf => exact handle_elsewhere (hx s) fun e t => hf e t
  | @get _ f _ blind _ hf =>
    change f (s.switched on) (s.switched on) = elsewhere _ (f s s)
    rw [blind off]
    exact hf s s
  | modify _ _ _ blind => exact congrArg (EStateM.Result.ok PUnit.unit) (blind off s on)
  | @trace message _ => exact trace_switched message s on

theorem Act.Plain.switched_ok {α : Type} {x : Act α} (hx : x.Plain .calls) {s t : Session} {on : Bool} {a : α}
    (run : x (s.switched on) = .ok a t) : ∃ u, x s = .ok a u ∧ t = u.switched on := by
  rw [hx.switched rfl] at run
  cases own : x s with
  | ok b u =>
    rw [own] at run
    cases run
    exact ⟨u, rfl, rfl⟩
  | error f u =>
    rw [own] at run
    cases run

namespace Act.Indifferent

variable {α β : Type}

theorem plain {x : Act α} (hx : x.Plain .calls) : x.Indifferent := by
  intro s empty
  rw [hx.switched rfl, hx.switched rfl]
  cases run : x s with
  | ok a t => exact .answered ((hx.leads.ok run).transforms.trans empty)
  | error f t => exact .failed ((hx.leads.error run).transforms.trans empty)

theorem pure (a : α) : (pure a : Act α).Indifferent :=
  plain (.pure a)

theorem andThen {x : Act α} {f : α → Act β} (hx : x.Indifferent)
    (hf : ∀ s a t, s.transforms = [] → x s = .ok a t → (f a).Indifferent) : (x >>= f).Indifferent :=
  fun s empty => (hx s empty).bind fun a t run => hf (s.switched true) a _ empty run t

theorem bind {x : Act α} {f : α → Act β} (hx : x.Indifferent) (hf : ∀ a, (f a).Indifferent) :
    (x >>= f).Indifferent :=
  andThen hx fun _ a _ _ _ => hf a

theorem get {f : Session → Act α} (blind : ∀ (s : Session) on, f (s.switched on) = f s)
    (hf : ∀ s, (f s).Indifferent) : (get >>= f).Indifferent := by
  intro s empty
  change Conform.Indifferent (f (s.switched true) (s.switched true)) (f (s.switched false) (s.switched false))
  rw [blind, blind]
  exact hf s s empty

theorem modify {f : Session → Session} (blind : ∀ (s : Session) on, f (s.switched on) = (f s).switched on)
    (declared : ∀ s, (f s).transforms = s.transforms) : (modify f : Act PUnit).Indifferent := by
  intro s empty
  change Conform.Indifferent (.ok _ (f (s.switched true))) (.ok _ (f (s.switched false)))
  rw [blind, blind]
  exact .answered ((declared s).trans empty)

theorem modifyHeap (f : Heap → Heap) : (Act.modifyHeap f).Indifferent :=
  modify (fun _ _ => rfl) fun _ => rfl

theorem ancestors (c : Class) : (Nominal.ancestors c).Indifferent := by
  refine get (fun _ _ => rfl) fun s => ?_
  split
  · exact pure _
  · refine bind (plain (trace_plain (.pure _))) fun _ => bind (modify ?_ ?_) fun _ => pure _
    · exact fun _ _ => rfl
    · exact fun _ => rfl

theorem resolve {e : Engine} (call : ∀ f args keywords, (e.call f args keywords).Indifferent) (id : Ident)
    (thunk : Value) : (Descriptor.resolve e id thunk).Indifferent := by
  refine get (fun _ _ => rfl) fun s => ?_
  split
  · exact pure _
  · refine bind (call thunk [] []) fun v => bind (plain (ofValue_plain v)) fun d => ?_
    refine get (fun _ _ => rfl) fun s => ?_
    split
    · exact pure _
    · refine bind (plain (trace_plain (by grind))) fun _ => bind (modify ?_ ?_) fun _ => pure _
      · exact fun _ _ => rfl
      · exact fun _ => rfl

theorem recordCall (name : String) (args : List Value) (keywords : Keywords) :
    (Calling.recordCall name args keywords).Indifferent :=
  modify (fun _ _ => rfl) fun _ => rfl

theorem newChecked (c : Class) (l : CheckedList) : (Act.newChecked c l).Indifferent :=
  get (fun _ _ => rfl) fun _ => bind (modifyHeap _) fun _ => pure _

theorem write (self : CheckedList.Self) (method : Option String) (items : List Value) :
    (self.write method items).Indifferent := by
  refine bind (plain (state_plain self)) fun l => ?_
  dsimp only
  split
  · exact plain (.fail _)
  · exact modifyHeap _

theorem freeze (e : Engine) (self : CheckedList.Self) : (CheckedList.Op.freeze.perform e self).Indifferent :=
  bind (plain (state_plain self)) fun _ => bind (modifyHeap _) fun _ => pure _

end Act.Indifferent

namespace Transforms

variable {d : Descriptor} {fn : Value} {f : Fault} {s : Session}

theorem keyOf_eq_ok (keyed : ∀ g, Value.hash (.descriptor d) s.heap = .error g → g.isA .typeError = true) :
    ∃ key, keyOf d s = .ok key s := by
  unfold keyOf Act.handle
  cases hashed : Value.hash (.descriptor d) s.heap with
  | ok code =>
    rw [Act.bind_of_ok (Act.lift_eq_ok.mpr ⟨hashed, rfl⟩)]
    exact ⟨_, rfl⟩
  | error g =>
    rw [Act.bind_of_error (Act.lift_eq_error.mpr ⟨hashed, rfl⟩)]
    simp only [keyed g hashed]
    exact ⟨_, rfl⟩

theorem keyOf_eq_error (failed : Value.hash (.descriptor d) s.heap = .error f) (other : f.isA .typeError = false) :
    keyOf d s = .error f s := by
  unfold keyOf Act.handle
  rw [Act.bind_of_error (Act.lift_eq_error.mpr ⟨failed, rfl⟩)]
  simp [other]

/-- A query that cannot be asked fails, and the session stays as it is. -/
theorem Keyless.query (keyless : Keyless d fn s.heap f) : query (.descriptor d) fn s = .error f s := by
  have read : Descriptor.ofValue (.descriptor d) s = .ok d s := rfl
  unfold Transforms.query
  rw [Act.bind_of_ok read]
  cases keyless with
  | type failed other => exact Act.bind_of_error (keyOf_eq_error failed other)
  | function keyed failed =>
    obtain ⟨key, own⟩ := keyOf_eq_ok keyed
    rw [Act.bind_of_ok own]
    exact Act.bind_of_error (Act.lift_eq_error.mpr ⟨failed, rfl⟩)

/-- Every other query has a key. -/
theorem query_or_keyless (d : Descriptor) (fn : Value) (s : Session) :
    (∃ key, query (.descriptor d) fn s = .ok key s) ∨ ∃ f, Keyless d fn s.heap f := by
  by_cases lost : ∃ g, Value.hash (.descriptor d) s.heap = .error g ∧ g.isA .typeError = false
  · obtain ⟨g, failed, other⟩ := lost
    exact .inr ⟨g, .type failed other⟩
  · have keyed (g : Fault) (failed : Value.hash (.descriptor d) s.heap = .error g) : g.isA .typeError = true := by
      cases other : g.isA .typeError with
      | true => rfl
      | false => exact absurd ⟨g, failed, other⟩ lost
    cases hashed : fn.hash s.heap with
    | error f => exact .inr ⟨f, .function keyed hashed⟩
    | ok code =>
      have read : Descriptor.ofValue (.descriptor d) s = .ok d s := rfl
      obtain ⟨key, own⟩ := keyOf_eq_ok keyed
      refine .inl ⟨key, ?_⟩
      unfold query
      rw [Act.bind_of_ok read, Act.bind_of_ok own, Act.bind_of_ok (Act.lift_eq_ok.mpr ⟨hashed, rfl⟩)]
      rfl

/-- Where nothing is declared nothing is found. -/
theorem lookup_used (empty : s.transforms = []) {key : TransformKey}
    (asked : query (.descriptor d) fn (s.switched true) = .ok key (s.switched true)) :
    lookup (.descriptor d) fn (s.switched true) = .ok none (s.switched true) := by
  change (query (.descriptor d) fn >>= fun key => _) (s.switched true) = _
  rw [Act.bind_of_ok asked]
  change (liftM (find? key fn s.transforms) >>= fun found => _ : Act (Option Descriptor)) (s.switched true) = _
  rw [empty]
  rfl

theorem lookup_keyless (keyless : Keyless d fn s.heap f) :
    lookup (.descriptor d) fn (s.switched true) = .error f (s.switched true) := by
  have keyless : Keyless d fn (s.switched true).heap f := keyless
  change (query (.descriptor d) fn >>= fun key => _) (s.switched true) = _
  exact Act.bind_of_error keyless.query

theorem lookup_indifferent (d : Descriptor) (fn : Value) : (lookup (.descriptor d) fn).Indifferent := by
  intro s empty
  obtain ⟨key, asked⟩ | ⟨f, keyless⟩ := query_or_keyless d fn (s.switched true)
  · rw [lookup_used empty asked]
    exact .answered empty
  · rw [lookup_keyless (s := s) keyless]
    exact .keyless keyless

end Transforms

/-- Not to depend on the switch while nothing is declared is a habit. -/
def indifference : Habit where
  inv s := s.transforms = []
  holds := Act.Indifferent
  reach := .calls
  types _ := True
  callees _ := True
  receivers _ := True
  secret _ := False
  plain hx _ := .plain hx
  reading _ := Habit.reading_of_andThen (fun s => s.transforms = []) Act.Indifferent (.plain .getHeap) .andThen
  andThen := .andThen
  remembered := .ancestors
  made _ _ _ := .newChecked _ _
  written _ := .write _
  frozen _ e := .freeze e _
  apart _ := id
  children _ _ _ := trivial
  predicates _ := trivial
  attributes _ _ _ v := .plain (v.attribute?_plain fun _ => rfl)
  methods _ _ _ := fun _ _ => trivial
  fields _ _ _ v := .plain (v.field?_plain fun _ => rfl)
  responds _ _ _ v := .bind (.plain (v.attribute?_plain fun _ => rfl)) fun found => by
    cases found <;> exact .pure _
  elements _ _ := ⟨trivial, trivial⟩
  newcomers _ := trivial
  lookups _ _ _ _ := trivial
  arrays _ _ := trivial

theorem indifference_wide : indifference.Wide where
  types _ := trivial
  callees _ := trivial
  receivers _ := trivial
  bounds := .inl rfl
  looks := lookup_indifferent
  resolve := Act.Indifferent.resolve
  recorded := Act.Indifferent.recordCall

namespace Transforms

/-- A map that asks for no declared transform: what the function gives is checked. -/
def unaskedMap (e : Engine) (self : CheckedList.Self) (element fn : Value) : Act Value := do
  let target ← Descriptor.ofValue element
  let items := (← self.state).items
  Logging.trace (do return "checked.CheckedList.map: Validating mapped values against " ++
    (← target.describe))
  let collection := Descriptor.collection (← Act.fresh) .array target
  let mapped ← items.mapM fun v => e.call fn [v] []
  let whole ← Act.newList mapped
  self.vet e whole collection "map" none
  Act.newChecked self.cls
    { items := ← whole.items, element := target, collection, frozen := false }

section Mapping

variable (e : Engine) (c : Class) {i : Handle} {element fn : Value} {s t : Session}

theorem map_run : Calling.boundMethod e (.checked c i) "map" [element, fn] [] s =
    CheckedList.Op.runMap e ⟨c, i⟩ element fn s :=
  rfl

/-- A map that finds nothing goes as if it had not asked. -/
theorem map_of_none (found : ∀ T t, Descriptor.ofValue element s = .ok T t →
      lookup (.descriptor (t.heap.checkedList i).element) fn t = .ok none t) :
    Calling.boundMethod e (.checked c i) "map" [element, fn] [] s = unaskedMap e ⟨c, i⟩ element fn s := by
  rw [map_run]
  unfold CheckedList.Op.runMap unaskedMap
  cases read : Descriptor.ofValue element s with
  | error f t => rw [Act.bind_of_error read, Act.bind_of_error read]
  | ok T t =>
    rw [Act.bind_of_ok read, Act.bind_of_ok read]
    change (lookup (.descriptor (t.heap.checkedList i).element) fn >>= fun found => _) t = _
    rw [Act.bind_of_ok (found T t read)]
    rfl

theorem map_unused : Calling.boundMethod e (.checked c i) "map" [element, fn] [] (s.switched false) =
    unaskedMap e ⟨c, i⟩ element fn (s.switched false) := by
  refine map_of_none e c fun T t read => ?_
  obtain ⟨u, -, rfl⟩ := (ofValue_plain element).switched_ok read
  rfl

theorem map_used (empty : s.transforms = [])
    (keyed : ∀ T t f, Descriptor.ofValue element (s.switched true) = .ok T t →
      ¬Keyless (t.heap.checkedList i).element fn t.heap f) :
    Calling.boundMethod e (.checked c i) "map" [element, fn] [] (s.switched true) =
      unaskedMap e ⟨c, i⟩ element fn (s.switched true) := by
  refine map_of_none e c fun T t read => ?_
  have keyed := fun f => keyed T t f read
  -- Reading the type has left the switch on and the table empty.
  obtain ⟨u, run, rfl⟩ := (ofValue_plain element).switched_ok read
  have still : u.transforms = [] := ((ofValue_plain (r := .calls) element).leads.ok run).transforms.trans empty
  obtain ⟨key, asked⟩ | ⟨f, keyless⟩ := query_or_keyless (u.heap.checkedList i).element fn (u.switched true)
  · exact lookup_used still asked
  · exact absurd keyless (keyed f)

/-- A map that cannot ask ends before it calls anything. -/
theorem map_keyless {T : Descriptor} {f : Fault} (read : Descriptor.ofValue element (s.switched true) = .ok T t)
    (keyless : Keyless (t.heap.checkedList i).element fn t.heap f) :
    Calling.boundMethod e (.checked c i) "map" [element, fn] [] (s.switched true) = .error f t := by
  obtain ⟨u, -, rfl⟩ := (ofValue_plain element).switched_ok read
  rw [map_run]
  unfold CheckedList.Op.runMap
  rw [Act.bind_of_ok read]
  change (lookup (.descriptor (u.heap.checkedList i).element) fn >>= fun found => _) (u.switched true) = _
  exact Act.bind_of_error (lookup_keyless keyless)

end Mapping

/-- While nothing is declared, a map goes as if it did not ask for a transform, turned off or on, unless it is
turned on and its own function has no hash: then it ends with that fault before it calls anything. Turned on, it
gives the same list as turned off, or raises the same, and leaves the same session, unless it or a map that it
comes to cannot ask. -/
theorem map_while_nothing_declared {functions : Library} (suits : indifference.Suits functions) (n : Nat)
    (c : Class) (i : Handle) (element fn : Value) (s : Session) (empty : s.transforms = []) :
    let e := Engine.ofDepth functions n
    let map := Calling.boundMethod e (.checked c i) "map" [element, fn] []
    map (s.switched false) = unaskedMap e ⟨c, i⟩ element fn (s.switched false) ∧
    (∀ T t f, Descriptor.ofValue element (s.switched true) = .ok T t →
      Keyless (t.heap.checkedList i).element fn t.heap f → map (s.switched true) = .error f t) ∧
    ((∀ T t f, Descriptor.ofValue element (s.switched true) = .ok T t →
        ¬Keyless (t.heap.checkedList i).element fn t.heap f) →
      map (s.switched true) = unaskedMap e ⟨c, i⟩ element fn (s.switched true)) ∧
    Indifferent (map (s.switched true)) (map (s.switched false)) := by
  intro e map
  have kept : indifference.Kept e := indifference_wide.kept suits n
  have mapped : map.Indifferent := Habit.boundMethod_has indifference_wide kept (.checked c i) "map" [element, fn] []
  refine ⟨map_unused e c, ?_, map_used e c empty, mapped s empty⟩
  intro T t f read keyless
  exact map_keyless e c read keyless

/-- A checked list without items, for integers, and a list with one item. -/
def noIntegers : Session :=
  let integers : CheckedList :=
    { items := [], element := .instanceOf 1 .int, collection := .collection 2 .array (.instanceOf 1 .int),
      frozen := false }
  { heap := { lists := #[[.int .base 0 1]], checked := #[integers] }, nextIdent := 5 }

/-- Makes checked lists of what equals the list with one item. It can be called, and has no hash. -/
def maker : Value :=
  .descriptor (.checkedListOf 4 (.equal 3 (.list .base 0)))

/-- The map by the class of integers goes as if it did not ask; the other one is refused. -/
theorem noIntegers_mapped :
    let e := Engine.ofDepth Zoo.library 6
    let map := fun fn => Calling.boundMethod e (.checked .checkedList 0) "map" [.descriptor .void, fn] []
    (map (.cls .int) (noIntegers.switched true) =
        unaskedMap e ⟨.checkedList, 0⟩ (.descriptor .void) (.cls .int) (noIntegers.switched true) ∧
      Indifferent (map (.cls .int) (noIntegers.switched true)) (map (.cls .int) (noIntegers.switched false))) ∧
    map maker (noIntegers.switched true) = .error (.cause (.unhashable "list")) (noIntegers.switched true) := by
  intro e map
  obtain ⟨-, -, unasked, alike⟩ :=
    map_while_nothing_declared indifference_wide.suits 6 .checkedList 0 (.descriptor .void) (.cls .int) noIntegers rfl
  obtain ⟨-, ends, -, -⟩ :=
    map_while_nothing_declared indifference_wide.suits 6 .checkedList 0 (.descriptor .void) maker noIntegers rfl
  refine ⟨⟨unasked ?_, alike⟩, ends .void _ _ rfl (.function (by rintro g ⟨⟩) rfl)⟩
  rintro _ _ f ⟨⟩ keyless
  cases keyless with
  | type failed _ => cases failed
  | function _ failed => cases failed

/-- With declared transforms in use the map is refused, although it makes an empty list without them. -/
theorem noIntegers_parts :
    let map := Calling.boundMethod (Engine.ofDepth Zoo.library 6) (.checked .checkedList 0) "map"
      [.descriptor .void, maker] []
    noIntegers.transforms = [] ∧
    map (noIntegers.switched true) = .error (.cause (.unhashable "list")) (noIntegers.switched true) ∧
    ∃ t, map (noIntegers.switched false) = .ok (.checked .checkedList 1) t ∧ (t.heap.checkedList 1).items = [] :=
  ⟨rfl, rfl, _, rfl, rfl⟩

end Transforms

end Conform
