import Conform.Proofs.Running
import Conform.Transforms
import Mathlib.Data.List.Basic

/-!
The declared transforms as a finite map. A declaration is filed under a type and a function. Whatever calls are made,
in whatever order, the table holds for each type and function what was declared last, unless it was withdrawn since or
the table was emptied; to turn the use of declarations off and on again changes nothing about that.

Main statement: `Transforms.answers_last_declaration`.
-/
namespace Conform

/-- Whether two keys are one: the same or equal descriptors where they can be hashed, the same one where they cannot. -/
def TransformKey.Alike (h : Heap) : TransformKey → TransformKey → Prop
  | .byValue a, .byValue b => Value.isAlike (.descriptor a) (.descriptor b) h = .ok true
  | .byIdentity a, .byIdentity b => a.same b = true
  | _, _ => False

namespace Transforms

/-- What a declaration is filed under. -/
structure Slot where
  key : TransformKey
  fn : Value

/-- Whether two slots are one: their keys are, and their functions are one object. -/
def Slot.Same (h : Heap) (p q : Slot) : Prop :=
  p.key.Alike h q.key ∧ p.fn.same q.fn = true

def slotOf (t : Transform) : Slot :=
  ⟨t.key, t.fn⟩

/-- Whether it can be told which of some slots are one. Their types can be compared and their functions are compared by
identity, and either is an equivalence. -/
structure Told (h : Heap) (slots : List Slot) : Prop where
  types : ∀ p ∈ slots, ∀ q ∈ slots, ∃ alike, sameKey p.key q.key h = .ok alike
  functions : ∀ p ∈ slots, ∀ q ∈ slots, Value.isAlike p.fn q.fn h = .ok (p.fn.same q.fn)
  refl : ∀ p ∈ slots, p.Same h p
  symm : ∀ p ∈ slots, ∀ q ∈ slots, p.Same h q → q.Same h p
  trans : ∀ p ∈ slots, ∀ q ∈ slots, ∀ r ∈ slots, p.Same h q → q.Same h r → p.Same h r

variable {h : Heap} {slots : List Slot} {p q : Slot} {table before rest : List Transform} {t u : Transform}

section Table

theorem sameKey_alike {k k' : TransformKey} : sameKey k k' h = .ok true ↔ k.Alike h k' := by
  cases k <;> cases k' <;> simp [sameKey, TransformKey.Alike]

theorem isFor_told (told : Told h slots) (ht : slotOf t ∈ slots) (hq : q ∈ slots) :
    ∃ found, isFor q.key q.fn t h = .ok found ∧ (found = true ↔ (slotOf t).Same h q) := by
  obtain ⟨alike, compared⟩ := told.types _ ht q hq
  have functions : Value.isAlike t.fn q.fn h = _ := told.functions _ ht q hq
  have keys : sameKey t.key q.key h = .ok alike := compared
  have meant : alike = true ↔ t.key.Alike h q.key := by
    rw [← sameKey_alike, keys]
    simp
  cases alike with
  | false =>
    refine ⟨false, Look.bind_eq_ok.mpr ⟨false, keys, rfl⟩, ?_⟩
    have : ¬t.key.Alike h q.key := fun same => Bool.false_ne_true (meant.mpr same)
    simp [Slot.Same, slotOf, this]
  | true =>
    refine ⟨t.fn.same q.fn, Look.bind_eq_ok.mpr ⟨true, keys, functions⟩, ?_⟩
    simp [Slot.Same, slotOf, meant.mp rfl]

/-- Either a declaration is the first one for a slot, or none is for it. -/
theorem exists_first (told : Told h slots) (known : ∀ t ∈ table, slotOf t ∈ slots) (hq : q ∈ slots) :
    (∃ before u rest, table = before ++ u :: rest ∧ (∀ t ∈ before, isFor q.key q.fn t h = .ok false) ∧
      isFor q.key q.fn u h = .ok true ∧ (slotOf u).Same h q) ∨
    (∀ t ∈ table, isFor q.key q.fn t h = .ok false) ∧ ∀ t ∈ table, ¬(slotOf t).Same h q := by
  induction table with
  | nil => exact .inr ⟨by simp, by simp⟩
  | cons t table ih =>
    rw [List.forall_mem_cons] at known
    obtain ⟨found, asked, meant⟩ := isFor_told told known.1 hq
    cases found with
    | true => exact .inl ⟨[], t, table, rfl, by simp, asked, meant.mp rfl⟩
    | false =>
      have other : ¬(slotOf t).Same h q := fun same => Bool.false_ne_true (meant.mpr same)
      obtain ⟨before, u, rest, rfl, passed, first⟩ | ⟨passed, none⟩ := ih known.2
      · exact .inl ⟨t :: before, u, rest, rfl, List.forall_mem_cons.mpr ⟨asked, passed⟩, first⟩
      · exact .inr ⟨List.forall_mem_cons.mpr ⟨asked, passed⟩, List.forall_mem_cons.mpr ⟨other, none⟩⟩

theorem find?_append (passed : ∀ t ∈ before, isFor q.key q.fn t h = .ok false) :
    find? q.key q.fn (before ++ rest) h = find? q.key q.fn rest h := by
  induction before with
  | nil => rfl
  | cons t before ih =>
    rw [List.forall_mem_cons] at passed
    rw [← ih passed.2]
    exact Look.bind_of_ok passed.1

theorem replace_append (passed : ∀ t ∈ before, isFor u.key u.fn t h = .ok false)
    (replaced : replace u rest h = .ok table) : replace u (before ++ rest) h = .ok (before ++ table) := by
  induction before with
  | nil => exact replaced
  | cons t before ih =>
    rw [List.forall_mem_cons] at passed
    exact (Look.bind_of_ok passed.1).trans (Look.bind_of_ok (ih passed.2))

theorem without_append (passed : ∀ t ∈ before, isFor q.key q.fn t h = .ok false)
    (taken : without q.key q.fn rest h = .ok table) :
    without q.key q.fn (before ++ rest) h = .ok (before ++ table) := by
  induction before with
  | nil => exact taken
  | cons t before ih =>
    rw [List.forall_mem_cons] at passed
    exact (Look.bind_of_ok passed.1).trans (Look.bind_of_ok (ih passed.2))

end Table

section History

/-- What a call has done to the registry. -/
inductive Entry where
  | declared (slot : Slot) (result : Descriptor)
  | withdrawn (slot : Slot)
  | emptied
  | switched (on : Bool)

/-- The slot that an entry is about. -/
def Entry.slot? : Entry → Option Slot
  | .declared p _ | .withdrawn p => some p
  | .emptied | .switched _ => none

/-- Whether an entry has a say in what is declared for a slot. -/
def Entry.Touches (h : Heap) (p : Slot) : Entry → Prop
  | .declared q _ | .withdrawn q => q.Same h p
  | .emptied => True
  | .switched _ => False

/-- Whether the last that was done about a slot was to declare a result type for it. -/
def Stands (h : Heap) (entries : List Entry) (p : Slot) (result : Descriptor) : Prop :=
  ∃ before q after, entries = before ++ .declared q result :: after ∧ q.Same h p ∧ ∀ x ∈ after, ¬x.Touches h p

/-- Whether declarations are used: as was said last. -/
def switchedOn (on : Bool) (entries : List Entry) : Bool :=
  entries.foldl (fun on x => match x with | .switched on => on | _ => on) on

variable {entries : List Entry} {x : Entry} {result d : Descriptor}

theorem stands_concat : Stands h (entries ++ [x]) p result ↔
    (∃ q, x = .declared q result ∧ q.Same h p) ∨ ¬x.Touches h p ∧ Stands h entries p result := by
  constructor
  · rintro ⟨before, q, after, whole, same, untouched⟩
    obtain rfl | ⟨rest, y, rfl⟩ := List.eq_nil_or_concat' after
    · obtain ⟨rfl, last⟩ := List.append_inj' whole rfl
      exact .inl ⟨q, by simpa using last, same⟩
    · have split : entries ++ [x] = (before ++ .declared q result :: rest) ++ [y] := by simp [whole]
      obtain ⟨rfl, last⟩ := List.append_inj' split rfl
      obtain rfl : x = y := by simpa using last
      exact .inr ⟨untouched x (by simp), before, q, rest, rfl, same, fun z hz => untouched z (by simp [hz])⟩
  · rintro (⟨q, rfl, same⟩ | ⟨untouched, before, q, after, rfl, same, passed⟩)
    · exact ⟨entries, q, [], rfl, same, by simp⟩
    · refine ⟨before, q, after ++ [x], by simp, same, fun y hy => ?_⟩
      obtain hy | hy := List.mem_append.mp hy
      · exact passed y hy
      · rw [List.mem_singleton.mp hy]
        exact untouched

/-- What has a say in nothing about a slot changes nothing about it. -/
theorem stands_untouched (untouched : ¬x.Touches h p) :
    Stands h (entries ++ [x]) p result ↔ Stands h entries p result := by
  rw [stands_concat, and_iff_right untouched, or_iff_right]
  rintro ⟨q, rfl, same⟩
  exact untouched same

theorem stands_declared (same : q.Same h p) : Stands h (entries ++ [.declared q d]) p result ↔ d = result := by
  have touched : (Entry.declared q d).Touches h p := same
  rw [stands_concat, or_iff_left fun untouched => untouched.1 touched]
  constructor
  · rintro ⟨_, ⟨⟩, -⟩
    rfl
  · rintro rfl
    exact ⟨q, rfl, same⟩

theorem not_stands (touched : x.Touches h p) (other : ∀ q result, x ≠ .declared q result) :
    ¬Stands h (entries ++ [x]) p result := by
  rw [stands_concat]
  rintro (⟨q, declared, -⟩ | ⟨untouched, -⟩)
  · exact other q result declared
  · exact untouched touched

/-- What a table holds for a slot. -/
def Holds (h : Heap) (table : List Transform) (p : Slot) (result : Descriptor) : Prop :=
  ∃ t ∈ table, (slotOf t).Same h p ∧ t.result = result

theorem holds_middle : Holds h (before ++ u :: rest) p result ↔
    (slotOf u).Same h p ∧ u.result = result ∨ Holds h (before ++ rest) p result := by
  simp only [Holds, List.perm_middle.mem_iff, List.mem_cons, exists_eq_or_imp]

theorem not_holds (none : ∀ t ∈ table, ¬(slotOf t).Same h p) : ¬Holds h table p result :=
  fun ⟨t, ht, same, _⟩ => none t ht same

/-- Whether a table holds for each slot, and holds once, what was declared for it last. -/
structure Kept (h : Heap) (slots : List Slot) (entries : List Entry) (table : List Transform) : Prop where
  known : ∀ t ∈ table, slotOf t ∈ slots
  distinct : table.Pairwise fun t u => ¬(slotOf t).Same h (slotOf u)
  stands : ∀ p ∈ slots, ∀ result, Stands h entries p result ↔ Holds h table p result

/-- A slot has no second declaration in a table. -/
theorem Kept.unique (told : Told h slots) (kept : Kept h slots entries (before ++ u :: rest)) (hp : p ∈ slots)
    (same : (slotOf u).Same h p) : ∀ t ∈ before ++ rest, ¬(slotOf t).Same h p := by
  intro t ht same'
  have hu : slotOf u ∈ slots := kept.known u (by simp)
  have ht' : slotOf t ∈ slots := kept.known t (List.perm_middle.symm.subset (List.mem_cons_of_mem u ht))
  have one : (slotOf t).Same h (slotOf u) := told.trans _ ht' p hp _ hu same' (told.symm _ hu p hp same)
  obtain ⟨-, later, across⟩ := List.pairwise_append.mp kept.distinct
  rw [List.pairwise_cons] at later
  obtain ht | ht := List.mem_append.mp ht
  · exact across t ht u (by simp) one
  · exact later.1 t ht (told.symm _ ht' _ hu one)

/-- A declaration takes the place of the one for its slot, or is added. -/
theorem Kept.declare (told : Told h slots) (kept : Kept h slots entries table) (hq : q ∈ slots) (d : Descriptor) :
    ∃ table', replace ⟨q.key, q.fn, d⟩ table h = .ok table' ∧ Kept h slots (entries ++ [.declared q d]) table' := by
  obtain ⟨before, u, rest, rfl, passed, asked, same⟩ | ⟨passed, absent⟩ := exists_first told kept.known hq
  · have hu : slotOf u ∈ slots := kept.known u (by simp)
    refine ⟨before ++ { u with result := d } :: rest, replace_append passed (Look.bind_of_ok asked), ?_, ?_, ?_⟩
    · have known := kept.known
      rw [List.forall_mem_append, List.forall_mem_cons] at known ⊢
      exact known
    · have distinct := kept.distinct
      simp only [List.pairwise_append, List.pairwise_cons, List.forall_mem_cons] at distinct ⊢
      exact distinct
    · intro p hp result
      have stands := kept.stands p hp result
      rw [holds_middle] at stands ⊢
      by_cases here : (slotOf u).Same h p
      · have others : ¬Holds h (before ++ rest) p result := not_holds (kept.unique told hp here)
        rw [stands_declared (told.trans q hq _ hu p hp (told.symm _ hu q hq same) here), or_iff_left others]
        exact (and_iff_right here).symm
      · have untouched : ¬(Entry.declared q d).Touches h p := fun touched => here (told.trans _ hu q hq p hp same touched)
        have replaced : ¬(slotOf { u with result := d }).Same h p := here
        rw [stands_untouched untouched, stands, or_iff_right fun holds => here holds.1,
          or_iff_right fun holds => replaced holds.1]
  · have added : replace ⟨q.key, q.fn, d⟩ (table ++ []) h = .ok (table ++ [⟨q.key, q.fn, d⟩]) :=
      replace_append passed rfl
    rw [List.append_nil] at added
    refine ⟨_, added, ?_, ?_, ?_⟩
    · rw [List.forall_mem_append, List.forall_mem_singleton]
      exact ⟨kept.known, hq⟩
    · rw [List.pairwise_append]
      refine ⟨kept.distinct, List.pairwise_singleton _ _, fun t ht => ?_⟩
      rw [List.forall_mem_singleton]
      exact absent t ht
    · intro p hp result
      have stands := kept.stands p hp result
      rw [holds_middle, List.append_nil]
      by_cases touched : q.Same h p
      · have others : ¬Holds h table p result := not_holds fun t ht same =>
          absent t ht (told.trans _ (kept.known t ht) p hp q hq same (told.symm q hq p hp touched))
        rw [stands_declared touched, or_iff_left others]
        exact (and_iff_right touched).symm
      · have untouched : ¬(Entry.declared q d).Touches h p := touched
        rw [stands_untouched untouched, stands, or_iff_right fun holds => touched holds.1]

/-- To withdraw a declaration tells whether there was one, and takes it out of the table. -/
theorem Kept.withdraw (told : Told h slots) (kept : Kept h slots entries table) (hq : q ∈ slots) :
    ∃ found table', find? q.key q.fn table h = .ok found ∧
      (∀ result, found.map (·.result) = some result ↔ Stands h entries q result) ∧
      without q.key q.fn table h = .ok table' ∧ Kept h slots (entries ++ [.withdrawn q]) table' := by
  obtain ⟨before, u, rest, rfl, passed, asked, same⟩ | ⟨passed, absent⟩ := exists_first told kept.known hq
  · have hu : slotOf u ∈ slots := kept.known u (by simp)
    have found : find? q.key q.fn (before ++ u :: rest) h = .ok (some u) :=
      (find?_append passed).trans (Look.bind_of_ok asked)
    refine ⟨some u, before ++ rest, found, ?_, without_append passed (Look.bind_of_ok asked), ?_, ?_, ?_⟩
    · intro result
      have others : ¬Holds h (before ++ rest) q result := not_holds (kept.unique told hq same)
      rw [kept.stands q hq, holds_middle, or_iff_left others, and_iff_right same]
      simp
    · exact fun t ht => kept.known t (List.perm_middle.symm.subset (List.mem_cons_of_mem u ht))
    · exact kept.distinct.sublist (List.Sublist.append_left (List.sublist_cons_self u rest) before)
    · intro p hp result
      have stands := kept.stands p hp result
      rw [holds_middle] at stands
      by_cases here : (slotOf u).Same h p
      · have touched : (Entry.withdrawn q).Touches h p := told.trans q hq _ hu p hp (told.symm _ hu q hq same) here
        exact iff_of_false (not_stands touched (by simp)) (not_holds (kept.unique told hp here))
      · have untouched : ¬(Entry.withdrawn q).Touches h p := fun touched => here (told.trans _ hu q hq p hp same touched)
        rw [stands_untouched untouched, stands, or_iff_right fun holds => here holds.1]
  · have found : find? q.key q.fn (table ++ []) h = .ok none := find?_append passed
    have taken : without q.key q.fn (table ++ []) h = .ok (table ++ []) := without_append passed rfl
    rw [List.append_nil] at found taken
    refine ⟨_, _, found, fun result => ?_, taken, kept.known, kept.distinct, fun p hp result => ?_⟩
    · rw [kept.stands q hq]
      exact iff_of_false (by simp) (not_holds absent)
    · by_cases touched : q.Same h p
      · have others : ¬Holds h table p result := not_holds fun t ht same =>
          absent t ht (told.trans _ (kept.known t ht) p hp q hq same (told.symm q hq p hp touched))
        exact iff_of_false (not_stands touched (by simp)) others
      · have untouched : ¬(Entry.withdrawn q).Touches h p := touched
        rw [stands_untouched untouched, kept.stands p hp]

theorem Kept.empty : Kept h slots (entries ++ [.emptied]) [] where
  known := by simp
  distinct := .nil
  stands _ _ _ := iff_of_false (not_stands trivial (by simp)) (not_holds (by simp))

theorem Kept.switch (kept : Kept h slots entries table) (on : Bool) : Kept h slots (entries ++ [.switched on]) table where
  known := kept.known
  distinct := kept.distinct
  stands p hp result := by
    have untouched : ¬(Entry.switched on).Touches h p := fun touched => touched
    rw [stands_untouched untouched, kept.stands p hp]

end History

section Calls

/-- A call that may change the registry. -/
inductive Call where
  | register (element fn result : Value)
  | unregister (element fn : Value)
  | clear
  | setEnabled (flag : Value)

def Call.run : Call → Act Unit
  | .register element fn result => Transforms.register element fn result
  | .unregister element fn => do let _ ← Transforms.unregister element fn
  | .clear => Transforms.clear
  | .setEnabled flag => Transforms.setEnabled flag

/-- A declaration that is to be filed, with the type that it is for. -/
structure Declared where
  source : Descriptor
  slot : Slot
  result : Descriptor

/-- What a call declares, if its types are types and its function has a hash. -/
def declaration (element fn result : Value) : Act Declared := do
  let source ← Descriptor.ofValue element
  let target ← Descriptor.ofValue result
  let key ← keyOf source
  let _ ← fn.hash
  return ⟨source, ⟨key, fn⟩, target⟩

/-- Files a declaration, and reports it. -/
def Declared.file (d : Declared) : Act Unit := do
  let table ← replace ⟨d.slot.key, d.slot.fn, d.result⟩ (← get).transforms
  modify fun s => { s with transforms := table }
  Logging.trace (do
    return "transforms.register_transform: " ++ (← d.source.describe) ++ " --" ++ (← label d.slot.fn) ++ "--> " ++
      (← d.result.describe))

theorem register_eq (element fn result : Value) :
    register element fn result = declaration element fn result >>= Declared.file := by
  simp only [register, declaration, Declared.file, bind_assoc, pure_bind]

/-- What a call comes to in a session; nothing if it fails before it has done anything. -/
def Call.effect? (s : Session) : Call → Option Entry
  | .register element fn result =>
    match declaration element fn result s with
    | .ok d _ => some (.declared d.slot d.result)
    | .error .. => none
  | .unregister element fn =>
    match query element fn s with
    | .ok key _ => some (.withdrawn ⟨key, fn⟩)
    | .error .. => none
  | .clear => some .emptied
  | .setEnabled flag =>
    match flag.truth s.heap with
    | .ok on => some (.switched on)
    | .error _ => none

/-- The session after some calls. A call that fails does not keep the next one from being made. -/
def after (s : Session) (calls : List Call) : Session :=
  calls.foldl (fun s call => call.run.after s) s

/-- What some calls come to, one after the other. -/
def transcript (s : Session) : List Call → List Entry
  | [] => []
  | call :: calls => (call.effect? s).toList ++ transcript (call.run.after s) calls

/-- Whether a session has a heap, a table and the use of it turned on or off. -/
structure Files (h : Heap) (table : List Transform) (on : Bool) (s : Session) : Prop where
  heap : s.heap = h
  table : s.transforms = table
  on : s.transformsEnabled = on

/-- A step that leaves the registry alone. -/
def Aside (s t : Session) : Prop :=
  t.heap = s.heap ∧ t.transforms = s.transforms ∧ t.transformsEnabled = s.transformsEnabled

instance : IsPreorder Session Aside where
  refl _ := ⟨rfl, rfl, rfl⟩
  trans _ _ _ st tu := ⟨tu.1.trans st.1, tu.2.1.trans st.2.1, tu.2.2.trans st.2.2⟩

theorem Files.aside {s t : Session} {on : Bool} (files : Files h table on s) (st : Aside s t) : Files h table on t :=
  ⟨st.1.trans files.heap, st.2.1.trans files.table, st.2.2.trans files.on⟩

theorem fresh_aside : Act.fresh.Leads Aside :=
  fun _ => ⟨rfl, rfl, rfl⟩

theorem ofValue_aside (v : Value) : (Descriptor.ofValue v).Leads Aside := by
  have named (f : Ident → Descriptor) : (do return f (← Act.fresh) : Act Descriptor).Leads Aside :=
    .bind fresh_aside fun _ => .pure _
  unfold Descriptor.ofValue
  split
  case h_1 => exact .pure _
  case h_2 => exact .pure _
  case h_3 => exact .fail _
  case h_12 =>
    refine .ite (.bind (.lift _) fun name => .bind fresh_aside fun id => ?_) (named _)
    exact .bind (.bind fresh_aside fun _ => .pure _) fun _ => .pure _
  all_goals exact named _

theorem keyOf_aside (d : Descriptor) : (keyOf d).Leads Aside :=
  .handle (.bind (.lift _) fun _ => .pure _) fun _ => .pure _

theorem query_aside (element fn : Value) : (query element fn).Leads Aside :=
  .bind (ofValue_aside element) fun d => .bind (keyOf_aside d) fun _ => .bind (.lift _) fun _ => .pure _

theorem record_aside (severity : Logging.Severity) (message : String) :
    (Logging.record severity message).Leads Aside := by
  refine .modify fun s => ?_
  split <;> exact ⟨rfl, rfl, rfl⟩

theorem trace_aside (message : Look String) : (Logging.trace message).Leads Aside :=
  .bind .get fun _ => .ite (.bind (.lift _) fun _ => record_aside _ _) (.pure _)

theorem declaration_aside (element fn result : Value) : (declaration element fn result).Leads Aside :=
  .bind (ofValue_aside element) fun d => .bind (ofValue_aside result) fun _ => .bind (keyOf_aside d) fun _ =>
    .bind (.lift _) fun _ => .pure _

variable {entries : List Entry} {s t : Session} {on : Bool}

theorem Files.file (files : Files h table on s) {d : Declared} {table' : List Transform}
    (replaced : replace ⟨d.slot.key, d.slot.fn, d.result⟩ table h = .ok table') :
    Files h table' on (d.file.after s) := by
  obtain ⟨rfl, rfl, rfl⟩ := files
  have read : (liftM (replace ⟨d.slot.key, d.slot.fn, d.result⟩ s.transforms) : Act (List Transform)) s = .ok table' s :=
    Act.lift_eq_ok.mpr ⟨replaced, rfl⟩
  have filed : d.file.after s = (Logging.trace _).after { s with transforms := table' } :=
    Act.after_congr (Act.bind_of_ok read)
  have there : Files s.heap table' s.transformsEnabled { s with transforms := table' } := ⟨rfl, rfl, rfl⟩
  rw [filed]
  exact there.aside (trace_aside _ _)

/-- To unregister answers whether something is declared for a slot, and withdraws it. -/
theorem Files.unregister (told : Told h slots) (kept : Kept h slots entries table) (files : Files h table on s)
    {element fn : Value} {key : TransformKey} (queried : query element fn s = .ok key t) (hq : ⟨key, fn⟩ ∈ slots) :
    ∃ there u table', unregister element fn s = .ok there u ∧
      (there = true ↔ ∃ result, Stands h entries ⟨key, fn⟩ result) ∧
      Kept h slots (entries ++ [.withdrawn ⟨key, fn⟩]) table' ∧ Files h table' on u := by
  obtain ⟨found, table', looked, stands, taken, kept'⟩ := kept.withdraw told hq
  obtain ⟨rfl, rfl, rfl⟩ := files.aside ((query_aside element fn).ok queried)
  have read : (liftM (find? key fn t.transforms) : Act (Option Transform)) t = .ok found t :=
    Act.lift_eq_ok.mpr ⟨looked, rfl⟩
  have left : (liftM (without key fn t.transforms) : Act (List Transform)) t = .ok table' t :=
    Act.lift_eq_ok.mpr ⟨taken, rfl⟩
  refine ⟨found.isSome, { t with transforms := table' }, table', ?_, ?_, kept', rfl, rfl, rfl⟩
  · exact (Act.bind_of_ok queried).trans ((Act.bind_of_ok read).trans (Act.bind_of_ok left))
  · cases found with
    | none => simpa using fun result standing => by simpa using (stands result).mpr standing
    | some u => simpa using ⟨u.result, (stands u.result).mp rfl⟩

/-- What one call does: the table goes on to hold what the calls have come to. -/
theorem Files.step (told : Told h slots) (kept : Kept h slots entries table) (files : Files h table on s) (call : Call)
    (known : ∀ x ∈ call.effect? s, ∀ p ∈ x.slot?, p ∈ slots) :
    ∃ table', Kept h slots (entries ++ (call.effect? s).toList) table' ∧
      Files h table' (switchedOn on (call.effect? s).toList) (call.run.after s) := by
  cases call with
  | register element fn result =>
    have run : (Call.register element fn result).run s = (declaration element fn result >>= Declared.file) s := by
      rw [← register_eq]
      rfl
    have aside := declaration_aside element fn result
    cases declared : declaration element fn result s with
    | ok d t =>
      have entry : (Call.register element fn result).effect? s = some (.declared d.slot d.result) := by
        simp only [Call.effect?, declared]
      rw [entry] at known ⊢
      obtain ⟨table', replaced, kept'⟩ := kept.declare told (known _ rfl d.slot rfl) d.result
      refine ⟨table', kept', ?_⟩
      rw [Act.after_congr (run.trans (Act.bind_of_ok declared))]
      exact (files.aside (aside.ok declared)).file replaced
    | error f t =>
      have entry : (Call.register element fn result).effect? s = none := by simp only [Call.effect?, declared]
      refine ⟨table, ?_, ?_⟩
      · simpa [entry] using kept
      · rw [entry, Act.after_of_error (run.trans (Act.bind_of_error declared))]
        exact files.aside (aside.error declared)
  | unregister element fn =>
    cases queried : query element fn s with
    | ok key t =>
      have entry : (Call.unregister element fn).effect? s = some (.withdrawn ⟨key, fn⟩) := by
        simp only [Call.effect?, queried]
      rw [entry] at known ⊢
      obtain ⟨there, u, table', run, -, kept', files'⟩ :=
        Files.unregister told kept files queried (known _ rfl ⟨key, fn⟩ rfl)
      refine ⟨table', kept', ?_⟩
      have ran : (Call.unregister element fn).run s = .ok () u := Act.bind_of_ok run
      rw [Act.after_of_ok ran]
      exact files'
    | error f t =>
      have entry : (Call.unregister element fn).effect? s = none := by simp only [Call.effect?, queried]
      have run : Transforms.unregister element fn s = .error f t := Act.bind_of_error queried
      have ran : (Call.unregister element fn).run s = .error f t := Act.bind_of_error run
      refine ⟨table, ?_, ?_⟩
      · simpa [entry] using kept
      · rw [entry, Act.after_of_error ran]
        exact files.aside ((query_aside element fn).error queried)
  | clear => exact ⟨[], .empty, files.heap, rfl, files.on⟩
  | setEnabled flag =>
    cases read : flag.truth s.heap with
    | ok turned =>
      have entry : (Call.setEnabled flag).effect? s = some (.switched turned) := by simp only [Call.effect?, read]
      have run : (Call.setEnabled flag).run s =
          Logging.record .info ("Transform cache " ++ (if turned then "enabled" else "disabled"))
            { s with transformsEnabled := turned } := Act.bind_of_ok (Act.lift_eq_ok.mpr ⟨read, rfl⟩)
      rw [entry]
      refine ⟨table, kept.switch turned, ?_⟩
      have there : Files h table turned { s with transformsEnabled := turned } := ⟨files.heap, files.table, rfl⟩
      rw [Act.after_congr run]
      exact there.aside (record_aside _ _ _)
    | error f =>
      have entry : (Call.setEnabled flag).effect? s = none := by simp only [Call.effect?, read]
      have run : (Call.setEnabled flag).run s = .error f s :=
        Act.bind_of_error (Act.lift_eq_error.mpr ⟨read, rfl⟩)
      refine ⟨table, ?_, ?_⟩
      · simpa [entry] using kept
      · rw [entry, Act.after_of_error run]
        exact files

theorem switchedOn_append (on : Bool) (xs ys : List Entry) :
    switchedOn on (xs ++ ys) = switchedOn (switchedOn on xs) ys :=
  List.foldl_append

/-- What any number of calls does. -/
theorem Files.run (told : Told h slots) (kept : Kept h slots entries table) (files : Files h table on s)
    (calls : List Call) (known : ∀ x ∈ transcript s calls, ∀ p ∈ x.slot?, p ∈ slots) :
    ∃ table', Kept h slots (entries ++ transcript s calls) table' ∧
      Files h table' (switchedOn on (transcript s calls)) (after s calls) := by
  induction calls generalizing entries table on s with
  | nil => exact ⟨table, by simpa [transcript] using kept, files⟩
  | cons call calls ih =>
    rw [transcript, List.forall_mem_append] at known
    obtain ⟨table', kept', files'⟩ := files.step told kept call (by simpa using known.1)
    obtain ⟨table'', kept'', files''⟩ := ih kept' files' known.2
    refine ⟨table'', ?_, ?_⟩
    · rw [transcript, ← List.append_assoc]
      exact kept''
    · rw [transcript, switchedOn_append]
      exact files''

/-- A search finds what is declared for a slot. -/
theorem Files.lookup (told : Told h slots) (kept : Kept h slots entries table) (files : Files h table true s)
    {element fn : Value} {key : TransformKey} (queried : query element fn s = .ok key t) (hq : ⟨key, fn⟩ ∈ slots) :
    ∃ found, lookup element fn s = .ok found t ∧
      ∀ result, found = some result ↔ Stands h entries ⟨key, fn⟩ result := by
  obtain ⟨found, -, looked, stands, -⟩ := kept.withdraw told hq
  have enabled := files.on
  obtain ⟨rfl, rfl, -⟩ := files.aside ((query_aside element fn).ok queried)
  have read : (liftM (find? key fn t.transforms) : Act (Option Transform)) t = .ok found t :=
    Act.lift_eq_ok.mpr ⟨looked, rfl⟩
  refine ⟨found.map (·.result), ?_, stands⟩
  change (if !s.transformsEnabled then pure none else _ : Act (Option Descriptor)) s = _
  rw [if_neg (by simp [enabled])]
  exact (Act.bind_of_ok queried).trans (Act.bind_of_ok read)

theorem lookup_off (off : s.transformsEnabled = false) (element fn : Value) : lookup element fn s = .ok none s := by
  change (if !s.transformsEnabled then pure none else _ : Act (Option Descriptor)) s = _
  rw [if_pos (by simp [off])]
  rfl

theorem keyOf_hashed {d : Descriptor} (hashed : ∃ code, Value.hash (.descriptor d) s.heap = .ok code) :
    keyOf d s = .ok (.byValue d) s := by
  obtain ⟨code, hashed⟩ := hashed
  have hash : (do let _ ← Value.hash (.descriptor d); return .byValue d : Act TransformKey) s = .ok (.byValue d) s :=
    Act.bind_of_ok (Act.lift_eq_ok.mpr ⟨hashed, rfl⟩)
  simp only [keyOf, Act.handle, hash]

/-- A type that can be hashed is a key by its value, one that cannot by its identity. -/
theorem key_of_query {element fn : Value} {key : TransformKey} (queried : query element fn s = .ok key t) :
    ∃ d u, Descriptor.ofValue element s = .ok d u ∧
      ((∃ code, Value.hash (.descriptor d) u.heap = .ok code) ∧ key = .byValue d ∨
        (∃ f, Value.hash (.descriptor d) u.heap = .error f) ∧ key = .byIdentity d) := by
  obtain ⟨d, u, read, queried⟩ := Act.bind_eq_ok.mp queried
  obtain ⟨found, v, keyed, queried⟩ := Act.bind_eq_ok.mp queried
  obtain ⟨_, _, -, answer⟩ := Act.bind_eq_ok.mp queried
  obtain ⟨rfl, -⟩ := Act.pure_eq_ok.mp answer
  refine ⟨d, u, read, ?_⟩
  cases hashed : Value.hash (.descriptor d) u.heap with
  | ok code =>
    cases (keyOf_hashed ⟨code, hashed⟩).symm.trans keyed
    exact .inl ⟨⟨code, rfl⟩, rfl⟩
  | error f =>
    have hash : (do let _ ← Value.hash (.descriptor d); return .byValue d : Act TransformKey) u = .error f u :=
      Act.bind_of_error (Act.lift_eq_error.mpr ⟨hashed, rfl⟩)
    simp only [keyOf, Act.handle, hash] at keyed
    split at keyed
    · obtain ⟨rfl, -⟩ := Act.pure_eq_ok.mp keyed
      exact .inr ⟨⟨f, rfl⟩, rfl⟩
    · cases keyed

/-- A class has a hash, whatever its instances have. -/
theorem hash_instanceOf (i : Ident) (cls : Class) (h : Heap) :
    ∃ code, Value.hash (.descriptor (.instanceOf i cls)) h = .ok code := by
  have hashable : (Value.cls cls).classOf.isHashable = true := by
    change cls.metaclass.isHashable = true
    unfold Class.metaclass
    split <;> rfl
  have named : Value.hashAt 1999 (.cls cls) h = .ok (Value.identityCode (.cls cls)) := by
    change (if (Value.cls cls).classOf.isHashable then pure _ else _ : Look HashCode) h = _
    rw [if_pos hashable]
    rfl
  have parts : [Descriptor.Part.value (.cls cls)].mapM (Value.hashPart (Value.hashAt 1999)) h =
      .ok [Value.identityCode (.cls cls)] := by
    rw [List.mapM_cons]
    exact Look.bind_of_ok named
  exact ⟨_, Look.bind_of_ok parts⟩

theorem isAlike_instanceOf (i j : Ident) (cls : Class) (h : Heap) :
    Value.isAlike (.descriptor (.instanceOf i cls)) (.descriptor (.instanceOf j cls)) h = .ok true := by
  have asked : Value.reflectedFirst (.descriptor (.instanceOf i cls)) (.descriptor (.instanceOf j cls)) = false := rfl
  have same : Value.same (.cls cls) (.cls cls) = true := beq_self_eq_true cls
  have classes (eq : Value → Value → Look Value) : Value.alike eq (.cls cls) (.cls cls) h = .ok true := by
    unfold Value.alike
    rw [if_pos same]
    rfl
  have parts (eq : Value → Value → Look Value) : Value.sameParts (Value.alike eq) (Descriptor.instanceOf i cls).parts
      (Descriptor.instanceOf j cls).parts h = .ok true := Look.bind_of_ok (classes eq)
  have own (eq : Value → Value → Look Value) :
      Value.ownEqual? eq (.descriptor (.instanceOf i cls)) (.descriptor (.instanceOf j cls)) h = .ok (some (.bool true)) :=
    Look.bind_of_ok (parts eq)
  have equal : Value.equal (.descriptor (.instanceOf i cls)) (.descriptor (.instanceOf j cls)) h = .ok (.bool true) := by
    rw [Value.equal, valueDepth, Value.equalAt, Value.askBoth, asked]
    exact Look.bind_of_ok (own _)
  unfold Value.isAlike Value.alike
  split
  · rfl
  · exact Look.bind_of_ok equal

/-- A class counts as the type of its instances. -/
theorem query_class (cls : Class) (i : Ident) (fn : Value) (other : cls ≠ .anything)
    (hashed : ∃ code, fn.hash s.heap = .ok code) : ∃ k k' t,
      query (.cls cls) fn s = .ok k t ∧ query (.descriptor (.instanceOf i cls)) fn s = .ok k' s ∧ k.Alike s.heap k' := by
  obtain ⟨code, hashed⟩ := hashed
  have read : Descriptor.ofValue (.cls cls) s =
      .ok (.instanceOf s.nextIdent cls) { s with nextIdent := s.nextIdent + 1 } := by
    cases cls with
    | anything => exact absurd rfl other
    | _ => rfl
  have asked (t : Session) (ht : t.heap = s.heap) (j : Ident) : (do
      let key ← keyOf (.instanceOf j cls)
      let _ ← fn.hash
      return key : Act TransformKey) t = .ok (.byValue (.instanceOf j cls)) t := by
    have hash : (liftM fn.hash : Act HashCode) t = .ok code t := Act.lift_eq_ok.mpr ⟨ht ▸ hashed, rfl⟩
    exact (Act.bind_of_ok (keyOf_hashed (hash_instanceOf j cls t.heap))).trans (Act.bind_of_ok hash)
  refine ⟨_, _, _, (Act.bind_of_ok read).trans (asked { s with nextIdent := s.nextIdent + 1 } rfl s.nextIdent),
    asked s rfl i, isAlike_instanceOf _ _ cls s.heap⟩

end Calls

/-- **The registry.** It is a map in which the last declaration counts, whatever calls were made in whatever order. A
search finds the result type that was declared last for a type and a function, if it was not withdrawn since and the
table was not emptied; it finds nothing while the use of declarations is turned off, which loses none. To unregister
answers whether there was something to withdraw. The size is the number of types and functions for which something is
declared. Types that can be hashed are compared, those that cannot be are told apart by identity, and a class counts as
the type of its instances. -/
theorem answers_last_declaration (s : Session) (empty : s.transforms = []) (calls : List Call) (slots : List Slot)
    (told : Told s.heap slots) (known : ∀ x ∈ transcript s calls, ∀ p ∈ x.slot?, p ∈ slots) :
    (after s calls).transformsEnabled = switchedOn s.transformsEnabled (transcript s calls) ∧
    ((after s calls).transformsEnabled = false →
      ∀ element fn, lookup element fn (after s calls) = .ok none (after s calls)) ∧
    (∀ element fn key t, query element fn (after s calls) = .ok key t → ⟨key, fn⟩ ∈ slots →
      ((after s calls).transformsEnabled = true → ∃ found, lookup element fn (after s calls) = .ok found t ∧
        ∀ result, found = some result ↔ Stands s.heap (transcript s calls) ⟨key, fn⟩ result) ∧
      ∃ there u, unregister element fn (after s calls) = .ok there u ∧
        (there = true ↔ ∃ result, Stands s.heap (transcript s calls) ⟨key, fn⟩ result)) ∧
    (∃ live : List Slot, size (after s calls) = .ok live.length (after s calls) ∧
      live.Pairwise (fun p q => ¬p.Same s.heap q) ∧ (∀ p ∈ live, p ∈ slots) ∧
      ∀ p ∈ slots, (∃ result, Stands s.heap (transcript s calls) p result) ↔ ∃ q ∈ live, q.Same s.heap p) ∧
    (∀ element fn key t u, query element fn t = .ok key u → ∃ d v, Descriptor.ofValue element t = .ok d v ∧
      ((∃ code, Value.hash (.descriptor d) v.heap = .ok code) ∧ key = .byValue d ∨
        (∃ f, Value.hash (.descriptor d) v.heap = .error f) ∧ key = .byIdentity d)) ∧
    ∀ cls i fn t, cls ≠ .anything → (∃ code, Value.hash fn t.heap = .ok code) → ∃ k k' u,
      query (.cls cls) fn t = .ok k u ∧ query (.descriptor (.instanceOf i cls)) fn t = .ok k' t ∧ k.Alike t.heap k' := by
  have start : Kept s.heap slots [] [] :=
    ⟨by simp, .nil, fun p hp result => iff_of_false (by simp [Stands]) (not_holds (by simp))⟩
  have there : Files s.heap [] s.transformsEnabled s := ⟨rfl, empty, rfl⟩
  obtain ⟨table, kept, files⟩ := there.run told start calls known
  rw [List.nil_append] at kept
  refine ⟨files.on, lookup_off, fun element fn key t queried hq => ⟨fun enabled => ?_, ?_⟩, ?_,
    fun _ _ _ _ _ => key_of_query, fun cls i fn t => query_class cls i fn⟩
  · rw [← files.on, enabled] at files
    exact files.lookup told kept queried hq
  · obtain ⟨there, u, -, run, meant, -⟩ := Files.unregister told kept files queried hq
    exact ⟨there, u, run, meant⟩
  · refine ⟨table.map slotOf, ?_, List.pairwise_map.mpr kept.distinct, ?_, fun p hp => ?_⟩
    · rw [List.length_map, ← files.table]
      rfl
    · simpa using kept.known
    · simp only [kept.stands p hp, Holds]
      constructor
      · rintro ⟨result, t, ht, same, -⟩
        exact ⟨slotOf t, List.mem_map_of_mem ht, same⟩
      · rintro ⟨q, hq, same⟩
        obtain ⟨t, ht, rfl⟩ := List.mem_map.mp hq
        exact ⟨t.result, t, ht, same, rfl⟩

section Sample

/-- A function under a name. -/
def shout : Value :=
  .fn { name := "upper", traced := false, bare := false }

/-- A type that has no hash: what is equal to a list. -/
def listed : Descriptor :=
  .equal 91 (.list .base 0)

/-- Declarations for integers, before and after declarations are turned off, and one for a type without a hash. -/
def declaring : List Call :=
  [.register (.cls .int) shout (.cls .str), .setEnabled (.bool false),
    .register (.descriptor (.instanceOf 90 .int)) shout (.cls .bool),
    .register (.descriptor listed) shout (.cls .int), .setEnabled (.bool true)]

def blank : Session :=
  { heap.lists := #[[]] }

def sampleSlots : List Slot :=
  [⟨.byValue (.instanceOf 1 .int), shout⟩, ⟨.byValue (.instanceOf 90 .int), shout⟩, ⟨.byIdentity listed, shout⟩,
    ⟨.byValue (.instanceOf 5 .int), shout⟩]

/-- The integers are one type, whoever names them, and the type without a hash is another one. -/
theorem same_sampleSlots : ∀ p ∈ sampleSlots, ∀ q ∈ sampleSlots,
    p.Same blank.heap q ↔ (p.key matches .byIdentity _) = (q.key matches .byIdentity _) := by
  have functions : shout.same shout = true := rfl
  have types : listed.same listed = true := rfl
  simp only [sampleSlots, List.mem_cons, List.not_mem_nil, or_false]
  rintro p (rfl | rfl | rfl | rfl) q (rfl | rfl | rfl | rfl)
  all_goals simp [Slot.Same, TransformKey.Alike, isAlike_instanceOf, functions, types]

theorem sampleSlots_told : Told blank.heap sampleSlots where
  types := by
    simp only [sampleSlots, List.mem_cons, List.not_mem_nil, or_false]
    rintro p (rfl | rfl | rfl | rfl) q (rfl | rfl | rfl | rfl)
    all_goals exact ⟨_, rfl⟩
  functions := by
    simp only [sampleSlots, List.mem_cons, List.not_mem_nil, or_false]
    rintro p (rfl | rfl | rfl | rfl) q (rfl | rfl | rfl | rfl)
    all_goals rfl
  refl p hp := (same_sampleSlots p hp p hp).mpr rfl
  symm p hp q hq same := (same_sampleSlots q hq p hp).mpr ((same_sampleSlots p hp q hq).mp same).symm
  trans p hp q hq r hr pq qr :=
    (same_sampleSlots p hp r hr).mpr (((same_sampleSlots p hp q hq).mp pq).trans ((same_sampleSlots q hq r hr).mp qr))

theorem transcript_declaring : transcript blank declaring =
    [.declared ⟨.byValue (.instanceOf 1 .int), shout⟩ (.instanceOf 2 .str), .switched false,
      .declared ⟨.byValue (.instanceOf 90 .int), shout⟩ (.instanceOf 3 .bool),
      .declared ⟨.byIdentity listed, shout⟩ (.instanceOf 4 .int), .switched true] :=
  rfl

/-- The second declaration for integers counts, though it was made while declarations were turned off. -/
theorem declaring_answers : ∃ t u, lookup (.cls .int) shout (after blank declaring) = .ok (some (.instanceOf 3 .bool)) t ∧
    unregister (.cls .int) shout (after blank declaring) = .ok true u := by
  have known : ∀ x ∈ transcript blank declaring, ∀ p ∈ x.slot?, p ∈ sampleSlots := by
    simp [transcript_declaring, Entry.slot?, sampleSlots]
  obtain ⟨enabled, -, answers, -⟩ :=
    answers_last_declaration blank rfl declaring sampleSlots sampleSlots_told known
  have asked : ⟨.byValue (.instanceOf 5 .int), shout⟩ ∈ sampleSlots := by simp [sampleSlots]
  obtain ⟨searched, there, u, withdrawn, present⟩ := answers (.cls .int) shout (.byValue (.instanceOf 5 .int)) _ rfl asked
  obtain ⟨found, run, stands⟩ := searched (by rw [enabled]; rfl)
  have standing : Stands blank.heap (transcript blank declaring) ⟨.byValue (.instanceOf 5 .int), shout⟩
      (.instanceOf 3 .bool) := by
    refine ⟨[_, _], ⟨.byValue (.instanceOf 90 .int), shout⟩, [_, _], rfl, ?_, ?_⟩
    · exact (same_sampleSlots _ (by simp [sampleSlots]) _ asked).mpr rfl
    · simp [Entry.Touches, Slot.Same, TransformKey.Alike]
  rw [(stands _).mpr standing] at run
  rw [present.mpr ⟨_, standing⟩] at withdrawn
  exact ⟨_, u, run, withdrawn⟩

end Sample

end Transforms

end Conform
