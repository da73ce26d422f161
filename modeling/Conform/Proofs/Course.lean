import Conform.Proofs.Habit

/-!
What a run can do to a session. Whatever the library is asked to do, it changes the session in a few ways
only: plain data comes and goes, a checked list is made, written to or frozen, the ancestors of a class are
remembered, a deferred descriptor is resolved. A course is a property of sessions, and a relation between
earlier and later ones, that stands each of these changes. To keep to a course is a habit of the library.

A failure is not taken back by anything that could have made a call, so a course can also say with which
faults a run ends.

Main statement: `Course.habit`.
-/
namespace Conform

theorem Transforms.find?_mem {key : TransformKey} {fn : Value} {table : List Transform} {h : Heap}
    {found : Option Transform} (run : find? key fn table h = .ok found) : ∀ t ∈ found, t ∈ table := by
  induction table with
  | nil =>
    obtain rfl := Look.pure_eq_ok.mp run
    simp
  | cons t rest ih =>
    obtain ⟨answer, -, run⟩ := Look.bind_eq_ok.mp run
    split at run
    · obtain rfl := Look.pure_eq_ok.mp run
      simp
    · exact fun u hu => .tail t (ih run u hu)

/-- What is looked up is declared. -/
theorem Transforms.lookup_mem {element fn : Value} {s t : Session} {found : Option Descriptor}
    (run : lookup element fn s = .ok found t) : ∀ d ∈ found, ∃ declared ∈ s.transforms, declared.result = d := by
  simp only [lookup, Act.bind_eq_ok, Act.get_eq_ok] at run
  obtain ⟨_, _, ⟨rfl, rfl⟩, run⟩ := run
  split at run
  · obtain ⟨rfl, -⟩ := Act.pure_eq_ok.mp run
    simp
  · simp only [Act.bind_eq_ok, Act.get_eq_ok, Act.lift_eq_ok, Act.pure_eq_ok] at run
    obtain ⟨key, u, asked, _, _, ⟨rfl, rfl⟩, known, _, ⟨looked, rfl⟩, rfl, -⟩ := run
    have same := ((query_plain (r := .all) element fn).leads.ok asked).transforms
    intro d hd
    obtain ⟨declared, found, rfl⟩ := Option.map_eq_some_iff.mp hd
    exact ⟨declared, same ▸ find?_mem looked declared found, rfl⟩

/-- What stands the changes that a run makes to a session. -/
structure Course where
  /-- What holds all along. -/
  inv : Session → Prop
  /-- How a session stands to the ones before it. -/
  rel : Session → Session → Prop
  /-- How a session in which a run has failed stands to the ones before it. -/
  fail : Session → Fault → Session → Prop
  /-- The descriptors that come up. -/
  types : Descriptor → Prop
  /-- The values that are called. -/
  callees : Value → Prop
  refl : ∀ s, rel s s
  trans : ∀ {s t u}, rel s t → rel t u → rel s u
  failing : ∀ {s f t}, rel s t → fail s f t
  failed : ∀ {s t f u}, rel s t → fail t f u → fail s f u
  plain : ∀ {s t}, inv s → s.Plainly t → rel s t ∧ inv t
  made : ∀ {s l}, inv s → types l.element → types l.collection → l.frozen = false →
    rel s { s with heap.checked := s.heap.checked.push l } ∧
      inv { s with heap.checked := s.heap.checked.push l }
  written : ∀ {s i items}, inv s → (s.heap.checkedList i).frozen = false →
    rel s { s with heap.checked := s.heap.checked.setIfInBounds i { s.heap.checkedList i with items } } ∧
      inv { s with heap.checked := s.heap.checked.setIfInBounds i { s.heap.checkedList i with items } }
  frozen : ∀ {s i}, inv s →
    rel s { s with
      heap.checked := s.heap.checked.setIfInBounds i { s.heap.checkedList i with frozen := true } } ∧
    inv { s with
      heap.checked := s.heap.checked.setIfInBounds i { s.heap.checkedList i with frozen := true } }
  remembered : ∀ {s c}, inv s → s.ancestors.find? (·.1 == c) = none →
    rel s { s with ancestors := s.ancestors ++ [(c, c.mro)] } ∧
      inv { s with ancestors := s.ancestors ++ [(c, c.mro)] }
  declared : ∀ {s table}, inv s → (∀ t ∈ table, types t.result) →
    rel s { s with transforms := table } ∧ inv { s with transforms := table }
  children : ∀ {d}, types d → ∀ c ∈ d.children, types c
  predicates : ∀ {id message fn}, types (.predicate id message fn) → callees fn
  methods : ∀ {id bases predicates}, types (.constraint id bases predicates) → ∀ f ∈ predicates,
    ∀ {v w : Value} {s t}, v.attribute? f.1 s = .ok (some w) t → w.isBoundMethod → callees w
  elements : ∀ {s}, inv s → ∀ i, types (s.heap.checkedList i).element ∧ types (s.heap.checkedList i).collection
  results : ∀ {s}, inv s → ∀ t ∈ s.transforms, types t.result
  arrays : ∀ {d}, types d → ∀ id, types (.collection id .array d)

namespace Course

variable {α β : Type} {W : Course}

/-- An action that keeps to a course, whether it answers or fails. -/
def Keeps (W : Course) (x : Act α) : Prop :=
  ∀ s, W.inv s →
    match x s with
    | .ok _ t => W.rel s t ∧ W.inv t
    | .error f t => W.fail s f t ∧ W.inv t

namespace Keeps

theorem ok {x : Act α} (hx : W.Keeps x) {s t : Session} (inv : W.inv s) {a : α} (run : x s = .ok a t) :
    W.rel s t ∧ W.inv t := by
  have h := hx s inv
  rwa [run] at h

theorem error {x : Act α} (hx : W.Keeps x) {s t : Session} (inv : W.inv s) {f : Fault}
    (run : x s = .error f t) : W.fail s f t ∧ W.inv t := by
  have h := hx s inv
  rwa [run] at h

theorem mk {x : Act α} (ok : ∀ s a t, W.inv s → x s = .ok a t → W.rel s t ∧ W.inv t)
    (error : ∀ s f t, W.inv s → x s = .error f t → W.fail s f t ∧ W.inv t) : W.Keeps x := by
  intro s inv
  split
  · next run => exact ok s _ _ inv run
  · next run => exact error s _ _ inv run

/-- An action that keeps to the relation, whatever it answers. -/
theorem leads {x : Act α} (hx : ∀ s, W.inv s → W.rel s (x.after s) ∧ W.inv (x.after s)) : W.Keeps x := by
  refine mk (fun s a t inv run => ?_) (fun s f t inv run => ?_)
  · exact Act.after_of_ok run ▸ hx s inv
  · have h := Act.after_of_error run ▸ hx s inv
    exact ⟨W.failing h.1, h.2⟩

/-- What holds once an action is over, on a course that takes a failure as it takes an answer. -/
theorem after {x : Act α} (hx : W.Keeps x) {s : Session} (inv : W.inv s)
    (recovered : ∀ {f t}, W.fail s f t → W.rel s t) : W.rel s (x.after s) ∧ W.inv (x.after s) := by
  cases run : x s with
  | ok a t =>
    rw [Act.after_of_ok run]
    exact hx.ok inv run
  | error f t =>
    rw [Act.after_of_error run]
    exact (hx.error inv run).imp_left recovered

theorem plain {x : Act α} (hx : x.Plain .all) : W.Keeps x :=
  leads fun s inv => W.plain inv (hx.leads s)

theorem pure (a : α) : W.Keeps (pure a) :=
  plain (.pure a)

theorem lift (l : Look α) : W.Keeps (liftM l : Act α) :=
  plain (.lift l)

theorem get : W.Keeps (get : Act Session) :=
  leads fun s inv => ⟨W.refl s, inv⟩

theorem ite {c : Prop} [Decidable c] {x y : Act α} (hx : W.Keeps x) (hy : W.Keeps y) :
    W.Keeps (if c then x else y) := by
  split
  · exact hx
  · exact hy

/-- An action that goes on with what another one answers. -/
theorem andThen {x : Act α} {f : α → Act β} (hx : W.Keeps x)
    (hf : ∀ s a t, W.inv s → x s = .ok a t → W.Keeps (f a)) : W.Keeps (x >>= f) := by
  refine mk (fun s b u inv run => ?_) (fun s e u inv run => ?_)
  · obtain ⟨a, t, first, rest⟩ := Act.bind_eq_ok.mp run
    have st := hx.ok inv first
    have tu := (hf s a t inv first).ok st.2 rest
    exact ⟨W.trans st.1 tu.1, tu.2⟩
  · obtain first | ⟨a, t, first, rest⟩ := Act.bind_eq_error.mp run
    · exact hx.error inv first
    · have st := hx.ok inv first
      have tu := (hf s a t inv first).error st.2 rest
      exact ⟨W.failed st.1 tu.1, tu.2⟩

theorem bind {x : Act α} {f : α → Act β} (hx : W.Keeps x) (hf : ∀ a, W.Keeps (f a)) : W.Keeps (x >>= f) :=
  andThen hx fun _ a _ _ _ => hf a

end Keeps

/-- What is told of and then noted down. -/
theorem note_after {s : Session} {line : Look String} {a : α} {note : Session → Session} (inv : W.inv s)
    (noted : ∀ {log}, W.inv { s with log } → W.rel { s with log } (note { s with log }) ∧ W.inv (note { s with log })) :
    let t := (do Logging.trace line; modify note; return a : Act α).after s
    W.rel s t ∧ W.inv t := by
  cases traced : Logging.trace line s with
  | ok _ u =>
    obtain ⟨log, rfl⟩ := trace_ok traced
    have logged := W.plain inv (⟨rfl, rfl, rfl, rfl, rfl, rfl⟩ : s.Plainly { s with log })
    have kept := noted logged.2
    rw [Act.after_congr (Act.bind_of_ok traced)]
    exact ⟨W.trans logged.1 kept.1, kept.2⟩
  | error f u =>
    obtain ⟨-, rfl⟩ := trace_error traced
    rw [Act.after_of_error (Act.bind_of_error traced)]
    exact ⟨W.refl _, inv⟩

theorem ancestors_keeps (c : Class) : W.Keeps (Nominal.ancestors c) := by
  refine .leads fun s inv => ?_
  rw [Nominal.ancestors, Act.after_congr (Act.bind_of_ok (Act.get_eq_ok.mpr ⟨rfl, rfl⟩))]
  cases found : s.ancestors.find? (·.1 == c) with
  | none => exact note_after inv fun kept => W.remembered kept found
  | some entry => exact ⟨W.refl s, inv⟩

open CheckedList

theorem newChecked_keeps {c : Class} {l : CheckedList} (he : W.types l.element) (hc : W.types l.collection)
    (unfrozen : l.frozen = false) : W.Keeps (Act.newChecked c l) :=
  .leads fun _ inv => W.made inv he hc unfrozen

theorem write_keeps (self : Self) (method : Option String) (items : List Value) :
    W.Keeps (self.write method items) := by
  refine .mk (fun s _ t inv run => ?_) (fun s f t inv run => ?_)
  · cases frozen : (s.heap.checkedList self.at_).frozen with
    | false =>
      rw [Self.write_ok frozen] at run
      cases run
      exact W.written inv frozen
    | true =>
      have known : self.state s = .ok (s.heap.checkedList self.at_) s := rfl
      unfold Self.write at run
      rw [Act.bind_of_ok known, if_pos frozen] at run
      cases run
  · obtain rfl := Self.write_error run
    exact ⟨W.failing (W.refl s), inv⟩

theorem lookup_ok {element fn : Value} {s t : Session} {found : Option Descriptor} (inv : W.inv s)
    (run : Transforms.lookup element fn s = .ok found t) : ∀ d ∈ found, W.types d := by
  intro d hd
  obtain ⟨declared, mem, rfl⟩ := Transforms.lookup_mem run d hd
  exact W.results inv declared mem

/-- Whether what a value is read as is among the descriptors that come up. -/
def Reads (W : Course) (v : Value) : Prop :=
  ∀ s d t, W.inv s → Descriptor.ofValue v s = .ok d t → W.types d

/-- To keep to a course is a habit. -/
def habit (W : Course) : Habit where
  inv := W.inv
  holds := W.Keeps
  reach := .all
  types := W.types
  callees := W.callees
  receivers _ := True
  secret _ := False
  plain hx _ := .plain hx
  reading _ := Habit.reading_of_andThen W.inv W.Keeps (.plain .getHeap) .andThen
  andThen := .andThen
  remembered := ancestors_keeps
  made := newChecked_keeps
  written _ := write_keeps _
  frozen _ _ := .leads fun _ inv => W.frozen inv
  apart _ := id
  children := W.children
  predicates := W.predicates
  attributes _ _ _ v := .plain (v.attribute?_plain fun _ => rfl)
  methods := W.methods
  fields _ _ _ v := .plain (v.field?_plain fun _ => rfl)
  responds _ _ _ v := .bind (.plain (v.attribute?_plain fun _ => rfl)) fun found => by
    cases found <;> exact .pure _
  elements := W.elements
  newcomers _ := trivial
  lookups := lookup_ok
  arrays := W.arrays

/-- An engine whose judgements keep to a course. -/
abbrev Kept (W : Course) (e : Engine) : Prop :=
  W.habit.Kept e

end Course

end Conform
