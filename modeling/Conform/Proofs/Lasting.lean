import Conform.CheckedList.Operation
import Conform.Proofs.Subsumption

/-!
What lasts while checked lists change. A later moment of a run keeps all that was there, but for the
contents of the checked lists that the run changes and for what one-shot iterators still hold.

The assumptions about a run are gathered in `Regime`. Main statement: `Regime.holds_of_below`: at every
moment, a value that matches a type matches the types above it.
-/
namespace Conform

open Value Descriptor

/-- Whether a heap keeps what another holds: everything but what one-shot iterators still hold and the
contents of the checked lists in `P`, which keep their types. -/
structure Heap.Keeps (P : Handle → Prop) (h g : Heap) : Prop where
  lists : Grows h.lists g.lists
  dicts : Grows h.dicts g.dicts
  sets : Grows h.sets g.sets
  buffers : Grows h.buffers g.buffers
  iters : h.iters.size ≤ g.iters.size
  things : Grows h.things g.things
  contexts : Grows h.contexts g.contexts
  checked : h.checked.size ≤ g.checked.size
  elements : ∀ i < h.checked.size, (g.checkedList i).element = (h.checkedList i).element
  collections : ∀ i < h.checked.size, (g.checkedList i).collection = (h.checkedList i).collection
  others : ∀ i < h.checked.size, ¬P i → g.checkedList i = h.checkedList i

namespace Heap.Keeps

variable {P : Handle → Prop} {h g k : Heap}

theorem spans (keeps : h.Keeps P g) : h.Spans g where
  lists := keeps.lists.size_le
  dicts := keeps.dicts.size_le
  sets := keeps.sets.size_le
  buffers := keeps.buffers.size_le
  iters := keeps.iters
  things := keeps.things.size_le
  checked := keeps.checked
  contexts := keeps.contexts.size_le

theorem list_eq (keeps : h.Keeps P g) {i : Handle} (hi : i < h.lists.size) : g.list i = h.list i := by
  simp only [Heap.list, keeps.lists.getElem?_eq hi]

theorem trans (hg : h.Keeps P g) (gk : g.Keeps P k) : h.Keeps P k where
  lists := hg.lists.trans gk.lists
  dicts := hg.dicts.trans gk.dicts
  sets := hg.sets.trans gk.sets
  buffers := hg.buffers.trans gk.buffers
  iters := Nat.le_trans hg.iters gk.iters
  things := hg.things.trans gk.things
  contexts := hg.contexts.trans gk.contexts
  checked := Nat.le_trans hg.checked gk.checked
  elements i hi := (gk.elements i (Nat.lt_of_lt_of_le hi hg.checked)).trans (hg.elements i hi)
  collections i hi := (gk.collections i (Nat.lt_of_lt_of_le hi hg.checked)).trans (hg.collections i hi)
  others i hi hP := (gk.others i (Nat.lt_of_lt_of_le hi hg.checked) hP).trans (hg.others i hi hP)

theorem ofExtends (ext : h.Extends g) : h.Keeps P g where
  lists := ext.lists
  dicts := ext.dicts
  sets := ext.sets
  buffers := ext.buffers
  iters := ext.iters.size_le
  things := ext.things
  contexts := ext.contexts
  checked := ext.checked.size_le
  elements i hi := by rw [ext.checkedList_eq hi]
  collections i hi := by rw [ext.checkedList_eq hi]
  others i hi _ := ext.checkedList_eq hi

end Heap.Keeps

/-- Whether a moment comes later than another one in a run that changes the checked lists in `P`. -/
structure Session.Later (P : Handle → Prop) (s t : Session) : Prop where
  heap : s.heap.Keeps P t.heap
  resolved : ∀ id d, s.resolution? id = some d → t.resolution? id = some d

namespace Session.Later

variable {P : Handle → Prop} {s t u : Session}

theorem refl (s : Session) : s.Later P s :=
  ⟨.ofExtends (.refl _), fun _ _ h => h⟩

theorem trans (st : s.Later P t) (tu : t.Later P u) : s.Later P u :=
  ⟨st.heap.trans tu.heap, fun id d h => tu.resolved id d (st.resolved id d h)⟩

theorem ofBefore (st : s.Before t) : s.Later P t :=
  ⟨.ofExtends st.heap, st.resolved⟩

theorem live (st : s.Later P t) {v : Value} (lv : v.Live s.heap) : v.Live t.heap :=
  Value.Live.reach st.heap.spans v lv

theorem liveType (st : s.Later P t) {d : Descriptor} (ld : d.Live s.heap) : d.Live t.heap :=
  Descriptor.Live.reach st.heap.spans d ld

end Session.Later

/-- Whether a value matches a descriptor: matching answers yes once it goes deep enough. -/
def Holds (functions : Library) (s : Session) (d : Descriptor) (v : Value) : Prop :=
  ∃ n t, (Engine.ofDepth functions n).accepts d v s = .ok true t

/-- A step that leaves all checked lists and all declared transforms as they are. -/
structure Session.Spares (s t : Session) : Prop where
  checked : t.heap.checked = s.heap.checked
  transforms : t.transforms = s.transforms

theorem Session.Spares.trans {s t u : Session} (st : s.Spares t) (tu : t.Spares u) : s.Spares u :=
  ⟨tu.checked.trans st.checked, tu.transforms.trans st.transforms⟩

instance : IsPreorder Session Session.Spares where
  refl _ := ⟨rfl, rfl⟩
  trans _ _ _ := .trans

/-- The descriptors of a family that stand in a session. -/
def Session.Knows (D : Descriptor → Prop) (s : Session) (d : Descriptor) : Prop :=
  D d ∧ d.Live s.heap

theorem Session.Knows.later {D : Descriptor → Prop} {P : Handle → Prop} {s t : Session} {d : Descriptor}
    (hd : s.Knows D d) (st : s.Later P t) : t.Knows D d :=
  ⟨hd.1, st.liveType hd.2⟩

/-- A run of checked lists, by the functions it can call, the family of types it uses and the lists it
changes, with what is assumed of them.

The family is tame and at every moment lawful. Matching is pure and total: it leaves the checked lists
alone, it comes to an answer, and the answer is the same before and after lists change, so no value that
is matched is changed from outside; the equality of payloads lasts as well. -/
structure Regime where
  functions : Library
  family : Descriptor → Prop
  changing : Handle → Prop
  tame : Tame functions family
  lawful : ∀ ω : Session, ω.Sound family → Lawful functions family (ω.Knows family) ω
  accepts_spares : ∀ n d v (s : Session), s.Sound family → family d →
    s.Spares (((Engine.ofDepth functions n).accepts d v).after s)
  subtype_spares : ∀ n a b (s : Session), s.Sound family → family a → family b →
    s.Spares (((Engine.ofDepth functions n).subtype a b).after s)
  total : ∀ {s : Session} {d v}, s.Sound family → s.Knows family d → v.Live s.heap →
    ∃ n b t, (Engine.ofDepth functions n).accepts d v s = .ok b t
  steady : ∀ {s t : Session} {d v}, s.Sound family → t.Sound family → s.Later changing t →
    s.Knows family d → v.Live s.heap → (Holds functions s d v ↔ Holds functions t d v)
  payloads : ∀ {s t : Session} {x y}, s.Sound family → t.Sound family → s.Later changing t →
    Payload (s.Knows family) x → Payload (s.Knows family) y → isAlike x y s.heap = .ok true →
    isAlike x y t.heap = .ok true

namespace Regime

variable (R : Regime)

/-- The engine of a depth. -/
abbrev engine (n : Nat) : Engine := Engine.ofDepth R.functions n

abbrev Sound (s : Session) : Prop := s.Sound R.family

abbrev Later (s t : Session) : Prop := s.Later R.changing t

abbrev Knows (s : Session) (d : Descriptor) : Prop := s.Knows R.family d

abbrev Holds (s : Session) (d : Descriptor) (v : Value) : Prop := Conform.Holds R.functions s d v

variable {R} {s t u : Session} {a b d : Descriptor} {v : Value} {n : Nat}

theorem below_later (sound : R.Sound s) (sound' : R.Sound t) (st : R.Later s t) (ha : R.Knows s a)
    (hb : R.Knows s b) (below : BelowIn s.ground n a b) : BelowIn t.ground n a b :=
  below.onGround (H := t.ground) (R.lawful s sound).order st.resolved
    (fun _ _ hx hy => R.payloads sound sound' st hx hy) (fun _ _ => id) ha hb

/-- A type above one that a value matches does not refuse the value: if it did, the one below could be
asked afterwards and would answer yes in the same history. -/
theorem not_refused (sound : R.Sound s) (ha : R.Knows s a) (hb : R.Knows s b) (lv : v.Live s.heap)
    {m : Nat} (below : BelowIn s.ground m a b) (h : R.Holds s a v) :
    (R.engine n).accepts b v s ≠ .ok false t := by
  intro asked
  obtain ⟨st, soundt⟩ := ((R.tame.quiet n).1 b v hb.1).ok asked sound
  have later : R.Later s t := .ofBefore st
  obtain ⟨k, ω, again⟩ := (R.steady sound soundt later ha lv).mp h
  obtain ⟨tω, soundω⟩ := ((R.tame.quiet k).1 a v ha.1).ok again soundt
  have sω : R.Later s ω := later.trans (.ofBefore tω)
  have accepted : Matched R.functions R.family ω k a v true :=
    .mk soundt (later.liveType ha.2) (later.live lv) again (.refl ω)
  have refused : Matched R.functions R.family ω n b v false := .mk sound hb.2 lv asked tω
  exact (R.lawful ω soundω).not_refused R.tame (ha.later sω) (hb.later sω)
    (below_later sound soundω sω ha hb below) accepted refused

/-- A value that matches a type matches every type above it. -/
theorem holds_of_below (sound : R.Sound s) (ha : R.Knows s a) (hb : R.Knows s b) (lv : v.Live s.heap)
    (below : BelowIn s.ground n a b) (h : R.Holds s a v) : R.Holds s b v := by
  obtain ⟨m, answer, t, asked⟩ := R.total sound hb lv
  cases answer with
  | true => exact ⟨m, t, asked⟩
  | false => exact absurd asked (not_refused sound ha hb lv below h)

/-- An answer of subtyping is a derivation at the moment it is given. -/
theorem below_of_subtype (sound : R.Sound s) (ha : R.Knows s a) (hb : R.Knows s b)
    (run : (R.engine n).subtype a b s = .ok true t) : ∃ m, BelowIn t.ground m a b := by
  obtain ⟨st, soundt⟩ := ((R.tame.quiet n).2 a b ha.1 hb.1).ok run sound
  have later : R.Later s t := .ofBefore st
  exact ⟨_, (R.lawful t soundt).below_of_judged R.tame.toResolving (ha.later later) (hb.later later)
    ⟨s, t, sound, by simpa using ⟨ha.2, hb.2⟩, run, .refl t⟩⟩

/-- Types that count as equal are below each other. -/
theorem below_of_alike (sound : R.Sound s) (ha : R.Knows s a) (hb : R.Knows s b)
    (run : isAlike (.descriptor a) (.descriptor b) s.heap = .ok true) :
    ∃ m, BelowIn s.ground m b a := by
  have law := R.lawful s sound
  exact ⟨1, ((law.twin_of_alike (Nat.le_refl _) ha hb run).symm law.order ha hb).below⟩

end Regime

end Conform
