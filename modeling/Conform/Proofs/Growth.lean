import Conform.Session

/-!
Heaps that only grow. A value is live in a heap if every changing value inside it stands there; what is
live is read in a greater heap exactly as before.

Main statements: `Value.Live.reach`, and for each table that a live handle reads the same.
-/
namespace Conform

/-- Whether one table starts with all that another holds. -/
def Grows {α : Type} (xs ys : Array α) : Prop :=
  ∀ (i : Nat) (x : α), xs[i]? = some x → ys[i]? = some x

namespace Grows

variable {α : Type} {xs ys zs : Array α}

theorem refl (xs : Array α) : Grows xs xs := fun _ _ h => h

theorem trans (hxy : Grows xs ys) (hyz : Grows ys zs) : Grows xs zs :=
  fun i x h => hyz i x (hxy i x h)

theorem push (xs : Array α) (x : α) : Grows xs (xs.push x) := by
  intro i y h
  obtain ⟨hi, rfl⟩ := Array.getElem?_eq_some_iff.mp h
  rw [Array.getElem?_push_lt hi]

theorem getElem?_eq (hxy : Grows xs ys) {i : Nat} (hi : i < xs.size) : ys[i]? = xs[i]? := by
  rw [Array.getElem?_eq_getElem hi]
  exact hxy i xs[i] (Array.getElem?_eq_getElem hi)

theorem lt_size (hxy : Grows xs ys) {i : Nat} (hi : i < xs.size) : i < ys.size := by
  have h := hxy.getElem?_eq hi
  rw [Array.getElem?_eq_getElem hi] at h
  exact (Array.getElem?_eq_some_iff.mp h).1

theorem size_le (hxy : Grows xs ys) : xs.size ≤ ys.size :=
  Nat.le_of_not_lt fun h => Nat.lt_irrefl _ (hxy.lt_size h)

end Grows

/-- Whether every place of a heap is a place of another one. -/
structure Heap.Spans (h g : Heap) : Prop where
  lists : h.lists.size ≤ g.lists.size
  dicts : h.dicts.size ≤ g.dicts.size
  sets : h.sets.size ≤ g.sets.size
  buffers : h.buffers.size ≤ g.buffers.size
  iters : h.iters.size ≤ g.iters.size
  things : h.things.size ≤ g.things.size
  checked : h.checked.size ≤ g.checked.size
  contexts : h.contexts.size ≤ g.contexts.size

/-- Whether a heap holds all that another holds, unchanged. -/
structure Heap.Extends (h g : Heap) : Prop where
  lists : Grows h.lists g.lists
  dicts : Grows h.dicts g.dicts
  sets : Grows h.sets g.sets
  buffers : Grows h.buffers g.buffers
  iters : Grows h.iters g.iters
  things : Grows h.things g.things
  checked : Grows h.checked g.checked
  contexts : Grows h.contexts g.contexts

namespace Heap.Extends

variable {h g k : Heap} {i : Handle}

theorem refl (h : Heap) : h.Extends h where
  lists := .refl _
  dicts := .refl _
  sets := .refl _
  buffers := .refl _
  iters := .refl _
  things := .refl _
  checked := .refl _
  contexts := .refl _

theorem trans (hg : h.Extends g) (gk : g.Extends k) : h.Extends k where
  lists := hg.lists.trans gk.lists
  dicts := hg.dicts.trans gk.dicts
  sets := hg.sets.trans gk.sets
  buffers := hg.buffers.trans gk.buffers
  iters := hg.iters.trans gk.iters
  things := hg.things.trans gk.things
  checked := hg.checked.trans gk.checked
  contexts := hg.contexts.trans gk.contexts

variable (ext : h.Extends g)
include ext

theorem spans : h.Spans g where
  lists := ext.lists.size_le
  dicts := ext.dicts.size_le
  sets := ext.sets.size_le
  buffers := ext.buffers.size_le
  iters := ext.iters.size_le
  things := ext.things.size_le
  checked := ext.checked.size_le
  contexts := ext.contexts.size_le

theorem list_eq (hi : i < h.lists.size) : g.list i = h.list i := by
  simp only [Heap.list, ext.lists.getElem?_eq hi]

theorem dict_eq (hi : i < h.dicts.size) : g.dict i = h.dict i := by
  simp only [Heap.dict, ext.dicts.getElem?_eq hi]

theorem set_eq (hi : i < h.sets.size) : g.set i = h.set i := by
  simp only [Heap.set, ext.sets.getElem?_eq hi]

theorem buffer_eq (hi : i < h.buffers.size) : g.buffer i = h.buffer i := by
  simp only [Heap.buffer, ext.buffers.getElem?_eq hi]

theorem iter_eq (hi : i < h.iters.size) : g.iter i = h.iter i := by
  simp only [Heap.iter, ext.iters.getElem?_eq hi]

theorem thing_eq (hi : i < h.things.size) : g.thing i = h.thing i := by
  simp only [Heap.thing, ext.things.getElem?_eq hi]

theorem checkedList_eq (hi : i < h.checked.size) : g.checkedList i = h.checkedList i := by
  simp only [Heap.checkedList, ext.checked.getElem?_eq hi]

theorem context_eq (hi : i < h.contexts.size) : g.context i = h.context i := by
  simp only [Heap.context, ext.contexts.getElem?_eq hi]

end Heap.Extends

mutual

/-- Whether every changing value inside a value stands in a heap. -/
def Value.Live (h : Heap) : Value → Prop
  | .list _ i => i < h.lists.size
  | .dict _ i => i < h.dicts.size
  | .set i => i < h.sets.size
  | .bytearray i => i < h.buffers.size
  | .iter i => i < h.iters.size
  | .thing _ i => i < h.things.size
  | .checked _ i => i < h.checked.size
  | .context i => i < h.contexts.size
  | .tuple _ items | .frozenset _ items | .exception _ _ items => liveItems h items
  | .pair _ l r => l.Live h ∧ r.Live h
  | .frozenMap _ entries => liveEntries h entries
  | .slice _ a b c => a.Live h ∧ b.Live h ∧ c.Live h
  | .patternTest _ _ v | .method v _ _ | .outcomeError _ v _ | .success _ v | .failure _ v
  | .keys _ v => v.Live h
  | .mismatchError _ a b c d | .mismatch _ a b c d => a.Live h ∧ b.Live h ∧ c.Live h ∧ d.Live h
  | .descriptor d => d.Live h
  | _ => True

def Descriptor.Live (h : Heap) : Descriptor → Prop
  | .union _ ds | .intersection _ ds | .tupleOf _ ds => liveTypes h ds
  | .negation _ d | .nilable _ d | .rangeOf _ d | .collection _ _ d | .checkedListOf _ d => d.Live h
  | .constraint _ ds fs => liveTypes h ds ∧ liveNamed h fs
  | .shape _ fs => liveNamed h fs
  | .mappingOf _ k v => k.Live h ∧ v.Live h
  | .predicate _ m f => m.Live h ∧ f.Live h
  | .unit _ v | .equal _ v | .within _ v | .deferred _ v => v.Live h
  | _ => True

def liveItems (h : Heap) : List Value → Prop
  | [] => True
  | v :: vs => v.Live h ∧ liveItems h vs

def liveEntries (h : Heap) : List (Value × Value) → Prop
  | [] => True
  | (k, v) :: rest => (k.Live h ∧ v.Live h) ∧ liveEntries h rest

def liveTypes (h : Heap) : List Descriptor → Prop
  | [] => True
  | d :: ds => d.Live h ∧ liveTypes h ds

def liveNamed (h : Heap) : List (String × Descriptor) → Prop
  | [] => True
  | (_, d) :: rest => d.Live h ∧ liveNamed h rest

end

section Live

variable {h g : Heap}

@[simp] theorem liveItems_iff {vs : List Value} : liveItems h vs ↔ ∀ v ∈ vs, v.Live h := by
  induction vs with
  | nil => simp [liveItems]
  | cons v vs ih => simp [liveItems, ih]

@[simp] theorem liveEntries_iff {entries : List (Value × Value)} :
    liveEntries h entries ↔ ∀ e ∈ entries, e.1.Live h ∧ e.2.Live h := by
  induction entries with
  | nil => simp [liveEntries]
  | cons e rest ih =>
    obtain ⟨k, v⟩ := e
    simp [liveEntries, ih]

@[simp] theorem liveTypes_iff {ds : List Descriptor} : liveTypes h ds ↔ ∀ d ∈ ds, d.Live h := by
  induction ds with
  | nil => simp [liveTypes]
  | cons d ds ih => simp [liveTypes, ih]

@[simp] theorem liveNamed_iff {fields : List (String × Descriptor)} :
    liveNamed h fields ↔ ∀ f ∈ fields, f.2.Live h := by
  induction fields with
  | nil => simp [liveNamed]
  | cons f rest ih =>
    obtain ⟨n, d⟩ := f
    simp [liveNamed, ih]

mutual

theorem Value.Live.reach (spans : h.Spans g) (v : Value) (live : v.Live h) : v.Live g := by
  cases v with
  | list k i => exact Nat.lt_of_lt_of_le live spans.lists
  | dict k i => exact Nat.lt_of_lt_of_le live spans.dicts
  | set i => exact Nat.lt_of_lt_of_le live spans.sets
  | bytearray i => exact Nat.lt_of_lt_of_le live spans.buffers
  | iter i => exact Nat.lt_of_lt_of_le live spans.iters
  | thing c i => exact Nat.lt_of_lt_of_le live spans.things
  | checked c i => exact Nat.lt_of_lt_of_le live spans.checked
  | context i => exact Nat.lt_of_lt_of_le live spans.contexts
  | tuple id items => exact liveItems_reach spans items live
  | frozenset id items => exact liveItems_reach spans items live
  | exception id c items => exact liveItems_reach spans items live
  | pair id l r => exact ⟨Value.Live.reach spans l live.1, Value.Live.reach spans r live.2⟩
  | frozenMap id entries => exact liveEntries_reach spans entries live
  | slice id a b c =>
    exact ⟨Value.Live.reach spans a live.1, Value.Live.reach spans b live.2.1, Value.Live.reach spans c live.2.2⟩
  | keys id owner => exact Value.Live.reach spans owner live
  | patternTest id r w => exact Value.Live.reach spans w live
  | method w name binding => exact Value.Live.reach spans w live
  | outcomeError id w m => exact Value.Live.reach spans w live
  | success id w => exact Value.Live.reach spans w live
  | failure id w => exact Value.Live.reach spans w live
  | mismatchError id a b c d =>
    exact ⟨Value.Live.reach spans a live.1, Value.Live.reach spans b live.2.1,
      Value.Live.reach spans c live.2.2.1, Value.Live.reach spans d live.2.2.2⟩
  | mismatch id a b c d =>
    exact ⟨Value.Live.reach spans a live.1, Value.Live.reach spans b live.2.1,
      Value.Live.reach spans c live.2.2.1, Value.Live.reach spans d live.2.2.2⟩
  | descriptor d => exact Descriptor.Live.reach spans d live
  | _ => trivial

theorem Descriptor.Live.reach (spans : h.Spans g) (d : Descriptor) (live : d.Live h) : d.Live g := by
  cases d with
  | union id ds => exact liveTypes_reach spans ds live
  | intersection id ds => exact liveTypes_reach spans ds live
  | tupleOf id ds => exact liveTypes_reach spans ds live
  | negation id d => exact Descriptor.Live.reach spans d live
  | nilable id d => exact Descriptor.Live.reach spans d live
  | rangeOf id d => exact Descriptor.Live.reach spans d live
  | collection id k d => exact Descriptor.Live.reach spans d live
  | checkedListOf id d => exact Descriptor.Live.reach spans d live
  | constraint id ds fs => exact ⟨liveTypes_reach spans ds live.1, liveNamed_reach spans fs live.2⟩
  | shape id fs => exact liveNamed_reach spans fs live
  | mappingOf id k v => exact ⟨Descriptor.Live.reach spans k live.1, Descriptor.Live.reach spans v live.2⟩
  | predicate id m f => exact ⟨Value.Live.reach spans m live.1, Value.Live.reach spans f live.2⟩
  | unit id v => exact Value.Live.reach spans v live
  | equal id v => exact Value.Live.reach spans v live
  | within id v => exact Value.Live.reach spans v live
  | deferred id v => exact Value.Live.reach spans v live
  | _ => trivial

theorem liveItems_reach (spans : h.Spans g) (vs : List Value) (live : liveItems h vs) :
    liveItems g vs := by
  cases vs with
  | nil => trivial
  | cons v vs => exact ⟨Value.Live.reach spans v live.1, liveItems_reach spans vs live.2⟩

theorem liveEntries_reach (spans : h.Spans g) (entries : List (Value × Value))
    (live : liveEntries h entries) : liveEntries g entries := by
  match entries, live with
  | [], _ => trivial
  | (k, v) :: rest, live =>
    exact ⟨⟨Value.Live.reach spans k live.1.1, Value.Live.reach spans v live.1.2⟩,
      liveEntries_reach spans rest live.2⟩

theorem liveTypes_reach (spans : h.Spans g) (ds : List Descriptor) (live : liveTypes h ds) :
    liveTypes g ds := by
  cases ds with
  | nil => trivial
  | cons d ds => exact ⟨Descriptor.Live.reach spans d live.1, liveTypes_reach spans ds live.2⟩

theorem liveNamed_reach (spans : h.Spans g) (fields : List (String × Descriptor))
    (live : liveNamed h fields) : liveNamed g fields := by
  match fields, live with
  | [], _ => trivial
  | (_, d) :: rest, live =>
    exact ⟨Descriptor.Live.reach spans d live.1, liveNamed_reach spans rest live.2⟩

end

theorem Value.Live.grow (ext : h.Extends g) (v : Value) (live : v.Live h) : v.Live g :=
  Value.Live.reach ext.spans v live

theorem Descriptor.Live.grow (ext : h.Extends g) (d : Descriptor) (live : d.Live h) : d.Live g :=
  Descriptor.Live.reach ext.spans d live

end Live

end Conform
