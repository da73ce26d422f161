import Conform.Proofs.Effects
import Conform.Proofs.Lasting

/-!
Sessions in order: every checked list holds what its types promise, and every declared transform tells
the truth. An action is sure at a moment if from there on it leads from order to order, whether it
answers or fails; what is put together from sure actions is sure.
-/
namespace Conform

open Value Descriptor

section Heaps

variable {h : Heap}

theorem list_push {j : Handle} {vs : List Value} :
    ({ h with lists := h.lists.push vs } : Heap).list j = if j = h.lists.size then vs else h.list j := by
  simp only [Heap.list, Array.getElem?_push]
  split <;> rfl

theorem context_push {j : Handle} {c : CheckContext} :
    ({ h with contexts := h.contexts.push c } : Heap).context j =
      if j = h.contexts.size then c else h.context j := by
  simp only [Heap.context, Array.getElem?_push]
  split <;> rfl

/-- What a context holds. -/
def CheckContext.values (c : CheckContext) : List Value :=
  [c.expected, c.actual, c.receiver, c.operation, c.position, c.name]

/-- A closed heap stays closed when lists, iterators, checked lists and contexts come to hold other
things that are there. -/
theorem Heap.Closed.change {g : Heap} (closed : h.Closed) (spans : h.Spans g) (dicts : g.dicts = h.dicts)
    (sets : g.sets = h.sets) (things : g.things = h.things)
    (lists : ∀ i, ∀ v ∈ g.list i, v ∈ h.list i ∨ v.Live g)
    (iters : ∀ i, ∀ v ∈ g.iter i, v ∈ h.iter i ∨ v.Live g)
    (checked : ∀ i, ∀ v ∈ (g.checkedList i).items, v ∈ (h.checkedList i).items ∨ v.Live g)
    (elements : ∀ i, (g.checkedList i).element = (h.checkedList i).element ∨
      (g.checkedList i).element.Live g)
    (contexts : ∀ i, g.context i = h.context i ∨ ∀ v ∈ (g.context i).values, v.Live g) : g.Closed := by
  have there {v : Value} (lv : v.Live h) : v.Live g := Value.Live.reach spans v lv
  refine ⟨fun i v hv => ?_, fun i e he => ?_, fun i v hv => ?_, fun i v hv => ?_, fun i a ha => ?_,
    fun i v hv => ?_, fun i => ?_, fun i => ?_, fun i j => ?_⟩
  · exact (lists i v hv).elim (fun hv => there (closed.lists i v hv)) id
  · simp only [Heap.dict, dicts] at he
    exact ⟨there (closed.dicts i e he).1, there (closed.dicts i e he).2⟩
  · simp only [Heap.set, sets] at hv
    exact there (closed.sets i v hv)
  · exact (iters i v hv).elim (fun hv => there (closed.iters i v hv)) id
  · simp only [Heap.thing, things] at ha
    exact there (closed.things i a ha)
  · exact (checked i v hv).elim (fun hv => there (closed.checked i v hv)) id
  · obtain same | live := elements i
    · rw [same]
      exact Descriptor.Live.reach spans _ (closed.elements i)
    · exact live
  · obtain same | live := contexts i
    · rw [same]
      exact fun v hv => there (closed.contexts i v hv)
    · exact live
  · simpa only [ownAttribute?, Heap.thing, things] using closed.walks i j

/-- A sound session stays sound when only its heap changes, to one that reaches as far. -/
theorem Session.Sound.change {D : Descriptor → Prop} {s t : Session} (sound : s.Sound D)
    (closed : t.heap.Closed) (spans : s.heap.Spans t.heap) (ancestors : t.ancestors = s.ancestors)
    (resolved : t.resolved = s.resolved) (elements : ∀ i, D (t.heap.checkedList i).element) :
    t.Sound D where
  closed := closed
  ancestors := ancestors ▸ sound.ancestors
  resolved := by
    intro id thunk d hd hr
    have known := sound.resolved id thunk d hd (by simpa only [Session.resolution?, resolved] using hr)
    exact ⟨known.1, Descriptor.Live.reach spans d known.2⟩
  elements := elements

end Heaps

/-- Whether a checked list holds what its types promise. -/
structure CheckedList.Kept (R : Regime) (s : Session) (l : CheckedList) : Prop where
  collection : ∃ id, l.collection = .collection id .array l.element
  items : ∀ v ∈ l.items, R.Holds s l.element v

/-- The type that a declaration is made for. -/
def TransformKey.source : TransformKey → Descriptor
  | .byValue d | .byIdentity d => d

/-- A declaration that tells the truth: its function, or one that counted as equal to it, takes a value
of the type it is made for to a value of the declared type. -/
def Transform.Truthful (R : Regime) (declared : Transform) : Prop :=
  ∀ (s t u : Session) fn n x v, R.Sound s → R.Sound t → R.Later s t →
    isAlike declared.fn fn s.heap = .ok true → x.Live t.heap → R.Holds t declared.key.source x →
    (R.engine n).call fn [x] [] t = .ok v u → R.Holds u declared.result v

namespace Regime

/-- Whether everything is as it should be. -/
structure InOrder (R : Regime) (s : Session) : Prop where
  sound : R.Sound s
  kept : ∀ i < s.heap.checked.size, (s.heap.checkedList i).Kept R s
  truthful : ∀ declared ∈ s.transforms, declared.Truthful R
  known : ∀ declared ∈ s.transforms, R.Knows s declared.key.source ∧ R.Knows s declared.result

variable {R : Regime} {α β : Type} {s t u : Session}

/-- Whether values are there and match a type. -/
def Admits (R : Regime) (s : Session) (d : Descriptor) (vs : List Value) : Prop :=
  ∀ v ∈ vs, v.Live s.heap ∧ R.Holds s d v

theorem Admits.later {d : Descriptor} {vs : List Value} (h : R.Admits s d vs) (sound : R.Sound s)
    (sound' : R.Sound t) (st : R.Later s t) (hd : R.Knows s d) : R.Admits t d vs := by
  intro v hv
  obtain ⟨lv, holds⟩ := h v hv
  exact ⟨st.live lv, (R.steady sound sound' st hd lv).mp holds⟩

theorem Admits.live {d : Descriptor} {vs : List Value} (h : R.Admits s d vs) :
    ∀ v ∈ vs, v.Live s.heap :=
  fun v hv => (h v hv).1

namespace InOrder

theorem element (order : R.InOrder s) (i : Handle) : R.Knows s (s.heap.checkedList i).element :=
  ⟨order.sound.elements i, order.sound.closed.elements i⟩

theorem items (order : R.InOrder s) {i : Handle} (hi : i < s.heap.checked.size) :
    R.Admits s (s.heap.checkedList i).element (s.heap.checkedList i).items :=
  fun v hv => ⟨order.sound.closed.checked i v hv, (order.kept i hi).items v hv⟩

/-- Order lasts while the checked lists and the declared transforms are left alone. -/
theorem spared (order : R.InOrder s) (st : R.Later s t) (sound : R.Sound t) (spares : s.Spares t) :
    R.InOrder t := by
  have same (i : Handle) : t.heap.checkedList i = s.heap.checkedList i := by
    simp only [Heap.checkedList, spares.checked]
  refine ⟨sound, fun i hi => ?_, ?_, fun declared hd => ?_⟩
  · rw [spares.checked] at hi
    rw [same]
    have admits := (order.items hi).later order.sound sound st (order.element i)
    exact ⟨(order.kept i hi).collection, fun v hv => (admits v hv).2⟩
  · rw [spares.transforms]
    exact order.truthful
  · rw [spares.transforms] at hd
    exact ⟨(order.known declared hd).1.later st, (order.known declared hd).2.later st⟩

end InOrder

/-- An action that at a moment leads on to a moment in order, whether it answers or fails, and whose
answer has a property. -/
structure Sure (R : Regime) (s : Session) (x : Act α) (Q : α → Session → Prop) : Prop where
  ok : ∀ a t, x s = .ok a t → R.Later s t ∧ R.InOrder t ∧ Q a t
  error : ∀ e t, x s = .error e t → R.Later s t ∧ R.InOrder t

namespace Sure

variable {x : Act α} {Q : α → Session → Prop}

theorem after (h : R.Sure s x Q) : R.Later s (x.after s) ∧ R.InOrder (x.after s) := by
  unfold Act.after
  split
  · next run => exact ⟨(h.ok _ _ run).1, (h.ok _ _ run).2.1⟩
  · next run => exact h.error _ _ run

theorem mono {Q' : α → Session → Prop} (h : R.Sure s x Q)
    (hQ : ∀ a t, R.Later s t → R.InOrder t → Q a t → Q' a t) : R.Sure s x Q' := by
  refine ⟨fun a t run => ?_, h.error⟩
  obtain ⟨st, order, ha⟩ := h.ok a t run
  exact ⟨st, order, hQ a t st order ha⟩

/-- The run that gave the answer may be kept in mind. -/
theorem noted (h : R.Sure s x Q) : R.Sure s x fun a t => x s = .ok a t ∧ Q a t := by
  refine ⟨fun a t run => ?_, h.error⟩
  obtain ⟨st, order, ha⟩ := h.ok a t run
  exact ⟨st, order, run, ha⟩

theorem bind {f : α → Act β} {Q' : β → Session → Prop} (hx : R.Sure s x Q)
    (hf : ∀ a t, R.Later s t → R.InOrder t → Q a t → R.Sure t (f a) Q') : R.Sure s (x >>= f) Q' := by
  constructor
  · intro b u run
    obtain ⟨a, t, first, run⟩ := Act.bind_eq_ok.mp run
    obtain ⟨st, order, ha⟩ := hx.ok a t first
    obtain ⟨tu, done⟩ := (hf a t st order ha).ok b u run
    exact ⟨st.trans tu, done⟩
  · intro e u run
    obtain first | ⟨a, t, first, run⟩ := Act.bind_eq_error.mp run
    · exact hx.error e u first
    · obtain ⟨st, order, ha⟩ := hx.ok a t first
      obtain ⟨tu, done⟩ := (hf a t st order ha).error e u run
      exact ⟨st.trans tu, done⟩

section

variable (order : R.InOrder s)
include order

theorem pure {a : α} (hQ : Q a s) : R.Sure s (pure a) Q := by
  refine ⟨fun b t run => ?_, fun e t run => by simp at run⟩
  obtain ⟨rfl, rfl⟩ := Act.pure_eq_ok.mp run
  exact ⟨.refl s, order, hQ⟩

theorem throw (e : Fault) : R.Sure s (throw e) Q := by
  refine ⟨fun a t run => by simp at run, fun e t run => ?_⟩
  obtain ⟨-, rfl⟩ := Act.throw_eq_error.mp run
  exact ⟨.refl s, order⟩

theorem fail (c : Cause) : R.Sure s (Act.fail c) Q :=
  throw order (.cause c)

theorem look {l : Look α} (hQ : ∀ a, l s.heap = .ok a → Q a s) : R.Sure s (liftM l) Q := by
  refine ⟨fun a t run => ?_, fun e t run => ?_⟩
  · obtain ⟨answer, rfl⟩ := Act.lift_eq_ok.mp run
    exact ⟨.refl s, order, hQ a answer⟩
  · obtain ⟨-, rfl⟩ := Act.lift_eq_error.mp run
    exact ⟨.refl s, order⟩

theorem reading (l : Look α) : R.Sure s (liftM l) fun _ _ => True :=
  look order fun _ _ => trivial

/-- What comes after a look starts where the look was taken. -/
theorem seeing {l : Look β} {f : β → Act α} (hf : ∀ b, l s.heap = .ok b → R.Sure s (f b) Q) :
    R.Sure s (liftM l >>= f) Q := by
  refine .bind (look (Q := fun b t => t = s ∧ l s.heap = .ok b) order fun b seen => ⟨rfl, seen⟩) ?_
  rintro b _ - - ⟨rfl, seen⟩
  exact hf b seen

end

theorem ite {c : Prop} [Decidable c] {y : Act α} (hx : c → R.Sure s x Q) (hy : ¬c → R.Sure s y Q) :
    R.Sure s (if c then x else y) Q := by
  split
  · next h => exact hx h
  · next h => exact hy h

/-- The heap as it is. -/
theorem getHeap {f : Heap → Act α} (hf : R.Sure s (f s.heap) Q) : R.Sure s (Act.getHeap >>= f) Q :=
  ⟨hf.ok, hf.error⟩

/-- A quiet action that leaves the checked lists alone. -/
theorem quiet (order : R.InOrder s) (hx : x.Quiet R.family) (spares : s.Spares (x.after s))
    (hQ : ∀ a t, x s = .ok a t → R.Later s t → R.InOrder t → Q a t) : R.Sure s x Q := by
  have ends : R.Later s (x.after s) ∧ R.InOrder (x.after s) := by
    obtain ⟨before, sound⟩ := hx s order.sound
    exact ⟨.ofBefore before, order.spared (.ofBefore before) sound spares⟩
  refine ⟨fun a t run => ?_, fun e t run => Act.after_of_error run ▸ ends⟩
  rw [Act.after_of_ok run] at ends
  exact ⟨ends.1, ends.2, hQ a t run ends.1 ends.2⟩

end Sure

end Regime

end Conform
