import Conform.Descriptor.Matching
import Conform.Proofs.Growth
import Conform.Proofs.Parts

/-!
Reading live values in a heap that grows. A closed heap holds live values only, so whatever is reached
from a live value is live. Every reading that matching relies on (truth, equality, order, the walk
through a container) answers in the greater heap what it answered before, or fails as it did; following a
comparison deeper does not change an answer either.

Main statements: `Value.truth_grow`, `Value.equal_grow`, `Value.ordered_grow`, `Value.walked_grow`.
-/
namespace Conform

open Value

/-- Whether everything that a heap holds is live in it, and no object is walked through by using up an
iterator. -/
structure Heap.Closed (h : Heap) : Prop where
  lists : ∀ i, ∀ v ∈ h.list i, v.Live h
  dicts : ∀ i, ∀ e ∈ h.dict i, e.1.Live h ∧ e.2.Live h
  sets : ∀ i, ∀ v ∈ h.set i, v.Live h
  iters : ∀ i, ∀ v ∈ h.iter i, v.Live h
  things : ∀ i, ∀ a ∈ h.thing i, a.2.Live h
  checked : ∀ i, ∀ v ∈ (h.checkedList i).items, v.Live h
  elements : ∀ i, (h.checkedList i).element.Live h
  contexts : ∀ i, ∀ v ∈ [(h.context i).expected, (h.context i).actual, (h.context i).receiver,
    (h.context i).operation, (h.context i).position, (h.context i).name], v.Live h
  walks : ∀ i j, ownAttribute? h i "items" ≠ some (.iter j)

/-- A heap of lists and checked lists alone is closed when what they hold is live. -/
theorem Heap.Closed.of_lists {lists : Array (List Value)} {checked : Array CheckedList}
    (held : ∀ l ∈ lists, ∀ v ∈ l, v.Live { lists, checked })
    (typed : ∀ l ∈ checked, (∀ v ∈ l.items, v.Live { lists, checked }) ∧ l.element.Live { lists, checked }) :
    Heap.Closed { lists, checked } where
  lists i v hv := by
    cases found : lists[i]? with
    | none => simp [Heap.list, found] at hv
    | some l => exact held l (Array.mem_of_getElem? found) v (by simpa [Heap.list, found] using hv)
  dicts := by simp [Heap.dict]
  sets := by simp [Heap.set]
  iters := by simp [Heap.iter]
  things := by simp [Heap.thing]
  checked i v hv := by
    cases found : checked[i]? with
    | none => simp [Heap.checkedList, found] at hv
    | some l =>
      exact (typed l (Array.mem_of_getElem? found)).1 v (by simpa [Heap.checkedList, found] using hv)
  elements i := by
    cases found : checked[i]? with
    | none => simp [Heap.checkedList, found, Descriptor.Live]
    | some l => simpa [Heap.checkedList, found] using (typed l (Array.mem_of_getElem? found)).2
  contexts := by simp [Heap.context, Value.Live]
  walks := by simp [Value.ownAttribute?, Heap.thing]

theorem Heap.Closed.empty : Heap.Closed {} :=
  .of_lists (by simp) (by simp)

/-- A reading of one heap that another reading repeats in a second heap. A lenient comparison of the two
asks for nothing where the first gave up. -/
def Carries {α : Type} (lenient : Prop) (h g : Heap) (P : α → Prop) (x y : Look α) : Prop :=
  match x h with
  | .ok a => y g = .ok a ∧ P a
  | .error f => lenient ∧ f = .exhausted ∨ y g = .error f

namespace Carries

variable {α β : Type} {lenient : Prop} {h g : Heap} {P : α → Prop} {Q : β → Prop}

theorem pure {a : α} (ha : P a) : Carries lenient h g P (pure a) (pure a) :=
  ⟨rfl, ha⟩

theorem fail {c : Cause} : Carries lenient h g P (Look.fail c) (Look.fail c) :=
  .inr rfl

theorem exhausted : Carries lenient h g P (throw .exhausted) (throw .exhausted) :=
  .inr rfl

theorem ok {x y : Look α} (hx : Carries lenient h g P x y) {a : α} (ha : x h = .ok a) :
    y g = .ok a ∧ P a := by
  simpa only [Carries, ha] using hx

theorem eq {x y : Look α} (hx : Carries False h g P x y) : y g = x h := by
  unfold Carries at hx
  split at hx
  · next ha => rw [ha, hx.1]
  · next he => rw [he, hx.resolve_left fun gaveUp => gaveUp.1]

theorem weaken {x y : Look α} (hx : Carries False h g P x y) : Carries lenient h g P x y := by
  unfold Carries at hx ⊢
  split at hx
  · exact hx
  · exact .inr (hx.resolve_left fun gaveUp => gaveUp.1)

theorem bind {x y : Look α} {f f' : α → Look β} (hx : Carries lenient h g P x y)
    (hf : ∀ a, P a → Carries lenient h g Q (f a) (f' a)) :
    Carries lenient h g Q (x >>= f) (y >>= f') := by
  change match Except.bind (x h) (fun a => f a h) with
    | .ok b => Except.bind (y g) (fun a => f' a g) = .ok b ∧ Q b
    | .error e => lenient ∧ e = .exhausted ∨ Except.bind (y g) (fun a => f' a g) = .error e
  unfold Carries at hx
  split at hx
  · next a ha =>
    rw [ha, hx.1]
    exact hf a hx.2
  · next e he =>
    rw [he]
    refine hx.imp id fun hy => ?_
    rw [hy]
    rfl

theorem read {f f' : Heap → Look β} (hf : Carries lenient h g Q (f h) (f' g)) :
    Carries lenient h g Q (read >>= f) (read >>= f') :=
  hf

theorem ite {c : Prop} [Decidable c] {x y x' y' : Look α} (hx : Carries lenient h g P x x')
    (hy : Carries lenient h g P y y') :
    Carries lenient h g P (if c then x else y) (if c then x' else y') := by
  split
  · exact hx
  · exact hy

end Carries

/-- A test of two values that answers on live values as another does in a greater heap. -/
def TestCarries (lenient : Prop) (h g : Heap) (test test' : Value → Value → Look Bool) : Prop :=
  ∀ v w, v.Live h → w.Live h → Carries lenient h g (fun _ => True) (test v w) (test' v w)

section Parts

variable {h g : Heap} {v : Value}

theorem list?_grow (ext : h.Extends g) (live : v.Live h) : list? g v = list? h v := by
  cases v with
  | list k i => simp only [list?, ext.list_eq live]
  | _ => rfl

theorem entries?_grow (ext : h.Extends g) (live : v.Live h) : entries? g v = entries? h v := by
  cases v with
  | dict k i => simp only [entries?, ext.dict_eq live]
  | _ => rfl

theorem set?_grow (ext : h.Extends g) (live : v.Live h) : set? g v = set? h v := by
  cases v with
  | set i => simp only [set?, ext.set_eq live]
  | _ => rfl

theorem bytes?_grow (ext : h.Extends g) (live : v.Live h) : bytes? g v = bytes? h v := by
  cases v with
  | bytearray i => simp only [bytes?, ext.buffer_eq live]
  | _ => rfl

theorem positional?_grow (ext : h.Extends g) (live : v.Live h) :
    Descriptor.positional? g v = Descriptor.positional? h v := by
  cases v with
  | list k i => simp only [Descriptor.positional?, ext.list_eq live]
  | _ => rfl

theorem list?_live (closed : h.Closed) {items : List Value} (hv : list? h v = some items) :
    ∀ w ∈ items, w.Live h := by
  cases v with
  | list k i =>
    cases hv
    exact closed.lists i
  | _ => simp [list?] at hv

theorem tuple?_live (live : v.Live h) {items : List Value} (hv : v.tuple? = some items) :
    ∀ w ∈ items, w.Live h := by
  cases v with
  | tuple id xs =>
    cases hv
    exact liveItems_iff.mp live
  | pair id l r =>
    cases hv
    simpa [Live] using live
  | _ => simp [tuple?] at hv

theorem positional?_live (closed : h.Closed) (live : v.Live h) {items : List Value}
    (hv : Descriptor.positional? h v = some items) : ∀ w ∈ items, w.Live h := by
  cases v with
  | list k i =>
    cases hv
    exact closed.lists i
  | _ => exact tuple?_live live hv

theorem set?_live (closed : h.Closed) (live : v.Live h) {items : List Value}
    (hv : set? h v = some items) : ∀ w ∈ items, w.Live h := by
  cases v with
  | set i =>
    cases hv
    exact closed.sets i
  | frozenset id xs =>
    cases hv
    exact liveItems_iff.mp live
  | _ => simp [set?] at hv

theorem entries?_live (closed : h.Closed) (live : v.Live h) {entries : List (Value × Value)}
    (hv : entries? h v = some entries) : ∀ e ∈ entries, e.1.Live h ∧ e.2.Live h := by
  cases v with
  | dict k i =>
    cases hv
    exact closed.dicts i
  | frozenMap id xs =>
    cases hv
    exact liveEntries_iff.mp live
  | _ => simp [entries?] at hv

theorem needAttribute_grow (ext : h.Extends g) (closed : h.Closed) (c : Class) {i : Handle}
    (live : i < h.things.size) (name : String) :
    Carries False h g (fun v => v.Live h) (needAttribute c i name) (needAttribute c i name) := by
  have same : ownAttribute? g i name = ownAttribute? h i name := by
    simp only [ownAttribute?, ext.thing_eq live]
  refine .read ?_
  rw [same]
  split
  · next w hw =>
    obtain ⟨a, ha, rfl⟩ := Option.map_eq_some_iff.mp hw
    exact .pure (closed.things i a (List.mem_of_find?_eq_some ha))
  · exact .fail

end Parts

section Tests

variable {lenient : Prop} {h g : Heap} {test test' : Value → Value → Look Bool}

theorem pairwise_carries {α : Type} {p p' : α → α → Look Bool} {as bs : List α}
    (hp : ∀ a ∈ as, ∀ b ∈ bs, Carries lenient h g (fun _ => True) (p a b) (p' a b)) :
    Carries lenient h g (fun _ => True) (pairwise p as bs) (pairwise p' as bs) := by
  induction as generalizing bs with
  | nil => cases bs <;> exact .pure trivial
  | cons a as ih =>
    cases bs with
    | nil => exact .pure trivial
    | cons b bs =>
      simp only [List.forall_mem_cons] at hp
      exact .bind hp.1.1 fun _ _ => .ite (ih fun a ha b hb => (hp.2 a ha).2 b hb) (.pure trivial)

theorem allAlike_carries (ht : TestCarries lenient h g test test') {as bs : List Value}
    (la : ∀ v ∈ as, v.Live h) (lb : ∀ v ∈ bs, v.Live h) :
    Carries lenient h g (fun _ => True) (allAlike test as bs) (allAlike test' as bs) := by
  rw [allAlike_eq, allAlike_eq]
  exact pairwise_carries fun a ha b hb => ht a b (la a ha) (lb b hb)

theorem memberOf_carries (ht : TestCarries lenient h g test test') {v : Value} (lv : v.Live h)
    {xs : List Value} (lx : ∀ w ∈ xs, w.Live h) :
    Carries lenient h g (fun _ => True) (memberOf test v xs) (memberOf test' v xs) := by
  induction xs with
  | nil => exact .pure trivial
  | cons x xs ih =>
    simp only [List.forall_mem_cons] at lx
    refine .bind (ht x v lx.1 lv) fun r _ => ?_
    exact .ite (.pure trivial) (ih lx.2)

theorem entryAt_carries (ht : TestCarries lenient h g test test') {key : Value} (lk : key.Live h)
    {xs : List (Value × Value)} (lx : ∀ e ∈ xs, e.1.Live h ∧ e.2.Live h) :
    Carries lenient h g (fun r => ∀ v ∈ r, v.Live h) (entryAt test key xs) (entryAt test' key xs) := by
  induction xs with
  | nil => exact .pure (by simp)
  | cons e xs ih =>
    simp only [List.forall_mem_cons] at lx
    refine .bind (ht e.1 key lx.1.1 lk) fun r _ => ?_
    exact .ite (.pure (by simpa using lx.1.2)) (ih lx.2)

theorem allM_carries {α : Type} {p p' : α → Look Bool} {xs : List α}
    (hp : ∀ x ∈ xs, Carries lenient h g (fun _ => True) (p x) (p' x)) :
    Carries lenient h g (fun _ => True) (xs.allM p) (xs.allM p') := by
  induction xs with
  | nil => exact .pure trivial
  | cons x xs ih =>
    simp only [List.forall_mem_cons] at hp
    refine .bind hp.1 fun r _ => ?_
    cases r with
    | true => exact ih hp.2
    | false => exact .pure trivial

theorem subset_carries (ht : TestCarries lenient h g test test') {as bs : List Value}
    (la : ∀ v ∈ as, v.Live h) (lb : ∀ v ∈ bs, v.Live h) :
    Carries lenient h g (fun _ => True) (subset test as bs) (subset test' as bs) :=
  allM_carries fun a ha => memberOf_carries ht (la a ha) lb

theorem sameEntries_carries (ht : TestCarries lenient h g test test') {as bs : List (Value × Value)}
    (la : ∀ e ∈ as, e.1.Live h ∧ e.2.Live h) (lb : ∀ e ∈ bs, e.1.Live h ∧ e.2.Live h) :
    Carries lenient h g (fun _ => True) (sameEntries test as bs) (sameEntries test' as bs) := by
  refine .ite (.pure trivial) (allM_carries fun e he => ?_)
  refine .bind (entryAt_carries ht (la e he).1 lb) fun r hr => ?_
  cases r with
  | none => exact .pure trivial
  | some w => exact ht e.2 w (la e he).2 (hr w rfl)

theorem sameItems_carries (ht : TestCarries lenient h g test test') {as bs : List Value}
    (la : ∀ v ∈ as, v.Live h) (lb : ∀ v ∈ bs, v.Live h) :
    Carries lenient h g (fun _ => True) (sameItems test as bs) (sameItems test' as bs) :=
  .ite (.pure trivial) (allAlike_carries ht la lb)

/-- Whether the values and descriptors of a part are live. -/
def Descriptor.Part.Live (h : Heap) : Descriptor.Part → Prop
  | .value v => v.Live h
  | .child d => d.Live h
  | .children ds => ∀ d ∈ ds, d.Live h
  | .named fields => ∀ f ∈ fields, f.2.Live h
  | .names _ => True

theorem parts_live {d : Descriptor} (live : d.Live h) : ∀ p ∈ d.parts, p.Live h := by
  cases d <;> simp only [Descriptor.parts, Descriptor.Live, liveTypes_iff, liveNamed_iff,
    List.forall_mem_cons, List.not_mem_nil, false_implies, implies_true, and_true] at live ⊢
  all_goals exact live

theorem samePart_carries (ht : TestCarries lenient h g test test') {a b : Descriptor.Part} (la : a.Live h)
    (lb : b.Live h) : Carries lenient h g (fun _ => True) (samePart test a b) (samePart test' a b) := by
  unfold samePart
  split
  · exact ht _ _ la lb
  · exact ht _ _ la lb
  · rw [sameChildren_eq, sameChildren_eq]
    exact pairwise_carries fun a ha b hb => ht _ _ (la a ha) (lb b hb)
  · rw [sameNamed_eq, sameNamed_eq]
    exact pairwise_carries fun f hf g hg => .ite (.pure trivial) (ht _ _ (la f hf) (lb g hg))
  · exact .pure trivial
  · exact .pure trivial

theorem sameParts_carries (ht : TestCarries lenient h g test test') {as bs : List Descriptor.Part}
    (la : ∀ p ∈ as, p.Live h) (lb : ∀ p ∈ bs, p.Live h) :
    Carries lenient h g (fun _ => True) (sameParts test as bs) (sameParts test' as bs) := by
  rw [sameParts_eq, sameParts_eq]
  exact pairwise_carries fun a ha b hb => samePart_carries ht (la a ha) (lb b hb)

end Tests

section Truth

variable {h g : Heap}

theorem lengthAt_grow (ext : h.Extends g) (closed : h.Closed) (n : Nat) {v : Value}
    (live : v.Live h) : Carries False h g (fun _ => True) (lengthAt n v) (lengthAt n v) := by
  induction n generalizing v with
  | zero => exact .exhausted
  | succ n ih =>
    refine .read ?_
    cases v with
    | bytearray i => dsimp only; rw [ext.buffer_eq live]; exact .pure trivial
    | list k i => dsimp only; rw [ext.list_eq live]; exact .pure trivial
    | dict k i => dsimp only; rw [ext.dict_eq live]; exact .pure trivial
    | set i => dsimp only; rw [ext.set_eq live]; exact .pure trivial
    | checked c i => dsimp only; rw [ext.checkedList_eq live]; exact .pure trivial
    | keys id owner => exact ih live
    | thing c i =>
      by_cases hc : c = .bag
      · subst hc
        exact .bind (needAttribute_grow ext closed .bag live "items") fun w hw => ih hw
      · cases c <;> first | exact absurd rfl hc | exact .fail
    | str | bytes | tuple | pair | frozenMap | frozenset | range => exact .pure trivial
    | _ => exact .fail

theorem truth_carries (ext : h.Extends g) (closed : h.Closed) {v : Value} (live : v.Live h) :
    Carries False h g (fun _ => True) v.truth v.truth := by
  have counted : Carries False h g (fun _ => True) (do return (← v.length) != 0)
      (do return (← v.length) != 0) :=
    .bind (lengthAt_grow ext closed valueDepth live) fun _ _ => .pure trivial
  cases v with
  | str | bytes | bytearray | tuple | list | dict | frozenMap | set | frozenset | range | checked
  | keys => exact counted
  | thing c i => cases c <;> first | exact counted | exact .pure trivial | exact .fail
  | _ => exact .pure trivial

theorem truth_grow (ext : h.Extends g) (closed : h.Closed) {v : Value} (live : v.Live h) {b : Bool}
    (hb : v.truth h = .ok b) : v.truth g = .ok b :=
  ((truth_carries ext closed live).ok hb).1

end Truth

section Equality

variable {lenient : Prop} {h g : Heap} {eq eq' : Value → Value → Look Value}

theorem alike_carries (ext : h.Extends g) (closed : h.Closed)
    (he : ∀ v w, v.Live h → w.Live h → Carries lenient h g (·.Live h) (eq v w) (eq' v w)) :
    TestCarries lenient h g (alike eq) (alike eq') := by
  intro v w lv lw
  refine .ite (.pure trivial) ?_
  exact .bind (he v w lv lw) fun r hr => (truth_carries ext closed hr).weaken

theorem descriptorEqual?_carries {test test' : Value → Value → Look Bool}
    (ht : TestCarries lenient h g test test') {a b : Descriptor} (la : a.Live h) (lb : b.Live h) :
    Carries lenient h g (fun r => ∀ v ∈ r, v.Live h) (descriptorEqual? test a b)
      (descriptorEqual? test' a b) := by
  unfold descriptorEqual?
  split
  · exact .pure (by simp [Live])
  · exact .pure (by simp)
  · refine .ite ?_ (.pure (by simp))
    exact .bind (sameParts_carries ht (parts_live la) (parts_live lb)) fun r _ =>
      .pure (by simp [Live])

/-- What one operand says about equality is said again: every comparison inside it is one of values
that are live. -/
theorem ownEqual?_carries (ext : h.Extends g) (closed : h.Closed)
    (he : ∀ v w, v.Live h → w.Live h → Carries lenient h g (·.Live h) (eq v w) (eq' v w)) {a b : Value}
    (la : a.Live h) (lb : b.Live h) :
    Carries lenient h g (fun r => ∀ v ∈ r, v.Live h) (ownEqual? eq a b) (ownEqual? eq' a b) := by
  have ht := alike_carries ext closed he
  have decided {x y : Look Bool} (hx : Carries lenient h g (fun _ => True) x y) :
      Carries lenient h g (fun r : Option Value => ∀ v ∈ r, v.Live h) (do return some (.bool (← x)))
        (do return some (.bool (← y))) :=
    .bind hx fun _ _ => .pure (by simp [Live])
  have declined : Carries lenient h g (fun r : Option Value => ∀ v ∈ r, v.Live h) (pure none) (pure none) :=
    .pure (by simp)
  unfold ownEqual?
  refine .read ?_
  cases a with
  | bool | int | float =>
    dsimp only
    split
    · exact .pure (by simp [Live])
    · exact declined
  | str k i s => exact .pure (by simp [Live])
  | bytes | bytearray =>
    dsimp only
    rw [bytes?_grow ext la, bytes?_grow ext lb]
    split
    · exact .pure (by simp [Live])
    · exact declined
  | tuple | pair =>
    dsimp only
    split
    · next hx hy => exact decided (allAlike_carries ht (tuple?_live la hx) (tuple?_live lb hy))
    · exact declined
  | list k i =>
    dsimp only
    rw [list?_grow ext lb, ext.list_eq la]
    split
    · next hy => exact decided (sameItems_carries ht (closed.lists i) (list?_live closed hy))
    · exact declined
  | dict k i =>
    dsimp only
    split
    · rw [ext.dict_eq la, ext.dict_eq lb]
      exact decided (sameEntries_carries ht (closed.dicts _) (closed.dicts _))
    · exact declined
  | frozenMap id entries =>
    dsimp only
    rw [entries?_grow ext lb]
    split
    · next hy =>
      exact decided (sameEntries_carries ht (liveEntries_iff.mp la) (entries?_live closed lb hy))
    · exact declined
  | set | frozenset =>
    dsimp only
    rw [set?_grow ext la, set?_grow ext lb]
    split
    · next hx hy =>
      refine .ite (.pure (by simp [Live])) ?_
      exact decided (subset_carries ht (set?_live closed la hx) (set?_live closed lb hy))
    · exact declined
  | range | day | moment | regex | typeHint =>
    dsimp only
    split
    · exact .pure (by simp [Live])
    · exact declined
  | slice id s t p =>
    dsimp only
    split
    · exact decided (allAlike_carries ht (by simpa [Live] using la) (by simpa [Live] using lb))
    · exact declined
  | success id v =>
    dsimp only
    split
    · exact decided (ht _ _ la lb)
    · exact declined
  | failure id v =>
    dsimp only
    split
    · exact decided (ht _ _ la lb)
    · exact declined
  | mismatch id e r v m =>
    dsimp only
    split
    · exact decided (allAlike_carries ht (by simpa [Live] using la) (by simpa [Live] using lb))
    · exact declined
  | context i =>
    dsimp only
    split
    · rw [ext.context_eq la, ext.context_eq lb]
      exact decided (allAlike_carries ht (closed.contexts _) (closed.contexts _))
    · exact declined
  | checked c i =>
    dsimp only
    split
    · rw [ext.checkedList_eq la, ext.checkedList_eq lb]
      exact decided (sameItems_carries ht (closed.checked _) (closed.checked _))
    · rw [ext.checkedList_eq la, ext.list_eq lb]
      exact decided (sameItems_carries ht (closed.checked _) (closed.lists _))
    · exact declined
  | thing c i =>
    by_cases hcoin : c = .coin
    · subst hcoin
      dsimp only
      split
      · refine .bind (needAttribute_grow ext closed .coin la "value").weaken fun v hv => ?_
        refine .bind (needAttribute_grow ext closed .coin lb "value").weaken fun w hw => ?_
        exact .bind (he v w hv hw) fun r hr => .pure (by simpa using hr)
      · exact declined
    · by_cases hodd : c = .odd
      · subst hodd
        refine .bind (needAttribute_grow ext closed .odd la "answer").weaken fun v hv => ?_
        split
        · exact declined
        · exact .pure (by simpa using hv)
      · cases c <;> first | exact absurd rfl hcoin | exact absurd rfl hodd | exact declined
  | descriptor d =>
    dsimp only
    split
    · exact descriptorEqual?_carries ht la lb
    · exact declined
  | _ => exact declined

theorem askBoth_carries {α : Type} {P : α → Prop} {ask ask' : Value → Value → Look (Option α)}
    {a b : Value} {otherwise : α} (ho : P otherwise)
    (hab : Carries lenient h g (fun r => ∀ x ∈ r, P x) (ask a b) (ask' a b))
    (hba : Carries lenient h g (fun r => ∀ x ∈ r, P x) (ask b a) (ask' b a)) :
    Carries lenient h g P (askBoth ask a b otherwise) (askBoth ask' a b otherwise) := by
  obtain ⟨x, y, turn, hxy, hyx⟩ : ∃ x y, (if reflectedFirst a b then (b, a) else (a, b)) = (x, y) ∧
      Carries lenient h g (fun r => ∀ x ∈ r, P x) (ask x y) (ask' x y) ∧
      Carries lenient h g (fun r => ∀ x ∈ r, P x) (ask y x) (ask' y x) := by
    cases reflectedFirst a b with
    | true => exact ⟨b, a, rfl, hba, hab⟩
    | false => exact ⟨a, b, rfl, hab, hba⟩
  unfold askBoth
  rw [turn]
  refine .bind hxy fun r hr => ?_
  cases r with
  | some r => exact .pure (hr r rfl)
  | none =>
    refine .bind hyx fun r hr => .pure ?_
    cases r with
    | some r => exact hr r rfl
    | none => exact ho

theorem equalAt_carries (ext : h.Extends g) (closed : h.Closed) {n m : Nat} (hnm : n ≤ m)
    (deep : lenient ∨ n = m) {a b : Value} (la : a.Live h) (lb : b.Live h) :
    Carries lenient h g (·.Live h) (equalAt n a b) (equalAt m a b) := by
  induction n generalizing m a b with
  | zero =>
    obtain deep | rfl := deep
    · exact .inl ⟨deep, rfl⟩
    · exact .exhausted
  | succ n ih =>
    obtain ⟨m, rfl⟩ : ∃ k, m = k + 1 := ⟨m - 1, by omega⟩
    have deeper (v w : Value) (lv : v.Live h) (lw : w.Live h) :
        Carries lenient h g (·.Live h) (equalAt n v w) (equalAt m v w) :=
      ih (by omega) (deep.imp id Nat.succ.inj) lv lw
    exact askBoth_carries trivial (ownEqual?_carries ext closed deeper la lb)
      (ownEqual?_carries ext closed deeper lb la)

theorem equal_grow (ext : h.Extends g) (closed : h.Closed) {a b r : Value} (la : a.Live h)
    (lb : b.Live h) (hr : a.equal b h = .ok r) : a.equal b g = .ok r ∧ r.Live h := by
  have carried : Carries False h g (·.Live h) (equalAt valueDepth a b) (equalAt valueDepth a b) :=
    equalAt_carries ext closed (Nat.le_refl _) (.inr rfl) la lb
  exact carried.ok hr

theorem isAlike_carries (ext : h.Extends g) (closed : h.Closed) : TestCarries False h g isAlike isAlike :=
  alike_carries ext closed fun _ _ lv lw => equalAt_carries ext closed (Nat.le_refl _) (.inr rfl) lv lw

end Equality

section Order

variable {h g : Heap} {order order' : Comparison → Value → Value → Look Bool} {c : Comparison}

theorem firstDifference_carries {test test' : Value → Value → Look Bool}
    (ht : TestCarries False h g test test') :
    ∀ as bs : List Value, (∀ v ∈ as, v.Live h) → (∀ v ∈ bs, v.Live h) →
      Carries False h g (fun r => ∀ p ∈ r, p.1.Live h ∧ p.2.Live h) (firstDifference test as bs)
        (firstDifference test' as bs)
  | [], [], _, _ => .pure (by simp)
  | [], _ :: _, _, _ => .pure (by simp)
  | _ :: _, [], _, _ => .pure (by simp)
  | a :: as, b :: bs, la, lb => by
    simp only [List.forall_mem_cons] at la lb
    refine .bind (ht a b la.1 lb.1) fun r _ => ?_
    exact .ite (firstDifference_carries ht as bs la.2 lb.2) (.pure (by simpa using ⟨la.1, lb.1⟩))

variable (ext : h.Extends g) (closed : h.Closed)
include ext closed

theorem lexicographic_carries (ho : TestCarries False h g (order c) (order' c)) {as bs : List Value}
    (la : ∀ v ∈ as, v.Live h) (lb : ∀ v ∈ bs, v.Live h) :
    Carries False h g (fun _ => True) (lexicographic (order c) c as bs)
      (lexicographic (order' c) c as bs) := by
  refine .bind (firstDifference_carries (isAlike_carries ext closed) as bs la lb) fun r hr => ?_
  cases r with
  | none => exact .pure trivial
  | some p => exact ho p.1 p.2 (hr p rfl).1 (hr p rfl).2

theorem inclusion_carries {as bs : List Value} (la : ∀ v ∈ as, v.Live h) (lb : ∀ v ∈ bs, v.Live h) :
    Carries False h g (fun _ => True) (inclusion c as bs) (inclusion c as bs) := by
  have ht := isAlike_carries ext closed
  cases c with
  | le => exact subset_carries ht la lb
  | lt => exact .ite (subset_carries ht la lb) (.pure trivial)
  | ge => exact subset_carries ht lb la
  | gt => exact .ite (subset_carries ht lb la) (.pure trivial)

theorem ownOrder?_carries (ho : TestCarries False h g (order c) (order' c)) {a b : Value} (la : a.Live h)
    (lb : b.Live h) : Carries False h g (fun _ => True) (ownOrder? order c a b) (ownOrder? order' c a b) := by
  have decided {x y : Look Bool} (hx : Carries False h g (fun _ => True) x y) :
      Carries False h g (fun _ => True) (do return some (← x)) (do return some (← y)) :=
    .bind hx fun _ _ => .pure trivial
  unfold ownOrder?
  refine .read ?_
  cases a with
  | bool | int | float =>
    dsimp only
    split <;> exact .pure trivial
  | str k i s => exact .pure trivial
  | bytes | bytearray =>
    dsimp only
    rw [bytes?_grow ext la, bytes?_grow ext lb]
    split <;> exact .pure trivial
  | tuple | pair =>
    dsimp only
    split
    · next hx hy =>
      exact decided (lexicographic_carries ext closed ho (tuple?_live la hx) (tuple?_live lb hy))
    · exact .pure trivial
  | list k i =>
    dsimp only
    rw [list?_grow ext lb, ext.list_eq la]
    split
    · next hy =>
      exact decided (lexicographic_carries ext closed ho (closed.lists i) (list?_live closed hy))
    · exact .pure trivial
  | slice id s t p =>
    dsimp only
    split
    · exact decided (lexicographic_carries ext closed ho (by simpa [Live] using la)
        (by simpa [Live] using lb))
    · exact .pure trivial
  | set | frozenset =>
    dsimp only
    rw [set?_grow ext la, set?_grow ext lb]
    split
    · next hx hy =>
      exact decided (inclusion_carries ext closed (set?_live closed la hx) (set?_live closed lb hy))
    · exact .pure trivial
  | day | moment =>
    dsimp only
    split
    · exact .pure trivial
    · exact .fail
    · exact .pure trivial
  | thing k i =>
    by_cases hcoin : k = .coin
    · subst hcoin
      dsimp only
      split
      · refine .ite ?_ (.pure trivial)
        refine .bind (needAttribute_grow ext closed .coin la "value") fun v hv => ?_
        refine .bind (needAttribute_grow ext closed .coin lb "value") fun w hw => ?_
        exact decided (ho v w hv hw)
      · exact .pure trivial
    · cases k <;> first | exact absurd rfl hcoin | exact .fail | exact .pure trivial
  | _ => exact .pure trivial

theorem orderedAt_carries (n : Nat) (c : Comparison) :
    TestCarries False h g (orderedAt n c) (orderedAt n c) := by
  induction n generalizing c with
  | zero => exact fun _ _ _ _ => .exhausted
  | succ n ih =>
    intro a b la lb
    obtain ⟨d, x, y, turn, lx, ly⟩ : ∃ d x y,
        (if reflectedFirst a b then (c.flip, b, a) else (c, a, b)) = (d, x, y) ∧ x.Live h ∧ y.Live h := by
      cases reflectedFirst a b with
      | true => exact ⟨c.flip, b, a, rfl, lb, la⟩
      | false => exact ⟨c, a, b, rfl, la, lb⟩
    unfold orderedAt
    rw [turn]
    refine .bind (ownOrder?_carries ext closed (ih d) lx ly) fun r _ => ?_
    cases r with
    | some r => exact .pure trivial
    | none =>
      refine .bind (ownOrder?_carries ext closed (ih d.flip) ly lx) fun r _ => ?_
      cases r with
      | some r => exact .pure trivial
      | none => exact .fail

theorem betweenBounds_carries {start stop v : Value} (ls : start.Live h) (lt : stop.Live h) (lv : v.Live h) :
    Carries False h g (fun _ => True) (Descriptor.betweenBounds start stop v)
      (Descriptor.betweenBounds start stop v) := by
  have above : Carries False h g (fun _ => True) (Descriptor.atOrAfter start v)
      (Descriptor.atOrAfter start v) := by
    unfold Descriptor.atOrAfter
    split
    · exact .pure trivial
    · exact orderedAt_carries ext closed valueDepth .le start v ls lv
  have below : Carries False h g (fun _ => True) (Descriptor.isBefore stop v)
      (Descriptor.isBefore stop v) := by
    unfold Descriptor.isBefore
    split
    · exact .pure trivial
    · exact orderedAt_carries ext closed valueDepth .lt v stop lv lt
  exact .bind above fun r _ => .ite below (.pure trivial)

theorem inSpan_carries (r : Span) {v : Value} (live : v.Live h) :
    Carries False h g (fun _ => True) (inSpan r v) (inSpan r v) := by
  cases v with
  | thing c i =>
    by_cases hc : c = .odd
    · subst hc
      refine .ite (.pure trivial) ?_
      refine .bind (needAttribute_grow ext closed .odd live "answer") fun w hw => ?_
      split
      · exact .pure trivial
      · exact truth_carries ext closed hw
    · cases c <;> first | exact absurd rfl hc | exact .pure trivial
  | _ => exact .pure trivial

end Order

section Walking

/-- The items that a walk through a value comes by, one-shot iterators apart. -/
def Value.walkedAt : Nat → Value → Look (List Value)
  | 0, _ => throw .exhausted
  | fuel + 1, v => do
    let h ← read
    match v with
    | .range _ r => return r.toList.map passingInt
    | .str _ _ s => return s.toList.map passingLetter
    | .bytes _ bs => return bs.map fun b => passingInt b.toNat
    | .bytearray i => return (h.buffer i).map fun b => passingInt b.toNat
    | .keys _ owner =>
      match entries? h owner with
      | some entries => return entries.map (·.1)
      | none => Look.fail (.notIterable v.operandName)
    | .thing .bag i => walkedAt fuel (← needAttribute .bag i "items")
    | .thing .onlyIter i => walkedAt fuel (← needAttribute .onlyIter i "items")
    | .list _ i => return h.list i
    | .tuple _ items => return items
    | .pair _ l r => return [l, r]
    | .dict _ i => return (h.dict i).map (·.1)
    | .frozenMap _ entries => return entries.map (·.1)
    | .set i => return h.set i
    | .frozenset _ items => return items
    | .checked _ i => return (h.checkedList i).items
    | _ => Look.fail (.notIterable v.operandName)

def Value.walked (v : Value) : Look (List Value) :=
  walkedAt valueDepth v

variable {h g : Heap}

theorem walkedAt_carries (ext : h.Extends g) (closed : h.Closed) (n : Nat) {v : Value}
    (live : v.Live h) :
    Carries False h g (fun items => ∀ w ∈ items, w.Live h) (walkedAt n v) (walkedAt n v) := by
  induction n generalizing v with
  | zero => exact .exhausted
  | succ n ih =>
    refine .read ?_
    cases v with
    | range => exact .pure (by simp [passingInt, Live])
    | str => exact .pure (by simp [passingLetter, Live])
    | bytes => exact .pure (by simp [passingInt, Live])
    | bytearray i =>
      dsimp only
      rw [ext.buffer_eq live]
      exact .pure (by simp [passingInt, Live])
    | keys id owner =>
      dsimp only
      rw [entries?_grow (v := owner) ext live]
      split
      · next hx =>
        exact .pure (List.forall_mem_map.mpr fun e he =>
          (entries?_live (v := owner) closed live hx e he).1)
      · exact .fail
    | thing c i =>
      by_cases hb : c = .bag
      · subst hb
        exact .bind (needAttribute_grow ext closed .bag live "items") fun w hw => ih hw
      · by_cases ho : c = .onlyIter
        · subst ho
          exact .bind (needAttribute_grow ext closed .onlyIter live "items") fun w hw => ih hw
        · cases c <;> first | exact absurd rfl hb | exact absurd rfl ho | exact .fail
    | list k i =>
      dsimp only
      rw [ext.list_eq live]
      exact .pure (closed.lists i)
    | tuple id items => exact .pure (liveItems_iff.mp live)
    | pair id l r => exact .pure (by simpa [Live] using live)
    | dict k i =>
      dsimp only
      rw [ext.dict_eq live]
      exact .pure (List.forall_mem_map.mpr fun e he => (closed.dicts i e he).1)
    | frozenMap id entries =>
      exact .pure (List.forall_mem_map.mpr fun e he => (liveEntries_iff.mp live e he).1)
    | set i =>
      dsimp only
      rw [ext.set_eq live]
      exact .pure (closed.sets i)
    | frozenset id items => exact .pure (liveItems_iff.mp live)
    | checked c i =>
      dsimp only
      rw [ext.checkedList_eq live]
      exact .pure (closed.checked i)
    | _ => exact .fail

theorem allM_map {α β : Type} (f : α → β) (p : β → Act Bool) (xs : List α) :
    (xs.map f).allM p = xs.allM fun x => p (f x) := by
  induction xs with
  | nil => rfl
  | cons x xs ih => simp only [List.map_cons, List.allM, ih]

theorem allFrom_eq (r : Span) (p : Int → Act Bool) (n i : Nat) :
    allFrom r p n i = ((List.range' i n).map r.get).allM p := by
  induction n generalizing i with
  | zero => rfl
  | succ n ih =>
    simp only [allFrom, List.range'_succ, List.map_cons, List.allM, ih]
    congr
    funext b
    cases b <;> rfl

variable {s t : Session} {p : Value → Act Bool} {b : Bool}

theorem needAttribute_items {c : Class} {i : Handle} {w : Value} (closed : h.Closed)
    (hw : needAttribute c i "items" h = .ok w) (j : Handle) : w ≠ .iter j := by
  rintro rfl
  simp only [needAttribute, Look.bind_eq_ok, Look.read_eq_ok, exists_eq_left'] at hw
  cases hu : ownAttribute? h i "items" with
  | none => simp [hu] at hw
  | some u =>
    simp only [hu, Look.pure_eq_ok] at hw
    exact closed.walks i j (hw ▸ hu)

/-- A walk that asks about every item asks about the items that the walk comes by, in their order. -/
theorem allItemsAt_walked (closed : s.heap.Closed) {n : Nat} {v : Value}
    (lasting : ∀ i, v ≠ .iter i) (run : allItemsAt p n v s = .ok b t) :
    ∃ items, walkedAt n v s.heap = .ok items ∧ items.allM p s = .ok b t := by
  induction n generalizing v with
  | zero => simp [allItemsAt] at run
  | succ n ih =>
    have through {c : Class} {i : Handle}
        (run : ((do allItemsAt p n (← needAttribute c i "items")) : Act Bool) s = .ok b t) :
        ∃ items, ((do walkedAt n (← needAttribute c i "items")) : Look _) s.heap = .ok items ∧
          items.allM p s = .ok b t := by
      simp only [Act.bind_eq_ok, Act.lift_eq_ok] at run
      obtain ⟨w, _, ⟨hw, rfl⟩, run⟩ := run
      obtain ⟨items, walk, all⟩ := ih (needAttribute_items closed hw) run
      exact ⟨items, Look.bind_eq_ok.mpr ⟨w, hw, walk⟩, all⟩
    unfold allItemsAt at run
    split at run
    · refine ⟨_, rfl, ?_⟩
      rw [allM_map]
      simpa [allFrom_eq, allM_map, Span.toList, List.range_eq_range'] using run
    · exact ⟨_, rfl, by simpa [allM_map] using run⟩
    · exact ⟨_, rfl, by simpa [allM_map] using run⟩
    · exact ⟨_, rfl, by simpa [allM_map, and_assoc] using run⟩
    · exact absurd rfl (lasting _)
    · exact through run
    · exact through run
    · cases n with
      | zero => simp [itemsAt] at run
      | succ n =>
        unfold itemsAt at run
        -- What is not walked through here was dealt with above, or has no items.
        split at run
        case h_14 =>
          simp only [Act.bind_eq_ok, Act.getHeap_eq_ok] at run
          obtain ⟨items, _, ⟨_, _, ⟨rfl, rfl⟩, found⟩, all⟩ := run
          generalize he : entries? s.heap _ = known at found
          cases known with
          | none => simp at found
          | some entries =>
            obtain ⟨rfl, rfl⟩ := Act.pure_eq_ok.mp found
            exact ⟨_, by simp [walkedAt, he], all⟩
        all_goals
          first
          | exact ⟨_, rfl, by simpa [and_assoc] using run⟩
          | (simp at run; done)
          | (exfalso; simp_all)

/-- A walk one level deeper than one that came by all items asks about them. -/
theorem allItemsAt_of_walked (closed : s.heap.Closed) {n : Nat} {v : Value} {items : List Value}
    (lasting : ∀ i, v ≠ .iter i) (walk : walkedAt n v s.heap = .ok items) :
    allItemsAt p (n + 1) v s = items.allM p s := by
  induction n generalizing v with
  | zero => cases walk
  | succ n ih =>
    have through {c : Class} {i : Handle}
        (walk : (do walkedAt n (← needAttribute c i "items") : Look _) s.heap = .ok items) :
        (do allItemsAt p (n + 1) (← needAttribute c i "items") : Act _) s = items.allM p s := by
      obtain ⟨w, hw, walk⟩ := Look.bind_eq_ok.mp walk
      rw [Act.bind_of_ok (Act.lift_eq_ok.mpr ⟨hw, rfl⟩)]
      exact ih (needAttribute_items closed hw) walk
    cases v with
    | range id r =>
      cases walk
      simp only [allItemsAt, allFrom_eq, allM_map, Span.toList, List.range_eq_range']
    | str kind id text =>
      cases walk
      rw [allM_map]
      rfl
    | bytes id bs =>
      cases walk
      rw [allM_map]
      rfl
    | bytearray i =>
      cases walk
      rw [allM_map]
      rfl
    | iter i => exact absurd rfl (lasting i)
    | thing c i =>
      by_cases hb : c = .bag
      · subst hb
        exact through walk
      by_cases ho : c = .onlyIter
      · subst ho
        exact through walk
      simp [walkedAt, hb, ho] at walk
    | keys id owner =>
      simp only [walkedAt, Look.bind_eq_ok, Look.read_eq_ok, exists_eq_left'] at walk
      cases he : entries? s.heap owner with
      | none => simp [he] at walk
      | some entries =>
        simp only [he, Look.pure_eq_ok] at walk
        subst walk
        have found : itemsAt (n + 1) (.keys id owner) s = .ok (entries.map (·.1)) s := by
          simp [itemsAt, he, and_assoc]
        exact Act.bind_of_ok found
    | list | tuple | pair | dict | frozenMap | set | frozenset | checked =>
      cases walk
      rfl
    | _ => cases walk

/-- A walk that fails asks about nothing. -/
theorem allItemsAt_of_unwalked (closed : s.heap.Closed) {n : Nat} {v : Value} {f : Fault}
    (lasting : ∀ i, v ≠ .iter i) (walk : walkedAt n v s.heap = .error f) (hf : f ≠ .exhausted) :
    allItemsAt p (n + 1) v s = .error f s := by
  induction n generalizing v with
  | zero =>
    cases walk
    exact absurd rfl hf
  | succ n ih =>
    have through {c : Class} {i : Handle}
        (walk : (do walkedAt n (← needAttribute c i "items") : Look _) s.heap = .error f) :
        (do allItemsAt p (n + 1) (← needAttribute c i "items") : Act _) s = .error f s := by
      obtain hw | ⟨w, hw, walk⟩ := Look.bind_eq_error.mp walk
      · exact Act.bind_of_error (Act.lift_eq_error.mpr ⟨hw, rfl⟩)
      · rw [Act.bind_of_ok (Act.lift_eq_ok.mpr ⟨hw, rfl⟩)]
        exact ih (needAttribute_items closed hw) walk
    cases v with
    | iter i => exact absurd rfl (lasting i)
    | thing c i =>
      by_cases hb : c = .bag
      · subst hb
        exact through walk
      by_cases ho : c = .onlyIter
      · subst ho
        exact through walk
      have refused : Fault.cause (.notIterable (Value.thing c i).operandName) = f := by
        simpa [walkedAt, hb, ho] using walk
      simp [allItemsAt, itemsAt, hb, ho, refused]
    | keys id owner =>
      cases he : entries? s.heap owner with
      | some entries => simp [walkedAt, he] at walk
      | none =>
        have refused : Fault.cause (.notIterable (Value.keys id owner).operandName) = f := by
          simpa [walkedAt, he] using walk
        have found : itemsAt (n + 1) (.keys id owner) s = .error f s := by
          simp [itemsAt, he, refused, and_assoc]
        exact Act.bind_of_error found
    | range | str | bytes | bytearray | list | tuple | pair | dict | frozenMap | set | frozenset
    | checked => cases walk
    | _ =>
      cases walk
      rfl

end Walking

end Conform
