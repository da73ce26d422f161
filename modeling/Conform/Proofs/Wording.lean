import Conform.Proofs.Reading

/-!
The texts of live values in a heap that grows. A text is worked out to a depth and remembers on its way
the containers it is inside of. It fails in no other way than by giving up, it does not depend on what
comes to the heap later, and what is written to a depth is written in the same words to a greater one.

Main statements: `Value.shown_grow`, `Value.shown_newList`.
-/
namespace Conform

open Value

/-- A text that another reading repeats in a second heap, and that fails only by giving up. -/
structure Worded {α : Type} (lenient : Prop) (h g : Heap) (x y : Look α) : Prop where
  carries : Carries lenient h g (fun _ => True) x y
  gaveUp : ∀ f, x h = .error f → f = .exhausted

namespace Worded

variable {α β : Type} {lenient : Prop} {h g : Heap}

theorem pure (a : α) : Worded lenient h g (pure a) (pure a) :=
  ⟨.pure trivial, nofun⟩

theorem exhausted : Worded lenient h g (throw .exhausted : Look α) (throw .exhausted) := by
  refine ⟨.exhausted, fun f hf => ?_⟩
  cases hf
  rfl

/-- Where the first has given up, a lenient comparison asks for nothing. -/
theorem abandoned (deep : lenient) (y : Look α) : Worded lenient h g (throw .exhausted) y := by
  refine ⟨.inl ⟨deep, rfl⟩, fun f hf => ?_⟩
  cases hf
  rfl

theorem bind {x y : Look α} {f f' : α → Look β} (hx : Worded lenient h g x y)
    (hf : ∀ a, Worded lenient h g (f a) (f' a)) : Worded lenient h g (x >>= f) (y >>= f') := by
  refine ⟨.bind hx.carries fun a _ => (hf a).carries, fun e he => ?_⟩
  obtain first | ⟨a, -, second⟩ := Look.bind_eq_error.mp he
  · exact hx.gaveUp e first
  · exact (hf a).gaveUp e second

theorem read {f f' : Heap → Look β} (hf : Worded lenient h g (f h) (f' g)) :
    Worded lenient h g (read >>= f) (read >>= f') :=
  ⟨.read hf.carries, hf.gaveUp⟩

theorem ite {c : Prop} [Decidable c] {x y x' y' : Look α} (hx : Worded lenient h g x x')
    (hy : Worded lenient h g y y') : Worded lenient h g (if c then x else y) (if c then x' else y') := by
  split
  · exact hx
  · exact hy

theorem mapM {f f' : α → Look β} {xs : List α} (hf : ∀ x ∈ xs, Worded lenient h g (f x) (f' x)) :
    Worded lenient h g (xs.mapM f) (xs.mapM f') := by
  induction xs with
  | nil => exact .pure []
  | cons x xs ih =>
    simp only [List.forall_mem_cons] at hf
    rw [List.mapM_cons, List.mapM_cons]
    exact .bind hf.1 fun y => .bind (ih hf.2) fun ys => .pure (y :: ys)

end Worded

/-- Whether two trails tell the same about the containers that stand in a heap, and about all that has no table
of its own there. -/
structure Trail.Agrees (h : Heap) (trail trail' : Trail) : Prop where
  lists : ∀ i < h.lists.size, trail.contains (0, i) = trail'.contains (0, i)
  dicts : ∀ i < h.dicts.size, trail.contains (1, i) = trail'.contains (1, i)
  sets : ∀ i < h.sets.size, trail.contains (2, i) = trail'.contains (2, i)
  others : ∀ {k}, 3 ≤ k → ∀ i, trail.contains (k, i) = trail'.contains (k, i)

namespace Trail.Agrees

variable {h : Heap} {trail trail' : Trail}

theorem refl (trail : Trail) : Agrees h trail trail :=
  ⟨fun _ _ => rfl, fun _ _ => rfl, fun _ _ => rfl, fun _ _ => rfl⟩

theorem cons (agrees : Agrees h trail trail') (place : Nat × Handle) :
    Agrees h (place :: trail) (place :: trail') := by
  refine ⟨fun i hi => ?_, fun i hi => ?_, fun i hi => ?_, fun hk i => ?_⟩
  · simp only [List.contains_cons, agrees.lists i hi]
  · simp only [List.contains_cons, agrees.dicts i hi]
  · simp only [List.contains_cons, agrees.sets i hi]
  · simp only [List.contains_cons, agrees.others hk i]

/-- A list that does not stand in the heap makes no difference. -/
theorem newList {i : Handle} (new : h.lists.size ≤ i) (trail : Trail) :
    Agrees h trail ((0, i) :: trail) := by
  refine ⟨fun j hj => ?_, fun j _ => ?_, fun j _ => ?_, fun {k} hk j => ?_⟩
  · have other : ((0, j) == ((0, i) : Nat × Handle)) = false := by
      rw [beq_eq_false_iff_ne]
      rintro ⟨⟩
      omega
    rw [List.contains_cons, other, Bool.false_or]
  · rfl
  · rfl
  · have other : ((k, j) == ((0, i) : Nat × Handle)) = false := by
      rw [beq_eq_false_iff_ne]
      rintro ⟨⟩
      omega
    rw [List.contains_cons, other, Bool.false_or]

end Trail.Agrees

/-- Whether texts that are worked out to one depth in one heap are worked out to another depth in a second
one. -/
structure Texts (lenient : Prop) (h g : Heap) (n m : Nat) : Prop where
  value : ∀ {v trail trail'}, v.Live h → Trail.Agrees h trail trail' →
    Worded lenient h g (shownAt n trail v) (shownAt m trail' v)
  entries : ∀ {es trail trail'}, (∀ e ∈ es, e.1.Live h ∧ e.2.Live h) → Trail.Agrees h trail trail' →
    Worded lenient h g (entriesShown n trail es) (entriesShown m trail' es)
  type : ∀ {d trail trail'}, d.Live h → Trail.Agrees h trail trail' →
    Worded lenient h g (describeAt n trail d) (describeAt m trail' d)
  bound : ∀ {v trail trail'}, v.Live h → Trail.Agrees h trail trail' →
    Worded lenient h g (boundShown n trail v) (boundShown m trail' v)
  named : ∀ {fields trail trail'}, (∀ f ∈ fields, f.2.Live h) → Trail.Agrees h trail trail' →
    Worded lenient h g (namedShown n trail fields) (namedShown m trail' fields)
  plain : ∀ {v trail trail'}, v.Live h → Trail.Agrees h trail trail' →
    Worded lenient h g (plainAt n trail v) (plainAt m trail' v)

namespace Texts

variable {lenient : Prop} {h g : Heap} {n m : Nat} {trail trail' : Trail}

section

variable (ih : Texts lenient h g n m)
include ih

theorem items {vs : List Value} (lv : ∀ v ∈ vs, v.Live h) (agrees : Trail.Agrees h trail trail') :
    Worded lenient h g (vs.mapM (shownAt n trail)) (vs.mapM (shownAt m trail')) :=
  .mapM fun v hv => ih.value (lv v hv) agrees

theorem types {ds : List Descriptor} (ld : ∀ d ∈ ds, d.Live h) (agrees : Trail.Agrees h trail trail') :
    Worded lenient h g (ds.mapM (describeAt n trail)) (ds.mapM (describeAt m trail')) :=
  .mapM fun d hd => ih.type (ld d hd) agrees

/-- A text one level up, for every kind of value. -/
theorem value_step (ext : h.Extends g) (closed : h.Closed) {v : Value} (live : v.Live h)
    (agrees : Trail.Agrees h trail trail') :
    Worded lenient h g (shownAt (n + 1) trail v) (shownAt (m + 1) trail' v) := by
  unfold shownAt
  refine .read ?_
  cases v with
  | tuple id items =>
    dsimp only
    rw [agrees.others (by decide)]
    exact .ite (.pure _) (.bind (ih.items (by simpa [Value.Live] using live) (agrees.cons _)) fun _ => .pure _)
  | pair id l r =>
    exact .bind (ih.value live.1 agrees) fun _ => .bind (ih.value live.2 agrees) fun _ => .pure _
  | list kind i =>
    dsimp only
    rw [agrees.lists i live, ext.list_eq live]
    refine .ite (.pure _) (.bind (ih.items (closed.lists i) (agrees.cons _)) fun _ => .pure _)
  | dict kind i =>
    dsimp only
    rw [agrees.dicts i live, ext.dict_eq live]
    refine .ite (.pure _) (.bind (ih.entries (closed.dicts i) (agrees.cons _)) fun _ => .pure _)
  | set i =>
    dsimp only
    rw [agrees.sets i live, ext.set_eq live]
    refine .ite (.pure _) (.ite (.pure _) ?_)
    exact .bind (ih.items (closed.sets i) (agrees.cons _)) fun _ => .pure _
  | bytearray i =>
    dsimp only
    rw [ext.buffer_eq live]
    exact .pure _
  | frozenset id items =>
    dsimp only
    rw [agrees.others (by decide)]
    refine .ite (.pure _) (.ite (.pure _) ?_)
    exact .bind (ih.items (by simpa [Value.Live] using live) (agrees.cons _)) fun _ => .pure _
  | frozenMap id entries =>
    exact .bind (ih.entries (liveEntries_iff.mp live) agrees) fun _ => .pure _
  | slice id a b c =>
    have parts : ∀ w ∈ [a, b, c], w.Live h := by simpa [Value.Live] using live
    exact .bind (ih.items parts agrees) fun _ => .pure _
  | exception id c args =>
    exact .bind (ih.items (by simpa [Value.Live] using live) agrees) fun _ => .pure _
  | mismatchError id a b c message => exact .bind (ih.value live.2.2.2 agrees) fun _ => .pure _
  | success id w => exact .bind (ih.value live agrees) fun _ => .pure _
  | failure id w => exact .bind (ih.value live agrees) fun _ => .pure _
  | mismatch id a b c d =>
    have parts : ∀ w ∈ [a, b, c, d], w.Live h := by simpa [Value.Live] using live
    dsimp only
    rw [agrees.others (by decide)]
    exact .ite (.pure _) (.bind (ih.items parts (agrees.cons _)) fun _ => .pure _)
  | keys id owner =>
    cases owner with
    | dict kind i =>
      dsimp only
      rw [agrees.others (by decide), ext.dict_eq live]
      refine .ite (.pure _) (.bind (.mapM fun e he => ?_) fun _ => .pure _)
      exact ih.value (closed.dicts i e he).1 (agrees.cons _)
    | _ => exact .bind (ih.value live agrees) fun _ => .pure _
  | descriptor d => exact ih.type live agrees
  | thing c i =>
    dsimp only
    rw [ext.thing_eq live]
    refine .bind (.mapM fun a ha => ?_) fun _ => .pure _
    exact .bind (ih.value (closed.things i a ha) agrees) fun _ => .pure _
  | checked c i =>
    dsimp only
    rw [ext.checkedList_eq live]
    refine .bind (ih.items (closed.checked i) agrees) fun _ => ?_
    exact .bind (ih.type (closed.elements i) agrees) fun _ => .pure _
  | context i =>
    dsimp only
    rw [agrees.others (by decide), ext.context_eq live]
    exact .ite (.pure _) (.bind (ih.items (closed.contexts i) (agrees.cons _)) fun _ => .pure _)
  | _ => exact .pure _

/-- A text one level up, for every kind of descriptor. -/
theorem type_step {d : Descriptor} (live : d.Live h) (agrees : Trail.Agrees h trail trail') :
    Worded lenient h g (describeAt (n + 1) trail d) (describeAt (m + 1) trail' d) := by
  unfold describeAt
  cases d with
  | union id types | intersection id types | tupleOf id types =>
    exact .bind (ih.types (liveTypes_iff.mp live) agrees) fun _ => .pure _
  | negation id c | nilable id c | rangeOf id c | collection id kind c | checkedListOf id c =>
    exact .bind (ih.type live agrees) fun _ => .pure _
  | constraint id bases predicates =>
    refine .bind (ih.types (liveTypes_iff.mp live.1) agrees) fun _ => ?_
    exact .bind (ih.named (liveNamed_iff.mp live.2) agrees) fun _ => .pure _
  | shape id fields => exact .bind (ih.named (liveNamed_iff.mp live) agrees) fun _ => .pure _
  | mappingOf id k v =>
    exact .bind (ih.type live.1 agrees) fun _ => .bind (ih.type live.2 agrees) fun _ => .pure _
  | predicate id message fn => exact .bind (ih.plain live.1 agrees) fun _ => .pure _
  | unit id obj => exact .bind (ih.value live agrees) fun _ => .pure _
  | equal id obj => exact ih.value live agrees
  | within id container =>
    cases container with
    | slice id a b c =>
      exact .bind (ih.bound live.1 agrees) fun _ => .bind (ih.bound live.2.1 agrees) fun _ => .pure _
    | _ => exact .bind (ih.value live agrees) fun _ => .pure _
  | _ => exact .pure _

theorem plain_step {v : Value} (live : v.Live h) (agrees : Trail.Agrees h trail trail') :
    Worded lenient h g (plainAt (n + 1) trail v) (plainAt (m + 1) trail' v) := by
  unfold plainAt
  cases v with
  | str | day | moment | outcomeError => exact .pure _
  | mismatchError id a b c message => exact ih.plain live.2.2.2 agrees
  | exception id c args =>
    have live : ∀ a ∈ args, a.Live h := by simpa [Value.Live] using live
    rcases args with _ | ⟨a, _ | ⟨b, rest⟩⟩
    · exact .pure _
    · exact .ite (ih.value (live a (.head _)) agrees) (ih.plain (live a (.head _)) agrees)
    · exact .bind (ih.items live agrees) fun _ => .pure _
  | _ => exact ih.value live agrees

theorem step (ext : h.Extends g) (closed : h.Closed) : Texts lenient h g (n + 1) (m + 1) where
  value := ih.value_step ext closed
  entries lives agrees := by
    unfold entriesShown
    refine .mapM fun e he => ?_
    obtain ⟨lk, lv⟩ := lives e he
    exact .bind (ih.value lk agrees) fun _ => .bind (ih.value lv agrees) fun _ => .pure _
  type := ih.type_step
  bound {v _ _} live agrees := by
    unfold boundShown
    cases v with
    | nil => exact .pure _
    | _ => exact ih.value live agrees
  named lives agrees := by
    unfold namedShown
    exact .mapM fun f hf => .bind (ih.type (lives f hf) agrees) fun _ => .pure _
  plain := ih.plain_step

end

end Texts

/-- Texts are the same in a greater heap, and to a greater depth if they do not give up. -/
theorem texts_grow {lenient : Prop} {h g : Heap} (ext : h.Extends g) (closed : h.Closed) {n m : Nat}
    (hnm : n ≤ m) (deep : lenient ∨ n = m) : Texts lenient h g n m := by
  induction n generalizing m with
  | zero =>
    obtain deep | rfl := deep
    · exact ⟨fun _ _ => .abandoned deep _, fun _ _ => .abandoned deep _, fun _ _ => .abandoned deep _,
        fun _ _ => .abandoned deep _, fun _ _ => .abandoned deep _, fun _ _ => .abandoned deep _⟩
    · exact ⟨fun _ _ => .exhausted, fun _ _ => .exhausted, fun _ _ => .exhausted, fun _ _ => .exhausted,
        fun _ _ => .exhausted, fun _ _ => .exhausted⟩
  | succ n ih =>
    obtain ⟨m, rfl⟩ : ∃ k, m = k + 1 := ⟨m - 1, by omega⟩
    exact (ih (by omega) (deep.imp id Nat.succ.inj)).step ext closed

section Messages

variable {h g : Heap} {v : Value} {d : Descriptor} {vs : List Value}

theorem Value.shown_grow (ext : h.Extends g) (closed : h.Closed) (live : v.Live h) :
    v.shown g = v.shown h :=
  ((texts_grow ext closed (Nat.le_refl _) (.inr rfl)).value live (.refl [])).carries.eq

theorem Descriptor.describe_grow (ext : h.Extends g) (closed : h.Closed) (live : d.Live h) :
    d.describe g = d.describe h :=
  ((texts_grow ext closed (Nat.le_refl _) (.inr rfl)).type live (.refl [])).carries.eq

/-- The text of a list of values. -/
def Value.itemsShown (vs : List Value) : Look String := do
  return "[" ++ commas (← vs.mapM (shownAt (valueDepth - 1) [])) ++ "]"

/-- The text of a list that is made of values does not depend on where the list is. -/
theorem Value.shown_newList {kind : Flavour} {i : Handle} (ext : h.Extends g) (closed : h.Closed)
    (lives : ∀ v ∈ vs, v.Live h) (new : h.lists.size ≤ i) (held : g.list i = vs) :
    (Value.list kind i).shown g = itemsShown vs h := by
  have texts : Texts False h g (valueDepth - 1) (valueDepth - 1) :=
    texts_grow ext closed (Nat.le_refl _) (.inr rfl)
  have inside := texts.items lives (.newList new [])
  subst held
  exact (Worded.bind inside fun shown => .pure ("[" ++ commas shown ++ "]")).carries.eq

/-- What a failed check of values against a type says. -/
def Value.refusal (d : Descriptor) (vs : List Value) : Look String := do
  let e ← shown (.descriptor d)
  let shown ← itemsShown vs
  return "Expected " ++ e ++ ", got " ++ "list" ++ " " ++ Text.truncated shownLimit shown

theorem Value.mismatchMessage_newList {i : Handle} (ext : h.Extends g) (closed : h.Closed)
    (ld : d.Live h) (lives : ∀ v ∈ vs, v.Live h) (new : h.lists.size ≤ i) (held : g.list i = vs) :
    mismatchMessage (.descriptor d) (.list .base i) g = refusal d vs h := by
  have type : shown (.descriptor d) g = shown (.descriptor d) h := shown_grow ext closed ld
  have items : shown (.list .base i) g = itemsShown vs h := shown_newList ext closed lives new held
  have message : mismatchMessage (.descriptor d) (.list .base i) = (do
      let e ← shown (.descriptor d)
      let shown ← shown (.list .base i)
      return "Expected " ++ e ++ ", got " ++ "list" ++ " " ++ Text.truncated shownLimit shown) := by
    simp only [mismatchMessage, shownBriefly, bind_assoc, pure_bind]
    rfl
  rw [message]
  exact Look.bind_congr type fun e => Look.bind_congr items fun _ => rfl

/-- The words of a refusal fail only by giving up. -/
theorem Value.refusal_gaveUp {f : Fault} (closed : h.Closed) (ld : d.Live h) (lives : ∀ v ∈ vs, v.Live h)
    (silent : refusal d vs h = .error f) : f = .exhausted := by
  have texts (n : Nat) : Texts False h h n n := texts_grow (.refl h) closed (Nat.le_refl _) (.inr rfl)
  have type := (texts valueDepth).value (v := .descriptor d) ld (.refl [])
  have items := (texts (valueDepth - 1)).items lives (.refl [])
  have whole : Worded False h h (refusal d vs) (refusal d vs) :=
    .bind type fun _ => .bind (.bind items fun _ => .pure _) fun _ => .pure _
  exact whole.gaveUp f silent

/-- A type that cannot be described cannot be named in a refusal either. -/
theorem Value.refusal_of_undescribed {f : Fault} (closed : h.Closed) (ld : d.Live h)
    (undescribed : d.describe h = .error f) :
    f = .exhausted ∧ refusal d vs h = .error .exhausted := by
  have texts : Texts True h h (valueDepth - 1) valueDepth :=
    texts_grow (.refl h) closed (Nat.sub_le _ _) (.inl trivial)
  have less := texts.type ld (.refl [])
  have whole : Texts False h h valueDepth valueDepth :=
    texts_grow (.refl h) closed (Nat.le_refl _) (.inr rfl)
  refine ⟨(whole.type ld (.refl [])).gaveUp f undescribed, ?_⟩
  refine Look.bind_eq_error.mpr (.inl ?_)
  change describeAt (valueDepth - 1) [] d h = _
  cases shallow : describeAt (valueDepth - 1) [] d h with
  | ok text =>
    have deep := (less.carries.ok shallow).1
    rw [Descriptor.describe, deep] at undescribed
    cases undescribed
  | error e => rw [less.gaveUp e shallow]

end Messages

end Conform
