import Conform.Proofs.Refusal

/-!
Checking a bulk of values. If matching comes to an answer on each of them, then they all match and pass,
or one of them does not and they are refused. Apart from the checked lists that are made, nothing that was
there changes.

Main statement: `Regime.vetList_ends`.
-/
namespace Conform

open Value Descriptor

/-- A checked list that has a type is there. -/
theorem CheckedList.Kept.live {R : Regime} {s : Session} {c : Class} {i : Handle}
    (kept : (s.heap.checkedList i).Kept R s) : (Value.checked c i).Live s.heap := by
  obtain ⟨id, hc⟩ := kept.collection
  by_contra absent
  have absent : s.heap.checked.size ≤ i := Nat.le_of_not_lt absent
  simp [Heap.checkedList, Array.getElem?_eq_none absent] at hc

namespace Regime

/-- A later moment at which all that was there is as it was, and the same transforms are declared. -/
structure Since (R : Regime) (s t : Session) : Prop where
  before : s.Before t
  sound : R.Sound t
  transforms : t.transforms = s.transforms

/-- A later moment at which there are the same checked lists. -/
structure Idle (R : Regime) (s t : Session) : Prop extends Since R s t where
  checked : t.heap.checked = s.heap.checked

variable {R : Regime} {n : Nat} {s t u : Session} {d : Descriptor} {v : Value}

namespace Since

theorem refl (sound : R.Sound s) : R.Since s s :=
  ⟨.refl s, sound, rfl⟩

theorem trans (st : R.Since s t) (tu : R.Since t u) : R.Since s u :=
  ⟨st.before.trans tu.before, tu.sound, tu.transforms.trans st.transforms⟩

theorem later (st : R.Since s t) : R.Later s t :=
  .ofBefore st.before

theorem live (st : R.Since s t) (lv : v.Live s.heap) : v.Live t.heap :=
  st.before.live lv

/-- A value matches a type later as it did before. -/
theorem holds (st : R.Since s t) (sound : R.Sound s) (hd : R.Knows s d) {vs : List Value}
    (lv : ∀ v ∈ vs, v.Live s.heap) : (∀ v ∈ vs, R.Holds t d v) ↔ ∀ v ∈ vs, R.Holds s d v :=
  forall₂_congr fun v hv => (R.steady sound st.sound st.later hd (lv v hv)).symm

end Since

namespace Idle

theorem refl (sound : R.Sound s) : R.Idle s s :=
  ⟨.refl sound, rfl⟩

theorem trans (st : R.Idle s t) (tu : R.Idle t u) : R.Idle s u :=
  ⟨st.toSince.trans tu.toSince, tu.checked.trans st.checked⟩

theorem checkedList (st : R.Idle s t) (i : Handle) : t.heap.checkedList i = s.heap.checkedList i := by
  simp only [Heap.checkedList, st.checked]

theorem ofSpares (before : s.Before t) (sound : R.Sound t) (spares : s.Spares t) : R.Idle s t :=
  ⟨⟨before, sound, spares.transforms⟩, spares.checked⟩

/-- What is written into the log, the identities that are used up and the use of declarations. -/
theorem aside (sound : R.Sound s) (log : List String) (nextIdent : Ident) (transformsEnabled : Bool) :
    R.Idle s { s with log, nextIdent, transformsEnabled } := by
  have ext : s.heap.Extends s.heap := .refl s.heap
  exact ⟨⟨⟨ext, fun _ _ => id⟩, sound.change sound.closed ext.spans rfl rfl sound.elements, rfl⟩, rfl⟩

/-- A new list of values that are there. -/
theorem newList (sound : R.Sound s) {vs : List Value} (lv : ∀ v ∈ vs, v.Live s.heap) :
    R.Idle s { s with heap := { s.heap with lists := s.heap.lists.push vs } } := by
  let t : Session := { s with heap := { s.heap with lists := s.heap.lists.push vs } }
  have ext : s.heap.Extends t.heap := { Heap.Extends.refl s.heap with lists := .push _ _ }
  have closed : t.heap.Closed := by
    refine sound.closed.change ext.spans rfl rfl rfl (fun i v hv => ?_) (fun _ _ => .inl)
      (fun _ _ => .inl) (fun _ => .inl rfl) fun _ => .inl rfl
    rw [list_push] at hv
    split at hv
    · exact .inr (Value.Live.grow ext v (lv v hv))
    · exact .inl hv
  exact ⟨⟨⟨ext, fun _ _ => id⟩, sound.change closed ext.spans rfl rfl sound.elements, rfl⟩, rfl⟩

/-- A new context that tells of values that are there. -/
theorem reported (sound : R.Sound s) {self : CheckedList.Self} {operation : String}
    {position : Option Int} (ls : self.value.Live s.heap) (ld : d.Live s.heap) (lv : v.Live s.heap)
    (noted : (self.reported d v operation position s).Noted t) : R.Idle s t := by
  obtain ⟨log, nextIdent, rfl⟩ := noted
  let c := self.signed operation position s.nextIdent { expected := .descriptor d, actual := v }
  have ext : s.heap.Extends { s.heap with contexts := s.heap.contexts.push c } :=
    { Heap.Extends.refl s.heap with contexts := .push _ _ }
  have told : ∀ w ∈ c.values, w.Live s.heap := by
    refine self.signed_live operation position s.nextIdent ?_ ls
    simpa [CheckContext.values, Value.Live] using ⟨ld, lv⟩
  have closed : ({ s.heap with contexts := s.heap.contexts.push c } : Heap).Closed := by
    refine sound.closed.change ext.spans rfl rfl rfl (fun _ _ => .inl) (fun _ _ => .inl) (fun _ _ => .inl)
      (fun _ => .inl rfl) fun i => ?_
    rw [context_push]
    split
    · exact .inr fun w hw => Value.Live.grow ext w (told w hw)
    · exact .inl rfl
  exact ⟨⟨⟨ext, fun _ _ => id⟩, sound.change closed ext.spans rfl rfl sound.elements, rfl⟩, rfl⟩

end Idle

/-- A new checked list of values that are there. -/
theorem Since.newChecked (sound : R.Sound s) {l : CheckedList} (hd : R.Knows s l.element)
    (lv : ∀ v ∈ l.items, v.Live s.heap) :
    R.Since s { s with heap := { s.heap with checked := s.heap.checked.push l } } := by
  let t : Session := { s with heap := { s.heap with checked := s.heap.checked.push l } }
  have ext : s.heap.Extends t.heap := { Heap.Extends.refl s.heap with checked := .push _ _ }
  have closed : t.heap.Closed := by
    refine sound.closed.change ext.spans rfl rfl rfl (fun _ _ => .inl) (fun _ _ => .inl) (fun i v hv => ?_)
      (fun i => ?_) fun _ => .inl rfl
    · rw [checkedList_push] at hv
      split at hv
      · exact .inr (Value.Live.grow ext v (lv v hv))
      · exact .inl hv
    · rw [checkedList_push]
      split
      · exact .inr (Descriptor.Live.grow ext _ hd.2)
      · exact .inl rfl
  have elements : ∀ i, R.family (t.heap.checkedList i).element := by
    intro i
    rw [checkedList_push]
    split
    · exact hd.1
    · exact sound.elements i
  exact ⟨⟨ext, fun _ _ => id⟩, sound.change closed ext.spans rfl rfl elements, rfl⟩

/-- Whether matching to a depth comes to an answer, from a moment on. -/
def Decides (R : Regime) (n : Nat) (s : Session) (d : Descriptor) (v : Value) : Prop :=
  ∀ t, s.Before t → R.Sound t → ∃ answer u, (R.engine n).accepts d v t = .ok answer u

theorem Decides.later (decides : R.Decides n s d v) (st : s.Before t) : R.Decides n t d v :=
  fun u tu sound => decides u (st.trans tu) sound

/-- Whatever depth an answer is given to, it is that the value matches or that it does not. -/
theorem accepts_iff (sound : R.Sound s) (hd : R.Knows s d) (lv : v.Live s.heap) {answer : Bool}
    (asked : (R.engine n).accepts d v s = .ok answer t) : answer = true ↔ R.Holds s d v := by
  constructor
  · rintro rfl
    exact ⟨n, t, asked⟩
  · intro holds
    cases answer with
    | true => rfl
    | false => exact absurd asked (not_refused sound hd hd lv (m := 1) .self holds)

theorem accepts_idle (sound : R.Sound s) (hd : R.Knows s d) {answer : Bool}
    (asked : (R.engine n).accepts d v s = .ok answer t) : R.Idle s t := by
  obtain ⟨before, soundt⟩ := ((R.tame.quiet n).1 d v hd.1).ok asked sound
  have spares := R.accepts_spares n d v s sound hd.1
  rw [Act.after_of_ok asked] at spares
  exact .ofSpares before soundt spares

theorem subtype_idle {d d' : Descriptor} (sound : R.Sound s) (hd : R.Knows s d) (hd' : R.Knows s d')
    {answer : Bool} (asked : (R.engine n).subtype d d' s = .ok answer t) : R.Idle s t := by
  obtain ⟨before, soundt⟩ := ((R.tame.quiet n).2 d d' hd.1 hd'.1).ok asked sound
  have spares := R.subtype_spares n d d' s sound hd.1 hd'.1
  rw [Act.after_of_ok asked] at spares
  exact .ofSpares before soundt spares

/-- Values are asked about one by one, and all match or one does not. -/
theorem allAccepted_ends {vs : List Value} (sound : R.Sound s) (hd : R.Knows s d)
    (lv : ∀ v ∈ vs, v.Live s.heap) (decides : ∀ v ∈ vs, R.Decides n s d v) :
    ∃ answer t, vs.allM ((R.engine n).accepts d) s = .ok answer t ∧ R.Idle s t ∧
      (answer = true ↔ ∀ v ∈ vs, R.Holds s d v) := by
  induction vs generalizing s with
  | nil => exact ⟨true, s, rfl, .refl sound, by simp⟩
  | cons v vs ih =>
    simp only [List.forall_mem_cons] at lv decides ⊢
    obtain ⟨answer, t, asked⟩ := decides.1 s (.refl s) sound
    have st := accepts_idle sound hd asked
    have first := accepts_iff sound hd lv.1 asked
    cases answer with
    | false =>
      refine ⟨false, t, Act.bind_of_ok asked, st, ?_⟩
      simpa using fun holds => absurd (first.mpr holds) Bool.false_ne_true
    | true =>
      obtain ⟨answer, u, asked', tu, rest⟩ :=
        ih st.sound (hd.later st.later) (fun w hw => st.live (lv.2 w hw))
          fun w hw => (decides.2 w hw).later st.before
      refine ⟨answer, u, (Act.bind_of_ok asked).trans asked', st.trans tu, ?_⟩
      rw [rest, st.holds sound hd lv.2]
      exact ⟨fun all => ⟨first.mp rfl, all⟩, fun all => all.2⟩

/-- What becomes of a bulk of values that is to join a list: they are let in if they all match a type,
otherwise they are refused in the name of the list, or the text of the refusal gives up. -/
inductive Joins (R : Regime) (s : Session) (self : CheckedList.Self) (id : Ident) (d : Descriptor)
    (vs : List Value) (operation : String) (position : Option Int) :
    EStateM.Result Fault Session (List Value) → Prop
  | passed {t : Session} (all : ∀ v ∈ vs, R.Holds s d v) (idle : R.Idle s t) :
    Joins R s self id d vs operation position (.ok vs t)
  | refused {f : Fault} {t : Session} {i : Handle} (some : ¬∀ v ∈ vs, R.Holds s d v)
    (written : ∃ text, refusal (.collection id .array d) vs s.heap = .ok text)
    (blame : Blames self (.collection id .array d) (.list .base i) operation position t f)
    (held : t.heap.list i = vs) (idle : R.Idle s t) :
    Joins R s self id d vs operation position (.error f t)
  | unwritten {t : Session} (some : ¬∀ v ∈ vs, R.Holds s d v)
    (silent : refusal (.collection id .array d) vs s.heap = .error .exhausted) (idle : R.Idle s t) :
    Joins R s self id d vs operation position (.error .exhausted t)

section Vetting

variable {self : CheckedList.Self} {id : Ident} {vs : List Value} {operation : String}
  {position : Option Int}

/-- A new list is checked against the type of arrays of a type, and its items are let in. -/
theorem vetList_ends {i : Handle} (sound : R.Sound s) (hd : R.Knows s d) (ls : self.value.Live s.heap)
    (lv : ∀ v ∈ vs, v.Live s.heap) (decides : ∀ v ∈ vs, R.Decides n s d v) (st : R.Idle s t)
    (new : s.heap.lists.size ≤ i) (there : i < t.heap.lists.size) (held : t.heap.list i = vs) :
    R.Joins s self id d vs operation position ((do
      self.vet (R.engine (n + 1)) (.list .base i) (.collection id .array d) operation position
      Value.items (.list .base i) : Act (List Value)) t) := by
  obtain ⟨answer, u, walked, tu, answered⟩ :=
    allAccepted_ends st.sound (hd.later st.later) (fun v hv => st.live (lv v hv))
      fun v hv => (decides v hv).later st.before
  rw [st.holds sound hd lv] at answered
  have su := st.trans tu
  have asked : (R.engine (n + 1)).accepts (.collection id .array d) (.list .base i) t = .ok answer u := by
    change (t.heap.list i).allM ((R.engine n).accepts d) t = _
    rw [held]
    exact walked
  have held : u.heap.list i = vs := (tu.before.heap.list_eq there).trans held
  cases answer with
  | true =>
    rw [Act.bind_of_ok (CheckedList.Self.vet_passed asked)]
    change R.Joins s self id d vs operation position (.ok (u.heap.list i) u)
    rw [held]
    exact .passed (answered.mp rfl) su
  | false =>
    have some : ¬∀ v ∈ vs, R.Holds s d v := fun all => absurd (answered.mpr all) nofun
    obtain ⟨f, w, vetted, noted, cause⟩ := self.vet_refused operation position asked
    rw [Act.bind_of_error vetted]
    have listed : (Value.list .base i).Live u.heap := tu.live there
    have uw : R.Idle u w :=
      .reported (d := .collection id .array d) su.sound (su.live ls) (hd.later su.later).2 listed noted
    have sw := su.trans uw
    have held : w.heap.list i = vs := (uw.before.heap.list_eq listed).trans held
    have ld : (Descriptor.collection id .array d).Live s.heap := hd.2
    rw [mismatchMessage_newList sw.before.heap sound.closed ld lv new held,
      describe_grow sw.before.heap sound.closed ld] at cause
    obtain ⟨blame, written⟩ | silent | undescribed := cause
    · exact .refused some written blame held sw
    · obtain rfl := refusal_gaveUp sound.closed ld lv silent
      exact .unwritten some silent sw
    · obtain ⟨rfl, silent⟩ := refusal_of_undescribed sound.closed ld undescribed
      exact .unwritten some silent sw

/-- A copy is made of values and checked, and its items are let in. -/
theorem newList_ends (sound : R.Sound s) (hd : R.Knows s d) (ls : self.value.Live s.heap)
    (lv : ∀ v ∈ vs, v.Live s.heap) (decides : ∀ v ∈ vs, R.Decides n s d v) (st : R.Idle s t) :
    R.Joins s self id d vs operation position ((do
      let whole ← Act.newList vs
      self.vet (R.engine (n + 1)) whole (.collection id .array d) operation position
      whole.items : Act (List Value)) t) := by
  let u : Session := { t with heap := { t.heap with lists := t.heap.lists.push vs } }
  have made : Act.newList vs t = .ok (.list .base t.heap.lists.size) u := rfl
  have tu : R.Idle t u := .newList st.sound fun v hv => st.live (lv v hv)
  rw [Act.bind_of_ok made]
  refine vetList_ends sound hd ls lv decides (st.trans tu) ?_ ?_ ?_
  · exact st.before.heap.lists.size_le
  · simp [u]
  · simp [u, list_push]

end Vetting

end Regime

end Conform
