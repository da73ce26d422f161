import Conform.Proofs.Upkeep

/-!
What gets into a checked list has been found to match its element type, either by a check or because it
comes from a list whose element type is below. All that happens on the way, the report of a mismatch
included, keeps the session in order.
-/
namespace Conform

open Value Descriptor

section Spares

variable {α : Type}

theorem fresh_spares : Act.fresh.Leads Session.Spares :=
  fun _ => ⟨rfl, rfl⟩

theorem trace_spares (message : Look String) : (Logging.trace message).Leads Session.Spares := by
  refine .bind .get fun _ => .ite (.bind (.lift _) fun _ => .modify fun s => ?_) (.pure _)
  split <;> exact ⟨rfl, rfl⟩

theorem itemsAt_spares {n : Nat} {v : Value} : (v.itemsAt n).Leads Session.Spares :=
  itemsAt_leads fresh_spares fun _ _ => .modify fun _ => ⟨rfl, rfl⟩

end Spares

section Items

variable {s t : Session}

/-- Values that stand wherever a value stands, as far back as it goes. -/
def Value.Yields (h : Heap) (v : Value) (vs : List Value) : Prop :=
  ∀ g : Heap, g.Closed → g.Extends h → v.Live g → ∀ w ∈ vs, w.Live g

theorem needAttribute_yields {h : Heap} {c : Class} {i : Handle} {name : String} {w : Value}
    (hw : needAttribute c i name h = .ok w) : (Value.thing c i).Yields h [w] := by
  intro g closed ext (live : i < g.things.size)
  simp only [needAttribute, Look.bind_eq_ok, Look.read_eq_ok, exists_eq_left'] at hw
  cases hu : ownAttribute? h i name with
  | none => simp [hu] at hw
  | some u =>
    simp only [hu, Look.pure_eq_ok] at hw
    obtain ⟨a, ha, rfl⟩ := Option.map_eq_some_iff.mp hu
    rw [ext.thing_eq live] at ha
    simpa [← hw] using closed.things i a (List.mem_of_find?_eq_some ha)

theorem mapM_ok_all {α β : Type} {f : α → Act β} {Q : β → Prop}
    (hf : ∀ x s y t, f x s = .ok y t → Q y) {xs : List α} {ys : List β}
    (run : xs.mapM f s = .ok ys t) : ∀ y ∈ ys, Q y := by
  induction xs generalizing s ys with
  | nil =>
    obtain ⟨rfl, -⟩ := Act.pure_eq_ok.mp run
    simp
  | cons x xs ih =>
    simp only [List.mapM_cons, Act.bind_eq_ok, Act.pure_eq_ok] at run
    obtain ⟨y, u, first, ys, w, rest, rfl, rfl⟩ := run
    exact List.forall_mem_cons.mpr ⟨hf _ _ _ _ first, ih rest⟩

/-- An iterator that is used up leaves all places where they are. -/
theorem Heap.Spans.setIter (h : Heap) (i : Handle) (vs : List Value) :
    h.Spans { h with iters := h.iters.setIfInBounds i vs } := by
  constructor <;> simp

/-- The items of a value stand where it stands. -/
theorem itemsAt_yields {n : Nat} {v : Value} {items : List Value} (run : v.itemsAt n s = .ok items t) :
    v.Yields s.heap items := by
  induction n generalizing v with
  | zero => simp [itemsAt] at run
  | succ n ih =>
    intro g closed ext lv
    have through {c : Class} {i : Handle} (lv : (Value.thing c i).Live g)
        (run : ((do itemsAt n (← needAttribute c i "items")) : Act (List Value)) s = .ok items t) :
        ∀ w ∈ items, w.Live g := by
      simp only [Act.bind_eq_ok, Act.lift_eq_ok] at run
      obtain ⟨w, _, ⟨hw, rfl⟩, run⟩ := run
      exact ih run g closed ext (needAttribute_yields hw g closed ext lv w (by simp))
    have made {α : Type} {xs : List α} {f : α → Act Value}
        (hf : ∀ x s y t, f x s = .ok y t → ∀ h, y.Live h) (run : xs.mapM f s = .ok items t) :
        ∀ w ∈ items, w.Live g := fun w hw => mapM_ok_all hf run w hw g
    have letters (c : Char) (s : Session) (y : Value) (t : Session)
        (run : Act.newStr c.toString s = .ok y t) (h : Heap) : y.Live h := by
      simp only [Act.newStr, Act.bind_eq_ok, Act.pure_eq_ok] at run
      obtain ⟨_, _, _, rfl, _⟩ := run
      trivial
    have numbers (k : Int) (s : Session) (y : Value) (t : Session)
        (run : Act.newInt k s = .ok y t) (h : Heap) : y.Live h := by
      simp only [Act.newInt, Act.bind_eq_ok, Act.pure_eq_ok] at run
      obtain ⟨_, _, _, rfl, _⟩ := run
      trivial
    unfold itemsAt at run
    obtain ⟨_, _, here, run⟩ := Act.bind_eq_ok.mp run
    obtain ⟨rfl, rfl⟩ := Act.getHeap_eq_ok.mp here
    split at run
    case h_8 => exact made letters run
    case h_9 => exact made (fun _ => numbers _) run
    case h_10 => exact made (fun _ => numbers _) run
    case h_11 => exact made numbers run
    case h_12 =>
      simp only [Act.bind_eq_ok, Act.setIter, Act.modifyHeap, Act.modify_eq_ok, Act.pure_eq_ok] at run
      obtain ⟨_, _, rfl, rfl, rfl⟩ := run
      rw [ext.iter_eq lv]
      exact closed.iters _
    case h_14 =>
      rename_i id owner _
      rw [entries?_grow (v := owner) ext lv] at run
      cases he : entries? g owner with
      | none => simp [he] at run
      | some entries =>
        simp only [he, Act.pure_eq_ok] at run
        obtain ⟨rfl, rfl⟩ := run
        exact List.forall_mem_map.mpr fun e hm => (entries?_live (v := owner) closed lv he e hm).1
    case h_15 => exact through lv run
    case h_16 => exact through lv run
    case h_17 => simp at run
    all_goals
      obtain ⟨rfl, rfl⟩ := Act.pure_eq_ok.mp run
    case h_1 => exact ext.list_eq lv ▸ closed.lists _
    case h_2 => simpa [Value.Live] using lv
    case h_3 => simpa [Value.Live] using lv
    case h_4 =>
      rw [ext.dict_eq lv]
      exact List.forall_mem_map.mpr fun e he => (closed.dicts _ e he).1
    case h_5 =>
      have lv := liveEntries_iff.mp lv
      exact List.forall_mem_map.mpr fun e he => (lv e he).1
    case h_6 => exact ext.set_eq lv ▸ closed.sets _
    case h_7 => simpa [Value.Live] using lv
    case h_13 =>
      rw [ext.checkedList_eq lv]
      exact closed.checked _

end Items

/-- A context that tells who performed the check. -/
def CheckedList.Self.signed (self : CheckedList.Self) (operation : String) (position : Option Int)
    (id : Ident) (c : CheckContext) : CheckContext :=
  { c with
    receiver := self.value
    operation := .str .base id operation
    position := position.elim c.position (.int .base (id + 1)) }

theorem CheckedList.Self.signed_live {self : CheckedList.Self} {c : CheckContext} {h : Heap}
    (operation : String) (position : Option Int) (id : Ident) (lc : ∀ w ∈ c.values, w.Live h)
    (ls : self.value.Live h) : ∀ w ∈ (self.signed operation position id c).values, w.Live h := by
  simp only [CheckContext.values, List.forall_mem_cons, List.not_mem_nil, false_implies, implies_true,
    and_true] at lc ⊢
  obtain ⟨expected, actual, -, -, place, name⟩ := lc
  cases position with
  | some p => exact ⟨expected, actual, ls, trivial, trivial, name⟩
  | none => exact ⟨expected, actual, ls, trivial, place, name⟩

/-- A context that is filled in where it was made is as if it had been made that way. -/
theorem newContext_ok (c : CheckContext) (self : CheckedList.Self) (operation : String)
    (position : Option Int) (t : Session) :
    (do
      let at_ ← Act.newContext c
      self.sign operation position at_
      return at_ : Act Handle) t =
        .ok t.heap.contexts.size { t with
          heap := { t.heap with
            contexts := t.heap.contexts.push (self.signed operation position t.nextIdent c) }
          nextIdent := t.nextIdent + position.elim 1 fun _ => 2 } := by
  have read : ({ t.heap with contexts := t.heap.contexts.push c } : Heap).context t.heap.contexts.size =
      c := by simp [context_push]
  have filled (c' : CheckContext) :
      (t.heap.contexts.push c).setIfInBounds t.heap.contexts.size c' = t.heap.contexts.push c' := by
    simp [Array.setIfInBounds, Array.set_push]
  cases position with
  | some p =>
    simp [Act.newContext, CheckedList.Self.sign, CheckedList.place, Act.newStr, Act.newInt,
      Check.fillReceiver, Act.setContext, Act.modifyHeap, and_assoc, read, filled, Value.same,
      CheckedList.Self.signed]
  | none =>
    simp [Act.newContext, CheckedList.Self.sign, CheckedList.place, Act.newStr, Check.fillReceiver,
      Act.setContext, Act.modifyHeap, and_assoc, read, filled, Value.same, CheckedList.Self.signed]

/-- The surplus arguments are arguments. -/
theorem Signature.rest_of_bind {sig : Signature} {args : List Value} {keywords : Keywords} {b : Bound}
    (h : sig.bind args keywords = .ok b) : b.rest = args.drop sig.parameters.length := by
  simp only [Signature.bind] at h
  cases hn : sig.addNamed keywords (sig.parameters.zip args) with
  | error text =>
    rw [hn] at h
    cases h
  | ok bound =>
    rw [hn] at h
    dsimp only [Bind.bind, Except.bind] at h
    split at h
    · cases h
    · split at h
      · cases h
        rfl
      · cases h

/-- A step that changes the heap but keeps what is there, and leaves the rest alone. -/
structure Regime.Change (R : Regime) (s t : Session) : Prop where
  keeps : s.heap.Keeps R.changing t.heap
  spares : s.Spares t
  resolved : t.resolved = s.resolved
  ancestors : t.ancestors = s.ancestors
  closed : t.heap.Closed

namespace Regime

/-- What a checked list must be to stand in a session. -/
structure Fits (R : Regime) (s : Session) (l : CheckedList) : Prop where
  element : R.Knows s l.element
  collection : ∃ id, l.collection = .collection id .array l.element
  items : R.Admits s l.element l.items

theorem InOrder.fits {R : Regime} {s : Session} (order : R.InOrder s) {i : Handle}
    (hi : i < s.heap.checked.size) : R.Fits s (s.heap.checkedList i) :=
  ⟨order.element i, (order.kept i hi).collection, order.items hi⟩

/-- Order lasts when every checked list comes to be one that fits. What fits may have been told at an
earlier moment, from which on only lists that may change have changed. -/
theorem InOrder.rewritten {R : Regime} {s t : Session} {lists : Array CheckedList} (order : R.InOrder s)
    (order' : R.InOrder t) (st : R.Later s t) (size : t.heap.checked.size ≤ lists.size)
    (keeps : s.heap.Keeps R.changing { t.heap with checked := lists })
    (fits : ∀ i < lists.size, R.Fits s (({ t.heap with checked := lists } : Heap).checkedList i)) :
    let u : Session := { t with heap := { t.heap with checked := lists } }
    R.Later s u ∧ R.InOrder u := by
  intro u
  have su : R.Later s u := ⟨keeps, st.resolved⟩
  have spans : t.heap.Spans u.heap := by constructor <;> simp [u, size]
  have beyond {i : Handle} (hi : ¬i < lists.size) :
      u.heap.checkedList i = t.heap.checkedList i := by
    have ht : t.heap.checked.size ≤ i := Nat.le_trans size (Nat.le_of_not_lt hi)
    simp [u, Heap.checkedList, Array.getElem?_eq_none ht, Array.getElem?_eq_none (Nat.le_of_not_lt hi)]
  have closed : u.heap.Closed := by
    refine order'.sound.closed.change spans rfl rfl rfl (fun _ _ => .inl) (fun _ _ => .inl)
      (fun i v hv => ?_) (fun i => ?_) fun _ => .inl rfl
    · by_cases hi : i < lists.size
      · exact .inr (su.live ((fits i hi).items v hv).1)
      · exact .inl (beyond hi ▸ hv)
    · by_cases hi : i < lists.size
      · exact .inr (su.liveType (fits i hi).element.2)
      · exact .inl (by rw [beyond hi])
  have sound : R.Sound u := by
    refine order'.sound.change closed spans rfl rfl fun i => ?_
    by_cases hi : i < lists.size
    · exact (fits i hi).element.1
    · exact beyond hi ▸ order'.sound.elements i
  refine ⟨su, sound, fun i hi => ⟨(fits i hi).collection, fun v hv => ?_⟩, order'.truthful, ?_⟩
  · exact ((fits i hi).items.later order.sound sound su (fits i hi).element v hv).2
  · intro declared hd
    obtain ⟨source, result⟩ := order'.known declared hd
    exact ⟨⟨source.1, Descriptor.Live.reach spans _ source.2⟩,
      result.1, Descriptor.Live.reach spans _ result.2⟩

/-- Order lasts when a list that fits is added. -/
theorem InOrder.pushed {R : Regime} {s t : Session} {l : CheckedList} (order : R.InOrder s)
    (order' : R.InOrder t) (st : R.Later s t) (size : t.heap.checked.size ≤ s.heap.checked.size + 1)
    (fits : R.Fits s l) :
    let u : Session := { t with heap := { t.heap with checked := s.heap.checked.push l } }
    R.Later s u ∧ R.InOrder u := by
  have old {i : Handle} (hi : i < s.heap.checked.size) :
      ({ t.heap with checked := s.heap.checked.push l } : Heap).checkedList i =
        s.heap.checkedList i := by
    simp [Heap.checkedList, Array.getElem?_push, Nat.ne_of_lt hi]
  refine order.rewritten order' st (by simpa using size) ?_ fun i hi => ?_
  · exact { st.heap with
      checked := by simp
      elements := fun i hi => by rw [old hi]
      collections := fun i hi => by rw [old hi]
      others := fun i hi _ => old hi }
  · by_cases h : i < s.heap.checked.size
    · exact old h ▸ order.fits h
    · have last : i = s.heap.checked.size := by
        rw [Array.size_push] at hi
        exact Nat.le_antisymm (Nat.le_of_lt_succ hi) (Nat.le_of_not_lt h)
      simpa [last, Heap.checkedList] using fits

end Regime

namespace Regime.Sure

variable {R : Regime} {α : Type} {s : Session} {n : Nat} {d : Descriptor} {v : Value}

section

variable (order : R.InOrder s)
include order

theorem fresh : R.Sure s Act.fresh fun _ _ => True :=
  .quiet order fresh_quiet (fresh_spares s) fun _ _ _ _ _ => trivial

theorem newStr (text : String) : R.Sure s (Act.newStr text) fun w t => w.Live t.heap :=
  .bind (fresh order) fun _ _ _ order _ => .pure order trivial

theorem newInt (k : Int) : R.Sure s (Act.newInt k) fun w t => w.Live t.heap :=
  .bind (fresh order) fun _ _ _ order _ => .pure order trivial

theorem trace (message : Look String) : R.Sure s (Logging.trace message) fun _ _ => True :=
  .quiet order (trace_quiet message) (trace_spares message s) fun _ _ _ _ _ => trivial

/-- Asking whether a value matches a type of the family. -/
theorem accepts (hd : R.Knows s d) (lv : v.Live s.heap) :
    R.Sure s ((R.engine n).accepts d v) fun b t => s.Spares t ∧ (b = true → R.Holds t d v) := by
  have spares := R.accepts_spares n d v s order.sound hd.1
  refine .quiet order ((R.tame.quiet n).1 d v hd.1) spares fun b t run st order' => ?_
  rw [Act.after_of_ok run] at spares
  refine ⟨spares, ?_⟩
  rintro rfl
  exact (R.steady order.sound order'.sound st hd lv).mp ⟨n, t, run⟩

/-- Asking whether a type of the family is a subtype of another. -/
theorem subtype {a b : Descriptor} (ha : R.Knows s a) (hb : R.Knows s b) :
    R.Sure s ((R.engine n).subtype a b) fun yes t => yes = true → ∃ m, BelowIn t.ground m a b := by
  refine .quiet order ((R.tame.quiet n).2 a b ha.1 hb.1)
    (R.subtype_spares n a b s order.sound ha.1 hb.1) ?_
  rintro yes t run - - rfl
  exact below_of_subtype order.sound ha hb run

/-- An action that answers and changes nothing but the heap. -/
theorem change {x : Act α} {Q : α → Session → Prop} {a : α} {t : Session} (run : x s = .ok a t)
    (changed : R.Change s t) (ha : Q a t) : R.Sure s x Q := by
  have st : R.Later s t := by
    refine ⟨changed.keeps, fun id d h => ?_⟩
    simpa only [Session.resolution?, changed.resolved] using h
  have sound : R.Sound t := by
    refine order.sound.change changed.closed changed.keeps.spans changed.ancestors changed.resolved
      fun i => ?_
    simpa only [Heap.checkedList, changed.spares.checked] using order.sound.elements i
  refine ⟨fun b u same => ?_, fun e u same => by rw [run] at same; cases same⟩
  rw [run] at same
  cases same
  exact ⟨st, order.spared st sound changed.spares, ha⟩

/-- Walking through a value. An iterator is used up by that. -/
theorem items : R.Sure s v.items fun vs t => s.Spares t ∧ v.Yields s.heap vs := by
  by_cases lasting : ∀ i, v ≠ .iter i
  · exact .quiet order (itemsAt_quiet lasting) (itemsAt_spares s) fun vs t run _ _ =>
      ⟨itemsAt_spares.ok run, itemsAt_yields run⟩
  · obtain ⟨i, rfl⟩ : ∃ i, v = .iter i := by simpa using lasting
    refine change order rfl ⟨?_, ⟨rfl, rfl⟩, rfl, rfl, ?_⟩ ⟨⟨rfl, rfl⟩, itemsAt_yields (n := 1) rfl⟩
    · have kept : s.heap.Keeps R.changing s.heap := .ofExtends (.refl _)
      exact { kept with iters := (Heap.Spans.setIter s.heap i []).iters }
    · refine order.sound.closed.change (.setIter s.heap i []) rfl rfl rfl (fun _ _ => .inl)
        (fun j v hv => .inl ?_) (fun _ _ => .inl) (fun _ => .inl rfl) fun _ => .inl rfl
      simp only [Heap.iter, Array.getElem?_setIfInBounds] at hv ⊢
      split at hv
      · split at hv <;> simp at hv
      · exact hv

/-- A new list of values that are there. -/
theorem newList {vs : List Value} (lv : ∀ w ∈ vs, w.Live s.heap) :
    R.Sure s (Act.newList vs) fun w t =>
      s.Spares t ∧ ∃ i, w = .list .base i ∧ i < t.heap.lists.size ∧ t.heap.list i = vs := by
  have ext : s.heap.Extends { s.heap with lists := s.heap.lists.push vs } :=
    { Heap.Extends.refl s.heap with lists := .push _ _ }
  refine change order rfl ⟨.ofExtends ext, ⟨rfl, rfl⟩, rfl, rfl, ?_⟩ ?_
  · refine order.sound.closed.change ext.spans rfl rfl rfl (fun i v hv => ?_)
      (fun _ _ => .inl) (fun _ _ => .inl) (fun _ => .inl rfl) fun _ => .inl rfl
    rw [list_push] at hv
    split at hv
    · exact .inr (Value.Live.grow ext v (lv v hv))
    · exact .inl hv
  · exact ⟨⟨rfl, rfl⟩, s.heap.lists.size, rfl, by simp, by simp [list_push]⟩

/-- A new context that tells who checked what. -/
theorem newContext {c : CheckContext} {self : CheckedList.Self} (operation : String) (position : Option Int)
    (lc : ∀ w ∈ c.values, w.Live s.heap) (ls : self.value.Live s.heap) :
    R.Sure s (do
      let at_ ← Act.newContext c
      self.sign operation position at_
      return at_) fun i t => i < t.heap.contexts.size := by
  have ended := newContext_ok c self operation position s
  have lc' := self.signed_live operation position s.nextIdent lc ls
  have ext : s.heap.Extends { s.heap with
      contexts := s.heap.contexts.push (self.signed operation position s.nextIdent c) } :=
    { Heap.Extends.refl s.heap with contexts := .push _ _ }
  refine change order ended ⟨.ofExtends ext, ⟨rfl, rfl⟩, rfl, rfl, ?_⟩ (by simp)
  refine order.sound.closed.change ext.spans rfl rfl rfl (fun _ _ => .inl)
    (fun _ _ => .inl) (fun _ _ => .inl) (fun _ => .inl rfl) fun i => ?_
  rw [context_push]
  split
  · exact .inr fun w hw => Value.Live.grow ext w (lc' w hw)
  · exact .inl rfl

/-- The error of a mismatch is only built. -/
theorem mismatchError {expected actual context message : Value} :
    R.Sure s (Check.mismatchError expected actual context message) fun _ _ => True := by
  have last {t : Session} (order : R.InOrder t) (text : Value) :
      R.Sure t (do return .mismatchError (← Act.fresh) expected actual context text : Act Value)
        fun _ _ => True :=
    .bind (fresh order) fun _ _ _ order _ => .pure order trivial
  refine .bind (.reading order _) fun given t _ order _ => .ite (fun _ => ?_) fun _ => ?_
  · exact .bind (.pure order trivial) fun text t _ order (_ : True) => last order text
  · refine .bind (.reading order _) fun _ t _ order _ => ?_
    exact .bind (newStr order _) fun text t _ order _ => last order text

end

/-- A check lets a value through if matching answers yes; otherwise it raises the error of a mismatch. -/
theorem vet {e : Engine} {self : CheckedList.Self} {operation : String}
    {position : Option Int} {Q : Unit → Session → Prop}
    (ask : R.Sure s (e.accepts d v) fun b t => b = true → Q () t) (ld : d.Live s.heap)
    (lv : v.Live s.heap) (ls : self.value.Live s.heap) :
    R.Sure s (self.vet e v d operation position) Q := by
  have verify : R.Sure s (Check.verify e v d (self.sign operation position))
      fun r t => r = none → Q () t := by
    refine .bind ask fun b t st order hb => .ite (fun h => ?_) fun _ => ?_
    · exact .pure order fun _ => hb h
    · have context : ∀ w ∈ ({ expected := .descriptor d, actual := v } : CheckContext).values,
          w.Live t.heap := by
        simpa [CheckContext.values, Value.Live] using ⟨st.liveType ld, st.live lv⟩
      have report := newContext order operation position context (st.live ls)
      have rest {u : Session} (order : R.InOrder u) (i : Handle) : R.Sure u (do
          let c := (← Act.getHeap).context i
          Logging.trace (do
            return "checks.check: Mismatch against " ++ (← d.describe) ++ " (receiver=" ++
              c.receiver.className ++ ", operation=" ++ (← c.operation.shown) ++ ")")
          return some (← Check.mismatchError (.descriptor d) v (.context i) .nil))
          fun r t => r = none → Q () t := by
        refine .getHeap (.bind (trace order _) fun _ u _ order _ => ?_)
        exact .bind (mismatchError order) fun _ u _ order _ => .pure order (by simp)
      simpa only [bind_assoc, pure_bind] using
        Sure.bind report fun i u _ order _ => rest order i
  refine .bind verify fun r t st order hr => ?_
  cases r with
  | none => exact .pure order (hr rfl)
  | some error => exact .throw order _

section

variable (order : R.InOrder s)
include order

theorem allAccepted {vs : List Value} (hd : R.Knows s d) (lv : ∀ w ∈ vs, w.Live s.heap) :
    R.Sure s (vs.allM ((R.engine n).accepts d)) fun b t => s.Spares t ∧ (b = true → R.Admits t d vs) := by
  induction vs generalizing s with
  | nil => exact .pure order ⟨refl s, fun _ => by simp [Admits]⟩
  | cons v vs ih =>
    simp only [List.forall_mem_cons] at lv
    refine .bind (accepts order hd lv.1) fun b t st order answer => ?_
    obtain ⟨spares, hb⟩ := answer
    cases b with
    | false => exact .pure order ⟨spares, by simp⟩
    | true =>
      have rest := ih order (hd.later st) fun w hw => st.live (lv.2 w hw)
      refine rest.mono fun b u tu order' answer => ⟨spares.trans answer.1, fun ha => ?_⟩
      refine List.forall_mem_cons.mpr ⟨?_, answer.2 ha⟩
      exact ⟨tu.live (st.live lv.1),
        (R.steady order.sound order'.sound tu (hd.later st) (st.live lv.1)).mp (hb rfl)⟩

/-- A list as a whole matches the type of arrays only if all its items match. -/
theorem acceptsArray {id : Ident} {kind : Flavour} {i : Handle} (hd : R.Knows s d) :
    R.Sure s ((R.engine n).accepts (.collection id .array d) (.list kind i)) fun b t =>
      s.Spares t ∧ (b = true → R.Admits t d (s.heap.list i)) := by
  cases n with
  | zero => exact .throw order _
  | succ n =>
    have walk := allAccepted order hd (order.sound.closed.lists i) (n := n)
    exact ⟨walk.ok, walk.error⟩

/-- Texts and mappings do not match the type of arrays. -/
theorem acceptsArray_other {id : Ident} {Q : Bool → Session → Prop} (hv : v.isList = false) (hQ : Q false s) :
    R.Sure s ((R.engine n).accepts (.collection id .array d) v) Q := by
  cases n with
  | zero => exact .throw order _
  | succ n =>
    have no : (R.engine (n + 1)).accepts (.collection id .array d) v = Pure.pure false := by
      change (if isContainer .array v then _ else _ : Act Bool) = _
      rw [if_neg (by simp [isContainer, hv])]
    rw [no]
    exact .pure order hQ

/-- What a value is read as stands where the value stands. -/
theorem ofValue (lv : v.Live s.heap) : R.Sure s (Descriptor.ofValue v) fun d t => d.Live t.heap := by
  have named {f : Ident → Descriptor} (hf : ∀ (t : Session) id, R.Later s t → (f id).Live t.heap) :
      R.Sure s (do return f (← Act.fresh)) fun d t => d.Live t.heap :=
    .bind (fresh order) fun id t st order _ => .pure order (hf t id st)
  unfold Descriptor.ofValue
  split
  case h_1 => exact .pure order lv
  case h_2 => exact .pure order trivial
  case h_3 => exact .fail order _
  case h_4 => exact named fun _ _ _ => trivial
  case h_11 => exact named fun _ _ _ => trivial
  case h_12 =>
    refine .ite (fun _ => .bind (.reading order _) fun name t st order _ => ?_) fun _ => ?_
    · refine .bind (fresh order) fun id u tu order _ => ?_
      refine .bind (newStr order name) fun w u' uu' order lw => .pure order ?_
      exact ⟨lw, uu'.live (tu.live (st.live lv))⟩
    · exact named fun _ _ st => st.live lv
  all_goals exact named fun _ _ st => st.live lv

/-- Arguments that fit a signature. -/
theorem signature {sig : Signature} {args : List Value} {keywords : Keywords}
    (la : ∀ w ∈ args, w.Live s.heap) :
    R.Sure s (sig.accept args keywords) fun b t => ∀ w ∈ b.rest, w.Live t.heap := by
  unfold Signature.accept
  cases hb : sig.bind args keywords with
  | error text => exact .fail order _
  | ok b =>
    exact .pure order fun w hw => la w (List.mem_of_mem_drop (Signature.rest_of_bind hb ▸ hw))

end

section Lists

variable {self : CheckedList.Self} {l : CheckedList}

/-- A list that may change takes on contents that fit. -/
theorem setChecked (order : R.InOrder s) {i : Handle} (hi : i < s.heap.checked.size)
    (changing : R.changing i) (element : l.element = (s.heap.checkedList i).element)
    (collection : l.collection = (s.heap.checkedList i).collection)
    (admits : R.Admits s l.element l.items) : R.Sure s (Act.setChecked i l) fun _ _ => True := by
  have kept : s.heap.Keeps R.changing s.heap := .ofExtends (.refl _)
  have keeps : s.heap.Keeps R.changing { s.heap with checked := s.heap.checked.setIfInBounds i l } := by
    refine { kept with checked := by simp, elements := ?_, collections := ?_, others := ?_ }
    all_goals
      intro j _
      rw [checkedList_set hi]
    · by_cases h : j = i
      · simp [h, element]
      · simp [h]
    · by_cases h : j = i
      · simp [h, collection]
      · simp [h]
    · exact fun other => if_neg fun (same : j = i) => other (same ▸ changing)
  have done := order.rewritten order (.refl s) (by simp) keeps fun j hj => by
    rw [checkedList_set hi]
    split
    · have fits := order.fits hi
      exact ⟨element ▸ fits.element, by rw [collection, element]; exact fits.collection, admits⟩
    · exact order.fits (by simpa using hj)
  exact ⟨fun _ t run => by cases run; exact ⟨done.1, done.2, trivial⟩, fun e t run => by cases run⟩

/-- A new list that fits. -/
theorem newChecked (order : R.InOrder s) {c : Class} (fits : R.Fits s l) :
    R.Sure s (Act.newChecked c l) fun w t =>
      w = .checked c s.heap.checked.size ∧ s.heap.checked.size < t.heap.checked.size ∧
        t.heap.checkedList s.heap.checked.size = l := by
  have done := order.pushed order (.refl s) (by simp) fits
  refine ⟨fun _ t run => ?_, fun e t run => by cases run⟩
  cases run
  exact ⟨done.1, done.2, rfl, by simp, by simp [checkedList_push]⟩

theorem state {f : CheckedList → Act α} {Q : α → Session → Prop}
    (hf : R.Sure s (f (s.heap.checkedList self.at_)) Q) : R.Sure s (self.state >>= f) Q :=
  ⟨hf.ok, hf.error⟩

variable (order : R.InOrder s)
include order

/-- A check of a bulk of values passes only lists of values that all match. -/
theorem vetArray {id : Ident} {operation : String} {position : Option Int}
    (hi : self.at_ < s.heap.checked.size) (hd : R.Knows s d) (lv : v.Live s.heap) :
    R.Sure s (self.vet (R.engine n) v (.collection id .array d) operation position) fun _ t =>
      s.Spares t ∧ ∃ kind i, v = .list kind i ∧ R.Admits t d (s.heap.list i) := by
  cases hl : v.isList with
  | true =>
    obtain ⟨kind, i, rfl⟩ : ∃ kind i, v = .list kind i := by
      cases v with
      | list kind i => exact ⟨kind, i, rfl⟩
      | _ => cases hl
    refine vet ((acceptsArray order hd).mono fun b t _ _ answer yes => ?_) hd.2 lv hi
    exact ⟨answer.1, kind, i, rfl, answer.2 yes⟩
  | false => exact vet (acceptsArray_other order hl nofun) hd.2 lv hi

/-- The items of a list. -/
theorem listItems {kind : Flavour} {i : Handle} :
    R.Sure s (Value.list kind i).items fun vs t => t = s ∧ vs = s.heap.list i := by
  refine ⟨fun vs t run => ?_, fun e t run => by cases run⟩
  cases run
  exact ⟨.refl s, order, rfl, rfl⟩

section

variable (hi : self.at_ < s.heap.checked.size)
include hi

/-- A check of a bulk of values against the type of the list itself, and what they are. -/
theorem vetWhole {operation : String} {position : Option Int} (lv : v.Live s.heap) :
    R.Sure s (do
      self.vet (R.engine n) v (← self.state).collection operation position
      v.items) fun vs t =>
        R.Admits t (s.heap.checkedList self.at_).element vs ∧ s.Spares t ∧
          ∃ kind i, v = .list kind i ∧ vs = s.heap.list i := by
  obtain ⟨id, hc⟩ := (order.kept self.at_ hi).collection
  refine state (hc ▸ .bind (vetArray order hi (order.element self.at_) lv) ?_)
  rintro - t st order' ⟨spares, kind, i, rfl, admits⟩
  refine (listItems order').mono ?_
  rintro vs _ - - ⟨rfl, rfl⟩
  have same := st.heap.list_eq lv
  exact ⟨same ▸ admits, spares, kind, i, rfl, same⟩

theorem vetElement {operation : String} {position : Int} (lv : v.Live s.heap) :
    R.Sure s (self.vetElement (R.engine n) v operation position) fun _ t =>
      R.Admits t (s.heap.checkedList self.at_).element [v] := by
  have hd := order.element self.at_
  refine state (vet ((accepts order hd lv).mono fun b t st _ answer yes => ?_) hd.2 lv hi)
  simpa [Admits] using ⟨st.live lv, answer.2 yes⟩

/-- The values of a bulk that is let in all match. -/
theorem collect {operation : String} {position : Option Int} (lv : v.Live s.heap) :
    R.Sure s (self.collect (R.engine n) v operation position) fun vs t =>
      R.Admits t (s.heap.checkedList self.at_).element vs ∧ s.Spares t ∧ v.Yields s.heap vs := by
  refine .ite (fun _ => (vetWhole order hi lv).mono fun vs t _ _ passed => ?_) fun _ => ?_
  · obtain ⟨admits, spares, kind, i, rfl, rfl⟩ := passed
    exact ⟨admits, spares, fun g closed ext lv => ext.list_eq lv ▸ closed.lists i⟩
  · refine .bind (items order) fun vs t st order' walked => ?_
    obtain ⟨spares, yields⟩ := walked
    have lvs : ∀ w ∈ vs, w.Live t.heap := fun w hw =>
      st.live (yields s.heap order.sound.closed (.refl _) lv w hw)
    refine .bind (newList order' lvs) fun w u tu order made => ?_
    obtain ⟨spares', i, rfl, li, rfl⟩ := made
    have su := st.trans tu
    have vetted : R.Sure u (do
        self.vet (R.engine n) (.list .base i) (← self.state).collection operation position
        Value.items (.list .base i)) _ :=
      vetWhole order (Nat.lt_of_lt_of_le hi su.heap.checked) li
    rw [su.heap.elements self.at_ hi] at vetted
    refine vetted.mono fun ws _ _ _ passed => ?_
    obtain ⟨admits, last, kind, j, same, rfl⟩ := passed
    cases same
    exact ⟨admits, (spares.trans spares').trans last, yields⟩

/-- New contents for a list that may change. -/
theorem write {method : Option String} (changing : R.changing self.at_) {vs : List Value}
    (admits : R.Admits s (s.heap.checkedList self.at_).element vs) :
    R.Sure s (self.write method vs) fun _ _ => True :=
  state (.ite (fun _ => .fail order _) fun _ => setChecked order hi changing rfl rfl admits)

/-- A copy with contents that fit. -/
theorem copyWith {vs : List Value} (admits : R.Admits s (s.heap.checkedList self.at_).element vs) :
    R.Sure s (self.with vs) fun _ _ => True := by
  obtain ⟨element, collection, -⟩ := order.fits hi
  have fits : R.Fits s { s.heap.checkedList self.at_ with items := vs, frozen := false } :=
    ⟨element, collection, admits⟩
  exact state ((newChecked order fits).mono fun _ _ _ _ _ => trivial)

end

theorem operandValues {other : Value} {operation : String} :
    R.Sure s (CheckedList.operandValues other operation) fun vs t =>
      t = s ∧ (∀ w ∈ vs, w.Live s.heap) ∧
        ∀ c i, other = .checked c i → vs = (s.heap.checkedList i).items := by
  unfold CheckedList.operandValues
  split
  case h_1 c i =>
    refine .getHeap (.pure order ⟨rfl, order.sound.closed.checked i, fun c' j same => ?_⟩)
    cases same
    rfl
  case h_2 kind i => exact .getHeap (.pure order ⟨rfl, order.sound.closed.lists i, nofun⟩)
  case h_3 => exact .fail order _

/-- A checked list is trusted if its element type is below. -/
theorem trusts {other : Value} :
    R.Sure s (self.trusts (R.engine n) other) fun yes t => yes = true →
      ∃ c i m, other = .checked c i ∧ BelowIn t.ground m (s.heap.checkedList i).element
        (s.heap.checkedList self.at_).element := by
  unfold CheckedList.Self.trusts
  split
  case h_1 c i =>
    refine .getHeap (state ((subtype order (order.element i) (order.element self.at_)).mono ?_))
    intro yes t _ _ below answer
    obtain ⟨m, below⟩ := below answer
    exact ⟨c, i, m, rfl, below⟩
  case h_2 => exact .pure order nofun

/-- The values of an operand that may join all match, whether they were checked or trusted. -/
theorem foreignValues {other : Value} {operation : String} (hi : self.at_ < s.heap.checked.size)
    (lo : other.Live s.heap) :
    R.Sure s (self.foreignValues (R.engine n) other operation) fun vs t =>
      R.Admits t (s.heap.checkedList self.at_).element vs := by
  refine .bind (operandValues order) ?_
  rintro vs _ - - ⟨rfl, lvs, own⟩
  refine .bind (trusts order) fun yes t st order' trusted => .ite (fun h => .pure order' ?_) fun _ => ?_
  · obtain ⟨c, i, m, rfl, below⟩ := trusted h
    rw [own c i rfl]
    intro v hv
    have hv := (order.items lo).later order.sound order'.sound st (order.element i) v hv
    exact ⟨hv.1, holds_of_below order'.sound ((order.element i).later st)
      ((order.element self.at_).later st) hv.1 below hv.2⟩
  · refine .bind (newList order' fun w hw => st.live (lvs w hw)) fun w u tu order made => ?_
    obtain ⟨-, i, rfl, li, -⟩ := made
    have su := st.trans tu
    have vetted : R.Sure u (do
        self.vet (R.engine n) (.list .base i) (← self.state).collection operation (some 0)
        Value.items (.list .base i)) _ :=
      vetWhole order (Nat.lt_of_lt_of_le hi su.heap.checked) li
    rw [su.heap.elements self.at_ hi] at vetted
    exact vetted.mono fun _ _ _ _ passed => passed.1

/-- A new list is filled only with values that it lets in. It is not there before, so nothing that is
there changes, whatever else may. -/
theorem fill {c : Class} {id : Ident} (hd : R.Knows s d) (lv : v.Live s.heap) : let l : CheckedList := ⟨[], d, .collection id .array d, false⟩
    let self : CheckedList.Self := ⟨c, s.heap.checked.size⟩
    R.Sure s (do
      let w ← Act.newChecked c l
      self.write none (← self.collect (R.engine n) v "__init__" none)
      return w) fun _ _ => True := by
  intro l self
  let s' : Session := { s with heap := { s.heap with checked := s.heap.checked.push l } }
  have ext : s.heap.Extends s'.heap := { Heap.Extends.refl s.heap with checked := .push _ _ }
  have fits : R.Fits s l := ⟨hd, ⟨id, rfl⟩, by simp [Admits, l]⟩
  obtain ⟨ss', order', -, there, here⟩ := (newChecked order fits (c := c)).ok _ s' rfl
  have checked : R.Sure s' (self.collect (R.engine n) v "__init__" none) _ :=
    collect order' there (ss'.live lv)
  have now {t : Session} (spares : s'.Spares t) : t.heap.checkedList self.at_ = l := by
    simpa only [Heap.checkedList, spares.checked] using here
  have written {t : Session} {vs : List Value} (spares : s'.Spares t) :
      self.write none vs t = .ok () _ := CheckedList.Self.write_ok (by rw [now spares])
  constructor
  · intro w u run
    obtain ⟨_, _, made, run⟩ := Act.bind_eq_ok.mp run
    cases made
    obtain ⟨vs, t, collected, run⟩ := Act.bind_eq_ok.mp run
    obtain ⟨s't, order'', admits, spares, yields⟩ := checked.ok vs t collected
    have st := ss'.trans s't
    rw [here] at admits
    rw [Act.bind_of_ok (written spares)] at run
    cases run
    have fits : R.Fits s { l with items := vs } := by
      refine ⟨hd, ⟨id, rfl⟩, fun w hw => ?_⟩
      have lw := yields s.heap order.sound.closed ext lv w hw
      exact ⟨lw, (R.steady order.sound order''.sound st hd lw).mpr (admits w hw).2⟩
    have filled : t.heap.checked.setIfInBounds self.at_ { t.heap.checkedList self.at_ with items := vs } =
        s.heap.checked.push { l with items := vs } := by
      rw [now spares, spares.checked]
      simp [s', self, Array.setIfInBounds, Array.set_push]
    obtain ⟨su, orderu⟩ := order.pushed order'' st (by simp [spares.checked, s']) fits
    rw [← filled] at su orderu
    exact ⟨su, orderu, trivial⟩
  · intro e u run
    obtain made | ⟨_, _, made, run⟩ := Act.bind_eq_error.mp run
    · cases made
    · cases made
      obtain failed | ⟨vs, t, collected, run⟩ := Act.bind_eq_error.mp run
      · obtain ⟨s'u, order⟩ := checked.error e u failed
        exact ⟨ss'.trans s'u, order⟩
      · obtain ⟨-, -, -, spares, -⟩ := checked.ok vs t collected
        rw [Act.bind_of_ok (written spares)] at run
        cases run

theorem construct {c : Class} {values element : Value} (lv : values.Live s.heap) (le : element.Live s.heap)
    (known : ∀ d t, Descriptor.ofValue element s = .ok d t → R.family d) :
    R.Sure s (CheckedList.construct (R.engine n) c values element) fun _ _ => True := by
  refine .bind (ofValue order le).noted fun d t st order made => ?_
  refine .bind (fresh order) fun id u tu order _ => .getHeap ?_
  exact fill order ⟨known d t made.1, tu.liveType made.2⟩ (tu.live (st.live lv))

/-- A checked list made by its type. -/
theorem buildChecked {c : Class} {args : List Value} {keywords : Keywords} (hd : R.Knows s d)
    (la : ∀ w ∈ args, w.Live s.heap) :
    R.Sure s (Calling.buildChecked (R.engine n) c d args keywords) fun _ _ => True := by
  refine .bind (signature order la) fun b t st order lr => ?_
  refine .bind (.bind (fresh order) fun id u tu order _ => ?_)
    fun w u tu order (lw : w.Live u.heap) => ?_
  · refine .pure order ?_
    simpa [Value.Live] using fun w hw => tu.live (lr w hw)
  · refine construct order lw ((hd.later st).later tu).2 fun d' t' read => ?_
    obtain ⟨rfl, -⟩ := Act.pure_eq_ok.mp read
    exact hd.1

end Lists

end Regime.Sure

end Conform
