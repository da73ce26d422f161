import Conform.Proofs.Incoming
import Mathlib.Data.List.InsertIdx

/-!
Sorts that tell how the elements stand. A sort writes its arrangement down before each search, so two sorts
of the same items that write to different places run through different sessions. If neither place is looked
at in a comparison, then both sorts come to the same.

Main statement: `CheckedList.sortItems_follows`.
-/
namespace Conform

open Value Descriptor

namespace Look

variable {α β : Type}

/-- Whether a reading does not depend on the heap. -/
def Fixed (x : Look α) : Prop :=
  ∀ h g, x h = x g

theorem Fixed.pure (a : α) : (pure a : Look α).Fixed :=
  fun _ _ => rfl

theorem Fixed.fail (c : Cause) : (Look.fail c : Look α).Fixed :=
  fun _ _ => rfl

theorem Fixed.bind {x : Look α} {f : α → Look β} (hx : x.Fixed) (hf : ∀ a, (f a).Fixed) :
    (x >>= f).Fixed := by
  intro h g
  exact Look.bind_congr (hx h g) fun a => hf a h g

theorem Fixed.ite {p : Prop} [Decidable p] {x y : Look α} (hx : x.Fixed) (hy : y.Fixed) :
    (if p then x else y).Fixed := by
  split
  · exact hx
  · exact hy

end Look

namespace Session

/-- Whether a checked list and a plain list are there. -/
def Has (c : CheckedList.Self) (k : Handle) (s : Session) : Prop :=
  c.at_ < s.heap.checked.size ∧ k < s.heap.lists.size

/-- The session with other contents of a checked list and of a plain list. -/
def put (c : CheckedList.Self) (k : Handle) (l : CheckedList) (ws : List Value) (s : Session) : Session :=
  { s with heap := { s.heap with
    checked := s.heap.checked.setIfInBounds c.at_ l
    lists := s.heap.lists.setIfInBounds k ws } }

variable {c : CheckedList.Self} {k : Handle} {l l' : CheckedList} {ws ws' : List Value} {s : Session}

theorem Has.checkedList_put (has : s.Has c k) : (s.put c k l ws).heap.checkedList c.at_ = l := by
  simp [Session.put, Heap.checkedList, has.1]

theorem Has.lists_put (has : s.Has c k) : (s.put c k l ws).heap.lists[k]? = some ws := by
  simp [Session.put, has.2]

theorem Has.put_own (has : s.Has c k) : s.put c k (s.heap.checkedList c.at_) (s.heap.list k) = s := by
  simp [Session.put, Heap.checkedList, Heap.list, Array.setIfInBounds, has.1, has.2]

end Session

namespace Act

variable {α β : Type}

/-- An action that does not touch a checked list and a plain list: it leaves them where they are, and runs
in the same way whatever they hold, which is what they hold afterwards. -/
structure Blind (c : CheckedList.Self) (k : Handle) (x : Act α) : Prop where
  has : ∀ s : Session, s.Has c k → (x.after s).Has c k
  apart : ∀ s : Session, s.Has c k → ∀ l ws, x (s.put c k l ws) = elsewhere (Session.put c k l ws) (x s)

/-- Whether an action comes to what another one comes to, but for what a checked list and a plain list hold
on the way and afterwards. -/
def Follows (c : CheckedList.Self) (k : Handle) (Q : CheckedList → List Value → Prop) (x y : Act α) : Prop :=
  ∀ s : Session, s.Has c k → ∀ l ws, Q l ws →
    (y.after s).Has c k ∧ ∃ l' ws', Q l' ws' ∧ x (s.put c k l ws) = elsewhere (Session.put c k l' ws') (y s)

variable {c : CheckedList.Self} {k : Handle} {Q : CheckedList → List Value → Prop} {x y : Act α}

theorem Blind.follows (blind : Blind c k x) : Follows c k Q x x :=
  fun s has l ws here => ⟨blind.has s has, l, ws, here, blind.apart s has l ws⟩

/-- A reading that does not depend on the heap is blind. -/
theorem Blind.lift {look : Look α} (fixed : look.Fixed) : Blind c k (liftM look : Act α) where
  has s has := by
    have stays : (liftM look : Act α).Leads fun s t => s = t := .lift look
    exact stays s ▸ has
  apart s _ l ws := by
    cases read : look s.heap with
    | error f =>
      have here : (liftM look : Act α) s = .error f s := lift_eq_error.mpr ⟨read, rfl⟩
      rw [here]
      exact lift_eq_error.mpr ⟨(fixed _ _).trans read, rfl⟩
    | ok a =>
      have here : (liftM look : Act α) s = .ok a s := lift_eq_ok.mpr ⟨read, rfl⟩
      rw [here]
      exact lift_eq_ok.mpr ⟨(fixed _ _).trans read, rfl⟩

namespace Follows

theorem pure (a : α) : Follows c k Q (pure a) (pure a) :=
  fun _ has l ws here => ⟨has, l, ws, here, rfl⟩

theorem fail (cause : Cause) : Follows c k Q (Act.fail cause : Act α) (Act.fail cause) :=
  fun _ has l ws here => ⟨has, l, ws, here, rfl⟩

theorem bind {f g : α → Act β} (hx : Follows c k Q x y)
    (hf : ∀ s a t, y s = .ok a t → Follows c k Q (f a) (g a)) : Follows c k Q (x >>= f) (y >>= g) := by
  intro s has l ws here
  obtain ⟨has', l', ws', there, run⟩ := hx s has l ws here
  cases ends : y s with
  | error e t =>
    rw [ends] at run
    have run : x (s.put c k l ws) = .error e (t.put c k l' ws') := run
    rw [after_of_error ends] at has'
    rw [after_of_error (bind_of_error ends), bind_of_error ends, bind_of_error run]
    exact ⟨has', l', ws', there, rfl⟩
  | ok a t =>
    rw [ends] at run
    have run : x (s.put c k l ws) = .ok a (t.put c k l' ws') := run
    rw [after_of_ok ends] at has'
    have goes : (y >>= g) s = g a t := bind_of_ok ends
    rw [after_congr goes, goes, bind_of_ok run]
    exact hf s a t ends t has' l' ws' there

theorem ite {p : Prop} [Decidable p] {x' y' : Act α} (hx : Follows c k Q x y) (hy : Follows c k Q x' y') :
    Follows c k Q (if p then x else x') (if p then y else y') := by
  split
  · exact hx
  · exact hy

end Follows

end Act

namespace CheckedList

open Act

variable {c : Self} {k : Handle} {Q : CheckedList → List Value → Prop}

section Searching

variable {α : Type} {P : α → Prop} {less : α → α → Act Bool} {xs : List α}

variable (blind : ∀ a b, P a → P b → Blind c k (less a b))
include blind

theorem runLength_follows {down : Bool} {x : α} (hx : P x) (hxs : ∀ y ∈ xs, P y) :
    Follows c k Q (Sorting.runLength less down x xs) (Sorting.runLength less down x xs) := by
  induction xs generalizing x with
  | nil => exact .pure _
  | cons y xs ih =>
    simp only [List.forall_mem_cons] at hxs
    refine .bind (blind y x hxs.1 hx).follows fun _ b _ _ => .ite ?_ (.pure _)
    exact .bind (ih hxs.1 hxs.2) fun _ m _ _ => .pure _

theorem firstRun_follows (hxs : ∀ y ∈ xs, P y) :
    Follows c k Q (Sorting.firstRun less xs) (Sorting.firstRun less xs) := by
  unfold Sorting.firstRun
  split
  · exact .pure _
  · exact .pure _
  · simp only [List.forall_mem_cons] at hxs
    refine .bind (blind _ _ hxs.2.1 hxs.1).follows fun _ down _ _ => ?_
    exact .bind (runLength_follows blind hxs.2.1 hxs.2.2) fun _ m _ _ => .pure _

theorem searchPlace_follows {sorted : Array α} {pivot : α} {fuel low high : Nat} (hp : P pivot)
    (hs : ∀ y ∈ sorted, P y) :
    Follows c k Q (Sorting.searchPlace less sorted pivot fuel low high)
      (Sorting.searchPlace less sorted pivot fuel low high) := by
  induction fuel generalizing low high with
  | zero => exact .pure _
  | succ fuel ih =>
    refine .ite ?_ (.pure _)
    dsimp only
    split
    · exact .pure _
    · next x at_ =>
      exact .bind (blind pivot x hp (hs x (Array.mem_of_getElem? at_))).follows fun _ b _ _ => .ite ih ih

/-- Insertion comes to the same whatever is told on the way. -/
theorem insertAll_follows {report : List α → Act Unit} (reports : ∀ ys, Follows c k Q (report ys) (pure ()))
    {sorted : List α} (hs : ∀ y ∈ sorted, P y) (hxs : ∀ y ∈ xs, P y) :
    Follows c k Q (Sorting.insertAll less report sorted xs)
      (Sorting.insertAll less (fun _ => pure ()) sorted xs) := by
  induction xs generalizing sorted with
  | nil => exact .pure _
  | cons x xs ih =>
    simp only [List.forall_mem_cons] at hxs
    refine .bind (reports _) fun _ _ _ _ => ?_
    refine .bind (searchPlace_follows blind hxs.1 (by simpa using hs)) fun _ place _ _ => ih (fun y hy => ?_) hxs.2
    exact (List.eq_or_mem_of_mem_insertIdx hy).elim (fun same => same ▸ hxs.1) (hs y)

theorem sortReporting_follows {report : List α → Act Unit}
    (reports : ∀ ys, Follows c k Q (report ys) (pure ())) (hxs : ∀ y ∈ xs, P y) :
    Follows c k Q (Sorting.sortReporting less report xs)
      (Sorting.sortReporting less (fun _ => pure ()) xs) := by
  refine .bind (firstRun_follows blind hxs) fun _ r _ _ => ?_
  refine insertAll_follows blind reports (fun y hy => hxs y ?_) fun y hy => hxs y (List.mem_of_mem_drop hy)
  split at hy
  · exact List.mem_of_mem_take (List.mem_reverse.mp hy)
  · exact List.mem_of_mem_take hy

end Searching

variable {e : Engine} {comparator key : Value} {items : List Value}

/-- Whether a keyed item is one of a list, with a key that it may have got. -/
def Entry (e : Engine) (key : Value) (items : List Value) (a : Keyed) : Prop :=
  a.item ∈ items ∧ ∃ s t, keyOf e key a.item s = .ok a.key t

theorem keyed_entries {s t : Session} {ks : List Keyed} (run : keyed e key items s = .ok ks t) :
    ∀ a ∈ ks, Entry e key items a := by
  unfold keyed at run
  induction items generalizing s ks with
  | nil =>
    obtain ⟨rfl, -⟩ := pure_eq_ok.mp run
    exact nofun
  | cons v items ih =>
    rw [List.mapM_cons] at run
    obtain ⟨a, u, first, run⟩ := bind_eq_ok.mp run
    obtain ⟨own, w, called, made⟩ := bind_eq_ok.mp first
    obtain ⟨rfl, rfl⟩ := pure_eq_ok.mp made
    obtain ⟨rest, w', others, made⟩ := bind_eq_ok.mp run
    obtain ⟨rfl, rfl⟩ := pure_eq_ok.mp made
    refine List.forall_mem_cons.mpr ⟨⟨.head _, s, w, called⟩, fun a ha => ?_⟩
    obtain ⟨among, got⟩ := ih others a ha
    exact ⟨.tail _ among, got⟩

theorem keyed_follows (keys : ∀ v ∈ items, Blind c k (keyOf e key v)) :
    Follows c k Q (keyed e key items) (keyed e key items) := by
  unfold keyed
  induction items with
  | nil => exact .pure _
  | cons v items ih =>
    simp only [List.forall_mem_cons] at keys
    rw [List.mapM_cons]
    refine .bind (.bind keys.1.follows fun _ _ _ _ => .pure _) fun _ a _ _ => ?_
    exact .bind (ih keys.2) fun _ _ _ _ => .pure _

theorem asFlag_fixed {v : Value} : v.asFlag.Fixed := by
  unfold asFlag
  split
  · exact .fail _
  · split
    · exact .pure _
    · exact .fail _

/-- To write a checked list down changes nothing but its items. -/
theorem write_follows {l : CheckedList} {method : Option String} (unfrozen : l.frozen = false)
    (ys : List Value) :
    Follows c k (fun l' _ => ∃ old, l' = { l with items := old }) (c.write method ys) (pure ()) := by
  rintro s has _ ws ⟨old, rfl⟩
  refine ⟨has, { l with items := ys }, ws, ⟨ys, rfl⟩, ?_⟩
  rw [Self.write_ok (by rw [has.checkedList_put]; exact unfrozen), has.checkedList_put]
  simp only [Session.put, Array.setIfInBounds_setIfInBounds]
  rfl

/-- To write a plain list down changes nothing else. -/
theorem setList_follows (ys : List Value) : Follows c k (fun _ _ => True) (Act.setList k ys) (pure ()) := by
  intro s has l ws _
  refine ⟨has, l, ys, trivial, ?_⟩
  have written (t : Session) : Act.setList k ys t = .ok () { t with heap := { t.heap with
      lists := t.heap.lists.setIfInBounds k ys } } := rfl
  rw [written]
  simp only [Session.put, Array.setIfInBounds_setIfInBounds]
  rfl

/-- A sort comes to the same whatever is told on the way. -/
theorem sortItems_follows (falling : Value) {report : List Value → Act Unit}
    (keys : ∀ v ∈ items, Blind c k (keyOf e key v))
    (compares : ∀ a b, Entry e key items a → Entry e key items b → Blind c k (goesBefore e comparator a b))
    (reports : ∀ ys, Follows c k Q (report ys) (pure ())) :
    Follows c k Q (sortItems e comparator key falling items report)
      (sortItems e comparator key falling items fun _ => pure ()) := by
  refine .ite (.bind (.fail _) fun _ _ _ run => (fail_ne_ok.mp run).elim) ?_
  refine .bind (Blind.lift asFlag_fixed).follows fun _ falls _ _ => ?_
  refine .bind (keyed_follows keys) fun s entries t run => ?_
  refine .bind (sortReporting_follows compares (fun _ => reports _) fun a ha => ?_) fun _ _ _ _ => .pure _
  refine keyed_entries run a ?_
  split at ha
  · exact List.mem_reverse.mp ha
  · exact ha

end CheckedList

end Conform
