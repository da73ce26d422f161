import Conform.Proofs.Effects
import Conform.Proofs.Refinement
import Conform.Proofs.Stability

/-!
Sorted checked lists. A list is sorted by a comparator, by a key or by the natural order of its items. As long as these
answer as a total preorder of the items has it, and leave the list alone while they do, there is one list that can
come out, whoever is asked: the items in order, those that are tied as they stood before, in a falling sort too. A sort
makes a new list of it, a sort in place puts it into the list. A comparator that answers in any other way still loses
no item and doubles none.

Main statement: `CheckedList.sorts_stably`.
-/
namespace Conform.CheckedList

open Act Sorting

/-- The sessions of a kind in which a checked list is there, as it is given. -/
def Holding (c : Self) (l : CheckedList) (inv : Session → Prop) (s : Session) : Prop :=
  inv s ∧ c.at_ < s.heap.checked.size ∧ s.heap.checkedList c.at_ = l

/-- The session with other items in a checked list. -/
def rewritten (c : Self) (items : List Value) (s : Session) : Session :=
  { s with heap.checked := s.heap.checked.setIfInBounds c.at_ { s.heap.checkedList c.at_ with items } }

/-- Whether the answer of a comparator counts as less. -/
def comparesLess (e : Engine) (comparator a b : Value) : Act Bool := do
  Value.ordered .lt (← e.call comparator [a, b] []) (.int .base 0 0)

/-- Whether items are put in an order by a comparator, by a key or by what they are. What is asked for that answers in
every session of a kind, whatever a checked list is then, and leaves the list so. An item may get a new key each
time that it is asked for one. -/
inductive Induces (e : Engine) (c : Self) (inv : Session → Prop) (items : List Value) (le : Value → Value → Prop) :
    Value → Value → Prop
  | comparator {f : Value} (given : f ≠ .nil)
    (compared : ∀ a ∈ items, ∀ b ∈ items, ∀ l, (comparesLess e f a b).Decides (Holding c l inv) (¬le b a)) :
    Induces e c inv items le f .nil
  | key {f : Value} (keys : Value → Value → Prop) (given : f ≠ .nil)
    (keyed : ∀ a ∈ items, ∀ l, (e.call f [a] []).Delivers (Holding c l inv) (keys a))
    (compared : ∀ a ∈ items, ∀ b ∈ items, ∀ k k', keys a k → keys b k' →
      ∀ l, (liftM (Value.ordered .lt k k') : Act Bool).Decides (Holding c l inv) (¬le b a)) :
    Induces e c inv items le .nil f
  | natural (compared : ∀ a ∈ items, ∀ b ∈ items,
      ∀ l, (liftM (Value.ordered .lt a b) : Act Bool).Decides (Holding c l inv) (¬le b a)) :
    Induces e c inv items le .nil .nil

/-- How items are compared: each gets a key, and of two items with their keys it is answered whether the first goes
before the second. -/
structure Compares (e : Engine) (comparator key : Value) (inv : Session → Prop) (items : List Value)
    (keys : Value → Value → Prop) (A : Value → Value → Bool → Prop) : Prop where
  single : comparator = .nil ∨ key = .nil
  keyed : ∀ a ∈ items, (keyOf e key a).Delivers inv (keys a)
  compared : ∀ a b : Keyed, a.item ∈ items → b.item ∈ items → keys a.item a.key → keys b.item b.key →
    (goesBefore e comparator a b).Delivers inv (A a.item b.item)

variable {e : Engine} {c : Self} {inv : Session → Prop} {items : List Value} {le : Value → Value → Prop}
  {comparator key : Value} {falling : Bool} {l : CheckedList} {s : Session}

theorem keyOf_given (given : key ≠ .nil) (a : Value) : keyOf e key a = e.call key [a] [] := by
  unfold keyOf
  split
  · exact absurd rfl given
  · rfl

theorem goesBefore_given (given : comparator ≠ .nil) (a b : Keyed) :
    goesBefore e comparator a b = comparesLess e comparator a.item b.item := by
  unfold goesBefore
  split
  · exact absurd rfl given
  · rfl

theorem Induces.compares (induces : Induces e c inv items le comparator key) :
    ∃ keys, ∀ l, Compares e comparator key (Holding c l inv) items keys fun a b r => r = true ↔ ¬le b a := by
  cases induces with
  | comparator given compared =>
    refine ⟨fun _ _ => True, fun l => ⟨.inr rfl, fun a _ => .pure trivial, fun a b ha hb _ _ => ?_⟩⟩
    rw [goesBefore_given given]
    exact compared a.item ha b.item hb l
  | key keys given keyed compared =>
    refine ⟨keys, fun l => ⟨.inl rfl, fun a ha => ?_, fun a b ha hb ka kb => ?_⟩⟩
    · rw [keyOf_given given]
      exact keyed a ha l
    · exact compared a.item ha b.item hb a.key b.key ka kb l
  | natural compared =>
    refine ⟨fun a k => k = a, fun l => ⟨.inl rfl, fun a _ => .pure rfl, fun a b ha hb ka kb => ?_⟩⟩
    change (liftM (Value.ordered .lt a.key b.key) : Act Bool).Delivers _ _
    rw [ka, kb]
    exact compared a.item ha b.item hb l

section Items

variable {keys : Value → Value → Prop} {A : Value → Value → Bool → Prop} {report : List Value → Act Unit}

theorem Compares.of_exists {ι : Type} {inv : ι → Session → Prop}
    (compares : ∀ i, Compares e comparator key (inv i) items keys A) (i : ι) :
    Compares e comparator key (fun s => ∃ i, inv i s) items keys A where
  single := (compares i).single
  keyed a ha := .of_exists fun i => (compares i).keyed a ha
  compared a b ha hb ka kb := .of_exists fun i => (compares i).compared a b ha hb ka kb

/-- Items with keys that they may have got. -/
def Entries (keys : Value → Value → Prop) (items : List Value) (entries : List Keyed) : Prop :=
  entries.map (·.item) = items ∧ ∀ a ∈ entries, keys a.item a.key

theorem Entries.mem_items {entries : List Keyed} (got : Entries keys items entries) {a : Keyed} (ha : a ∈ entries) :
    a.item ∈ items :=
  got.1 ▸ List.mem_map_of_mem ha

theorem keyed_delivers (given : ∀ a ∈ items, (keyOf e key a).Delivers inv (keys a)) :
    (keyed e key items).Delivers inv (Entries keys items) := by
  unfold keyed
  induction items with
  | nil => exact .pure ⟨rfl, nofun⟩
  | cons v items ih =>
    obtain ⟨first, rest⟩ := List.forall_mem_cons.mp given
    rw [List.mapM_cons]
    refine .bind (.bind first fun k hk => .pure ?_) fun a (ha : a.item = v ∧ keys a.item a.key) => ?_
    · exact ⟨rfl, hk⟩
    · refine .bind (ih rest) fun entries got => .pure ?_
      exact ⟨by simp [ha.1, got.1], List.forall_mem_cons.mpr ⟨ha.2, got.2⟩⟩

/-- How sorted entries are handed out: a falling sort has sorted them the other way round. -/
def arranged (falling : Bool) (entries : List Keyed) : List Value :=
  (if falling then entries.reverse else entries).map (·.item)

theorem asFlag_bool (falling : Bool) (h : Heap) : (Value.bool falling).asFlag h = .ok falling := by
  cases falling <;> rfl

/-- What holds of the arrangement of sorted entries holds of sorted items. -/
theorem sortItems_delivers {P : List Value → Prop} (compares : Compares e comparator key inv items keys A)
    (sorted : ∀ entries, Entries keys items entries →
      (sortReporting (goesBefore e comparator) (fun xs => report (arranged falling xs))
        (if falling then entries.reverse else entries)).Delivers inv fun ys => P (arranged falling ys)) :
    (sortItems e comparator key (.bool falling) items report).Delivers inv P := by
  refine .ite (fun both => ?_) fun _ => ?_
  · obtain rfl | rfl := compares.single <;> simp [Value.same] at both
  refine .bind (.lift fun s _ => ⟨falling, asFlag_bool falling s.heap, rfl⟩) fun flag same => ?_
  subst same
  refine .bind (keyed_delivers compares.keyed) fun entries got => ?_
  exact .bind (sorted entries got) fun ys hys => .pure hys

theorem mem_turned {a : Keyed} {entries : List Keyed} :
    a ∈ (if falling then entries.reverse else entries) ↔ a ∈ entries := by
  split <;> simp

/-- Whatever is answered, items are neither lost nor doubled. -/
theorem sortItems_perm (compares : Compares e comparator key inv items keys fun _ _ _ => True)
    (reports : ∀ ws, (report ws).Delivers inv fun _ => True) :
    (sortItems e comparator key (.bool falling) items report).Delivers inv (·.Perm items) := by
  apply sortItems_delivers compares
  intro entries got
  refine (sortReporting_perm (fun a ha b hb => ?_) fun _ => reports _).mono fun ys perm => ?_
  · rw [mem_turned] at ha hb
    exact compares.compared a b (got.mem_items ha) (got.mem_items hb) (got.2 a ha) (got.2 b hb)
  · rw [← got.1]
    apply List.Perm.map
    cases falling with
    | false => exact perm
    | true => exact (List.reverse_perm ys).trans (perm.trans (List.reverse_perm entries))

/-- The order of a sort: that of the items, or the opposite one. -/
def along (falling : Bool) (le : Value → Value → Prop) (a b : Value) : Prop :=
  if falling then le b a else le a b

theorem ranks_along (ranks : Ranks le items) : Ranks (along falling le) items where
  total a ha b hb := by
    unfold along
    split
    · exact ranks.total b hb a ha
    · exact ranks.total a ha b hb
  trans a ha b hb d hd := by
    unfold along
    split
    · exact fun ba db => ranks.trans d hd b hb a ha db ba
    · exact ranks.trans a ha b hb d hd

theorem sortItems_sorts (ranks : Ranks le items)
    (compares : Compares e comparator key inv items keys fun a b r => r = true ↔ ¬le b a)
    (reports : ∀ ws, (report ws).Delivers inv fun _ => True) :
    (sortItems e comparator key (.bool falling) items report).Delivers inv (Sorts (along falling le) items) := by
  apply sortItems_delivers compares
  intro entries got
  have ranks : Ranks (fun a b : Keyed => le a.item b.item) entries := by
    rw [← got.1] at ranks
    exact ranks.map
  have ranks : Ranks (fun a b : Keyed => le a.item b.item) (if falling then entries.reverse else entries) :=
    ranks.mono fun a ha => mem_turned.mp ha
  refine (sortReporting_sorts ranks (fun a ha b hb => ?_) fun _ => reports _).mono fun ys sorts => ?_
  · rw [mem_turned] at ha hb
    exact compares.compared a b (got.mem_items ha) (got.mem_items hb) (got.2 a ha) (got.2 b hb)
  · rw [← got.1]
    cases falling with
    | false => exact Sorts.map (f := Keyed.item) sorts
    | true => exact Sorts.map (f := Keyed.item) (R := fun a b => le b a) sorts.reverse

end Items

section Operations

variable {P : List Value → Prop}

/-- A sort makes a new list of what the sorted items are. -/
theorem run_sort (sorted : (sortItems e comparator key (.bool falling) (s.heap.checkedList c.at_).items
      fun _ => return ()).Delivers inv P) (hs : inv s) :
    ∃ ys t, P ys ∧ inv t ∧ Op.run e c (.sort comparator key (.bool falling)) s =
      .ok (.checked c.cls t.heap.checked.size)
        { t with
          heap.checked := t.heap.checked.push { t.heap.checkedList c.at_ with items := ys, frozen := false } } := by
  obtain ⟨ys, t, run, ht, hys⟩ := sorted s hs
  refine ⟨ys, t, hys, ht, ?_⟩
  have known : c.state s = .ok (s.heap.checkedList c.at_) s := rfl
  change (c.state >>= fun l => sortItems e comparator key (.bool falling) l.items (fun _ => pure ()) >>= c.with) s = _
  rw [bind_of_ok known, bind_of_ok run]
  rfl

/-- A sort in place puts the sorted items into the list. -/
theorem run_sortInPlace (unfrozen : ∀ s, inv s → (s.heap.checkedList c.at_).frozen = false)
    (sorted : (sortItems e comparator key (.bool falling) (s.heap.checkedList c.at_).items
      (c.write (some "sort"))).Delivers inv P) (hs : inv s) :
    ∃ ys t, P ys ∧ inv t ∧ Op.run e c (.sortInPlace comparator key (.bool falling)) s =
      .ok c.value (rewritten c ys t) := by
  obtain ⟨ys, t, run, ht, hys⟩ := sorted s hs
  refine ⟨ys, t, hys, ht, ?_⟩
  have known : c.state s = .ok (s.heap.checkedList c.at_) s := rfl
  have mutable : c.ensureMutable "sort" s = .ok () s := by
    unfold Self.ensureMutable
    rw [bind_of_ok known, if_neg (by simp [unfrozen s hs])]
    rfl
  have written : c.write (some "sort") ys t = .ok () (rewritten c ys t) := Self.write_ok (unfrozen t ht)
  change (c.ensureMutable "sort" >>= fun _ => c.state >>= fun l =>
    sortItems e comparator key (.bool falling) l.items (c.write (some "sort")) >>= fun ys =>
      c.write (some "sort") ys >>= fun _ => pure c.value) s = _
  rw [bind_of_ok mutable, bind_of_ok known, bind_of_ok run, bind_of_ok written]
  rfl

theorem checkedList_rewritten {ws : List Value} (there : c.at_ < s.heap.checked.size) :
    (rewritten c ws s).heap.checkedList c.at_ = { s.heap.checkedList c.at_ with items := ws } := by
  simp only [rewritten, checkedList_set there, if_true]

/-- To write into a list that is there and not frozen only gives it other items. -/
theorem write_delivers (stays : ∀ s ws, inv s → inv (rewritten c ws s))
    (unfrozen : ∀ s, inv s → (s.heap.checkedList c.at_).frozen = false) (ws : List Value) :
    (c.write (some "sort") ws).Delivers inv fun _ => True :=
  fun s hs => ⟨(), rewritten c ws s, Self.write_ok (unfrozen s hs), stays s ws hs, trivial⟩

theorem Holding.state (here : Holding c l inv s) : c.state s = .ok l s := by
  rw [← here.2.2]
  rfl

theorem Holding.rewritten (stays : ∀ s ws, inv s → inv (rewritten c ws s)) (here : Holding c l inv s)
    (ws : List Value) : Holding c { l with items := ws } inv (rewritten c ws s) where
  left := stays s ws here.1
  right.left := by simpa [CheckedList.rewritten] using here.2.1
  right.right := by rw [checkedList_rewritten here.2.1, here.2.2]

/-- Whoever induces an order, a sort by it makes a new list of the one list that is sorted by it. -/
theorem Induces.sort (induces : Induces e c inv l.items le comparator key) (ranks : Ranks le l.items)
    {ys : List Value} (sorts : Sorts (along falling le) l.items ys) (here : Holding c l inv s) :
    ∃ i t, Op.run e c (.sort comparator key (.bool falling)) s = .ok (.checked c.cls i) t ∧ i ≠ c.at_ ∧
      t.heap.checkedList i = { l with items := ys, frozen := false } ∧ t.heap.checkedList c.at_ = l := by
  obtain ⟨keys, compares⟩ := induces.compares
  have sorted : (sortItems e comparator key (.bool falling) (s.heap.checkedList c.at_).items
      fun _ => return ()).Delivers (Holding c l inv) (Sorts (along falling le) l.items) := by
    rw [here.2.2]
    exact sortItems_sorts ranks (compares l) fun _ => .pure trivial
  obtain ⟨zs, t, sorts', ⟨-, there, held⟩, run⟩ := run_sort sorted here
  obtain rfl : zs = ys := sorts'.unique (ranks_along ranks) sorts
  refine ⟨_, _, run, Nat.ne_of_gt there, ?_, ?_⟩
  · rw [checkedList_push, if_pos rfl, held]
  · rw [checkedList_push, if_neg (Nat.ne_of_lt there), held]

/-- A sort in place leaves the list with the same. -/
theorem Induces.sortInPlace (induces : Induces e c inv l.items le comparator key) (ranks : Ranks le l.items)
    {ys : List Value} (sorts : Sorts (along falling le) l.items ys)
    (stays : ∀ s ws, inv s → inv (CheckedList.rewritten c ws s)) (unfrozen : l.frozen = false)
    (here : Holding c l inv s) :
    ∃ t, Op.run e c (.sortInPlace comparator key (.bool falling)) s = .ok c.value t ∧
      t.heap.checkedList c.at_ = { l with items := ys } := by
  obtain ⟨keys, compares⟩ := induces.compares
  -- While the sort goes on, the list holds one arrangement after the other.
  let kind (s : Session) : Prop := ∃ ws, Holding c { l with items := ws } inv s
  have known : Compares e comparator key kind l.items keys fun a b r => r = true ↔ ¬le b a :=
    .of_exists (fun ws => compares { l with items := ws }) l.items
  have soft (s : Session) : kind s → (s.heap.checkedList c.at_).frozen = false := by
    rintro ⟨ws, -, -, held⟩
    rw [held]
    exact unfrozen
  have sorted : (sortItems e comparator key (.bool falling) (s.heap.checkedList c.at_).items
      (c.write (some "sort"))).Delivers kind (Sorts (along falling le) l.items) := by
    rw [here.2.2]
    refine sortItems_sorts ranks known (write_delivers ?_ soft)
    rintro s ws ⟨_, held⟩
    exact ⟨ws, held.rewritten stays ws⟩
  obtain ⟨zs, t, sorts', ⟨ws, held⟩, run⟩ := run_sortInPlace soft sorted ⟨l.items, here⟩
  obtain rfl : zs = ys := sorts'.unique (ranks_along ranks) sorts
  exact ⟨_, run, (held.rewritten stays zs).2.2⟩

end Operations

/-- **Sorting.** For every total preorder of the items there is one list, the items in order and stable, that a sort
comes to in either direction, whoever induces the order: a comparator, a key or the items themselves. A sort answers
with a new list of them and leaves the list as it was; a sort in place leaves the list with just them. What a
comparator answers that induces no order still comes to the items in some order. -/
theorem sorts_stably (e : Engine) (c : Self) (inv : Session → Prop)
    (stays : ∀ s ws, inv s → inv (rewritten c ws s)) (l : CheckedList) (falling : Bool) :
    (∀ le, Ranks le l.items → ∃ ys, Sorts (along falling le) l.items ys ∧
      ∀ comparator key, Induces e c inv l.items le comparator key → ∀ s, Holding c l inv s →
        (∃ i t, Op.run e c (.sort comparator key (.bool falling)) s = .ok (.checked c.cls i) t ∧ i ≠ c.at_ ∧
          t.heap.checkedList i = { l with items := ys, frozen := false } ∧ t.heap.checkedList c.at_ = l) ∧
        (l.frozen = false → ∃ t, Op.run e c (.sortInPlace comparator key (.bool falling)) s = .ok c.value t ∧
          t.heap.checkedList c.at_ = { l with items := ys })) ∧
    ∀ comparator, comparator ≠ .nil →
      (∀ a ∈ l.items, ∀ b ∈ l.items, (comparesLess e comparator a b).Delivers inv fun _ => True) →
      ∀ s, Holding c l inv s →
        (∃ i t, Op.run e c (.sort comparator .nil (.bool falling)) s = .ok (.checked c.cls i) t ∧
          (t.heap.checkedList i).items.Perm l.items) ∧
        ((∀ t, inv t → c.at_ < t.heap.checked.size ∧ (t.heap.checkedList c.at_).frozen = false) →
          ∃ t, Op.run e c (.sortInPlace comparator .nil (.bool falling)) s = .ok c.value t ∧
            (t.heap.checkedList c.at_).items.Perm l.items) := by
  refine ⟨fun le ranks => ?_, fun comparator given answers s here => ?_⟩
  · obtain ⟨ys, sorts⟩ := (ranks_along ranks).exists_sorts
    refine ⟨ys, sorts, fun comparator key induces s here => ?_⟩
    exact ⟨induces.sort ranks sorts here, fun unfrozen => induces.sortInPlace ranks sorts stays unfrozen here⟩
  · have compares : Compares e comparator .nil inv (s.heap.checkedList c.at_).items (fun _ _ => True)
        fun _ _ _ => True := by
      rw [here.2.2]
      refine ⟨.inr rfl, fun _ _ => .pure trivial, fun a b ha hb _ _ => ?_⟩
      rw [goesBefore_given given]
      exact answers a.item ha b.item hb
    rw [← here.2.2]
    refine ⟨?_, fun writable => ?_⟩
    · obtain ⟨ys, t, perm, -, run⟩ := run_sort (sortItems_perm compares fun _ => .pure trivial) here.1
      refine ⟨_, _, run, ?_⟩
      rwa [checkedList_push, if_pos rfl]
    · have unfrozen (t : Session) (ht : inv t) := (writable t ht).2
      obtain ⟨ys, t, perm, ht, run⟩ :=
        run_sortInPlace unfrozen (sortItems_perm compares (write_delivers stays unfrozen)) here.1
      refine ⟨_, run, ?_⟩
      rwa [checkedList_rewritten (writable t ht).1]

section Texts

abbrev reader : Engine :=
  Engine.ofDepth Zoo.library 3

abbrev shelved : Self :=
  ⟨.checkedList, 0⟩

/-- Three texts, two of them of the same length. -/
def texts : CheckedList where
  items := [.str .base 1 "a", .str .base 2 "bb", .str .base 3 "c"]
  element := .void
  collection := .collection 4 .array .void
  frozen := false

def shelf : Session :=
  { heap.checked := #[texts], nextIdent := 5 }

/-- Texts by their length. -/
def noLonger (a b : Value) : Prop :=
  (a.text?.getD "").length ≤ (b.text?.getD "").length

instance (a b : Value) : Decidable (noLonger a b) :=
  inferInstanceAs (Decidable (_ ≤ _))

def compareLengths : Value :=
  .fn { name := "cmp_len", traced := false, bare := false }

def lengthOf : Value :=
  .fn { name := "length", traced := false, bare := false }

theorem noLonger_ranks : Ranks noLonger texts.items where
  total _ _ _ _ := Nat.le_total _ _
  trans _ _ _ _ _ _ := Nat.le_trans

theorem compareLengths_induces :
    Induces reader shelved (fun _ => True) texts.items noLonger compareLengths .nil := by
  refine .comparator nofun ?_
  simp only [texts, List.mem_cons, List.not_mem_nil, or_false]
  rintro a (rfl | rfl | rfl) b (rfl | rfl | rfl) l s held
  all_goals exact ⟨_, _, rfl, held, by decide⟩

theorem lengthOf_induces :
    Induces reader shelved (fun _ => True) texts.items noLonger .nil lengthOf := by
  refine .key (fun a k => ∃ id, k = .int .base id (a.text?.getD "").length) nofun ?_ ?_
  · simp only [texts, List.mem_cons, List.not_mem_nil, or_false]
    rintro a (rfl | rfl | rfl) l s held
    all_goals exact ⟨_, _, rfl, held, _, rfl⟩
  · simp only [texts, List.mem_cons, List.not_mem_nil, or_false]
    rintro a (rfl | rfl | rfl) b (rfl | rfl | rfl) _ _ ⟨id, rfl⟩ ⟨id', rfl⟩ l
    all_goals exact .lift fun s _ => ⟨_, rfl, by decide⟩

/-- A falling sort by length, by a comparator or by a key, in place or not, keeps the two short texts in order. -/
theorem texts_sorted_stably :
    let ys : List Value := [.str .base 2 "bb", .str .base 1 "a", .str .base 3 "c"]
    (∃ i t, Op.run reader shelved (.sort .nil lengthOf (.bool true)) shelf =
      .ok (.checked .checkedList i) t ∧ (t.heap.checkedList i).items = ys) ∧
    ∃ t, Op.run reader shelved (.sortInPlace compareLengths .nil (.bool true)) shelf =
      .ok (.checked .checkedList 0) t ∧ (t.heap.checkedList 0).items = ys := by
  intro ys
  have held : Holding shelved texts (fun _ => True) shelf := ⟨trivial, by decide, rfl⟩
  obtain ⟨zs, -, sorted⟩ := (sorts_stably reader shelved (fun _ => True)
    (fun _ _ => id) texts true).1 noLonger noLonger_ranks
  obtain ⟨⟨i, t, run, -, made, -⟩, inPlace⟩ := sorted _ _ compareLengths_induces shelf held
  obtain ⟨u, inPlace, left⟩ := inPlace rfl
  obtain ⟨⟨j, v, byKey, -, made', -⟩, -⟩ := sorted _ _ lengthOf_induces shelf held
  have same : zs = ys := by
    obtain ⟨t', ran, listed⟩ : ∃ t', Op.run reader shelved
        (.sort compareLengths .nil (.bool true)) shelf = .ok (.checked .checkedList 1) t' ∧
        (t'.heap.checkedList 1).items = ys := ⟨_, rfl, rfl⟩
    obtain ⟨⟨⟩, rfl⟩ := EStateM.Result.ok.inj (ran.symm.trans run)
    rw [← listed, made]
  exact ⟨⟨j, v, byKey, by rw [made', same]⟩, u, inPlace, by rw [left, same]⟩

end Texts

end Conform.CheckedList
