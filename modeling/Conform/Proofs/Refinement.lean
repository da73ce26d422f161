import Conform.Calling
import Conform.Proofs.Arranging
import Conform.Proofs.Pool

/-!
A checked list against a plain list with the same items. Whatever changes the checked list and is let in
comes to what the same change of the plain list comes to: the same items, the same item taken out, or an
error of the same class. Whatever is not let in fails before the checked list changes.

Main statement: `CheckedList.refines_list`.
-/
namespace Conform

open Value Descriptor

/-- A value that cannot be walked through makes a plain type error, or what is no type error. -/
theorem itemsAt_kind {n : Nat} {v : Value} {s t : Session} {f : Fault} (run : v.itemsAt n s = .error f t)
    (taken : f.isA .typeError = true) : f.kind = .typeError := by
  have mapped {β : Type} {xs : List β} {g : β → Act Value} (total : ∀ x s, ∃ y t, g x s = .ok y t)
      {s t : Session} (run : xs.mapM g s = .error f t) : False := by
    induction xs generalizing s with
    | nil => cases run
    | cons x xs ih =>
      rw [List.mapM_cons] at run
      obtain ⟨y, u, first⟩ := total x s
      rw [Act.bind_of_ok first] at run
      obtain failed | ⟨ys, w, -, done⟩ := Act.bind_eq_error.mp run
      · exact ih failed
      · cases done
  induction n generalizing v s with
  | zero =>
    cases run
    cases taken
  | succ n ih =>
    obtain none_ | ⟨h, s', heap, run⟩ := Act.bind_eq_error.mp run
    · cases none_
    · have attributed {c : Class} {i : Handle} {name : String} {s : Session} {next : Value → Act (List Value)}
          (rest : ∀ w s, next w s = .error f t → f.kind = .typeError)
          (run : (liftM (needAttribute c i name) >>= next : Act (List Value)) s = .error f t) :
          f.kind = .typeError := by
        obtain failed | ⟨w, u, -, run⟩ := Act.bind_eq_error.mp run
        · obtain ⟨failed, -⟩ := Act.lift_eq_error.mp failed
          simp only [needAttribute, Look.bind_eq_error, Look.read_ne_error, false_or] at failed
          obtain ⟨g, -, failed⟩ := failed
          cases own : ownAttribute? g i name with
          | some w => simp [own] at failed
          | none =>
            obtain rfl : Fault.cause (.noAttribute c.name name) = f := by simpa [own] using failed
            cases taken
        · exact rest w u run
      split at run
      case h_14 id owner _ =>
        cases found : entries? h owner with
        | some entries => simp [found] at run
        | none =>
          obtain ⟨rfl, -⟩ : Fault.cause (.notIterable (Value.keys id owner).operandName) = f ∧ s' = t := by
            simpa [found] using run
          rfl
      all_goals
        first
        | exact attributed (fun _ _ => ih) run
        | exact (mapped (fun _ _ => ⟨_, _, rfl⟩) run).elim
        | (obtain ⟨rfl, -⟩ := Act.fail_eq_error.mp run; rfl)
        | cases run

section Places

variable {items values : List Value} {index start stop step v : Value}

theorem asSubscript_fixed {kind : String} : (asSubscript kind index).Fixed := by
  unfold asSubscript
  split
  · exact .fail _
  · split
    · exact .pure _
    · exact .fail _

theorem asOffset_fixed : (asOffset index).Fixed := by
  unfold asOffset
  split
  · exact .fail _
  · split
    · exact .pure _
    · exact .fail _

theorem asBound_fixed : (asBound index).Fixed := by
  unfold asBound
  split
  · exact .pure _
  · exact .pure _
  · exact .fail _

theorem asSlice_fixed {length : Nat} : (asSlice length start stop step).Fixed := by
  refine .bind asBound_fixed fun by_ => ?_
  have bounds : (do
      let low ← asBound start
      let high ← asBound stop
      return Sequence.slice length low high (by_.getD 1) : Look Sequence.Slice).Fixed :=
    .bind asBound_fixed fun _ => .bind asBound_fixed fun _ => .pure _
  exact .ite (.bind (.fail _) fun _ => bounds) bounds

/-- Where values are placed does not depend on the heap. -/
theorem CheckedList.Op.placed_fixed {op : Op} : (op.placed items values).Fixed := by
  cases op with
  | insert index v => exact .bind asOffset_fixed fun _ => .pure _
  | setItem index v =>
    have assigned : (assignedAt items index v).Fixed := by
      refine .bind asSubscript_fixed fun i => ?_
      split
      · exact .pure _
      · exact .fail _
    cases index with
    | slice id start stop step =>
      refine .bind asSlice_fixed fun slice => ?_
      split
      · exact .pure _
      · exact .fail _
    | _ => exact assigned
  | _ => exact .pure _

end Places

/-- Whether a checked list and a plain list stay as they are. -/
structure Session.Keeps (c : CheckedList.Self) (k : Handle) (s t : Session) : Prop where
  checked : t.heap.checkedList c.at_ = s.heap.checkedList c.at_
  plain : ∀ ws, s.heap.lists[k]? = some ws → t.heap.lists[k]? = some ws

instance (c : CheckedList.Self) (k : Handle) : IsPreorder Session (Session.Keeps c k) where
  refl _ := ⟨rfl, fun _ => id⟩
  trans _ _ _ st tu := ⟨tu.checked.trans st.checked, fun ws held => tu.plain ws (st.plain ws held)⟩

theorem items_keeps (c : CheckedList.Self) (k : Handle) (v : Value) : v.items.Leads (Session.Keeps c k) :=
  itemsAt_leads (.modify fun _ => ⟨rfl, fun _ => id⟩) fun _ _ => .modify fun _ => ⟨rfl, fun _ => id⟩

theorem newList_keeps (c : CheckedList.Self) (k : Handle) (vs : List Value) :
    (Act.newList vs).Leads (Session.Keeps c k) := by
  refine fun s => ⟨rfl, fun ws held => ?_⟩
  change (s.heap.lists.push vs)[k]? = some ws
  obtain ⟨inside, -⟩ := Array.getElem?_eq_some_iff.mp held
  rw [Array.getElem?_push_lt inside]
  exact Array.getElem?_eq_getElem inside ▸ held

namespace CheckedList

/-- Keeps those items of a plain list that a predicate accepts, or those that it does not. -/
def keepOnList (e : Engine) (k : Handle) (test : Value) (wanted : Bool) : Act Value := do
  let kept ← keepIf e test wanted (← Value.items (.list .base k))
  Subscript.set e (.list .base k) (.slice 0 .nil .nil .nil) (← Act.newList kept)
  return .nil

/-- What corresponds on a plain list to an operation that changes a checked list. -/
def Op.onList (e : Engine) (k : Handle) : Op → Act Value
  | .append v => Calling.boundMethod e (.list .base k) "append" [v] []
  | .prepend v => Calling.boundMethod e (.list .base k) "insert" [.int .base 0 0, v] []
  | .insert index v => Calling.boundMethod e (.list .base k) "insert" [index, v] []
  | .setItem index v => do
    Subscript.set e (.list .base k) index v
    return .nil
  | .extend v => Calling.boundMethod e (.list .base k) "extend" [v] []
  | .push vs => do Calling.boundMethod e (.list .base k) "extend" [← Act.newTuple vs] []
  | .addInPlace v => Operator.applyInPlace e .add (.list .base k) v
  | .deleteItem index => do
    Subscript.delete e (.list .base k) index
    return .nil
  | .pop index => Calling.boundMethod e (.list .base k) "pop" [index] []
  | .shift => Calling.boundMethod e (.list .base k) "pop" [.int .base 0 0] []
  | .remove v => Calling.boundMethod e (.list .base k) "remove" [v] []
  | .clear => Calling.boundMethod e (.list .base k) "clear" [] []
  | .reverse => Calling.boundMethod e (.list .base k) "reverse" [] []
  | .filterInPlace test => keepOnList e k test true
  | .rejectInPlace test => keepOnList e k test false
  | .sortInPlace .nil key falling =>
    Calling.boundMethod e (.list .base k) "sort" [] [("key", key), ("reverse", falling)]
  | .sortInPlace comparator _ falling => do
    Act.setList k (← sortItems e comparator .nil falling ((← Act.getHeap).list k) (Act.setList k))
    return .nil
  | _ => return .nil

/-- Whether an operation takes an item out and answers it. -/
def Op.removes : Op → Bool
  | .pop _ | .shift => true
  | _ => false

/-- Whether an operation sorts a list. -/
def Op.sorts : Op → Bool
  | .sortInPlace .. => true
  | _ => false

theorem Op.not_removes {op : Op} (inserts : op.inserts = true) : op.removes = false := by
  cases op <;> first | rfl | cases inserts

/-- Whether an operation on a checked list and one on a plain list come to the same: to the same items, and
to the same item if one is taken out; or to errors of the same class. -/
inductive SameList (self : Self) (l : CheckedList) (k : Handle) (removes : Bool) :
    EStateM.Result Fault Session Value → EStateM.Result Fault Session Value → Prop
  | done {a b : Value} {t u : Session} {items : List Value}
    (checked : t.heap.checkedList self.at_ = { l with items }) (plain : u.heap.list k = items)
    (removed : removes = true → a = b) : SameList self l k removes (.ok a t) (.ok b u)
  | failed {f g : Fault} {t u : Session} (kind : f.kind = g.kind) :
    SameList self l k removes (.error f t) (.error g u)

section Writing

variable {self : Self} {k : Handle} {l : CheckedList} {removes : Bool} {id : Ident} {s t u : Session}
  {old ws : List Value}

/-- A list that has a type is there. -/
theorem lt_of_typed (cell : s.heap.checkedList self.at_ = { l with items := old })
    (typed : l.collection = .collection id .array l.element) : self.at_ < s.heap.checked.size := by
  by_contra absent
  have absent : s.heap.checked.size ≤ self.at_ := Nat.le_of_not_lt absent
  have collection := congrArg CheckedList.collection cell
  simp [Heap.checkedList, Array.getElem?_eq_none absent, typed] at collection

/-- The same items are written to both lists. -/
theorem write_both {a b : Value} {items : List Value} {method : Option String} (unfrozen : l.frozen = false)
    (typed : l.collection = .collection id .array l.element)
    (cell : t.heap.checkedList self.at_ = { l with items := old }) (held : u.heap.lists[k]? = some ws)
    (removed : removes = true → a = b) :
    SameList self l k removes ((do self.write method items; return a : Act Value) t)
      ((do Act.setList k items; return b : Act Value) u) := by
  have inside := lt_of_typed cell typed
  obtain ⟨inside', -⟩ := Array.getElem?_eq_some_iff.mp held
  have listed : ((Act.setList k items).after u).heap.list k = items := by
    change ((u.heap.lists.setIfInBounds k items)[k]?).getD [] = items
    simp [inside']
  rw [Act.bind_of_ok (Self.write_ok (by rw [cell]; exact unfrozen))]
  refine .done ?_ listed removed
  refine (checkedList_set inside).trans ?_
  rw [if_pos rfl, cell]

/-- The same new items are written to both lists, unless what gives them fails. -/
theorem write_like {β : Type} {x y : Look β} {items : β → List Value} {a b : β → Value}
    {method : Option String} (unfrozen : l.frozen = false) (typed : l.collection = .collection id .array l.element)
    (cell : t.heap.checkedList self.at_ = { l with items := old }) (held : u.heap.lists[k]? = some ws)
    (same : x t.heap = y u.heap) (removed : removes = true → a = b) :
    SameList self l k removes
      ((do let r ← x; self.write method (items r); return a r : Act Value) t)
      ((do let r ← y; Act.setList k (items r); return b r : Act Value) u) := by
  cases found : x t.heap with
  | error f =>
    have here : (liftM x : Act β) t = .error f t := Act.lift_eq_error.mpr ⟨found, rfl⟩
    have there : (liftM y : Act β) u = .error f u := Act.lift_eq_error.mpr ⟨same ▸ found, rfl⟩
    rw [Act.bind_of_error here, Act.bind_of_error there]
    exact .failed rfl
  | ok r =>
    have here : (liftM x : Act β) t = .ok r t := Act.lift_eq_ok.mpr ⟨found, rfl⟩
    have there : (liftM y : Act β) u = .ok r u := Act.lift_eq_ok.mpr ⟨same ▸ found, rfl⟩
    rw [Act.bind_of_ok here, Act.bind_of_ok there]
    exact write_both unfrozen typed cell held fun hr => congrFun (removed hr) r

theorem list_of_held {h : Heap} (held : h.lists[k]? = some ws) : h.list k = ws := by
  simp [Heap.list, held]

/-- Walking through a value leaves plain lists alone. -/
theorem held_of_items {v : Value} {values : List Value} (held : s.heap.lists[k]? = some ws)
    (taken : v.items s = .ok values t) : t.heap.lists[k]? = some ws :=
  ((items_keeps ⟨.checkedList, 0⟩ k v).ok taken).plain ws held

/-- On a plain list, values are taken from the argument and placed, and the list is written. -/
theorem Op.onList_inserts {e : Engine} {op : Op} {values : List Value} (inserts : op.inserts = true)
    (held : s.heap.lists[k]? = some ws) (taken : op.taken s = .ok values t) :
    ∃ b u, ∃ y : Look (List Value), u.heap.lists[k]? = some ws ∧
      op.onList e k s = (do let r ← y; Act.setList k r; return b : Act Value) u ∧
      ∀ h, op.placed ws values h = y u.heap := by
  obtain rfl := list_of_held held
  cases op with
  | append v =>
    obtain ⟨rfl, rfl⟩ := Act.pure_eq_ok.mp taken
    exact ⟨.nil, s, pure (s.heap.list k ++ [v]), held, rfl, fun _ => rfl⟩
  | prepend v =>
    obtain ⟨rfl, rfl⟩ := Act.pure_eq_ok.mp taken
    refine ⟨.nil, s, insertedAt (s.heap.list k) (.int .base 0 0) v, held, rfl, fun h => ?_⟩
    have first : Sequence.insert (s.heap.list k) 0 v = [v] ++ s.heap.list k := by
      have least : min (0 : Int) (s.heap.list k).length = 0 := by omega
      simp [Sequence.insert, least]
    change Except.ok ([v] ++ s.heap.list k) = Except.ok (Sequence.insert (s.heap.list k) 0 v)
    rw [first]
  | insert index v => exact ⟨.nil, s, insertedAt (s.heap.list k) index v, held, rfl, fun h => placed_fixed h _⟩
  | setItem index v =>
    have indexed (single : ∀ id start stop step, index ≠ .slice id start stop step) :
        (Op.setItem index v).onList e k s = (do
          let r ← assignedAt (s.heap.list k) index v
          Act.setList k r
          return .nil : Act Value) s := by
      have set : Subscript.set e (.list .base k) index v s =
          (do Act.setList k (← assignedAt (s.heap.list k) index v) : Act Unit) s := by
        cases index <;> first | rfl | exact absurd rfl (single _ _ _ _)
      rw [onList, Act.bind_congr_run set, bind_assoc]
    cases index with
    | slice id start stop step =>
      have taken : v.items s = .ok values t := taken
      have incoming : Subscript.incoming step v s = .ok values t := by
        simp only [Subscript.incoming, Act.handle, taken]
      have set : Subscript.set e (.list .base k) (.slice id start stop step) v s = (do
          let _ ← asSlice (s.heap.list k).length start stop step
          let values ← Subscript.incoming step v
          Act.setList k (← assignedSlice (s.heap.list k) start stop step values) : Act Unit) s := rfl
      rw [onList, Act.bind_congr_run set]
      cases sliced : asSlice (s.heap.list k).length start stop step s.heap with
      | error f =>
        -- The plain list looks at the slice first, but nothing that fits it would be found later either.
        have failed : (liftM (asSlice (s.heap.list k).length start stop step) : Act _) s = .error f s :=
          Act.lift_eq_error.mpr ⟨sliced, rfl⟩
        have failed' : (liftM (assignedSlice (s.heap.list k) start stop step values) : Act _) s = .error f s :=
          Act.lift_eq_error.mpr ⟨Look.bind_eq_error.mpr (.inl sliced), rfl⟩
        refine ⟨.nil, s, assignedSlice (s.heap.list k) start stop step values, held, ?_,
          fun h => placed_fixed h _⟩
        rw [Act.bind_of_error failed']
        exact Act.bind_of_error (Act.bind_of_error failed)
      | ok slice =>
        have found : (liftM (asSlice (s.heap.list k).length start stop step) : Act _) s = .ok slice s :=
          Act.lift_eq_ok.mpr ⟨sliced, rfl⟩
        refine ⟨.nil, t, assignedSlice (s.heap.list k) start stop step values, held_of_items held taken, ?_,
          fun h => placed_fixed h _⟩
        simp only [bind_assoc]
        rw [Act.bind_of_ok found, Act.bind_of_ok incoming]
    | _ => exact ⟨.nil, s, _, held, indexed (by simp), fun h => placed_fixed h _⟩
  | extend v =>
    have taken : v.items s = .ok values t := taken
    have extended : (Op.extend v).onList e k s = (do
        Act.setList k (s.heap.list k ++ (← v.items))
        return .nil : Act Value) s := rfl
    rw [extended, Act.bind_of_ok taken]
    exact ⟨.nil, t, pure (s.heap.list k ++ values), held_of_items held taken, rfl, fun _ => rfl⟩
  | addInPlace v =>
    have taken : v.items s = .ok values t := taken
    have stays := held_of_items held taken
    have extended : (Op.addInPlace v).onList e k s = (do
        let items ← v.items
        Act.setList k ((← Act.getHeap).list k ++ items)
        return .list .base k : Act Value) s := rfl
    rw [extended, Act.bind_of_ok taken]
    refine ⟨.list .base k, t, pure (s.heap.list k ++ values), stays, ?_, fun _ => rfl⟩
    rw [← list_of_held stays]
    rfl
  | push vs =>
    obtain ⟨rfl, rfl⟩ := Act.pure_eq_ok.mp taken
    exact ⟨.nil, { s with nextIdent := s.nextIdent + 1 }, pure (s.heap.list k ++ vs), held, rfl, fun _ => rfl⟩
  | _ => cases inserts

/-- Values that match come to stand in a checked list as they come to stand in a plain list. -/
theorem Op.inserts_like {functions : Library} {n : Nat} {op : Op} (inserts : op.inserts = true)
    (cell : s.heap.checkedList self.at_ = l) (unfrozen : l.frozen = false)
    (typed : l.collection = .collection id .array l.element)
    (discreet : op.Discreet functions n self l.element s)
    (held : s.heap.lists[k]? = some l.items) (yes : op.asked functions n l.element s = .ok true t) :
    SameList self l k op.removes (op.run (Engine.ofDepth functions (n + 1)) self s)
      (op.onList (Engine.ofDepth functions (n + 1)) k s) := by
  have calm := op.asked_calm discreet
  rw [Calm, Act.after_of_ok yes] at calm
  have verdict := op.admitted_verdict inserts cell typed discreet
  rw [yes] at verdict
  generalize admitted : op.admitted (Engine.ofDepth functions (n + 1)) self s = r at verdict
  obtain @⟨_, values, s', taken⟩ := verdict
  obtain ⟨b, u, y, held', plain, same⟩ := onList_inserts (e := Engine.ofDepth functions (n + 1)) inserts held taken
  have cell' : t.heap.checkedList self.at_ = l := calm.trans cell
  have written : op.run (Engine.ofDepth functions (n + 1)) self s = (do
      let r ← op.placed l.items values
      self.write op.storing r
      return op.answer self : Act Value) t := by
    rw [run_inserts inserts (cell ▸ unfrozen), Act.bind_of_ok admitted, ← cell']
    rfl
  rw [written, plain]
  refine write_like unfrozen typed cell' held' (same t.heap) fun removes => ?_
  rw [not_removes inserts] at removes
  cases removes

/-- If an argument cannot be walked through, then a bulk cannot be taken from it. -/
theorem collect_unwalked {e : Engine} {v : Value} {operation : String} {position : Option Int} {f : Fault}
    (apart : isWhole v = false) (walked : v.items s = .error f t) :
    self.collect e v operation position s = .error f t := by
  simp only [Self.collect, apart, Bool.false_eq_true, if_false]
  exact Act.bind_of_error walked

/-- If an argument cannot be walked through, then neither list can be extended with it. -/
theorem Op.unwalked_like {e : Engine} {op : Op} {v : Value} {f : Fault}
    (extending : op = .extend v ∨ op = .addInPlace v) (cell : s.heap.checkedList self.at_ = l)
    (unfrozen : l.frozen = false) (apart : isWhole v = false) (walked : v.items s = .error f t) :
    SameList self l k op.removes (op.run e self s) (op.onList e k s) := by
  have unadmitted : (Op.extend v).admitted e self s = .error f t := by
    have collected : self.collect e v "extend" (some 0) s = .error f t := collect_unwalked apart walked
    cases v with
    | checked c i => cases walked
    | _ => exact collected
  obtain rfl | rfl := extending
  · have extended : (Op.extend v).onList e k s = (do
        Act.setList k (s.heap.list k ++ (← v.items))
        return .nil : Act Value) s := rfl
    have there : (Op.extend v).onList e k s = .error f t := extended.trans (Act.bind_of_error walked)
    rw [run_inserts rfl (cell ▸ unfrozen), Act.bind_of_error unadmitted, there]
    exact .failed rfl
  · have there : (Op.addInPlace v).onList e k s = .error f t := Act.bind_of_error walked
    have unadmitted : (Op.addInPlace v).admitted e self s = .error f t := unadmitted
    rw [run_inserts rfl (cell ▸ unfrozen), Act.bind_of_error unadmitted, there]
    exact .failed rfl

/-- If an argument cannot be walked through, then it cannot be assigned to a slice of either list. -/
theorem Op.unwalked_slice_like {e : Engine} {start stop step v : Value} {slice : Sequence.Slice} {f : Fault}
    (cell : s.heap.checkedList self.at_ = l) (unfrozen : l.frozen = false)
    (held : s.heap.lists[k]? = some l.items) (apart : isWhole v = false)
    (walked : v.items s = .error f t) (sliced : asSlice l.items.length start stop step s.heap = .ok slice) :
    SameList self l k false ((Op.setItem (.slice id start stop step) v).run e self s)
      ((Op.setItem (.slice id start stop step) v).onList e k s) := by
  have unadmitted : (Op.setItem (.slice id start stop step) v).admitted e self s = .error f t :=
    collect_unwalked apart walked
  rw [run_inserts rfl (cell ▸ unfrozen), Act.bind_of_error unadmitted]
  have found : (liftM (asSlice (s.heap.list k).length start stop step) : Act _) s = .ok slice s := by
    rw [list_of_held held]
    exact Act.lift_eq_ok.mpr ⟨sliced, rfl⟩
  have set : Subscript.set e (.list .base k) (.slice id start stop step) v s = (do
      let values ← Subscript.incoming step v
      Act.setList k (← assignedSlice (s.heap.list k) start stop step values) : Act Unit) s :=
    Act.bind_of_ok found
  have refused : ∃ g, f.kind = g.kind ∧ Subscript.incoming step v s = .error g t := by
    simp only [Subscript.incoming, Act.handle, walked]
    split
    · next taken => exact ⟨_, (itemsAt_kind walked taken).trans (by split <;> rfl), rfl⟩
    · exact ⟨f, rfl, rfl⟩
  obtain ⟨g, kind, refused⟩ := refused
  have there : (Op.setItem (.slice id start stop step) v).onList e k s = .error g t :=
    Act.bind_of_error (set.trans (Act.bind_of_error refused))
  rw [there]
  exact .failed kind

/-- What is taken out or put into another order comes to the same for both lists. -/
theorem Op.rearranges_like {e : Engine} {op : Op} (cell : s.heap.checkedList self.at_ = l)
    (unfrozen : l.frozen = false) (typed : l.collection = .collection id .array l.element)
    (held : s.heap.lists[k]? = some l.items) (changes : op.change?.isSome = true)
    (inserts : op.inserts = false) (uncalled : op.callees = []) (unsorted : op.sorts = false) :
    SameList self l k op.removes (op.run e self s) (op.onList e k s) := by
  subst cell
  have like {β : Type} {method : Option String} (x : List Value → Look β) (items : β → List Value)
      (a b : β → Value)
      (here : op.perform e self s = (do
        let r ← x (s.heap.checkedList self.at_).items
        self.write method (items r)
        return a r : Act Value) s)
      (there : op.onList e k s = (do
        let r ← x (s.heap.list k)
        Act.setList k (items r)
        return b r : Act Value) s)
      (removed : op.removes = true → a = b) :
      SameList self (s.heap.checkedList self.at_) k op.removes (op.run e self s) (op.onList e k s) := by
    obtain ⟨what, changes⟩ := Option.isSome_iff_exists.mp changes
    rw [run_unfrozen changes unfrozen, here, there, list_of_held held]
    exact write_like unfrozen typed rfl held rfl removed
  cases op with
  | deleteItem index =>
    have deleted : Subscript.delete e (.list .base k) index s =
        (do Act.setList k (← deletedAt (s.heap.list k) index) : Act Unit) s := rfl
    refine like (fun items => deletedAt items index) (fun r => r) (fun _ => .nil) (fun _ => .nil) rfl ?_ fun _ => rfl
    rw [onList, Act.bind_congr_run deleted, bind_assoc]
  | pop index => exact like (fun items => poppedAt items index) Prod.snd Prod.fst Prod.fst rfl rfl fun _ => rfl
  | shift =>
    exact like (fun items => poppedAt items (.int .base 0 0)) Prod.snd Prod.fst Prod.fst rfl rfl fun _ => rfl
  | remove v => exact like (removeFirst v) (fun r => r) (fun _ => .nil) (fun _ => .nil) rfl rfl fun _ => rfl
  | clear => exact like (fun _ => pure []) (fun r => r) (fun _ => .nil) (fun _ => .nil) rfl rfl fun _ => rfl
  | reverse =>
    exact like (fun items => pure items.reverse) (fun r => r) (fun _ => .nil) (fun _ => .nil) rfl rfl fun _ => rfl
  | sortInPlace => cases unsorted
  | filterInPlace => cases uncalled
  | rejectInPlace => cases uncalled
  | setItem | insert | append | prepend | extend | push | addInPlace => cases inserts
  | _ => cases changes

/-- To assign to the slice of everything is to replace everything. -/
theorem assignedSlice_all (xs : List Value) (h : Heap) : assignedSlice xs .nil .nil .nil ws h = .ok ws := by
  have sliced : asSlice xs.length .nil .nil .nil h = .ok ⟨0, xs.length, 1⟩ := rfl
  have spliced : (⟨0, xs.length, 1⟩ : Sequence.Slice).assign xs ws = .ok ws := by
    simp [Sequence.Slice.assign, Sequence.Slice.splice]
  refine Look.bind_eq_ok.mpr ⟨_, sliced, ?_⟩
  rw [spliced]
  rfl

theorem keepIf_keeps {e : Engine} {test : Value} {wanted : Bool} {items : List Value}
    (calls : ∀ v ∈ items, (e.call test [v] []).Leads (Session.Keeps self k)) :
    (keepIf e test wanted items).Leads (Session.Keeps self k) :=
  .filterM fun v hv => .bind (calls v hv) fun _ => .bind (.lift _) fun _ => .pure _

/-- What a predicate leaves is the same for both lists. -/
theorem keeps_like {e : Engine} {test : Value} {wanted : Bool} {a : Value}
    (cell : s.heap.checkedList self.at_ = l) (unfrozen : l.frozen = false)
    (typed : l.collection = .collection id .array l.element) (held : s.heap.lists[k]? = some l.items)
    (calls : ∀ v ∈ l.items, (e.call test [v] []).Leads (Session.Keeps self k)) :
    SameList self l k false
      ((do self.write none (← keepIf e test wanted l.items); return a : Act Value) s)
      (keepOnList e k test wanted s) := by
  have walked : Value.items (.list .base k) s = .ok (s.heap.list k) s := rfl
  rw [keepOnList, Act.bind_of_ok walked, list_of_held held]
  cases chosen : keepIf e test wanted l.items s with
  | error f t =>
    rw [Act.bind_of_error chosen, Act.bind_of_error chosen]
    exact .failed rfl
  | ok kept t =>
    have st := (keepIf_keeps calls).ok chosen
    let u : Session := { t with heap := { t.heap with lists := t.heap.lists.push kept } }
    have made : Act.newList kept t = .ok (.list .base t.heap.lists.size) u := rfl
    have tu : Session.Keeps self k t u := newList_keeps self k kept t
    have held' : u.heap.lists[k]? = some l.items := tu.plain _ (st.plain _ held)
    have new : u.heap.list t.heap.lists.size = kept := by simp [u, list_push]
    have set : Subscript.set e (.list .base k) (.slice 0 .nil .nil .nil) (.list .base t.heap.lists.size) u =
        (do Act.setList k (← assignedSlice (u.heap.list k) .nil .nil .nil kept) : Act Unit) u := by
      rw [← new]
      rfl
    have assigned : (liftM (assignedSlice (u.heap.list k) .nil .nil .nil kept) : Act _) u = .ok kept u :=
      Act.lift_eq_ok.mpr ⟨assignedSlice_all _ _, rfl⟩
    rw [Act.bind_of_ok chosen, Act.bind_of_ok chosen, Act.bind_of_ok made, Act.bind_congr_run set, bind_assoc,
      Act.bind_of_ok assigned]
    have cell' : u.heap.checkedList self.at_ = { l with items := l.items } := st.checked.trans cell
    exact write_both unfrozen typed cell' held' nofun

/-- Both lists are sorted alike. -/
theorem sorts_like {e : Engine} {comparator key falling a b : Value} {method : Option String}
    (cell : s.heap.checkedList self.at_ = l) (unfrozen : l.frozen = false)
    (typed : l.collection = .collection id .array l.element) (held : s.heap.lists[k]? = some l.items)
    (keys : ∀ v ∈ l.items, Act.Blind self k (keyOf e key v))
    (compares : ∀ v w, Entry e key l.items v → Entry e key l.items w →
      Act.Blind self k (goesBefore e comparator v w)) :
    SameList self l k false
      ((do
        self.write method (← sortItems e comparator key falling l.items (self.write method))
        return a : Act Value) s)
      ((do
        Act.setList k (← sortItems e comparator key falling l.items (Act.setList k))
        return b : Act Value) s) := by
  obtain ⟨inside, -⟩ := Array.getElem?_eq_some_iff.mp held
  have whole : s.heap.checkedList self.at_ = { l with items := l.items } := cell
  have has : s.Has self k := ⟨lt_of_typed whole typed, inside⟩
  have own : s.put self k l l.items = s := by
    have own := has.put_own
    rwa [cell, list_of_held held] at own
  obtain ⟨has', _, ws, ⟨old, rfl⟩, here⟩ :=
    sortItems_follows falling keys compares (write_follows unfrozen) s has l l.items ⟨_, rfl⟩
  obtain ⟨-, l', ws', -, there⟩ := sortItems_follows falling keys compares setList_follows s has l l.items trivial
  rw [own] at here there
  cases quiet : sortItems e comparator key falling l.items (fun _ => pure ()) s with
  | error f t =>
    rw [quiet] at here there
    rw [Act.bind_of_error here, Act.bind_of_error there]
    exact .failed rfl
  | ok r t =>
    rw [quiet] at here there
    rw [Act.after_of_ok quiet] at has'
    rw [Act.bind_of_ok here, Act.bind_of_ok there]
    exact write_both unfrozen typed has'.checkedList_put has'.lists_put nofun

/-- Whether an operation is given two orders to sort by. -/
def Op.twoOrders : Op → Bool
  | .sortInPlace comparator key _ => !comparator.same .nil && !key.same .nil
  | _ => false

/-- The bulk of values that an operation is given. -/
def Op.bulk? : Op → Option Value
  | .setItem (.slice ..) v | .extend v | .addInPlace v => some v
  | _ => none

/-- Whether the slice that an operation assigns to is one. -/
def Op.Sliced (items : List Value) (h : Heap) : Op → Prop
  | .setItem (.slice _ start stop step) _ => ∃ slice, asSlice items.length start stop step h = .ok slice
  | _ => True

/-- Whether what an operation calls does not touch a checked list and a plain list. What is asked and what is
tested leaves them as they are; what is called in a sort, which writes to the lists on its way, does not look
at them either. -/
def Op.Apart (functions : Library) (n : Nat) (self : Self) (k : Handle) (l : CheckedList) (s : Session) :
    Op → Prop
  | .filterInPlace test | .rejectInPlace test =>
    ∀ v ∈ l.items, ((Engine.ofDepth functions (n + 1)).call test [v] []).Leads (Session.Keeps self k)
  | .sortInPlace comparator key _ =>
    (∀ v ∈ l.items, Act.Blind self k (keyOf (Engine.ofDepth functions (n + 1)) key v)) ∧
      ∀ v w, Entry (Engine.ofDepth functions (n + 1)) key l.items v →
        Entry (Engine.ofDepth functions (n + 1)) key l.items w →
        Act.Blind self k (goesBefore (Engine.ofDepth functions (n + 1)) comparator v w)
  | op => op.Discreet functions n self l.element s

section Whole

variable {functions : Library} {n : Nat} {op : Op}

theorem Op.Apart.discreet (apart : op.Apart functions n self k l s) (inserts : op.inserts = true) :
    op.Discreet functions n self l.element s := by
  cases op <;> first | exact apart | cases inserts

theorem same_nil {v : Value} (same : v.same .nil = true) : v = .nil := by
  cases v <;> first | rfl | simp [Value.same] at same

section

variable (cell : s.heap.checkedList self.at_ = l) (unfrozen : l.frozen = false)
include cell unfrozen

/-- Both lists are sorted alike by one order. -/
theorem Op.sort_like {comparator key falling : Value}
    (typed : l.collection = .collection id .array l.element) (held : s.heap.lists[k]? = some l.items)
    (apart : (Op.sortInPlace comparator key falling).Apart functions n self k l s)
    (ordered : (Op.sortInPlace comparator key falling).twoOrders = false) :
    SameList self l k false
      ((Op.sortInPlace comparator key falling).run (Engine.ofDepth functions (n + 1)) self s)
      ((Op.sortInPlace comparator key falling).onList (Engine.ofDepth functions (n + 1)) k s) := by
  let e := Engine.ofDepth functions (n + 1)
  have sorted : (Op.sortInPlace comparator key falling).perform e self s = (do
      self.write (some "sort") (← sortItems e comparator key falling l.items (self.write (some "sort")))
      return self.value : Act Value) s := by
    subst cell
    rfl
  have listed : (Op.sortInPlace comparator key falling).onList e k s = (do
      Act.setList k (← sortItems e comparator key falling l.items (Act.setList k))
      return .nil : Act Value) s := by
    rw [← list_of_held held]
    by_cases unordered : comparator = .nil
    · subst unordered
      rfl
    · obtain rfl : key = .nil := by
        refine same_nil ?_
        by_contra keyed
        have compared : comparator.same .nil = false := by
          by_contra same
          exact unordered (same_nil (by simpa using same))
        simp [twoOrders, compared, keyed] at ordered
      cases comparator <;> first | exact absurd rfl unordered | rfl
  rw [run_unfrozen rfl (cell ▸ unfrozen), sorted, listed]
  exact sorts_like cell unfrozen typed held apart.1 apart.2

/-- What puts no values into a list comes to the same for both lists. -/
theorem Op.others_like (typed : l.collection = .collection id .array l.element)
    (held : s.heap.lists[k]? = some l.items) (changes : op.change?.isSome = true)
    (inserts : op.inserts = false) (apart : op.Apart functions n self k l s)
    (ordered : op.twoOrders = false) :
    SameList self l k op.removes (op.run (Engine.ofDepth functions (n + 1)) self s)
      (op.onList (Engine.ofDepth functions (n + 1)) k s) := by
  subst cell
  have kept (wanted : Bool) {test : Value} (calls : (Op.filterInPlace test).Apart functions n self k _ s) :
      SameList self (s.heap.checkedList self.at_) k false ((do
        self.write none (← keepIf (Engine.ofDepth functions (n + 1)) test wanted (s.heap.checkedList self.at_).items)
        return self.value : Act Value) s) (keepOnList (Engine.ofDepth functions (n + 1)) k test wanted s) :=
    keeps_like rfl unfrozen typed held calls
  cases op with
  | filterInPlace test =>
    rw [run_unfrozen rfl unfrozen]
    exact kept true apart
  | rejectInPlace test =>
    rw [run_unfrozen rfl unfrozen]
    exact kept false apart
  | sortInPlace comparator key falling => exact sort_like rfl unfrozen typed held apart ordered
  | _ => first | exact rearranges_like rfl unfrozen typed held changes inserts rfl rfl | cases changes

/-- What takes out or rearranges fails before the list is written. -/
theorem Op.others_keep {f : Fault} (changes : op.change?.isSome = true) (inserts : op.inserts = false)
    (unsorted : op.sorts = false) (apart : op.Apart functions n self k l s)
    (run : op.run (Engine.ofDepth functions (n + 1)) self s = .error f t) :
    t.heap.checkedList self.at_ = l := by
  subst cell
  obtain ⟨what, changes⟩ := Option.isSome_iff_exists.mp changes
  rw [run_unfrozen changes unfrozen] at run
  have unwritten {β : Type} {x : Act β} {items : β → List Value} {a : β → Value} {method : Option String}
      (run : (do let r ← x; self.write method (items r); return a r : Act Value) s = .error f t) :
      x.after s = t := by
    obtain failed | ⟨r, u, found, failed⟩ := Act.bind_eq_error.mp run
    · exact Act.after_of_error failed
    · obtain failed | ⟨_, _, -, failed⟩ := Act.bind_eq_error.mp failed
      · exact (Act.after_of_ok found).trans (Self.write_error failed)
      · cases failed
  have looked {β : Type} {x : Look β} {items : β → List Value} {a : β → Value} {method : Option String}
      (run : (do let r ← x; self.write method (items r); return a r : Act Value) s = .error f t) :
      t.heap.checkedList self.at_ = s.heap.checkedList self.at_ := by
    have unread : s = (liftM x : Act β).after s := Act.Leads.lift (R := Eq) x s
    rw [← unwritten run, ← unread]
  have taken {items : List Value} {a : Value} {method : Option String}
      (run : (do self.write method items; return a : Act Value) s = .error f t) : False := by
    rw [Act.bind_of_ok (Self.write_ok unfrozen)] at run
    cases run
  have tested {test a : Value} {wanted : Bool}
      (calls : ∀ v ∈ (s.heap.checkedList self.at_).items,
        ((Engine.ofDepth functions (n + 1)).call test [v] []).Leads (Session.Keeps self k))
      (run : (do
        let r ← keepIf (Engine.ofDepth functions (n + 1)) test wanted (s.heap.checkedList self.at_).items
        self.write none r
        return a : Act Value) s = .error f t) :
      t.heap.checkedList self.at_ = s.heap.checkedList self.at_ := by
    rw [← unwritten run]
    exact (keepIf_keeps calls s).checked
  cases op with
  | deleteItem index => exact looked run
  | pop index => exact looked run
  | shift => exact looked run
  | remove v => exact looked run
  | clear => exact (taken run).elim
  | reverse => exact (taken run).elim
  | filterInPlace test => exact tested apart run
  | rejectInPlace test => exact tested apart run
  | sortInPlace => cases unsorted
  | setItem | insert | append | prepend | extend | push | addInPlace => cases inserts
  | _ => cases changes

/-- A bulk that cannot be walked through is taken up by neither list. -/
theorem Op.bulk_like {e : Engine} {v : Value} {f : Fault} (held : s.heap.lists[k]? = some l.items)
    (bulk : op.bulk? = some v) (apart : isWhole v = false) (walked : v.items s = .error f t)
    (sliced : op.Sliced l.items s.heap) :
    SameList self l k op.removes (op.run e self s) (op.onList e k s) := by
  cases op with
  | extend w | addInPlace w =>
    obtain rfl := Option.some.inj bulk
    exact unwalked_like (by simp) cell unfrozen apart walked
  | setItem index w =>
    cases index with
    | slice id start stop step =>
      obtain rfl := Option.some.inj bulk
      obtain ⟨slice, sliced⟩ := sliced
      exact unwalked_slice_like cell unfrozen held apart walked sliced
    | _ => cases bulk
  | _ => cases bulk

end

/-- Texts and mappings are refused as a whole. -/
theorem Op.bulk_whole {v : Value} {d : Descriptor} (bulk : op.bulk? = some v)
    (whole : (v.isText || v.isMapping) = true) : op.matching functions n d s = .ok false s := by
  have question : askBulk functions n d v s = .ok false s := by
    cases v <;> first | rfl | cases whole
  cases op with
  | extend w | addInPlace w =>
    obtain rfl := Option.some.inj bulk
    cases w <;> first | exact question | cases whole
  | setItem index w =>
    cases index with
    | slice id start stop step =>
      obtain rfl := Option.some.inj bulk
      exact question
    | _ => cases bulk
  | _ => cases bulk

end Whole

end Writing

/-- How a change of a checked list stands to the same change of a plain list with the same items.

- `alike`: what takes out or rearranges, and what puts in values that match, comes to the same.
- `unwalked`: so does a bulk that cannot be walked through, unless it is assigned to what is no slice.
- `refused`: if a value does not match, the change is refused, whatever the place it was meant for.
- `whole`: texts and mappings count as a value that does not match, even empty ones.
- `kept`: if a change fails, then the list is as it was, unless it was being sorted. -/
structure Op.Refines (functions : Library) (n : Nat) (self : Self) (k : Handle) (l : CheckedList) (s : Session)
    (op : Op) : Prop where
  alike : op.twoOrders = false →
    (op.inserts = false ∨ ∃ t, op.matching functions n l.element s = .ok true t) →
    SameList self l k op.removes (op.run (Engine.ofDepth functions (n + 1)) self s)
      (op.onList (Engine.ofDepth functions (n + 1)) k s)
  twoOrders : op.twoOrders = true →
    op.run (Engine.ofDepth functions (n + 1)) self s = .error (.cause .twoOrders) s
  unwalked : ∀ v f t, op.bulk? = some v → isWhole v = false → v.items s = .error f t →
    op.Sliced l.items s.heap →
    SameList self l k op.removes (op.run (Engine.ofDepth functions (n + 1)) self s)
      (op.onList (Engine.ofDepth functions (n + 1)) k s)
  refused : ∀ t, op.matching functions n l.element s = .ok false t →
    ∃ f u d v operation position, op.run (Engine.ofDepth functions (n + 1)) self s = .error f u ∧
      (d = l.element ∨ d = l.collection) ∧ self.Refuses d v operation position t f u
  whole : ∀ v, op.bulk? = some v → (v.isText || v.isMapping) = true →
    op.matching functions n l.element s = .ok false s
  kept : op.sorts = false → ∀ f t, op.run (Engine.ofDepth functions (n + 1)) self s = .error f t →
    t.heap.checkedList self.at_ = l

section Booleans

/-- A list of a boolean, a frozen list of anything that holds a boolean and nil, and a plain list that holds
what the first one holds. -/
def booleanTwins : Session where
  heap := {
    checked := #[⟨[.bool true], .boolean, .collection 1 .array .boolean, false⟩,
      ⟨[.bool false, .nil], .void, .collection 2 .array .void, true⟩]
    lists := #[[.bool true]] }

abbrev oneBoolean : CheckedList :=
  ⟨[.bool true], .boolean, .collection 1 .array .boolean, false⟩

end Booleans

end CheckedList

end Conform
