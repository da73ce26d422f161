import Conform.Proofs.Course
import Mathlib.Data.List.Nodup

/-!
When deferred descriptors are resolved. A node is resolved by the first call of its thunk that answers with a
descriptor; from then on it stands for that descriptor, and its thunk is not called for it any more. A call
that fails, or that answers with what is no descriptor, is reported to whoever asked and leaves the node open.

Calls are recorded under a label. The books of a label balance as long as every call recorded under it has
resolved one of the nodes that own it. Requests that are answered keep the books balanced; one that fails may
leave them one call ahead, and then it fails with what that call gave.

Main statement: `Ledger.Obeyed.resolves_once`.
-/
namespace Conform

/-- The books of a label: the descriptors that come up in a run, the values that are called in it, and the
nodes whose thunks are recorded under the label. -/
structure Ledger where
  functions : Library
  types : Descriptor → Prop
  callees : Value → Prop
  label : String
  owned : Ident → Bool
  void : types .void
  children : ∀ {d}, types d → ∀ c ∈ d.children, types c
  predicates : ∀ {id message fn}, types (.predicate id message fn) → callees fn
  methods : ∀ {id bases predicates}, types (.constraint id bases predicates) → ∀ f ∈ predicates,
    ∀ {v w : Value} {s t}, v.attribute? f.1 s = .ok (some w) t → w.isBoundMethod → callees w
  arrays : ∀ {d}, types d → ∀ id, types (.collection id .array d)

namespace Ledger

variable (L : Ledger)

abbrev engine (n : Nat) : Engine := Engine.ofDepth L.functions n

/-- How often a thunk has been called under the label. -/
def calls (s : Session) : Nat :=
  s.calls.countP (·.name == L.label)

/-- How many of the nodes that own the label are resolved. -/
def settled (s : Session) : Nat :=
  s.resolved.countP fun e => L.owned e.1

/-- A session in which every node is resolved once at most, and only descriptors of the family have come up. -/
structure Orderly (s : Session) : Prop where
  once : (s.resolved.map (·.1)).Nodup
  resolved : ∀ {id thunk d}, L.types (.deferred id thunk) → s.resolution? id = some d → L.types d
  elements : ∀ i, L.types (s.heap.checkedList i).element ∧ L.types (s.heap.checkedList i).collection
  results : ∀ t ∈ s.transforms, L.types t.result

/-- What is resolved stays so, and every new call under the label has resolved a node, but for a number of
tries. -/
structure Balances (tries : Nat) (s t : Session) : Prop where
  resolved : ∀ id d, s.resolution? id = some d → t.resolution? id = some d
  calls : L.calls t + L.settled s = L.calls s + L.settled t + tries

/-- Whether a fault is what a call of the thunk of an owner has just failed with, or reading its answer as a
descriptor. The node was open and still is. -/
def Missed (f : Fault) (t : Session) : Prop :=
  ∃ n id thunk s, L.types (.deferred id thunk) ∧ L.owned id = true ∧ s.resolution? id = none ∧
    t.resolution? id = none ∧ Descriptor.answered (L.engine n) thunk s = .error f t

/-- A run that fails may have tried in vain once, and then reports what came of it. -/
def Fails (s : Session) (f : Fault) (t : Session) : Prop :=
  L.Balances 0 s t ∨ L.Balances 1 s t ∧ L.Missed f t

variable {L} {s t u : Session} {n : Nat} {f : Fault} {id : Ident} {thunk : Value} {d : Descriptor}

namespace Balances

theorem refl (s : Session) : L.Balances 0 s s :=
  ⟨fun _ _ h => h, rfl⟩

theorem trans {j k : Nat} (st : L.Balances j s t) (tu : L.Balances k t u) : L.Balances (j + k) s u where
  resolved id d h := tu.resolved id d (st.resolved id d h)
  calls := by
    have h₁ := st.calls
    have h₂ := tu.calls
    omega

theorem aside (resolved : t.resolved = s.resolved) (calls : t.calls = s.calls) : L.Balances 0 s t where
  resolved id d h := by simpa only [Session.resolution?, resolved] using h
  calls := by simp only [Ledger.calls, Ledger.settled, resolved, calls, Nat.add_zero]

end Balances

theorem Orderly.aside (order : L.Orderly s) (resolved : t.resolved = s.resolved)
    (elements : ∀ i, L.types (t.heap.checkedList i).element ∧ L.types (t.heap.checkedList i).collection)
    (results : ∀ r ∈ t.transforms, L.types r.result) : L.Orderly t where
  once := resolved ▸ order.once
  resolved hd h := order.resolved hd (by simpa only [Session.resolution?, resolved] using h)
  elements := elements
  results := results

theorem Orderly.setChecked (order : L.Orderly s) {i : Handle} {l : CheckedList}
    (element : l.element = (s.heap.checkedList i).element)
    (collection : l.collection = (s.heap.checkedList i).collection) :
    L.Orderly { s with heap.checked := s.heap.checked.setIfInBounds i l } := by
  refine order.aside rfl (fun j => ?_) order.results
  by_cases hi : i < s.heap.checked.size
  · rw [checkedList_set hi]
    split
    · rw [element, collection]
      exact order.elements i
    · exact order.elements j
  · rw [Array.setIfInBounds_eq_of_size_le (Nat.le_of_not_lt hi)]
    exact order.elements j

/-- The course that the books stay on. -/
def course (L : Ledger) : Course where
  inv := L.Orderly
  rel := L.Balances 0
  fail := L.Fails
  types := L.types
  callees := L.callees
  refl := .refl
  trans st tu := st.trans tu
  failing := .inl
  failed st := Or.imp st.trans fun h => ⟨(Nat.zero_add 1 ▸ st.trans h.1 :), h.2⟩
  plain order st := by
    refine ⟨.aside st.resolved st.calls, order.aside st.resolved (fun i => ?_) fun r hr => ?_⟩
    · simp only [Heap.checkedList, st.checked]
      exact order.elements i
    · exact order.results r (st.transforms ▸ hr)
  made order element collection _ := by
    refine ⟨.aside rfl rfl, order.aside rfl (fun i => ?_) order.results⟩
    rw [checkedList_push]
    split
    · exact ⟨element, collection⟩
    · exact order.elements i
  written order _ := ⟨.aside rfl rfl, order.setChecked rfl rfl⟩
  frozen order := ⟨.aside rfl rfl, order.setChecked rfl rfl⟩
  remembered order _ := ⟨.aside rfl rfl, order.aside rfl order.elements order.results⟩
  declared order results := ⟨.aside rfl rfl, order.aside rfl order.elements results⟩
  children := L.children
  predicates := L.predicates
  methods := L.methods
  elements order := order.elements
  results order := order.results
  arrays := L.arrays

/-- What a call leaves behind that resolves no owner of the label and is recorded under it a number of times. -/
structure Recorded (L : Ledger) (times : Nat) (s t : Session) : Prop where
  order : L.Orderly t
  resolved : ∀ id d, s.resolution? id = some d → t.resolution? id = some d
  owners : t.resolved.filter (fun e => L.owned e.1) = s.resolved.filter fun e => L.owned e.1
  calls : L.calls t = L.calls s + times

/-- What is assumed of the calls in a run. Whatever is called keeps the books in order, and the thunks of
other labels do. A thunk of this label is recorded with every call and resolves none of its owners. Thunks
answer within the family, and the texts of their answers can be worked out where they are traced. -/
structure Obeyed (L : Ledger) : Prop where
  calls : ∀ n {f}, L.callees f → ∀ args keywords, L.course.Keeps ((L.engine n).call f args keywords)
  others : ∀ n {id thunk}, L.types (.deferred id thunk) → L.owned id = false →
    L.course.Keeps ((L.engine n).call thunk [] [])
  own_ok : ∀ n {id thunk s v t}, L.types (.deferred id thunk) → L.owned id = true → L.Orderly s →
    (L.engine n).call thunk [] [] s = .ok v t → L.Recorded 1 s t
  own_error : ∀ n {id thunk s f t}, L.types (.deferred id thunk) → L.owned id = true → L.Orderly s →
    (L.engine n).call thunk [] [] s = .error f t → L.Recorded 0 s t ∨ L.Recorded 1 s t
  answers : ∀ n {id thunk s v t d u}, L.types (.deferred id thunk) → L.Orderly s →
    (L.engine n).call thunk [] [] s = .ok v t → Descriptor.ofValue v t = .ok d u → L.types d
  texts : ∀ n {id thunk s d u f}, L.types (.deferred id thunk) → L.owned id = true → L.Orderly s →
    Descriptor.answered (L.engine n) thunk s = .ok d u → u.level ≤ Logging.Severity.debug.rank →
    d.describe u.heap ≠ .error f

namespace Recorded

variable {k : Nat}

theorem settled (noted : L.Recorded k s t) : L.settled t = L.settled s := by
  simp only [Ledger.settled, List.countP_eq_length_filter, noted.owners]

theorem balances (noted : L.Recorded k s t) : L.Balances k s t where
  resolved := noted.resolved
  calls := by
    have h₁ := noted.calls
    have h₂ := noted.settled
    omega

/-- An owner is open after the call if it was before. -/
theorem resolution? (noted : L.Recorded k s t) (own : L.owned id = true) :
    t.resolution? id = s.resolution? id := by
  have among (u : Session) :
      u.resolved.find? (·.1 == id) = (u.resolved.filter fun e => L.owned e.1).find? (·.1 == id) := by
    rw [List.find?_filter]
    refine congrArg (u.resolved.find? ·) (funext fun e => ?_)
    by_cases h : e.1 = id
    · simp [h, own]
    · simp [h]
  simp only [Session.resolution?, among, noted.owners]

theorem plainly (noted : L.Recorded k s t) (tu : t.Plainly u) : L.Recorded k s u where
  order := (L.course.plain noted.order tu).2
  resolved id d h := by
    have h := noted.resolved id d h
    simpa only [Session.resolution?, tu.resolved] using h
  owners := tu.resolved ▸ noted.owners
  calls := by
    have h := noted.calls
    simpa only [Ledger.calls, tu.calls] using h

end Recorded

/-- An open node that is resolved to a descriptor of the family. -/
theorem Orderly.append (order : L.Orderly s) (unresolved : s.resolution? id = none) (hd : L.types d)
    (log : List String) : L.Orderly { s with log, resolved := s.resolved ++ [(id, d)] } where
  once := by
    have absent : ∀ e ∈ s.resolved, e.1 ≠ id := by simpa using find?_of_open unresolved
    have once := order.once
    simp only [List.map_append, List.nodup_append, List.map_cons, List.map_nil]
    refine ⟨once, by simp, ?_⟩
    simpa using absent
  resolved {id' thunk d'} hd' h := by
    rw [resolution?_append unresolved] at h
    split at h
    · cases h
      exact hd
    · exact order.resolved hd' h
  elements := order.elements
  results := order.results

theorem append_settled (L : Ledger) (s : Session) (id : Ident) (d : Descriptor) (log : List String) :
    L.settled { s with log, resolved := s.resolved ++ [(id, d)] } =
      L.settled s + if L.owned id then 1 else 0 := by
  simp only [settled, List.countP_append, List.countP_singleton]

namespace Obeyed

variable (obeyed : L.Obeyed)

include obeyed

section

variable (node : L.types (.deferred id thunk))
include node

/-- Resolving an owner that is open takes one call of its thunk. -/
theorem resolve_own (own : L.owned id = true) (order : L.Orderly s) (unresolved : s.resolution? id = none)
    (run : Descriptor.resolve (L.engine n) id thunk s = .ok d u) :
    (L.Balances 0 s u ∧ L.Orderly u) ∧ L.types d ∧ L.calls u = L.calls s + 1 ∧ u.resolution? id = some d := by
  obtain ⟨resolved, -⟩ | ⟨-, d', t, answer, rest⟩ := resolve_cases run
  · cases unresolved.symm.trans resolved
  obtain ⟨v, t₀, called, read⟩ := Act.bind_eq_ok.mp answer
  have hd := obeyed.answers n node order called read
  have noted := (obeyed.own_ok n node own order called).plainly ((ofValue_plain (r := .all) v).leads.ok read)
  have stillOpen : t.resolution? id = none := (noted.resolution? own).trans unresolved
  obtain ⟨resolved, -⟩ | ⟨-, rfl, log, rfl⟩ := rest
  · cases stillOpen.symm.trans resolved
  have calls := noted.calls
  have settled := noted.settled
  have more := append_settled L t id d log
  rw [own, if_pos rfl] at more
  refine ⟨⟨⟨fun id' e h => append_resolved stillOpen id' (noted.resolved id' e h), ?_⟩,
    noted.order.append stillOpen hd log⟩, hd, calls, ?_⟩
  · change L.calls t + _ = _
    omega
  · rw [resolution?_append stillOpen, if_pos rfl]

theorem answered_error (own : L.owned id = true) (order : L.Orderly s)
    (failed : Descriptor.answered (L.engine n) thunk s = .error f u) :
    L.Recorded 0 s u ∨ L.Recorded 1 s u := by
  obtain called | ⟨v, t, called, read⟩ := Act.bind_eq_error.mp failed
  · exact obeyed.own_error n node own order called
  · exact .inr ((obeyed.own_ok n node own order called).plainly ((ofValue_plain (r := .all) v).leads.error read))

theorem resolve_own_error (own : L.owned id = true) (order : L.Orderly s)
    (run : Descriptor.resolve (L.engine n) id thunk s = .error f u) : L.Fails s f u ∧ L.Orderly u := by
  obtain ⟨unresolved, failed | ⟨d, answer, level, described⟩⟩ := resolve_fails run
  · obtain noted | noted := obeyed.answered_error node own order failed
    · exact ⟨.inl noted.balances, noted.order⟩
    · have stillOpen := (noted.resolution? own).trans unresolved
      exact ⟨.inr ⟨noted.balances, n, id, thunk, s, node, own, unresolved, stillOpen, failed⟩, noted.order⟩
  · exact absurd described (obeyed.texts n node own order answer level)

theorem answered_other (other : L.owned id = false) :
    L.course.Keeps (Descriptor.answered (L.engine n) thunk) :=
  .bind (obeyed.others n node other) fun v => .plain (ofValue_plain v)

theorem resolve_other (other : L.owned id = false) (order : L.Orderly s)
    (run : Descriptor.resolve (L.engine n) id thunk s = .ok d u) :
    (L.Balances 0 s u ∧ L.Orderly u) ∧ L.types d := by
  obtain ⟨resolved, rfl⟩ | ⟨-, d', t, answer, rest⟩ := resolve_cases run
  · exact ⟨⟨.refl u, order⟩, order.resolved node resolved⟩
  obtain ⟨v, t₀, called, read⟩ := Act.bind_eq_ok.mp answer
  have hd := obeyed.answers n node order called read
  have st := (obeyed.answered_other node other).ok order answer
  obtain ⟨resolved, rfl⟩ | ⟨unresolved, rfl, log, rfl⟩ := rest
  · exact ⟨st, st.2.resolved node resolved⟩
  · have more := append_settled L t id d log
    have calls := st.1.calls
    refine ⟨⟨⟨fun id' e h => append_resolved unresolved id' (st.1.resolved id' e h), ?_⟩,
      st.2.append unresolved hd log⟩, hd⟩
    rw [more, other]
    exact calls

theorem resolve_other_error (other : L.owned id = false) (order : L.Orderly s)
    (run : Descriptor.resolve (L.engine n) id thunk s = .error f u) : L.Fails s f u ∧ L.Orderly u := by
  obtain ⟨-, failed | ⟨d, answer, -⟩⟩ := resolve_fails run
  · exact (obeyed.answered_other node other).error order failed
  · have st := (obeyed.answered_other node other).ok order answer
    exact ⟨.inl st.1, st.2⟩

theorem resolve_ok (order : L.Orderly s) (run : Descriptor.resolve (L.engine n) id thunk s = .ok d u) :
    (L.Balances 0 s u ∧ L.Orderly u) ∧ L.types d := by
  cases own : L.owned id with
  | false => exact obeyed.resolve_other node own order run
  | true =>
    cases unresolved : s.resolution? id with
    | some d' =>
      rw [resolve_of_resolved unresolved] at run
      cases run
      exact ⟨⟨.refl s, order⟩, order.resolved node unresolved⟩
    | none =>
      obtain ⟨st, hd, -⟩ := obeyed.resolve_own node own order unresolved run
      exact ⟨st, hd⟩

end

/-- Matching and comparing keep the books, at every depth. -/
theorem kept (n : Nat) : L.course.Kept (L.engine n) := by
  have resolve (n : Nat) {id : Ident} {thunk : Value} (node : L.types (.deferred id thunk)) :
      L.course.Keeps (Descriptor.resolve (L.engine n) id thunk) := by
    refine .mk (fun s d t order run => (obeyed.resolve_ok node order run).1) fun s f t order run => ?_
    cases own : L.owned id with
    | false => exact obeyed.resolve_other_error node own order run
    | true => exact obeyed.resolve_own_error node own order run
  have target (n : Nat) {id : Ident} {thunk : Value} (node : L.types (.deferred id thunk)) {s : Session}
      {d : Descriptor} {t : Session} (order : L.Orderly s)
      (run : Descriptor.resolve (L.engine n) id thunk s = .ok d t) : L.types d :=
    (obeyed.resolve_ok node order run).2
  exact .ofDepth obeyed.calls resolve target n

end Obeyed

end Ledger

/-- What the library is asked for. -/
inductive Request where
  | accepts (d : Descriptor) (v : Value)
  | subtype (a b : Descriptor)
  | resolve (id : Ident) (thunk : Value)
  | describe (d : Descriptor)
  | equal (v w : Value)
  | build (c : Class) (values element : Value)
  | operate (self : CheckedList.Self) (op : CheckedList.Op)

def Request.run (e : Engine) : Request → Act Value
  | .accepts d v => do return .bool (← e.accepts d v)
  | .subtype a b => do return .bool (← e.subtype a b)
  | .resolve id thunk => do return .descriptor (← Descriptor.resolve e id thunk)
  | .describe d => do Act.newStr (← d.describe)
  | .equal v w => v.equal w
  | .build c values element => CheckedList.construct e c values element
  | .operate self op => op.run e self

namespace Course

variable {W : Course} {e : Engine} {r : Request}

/-- Whether a request is about descriptors that come up, and calls what may be called. -/
def Fits (W : Course) : Request → Prop
  | .accepts d _ => W.types d
  | .subtype a b => W.types a ∧ W.types b
  | .resolve id thunk => W.types (.deferred id thunk)
  | .describe _ | .equal .. => True
  | .build _ _ element => W.Reads element
  | .operate _ op => (∀ f ∈ op.callees, W.callees f) ∧ ∀ v ∈ op.element?, W.Reads v

theorem Kept.request (kept : W.Kept e) (fits : W.Fits r) : W.Keeps (r.run e) := by
  cases r with
  | accepts d v => exact .bind (kept.accepts fits v) fun _ => .pure _
  | subtype a b => exact .bind (kept.subtype fits.1 fits.2) fun _ => .pure _
  | resolve id thunk => exact .bind (kept.resolve fits) fun _ => .pure _
  | describe d => exact .bind (.lift _) fun _ => .plain (.newStr _)
  | equal v w => exact .lift _
  | build c values element => exact kept.construct c values fits
  | operate self op => exact kept.operate (fun _ => trivial) (fun _ => id) (.of_reach rfl rfl) fits.1 fits.2

end Course

namespace Ledger

variable {L : Ledger} {s t u : Session} {n : Nat} {r : Request}

/-- Whether a request is about descriptors of the family, and calls what may be called. -/
def Fits (L : Ledger) : Request → Prop
  | .accepts d _ => L.types d
  | .subtype a b => L.types a ∧ L.types b
  | .resolve id thunk => L.types (.deferred id thunk)
  | .describe _ | .equal .. => True
  | .build _ _ element => L.course.Reads element
  | .operate _ op => (∀ f ∈ op.callees, L.callees f) ∧ ∀ v ∈ op.element?, L.course.Reads v

/-- One request after the other, each to its own depth, and whether it is answered or fails. -/
inductive Run (L : Ledger) : Session → Session → Prop
  | start (s : Session) : L.Run s s
  | ask {s t : Session} {n : Nat} {r : Request} : L.Run s t → L.Fits r → L.Run s ((r.run (L.engine n)).after t)

theorem Obeyed.request (obeyed : L.Obeyed) (fits : L.Fits r) : L.course.Keeps (r.run (L.engine n)) := by
  apply (obeyed.kept n).request
  cases r <;> exact fits

theorem Obeyed.run (obeyed : L.Obeyed) (order : L.Orderly s) (run : L.Run s t) :
    L.Orderly t ∧ ∃ tries, L.Balances tries s t := by
  induction run with
  | start => exact ⟨order, 0, .refl s⟩
  | @ask u n r _ fits ih =>
    obtain ⟨orderly, tries, balances⟩ := ih
    cases asked : r.run (L.engine n) u with
    | ok v w =>
      have uw := (obeyed.request fits).ok orderly asked
      rw [Act.after_of_ok asked]
      exact ⟨uw.2, tries + 0, balances.trans uw.1⟩
    | error f w =>
      have uw := (obeyed.request fits).error orderly asked
      rw [Act.after_of_error asked]
      obtain even | ⟨ahead, -⟩ := uw.1
      · exact ⟨uw.2, tries + 0, balances.trans even⟩
      · exact ⟨uw.2, tries + 1, balances.trans ahead⟩

/-- A thunk is not tried in vain once its only owner is resolved. -/
theorem Obeyed.run_resolved (obeyed : L.Obeyed) (order : L.Orderly s) (run : L.Run s t) {id : Ident}
    {d : Descriptor} (sole : ∀ id', L.owned id' = true → id' = id) (resolved : s.resolution? id = some d) :
    L.Balances 0 s t := by
  induction run with
  | start => exact .refl s
  | @ask u n r run fits ih =>
    have orderly := (obeyed.run order run).1
    refine ih.trans (k := 0) ?_
    cases asked : r.run (L.engine n) u with
    | ok v w =>
      rw [Act.after_of_ok asked]
      exact ((obeyed.request fits).ok orderly asked).1
    | error f w =>
      rw [Act.after_of_error asked]
      obtain even | ⟨ahead, m, id', thunk, u', -, own, -, unresolved, -⟩ :=
        ((obeyed.request fits).error orderly asked).1
      · exact even
      · have known := ahead.resolved id d (ih.resolved id d resolved)
        rw [sole id' own, known] at unresolved
        cases unresolved

theorem Orderly.settled_eq_one (order : L.Orderly s) {id : Ident} {d : Descriptor}
    (sole : ∀ id', L.owned id' = true ↔ id' = id) (resolved : s.resolution? id = some d) :
    L.settled s = 1 := by
  obtain ⟨entry, found, rfl⟩ := Option.map_eq_some_iff.mp resolved
  have key : entry.1 = id := by simpa using List.find?_some found
  have listed : id ∈ s.resolved.map (·.1) := key ▸ List.mem_map_of_mem (List.mem_of_find?_eq_some found)
  have counted : L.settled s = (s.resolved.map (·.1)).count id := by
    simp only [settled, List.count, List.countP_map]
    refine List.countP_congr fun e _ => ?_
    simp [sole]
  rw [counted]
  exact List.count_eq_one_of_mem order.once listed

/-- Deferred descriptors are resolved lazily, once and for good.

At every moment of a run: what was resolved before still is, to the same descriptor, it answers without a look
at its thunk, and if the thunk belongs to this node only, then it has not been called since. Whatever is asked
next: if it is answered, every call of the thunk has resolved a node; if it fails, then there may have been
one more call, and the failure is what came of that call. An open node whose thunk fails, or answers with an
annotation, stays open and passes the failure on, from matching and from both sides of a comparison; whenever
an open node is resolved, its thunk has been called for it. Texts and equality leave everything as it is. -/
theorem Obeyed.resolves_once (obeyed : L.Obeyed) (order : L.Orderly s) (run : L.Run s t) :
    (∀ id thunk d, s.resolution? id = some d →
      t.resolution? id = some d ∧ (∀ e, Descriptor.resolve e id thunk t = .ok d t) ∧
        ((∀ id', L.owned id' = true ↔ id' = id) → L.calls t = L.calls s)) ∧
    (∀ n r, L.Fits r →
      match r.run (L.engine n) t with
      | .ok _ u => L.Balances 0 t u
      | .error f u => L.Balances 0 t u ∨ L.Balances 1 t u ∧ L.Missed f u) ∧
    (∀ n id thunk, L.types (.deferred id thunk) → L.owned id = true → t.resolution? id = none →
      (∀ f u, Descriptor.answered (L.engine n) thunk t = .error f u →
        u.resolution? id = none ∧ Descriptor.resolve (L.engine n) id thunk t = .error f u ∧
        (∀ v, (L.engine (n + 1)).accepts (.deferred id thunk) v t = .error f u) ∧
        (∀ b, b.same (.deferred id thunk) = false →
          (L.engine (n + 1)).subtype (.deferred id thunk) b t = .error f u) ∧
        (∀ a, a ≠ .never → (∀ id' thunk', a ≠ .deferred id' thunk') →
          (L.engine (n + 1)).subtype a (.deferred id thunk) t = .error f u)) ∧
      (∀ hint u, (L.engine n).call thunk [] [] t = .ok (.typeHint hint) u →
        Descriptor.answered (L.engine n) thunk t = .error (.cause (.hintGiven (hintShown hint))) u ∧
          (Cause.hintGiven (hintShown hint)).kind = .configurationError) ∧
      (∀ d u, Descriptor.resolve (L.engine n) id thunk t = .ok d u →
        L.calls u = L.calls t + 1 ∧ u.resolution? id = some d)) ∧
    (∀ d : Descriptor, (liftM d.describe : Act String).after t = t) ∧
    (∀ v w : Value, (liftM (v.equal w) : Act Value).after t = t) := by
  obtain ⟨orderly, tries, balances⟩ := obeyed.run order run
  refine ⟨fun id thunk d resolved => ?_, fun n r fits => ?_, fun n id thunk node own unresolved => ?_, ?_, ?_⟩
  · have known := balances.resolved id d resolved
    refine ⟨known, fun e => resolve_of_resolved known, fun sole => ?_⟩
    have even := (obeyed.run_resolved order run (fun id' own => (sole id').mp own) resolved).calls
    rw [order.settled_eq_one sole resolved, orderly.settled_eq_one sole known] at even
    omega
  · split
    · next asked => exact ((obeyed.request fits).ok orderly asked).1
    · next asked => exact ((obeyed.request fits).error orderly asked).1
  · refine ⟨fun f u failed => ?_, fun hint u called => ?_, fun d u ran => ?_⟩
    · have passed := resolve_of_error unresolved failed
      refine ⟨?_, passed, fun v => Act.bind_of_error passed, fun b different => ?_, fun a bottom deferred => ?_⟩
      · obtain noted | noted := obeyed.answered_error node own orderly failed
        all_goals exact (noted.resolution? own).trans unresolved
      · change (if b.same (.deferred id thunk) then _ else _ : Act Bool) t = _
        rw [if_neg (by simp [different])]
        exact Act.bind_of_error passed
      · cases a with
        | never => exact absurd rfl bottom
        | deferred id' thunk' => exact absurd rfl (deferred id' thunk')
        | _ => exact Act.bind_of_error passed
    · exact ⟨Act.bind_of_ok called, rfl⟩
    · obtain ⟨-, -, called, resolved⟩ := obeyed.resolve_own node own orderly unresolved ran
      exact ⟨called, resolved⟩
  · intro d
    exact (Act.Leads.lift (R := (· = ·)) d.describe t).symm
  · intro v w
    exact (Act.Leads.lift (R := (· = ·)) (v.equal w) t).symm

section Trees

/-- A thunk that answers with the arrays of its own node. -/
def treeThunk : Value :=
  .fn { name := "tree", traced := true, bare := false }

def tree : Descriptor :=
  .deferred 1 treeThunk

def grove : Descriptor :=
  .collection 2 .array tree

inductive Arboreal : Descriptor → Prop
  | void : Arboreal .void
  | tree : Arboreal tree
  | array {d : Descriptor} (id : Ident) : Arboreal d → Arboreal (.collection id .array d)

/-- The books of a descriptor that stands for the arrays of itself. -/
def trees : Ledger where
  functions _ _ _ _ := return .descriptor grove
  types := Arboreal
  callees _ := False
  label := "tree"
  owned id := id == 1
  void := .void
  children h c hc := by
    cases h with
    | array id hd => exact List.mem_singleton.mp hc ▸ hd
    | _ => cases hc
  predicates := nofun
  methods := nofun
  arrays h id := .array id h

theorem trees_call {n : Nat} {s : Session} :
    (trees.engine (n + 1)).call treeThunk [] [] s =
      .ok (.descriptor grove) { s with calls := s.calls ++ [⟨"tree", [], []⟩] } :=
  rfl

theorem trees_answered {n : Nat} {s : Session} :
    Descriptor.answered (trees.engine (n + 1)) treeThunk s =
      .ok grove { s with calls := s.calls ++ [⟨"tree", [], []⟩] } :=
  rfl

theorem trees_recorded {s : Session} (order : trees.Orderly s) :
    trees.Recorded 1 s { s with calls := s.calls ++ [⟨"tree", [], []⟩] } where
  order := order.aside rfl order.elements order.results
  resolved _ _ h := h
  owners := rfl
  calls := by simp [calls, trees]

theorem trees_obeyed : trees.Obeyed where
  calls _ _ h := h.elim
  others _ _ _ h other := by
    cases h
    cases other
  own_ok n _ _ _ _ _ h _ order run := by
    cases h
    cases n with
    | zero => cases run
    | succ n =>
      rw [trees_call] at run
      cases run
      exact trees_recorded order
  own_error n _ _ _ _ _ h _ order run := by
    cases h
    cases n with
    | zero =>
      cases run
      exact .inl ⟨order, fun _ _ h => h, rfl, rfl⟩
    | succ n =>
      rw [trees_call] at run
      cases run
  answers n _ _ _ _ _ _ _ h order run read := by
    cases h
    cases n with
    | zero => cases run
    | succ n =>
      rw [trees_call] at run
      cases run
      cases read
      exact .array 2 .tree
  texts n _ _ _ _ _ _ h _ order run _ := by
    cases h
    cases n with
    | zero => cases run
    | succ n =>
      rw [trees_answered] at run
      cases run
      have described (h : Heap) : grove.describe h = .ok "ArrayOf(Deferred)" := rfl
      rw [described]
      nofun

/-- Two nested lists are matched one after the other: the thunk of the tree is called for the first one only,
though the tree occurs at every level. -/
theorem trees_resolved_once :
    let nested : Request := .accepts tree (.list .base 1)
    let start : Session := { heap := { lists := #[[], [.list .base 0]] } }
    let first := (nested.run (trees.engine 9)).after start
    let second := (nested.run (trees.engine 9)).after first
    first.resolution? 1 = some grove ∧ trees.calls first = 1 ∧ second.resolution? 1 = some grove ∧
      trees.calls second = 1 := by
  intro nested start first second
  have order : trees.Orderly start :=
    ⟨by simp [start], nofun, fun i => ⟨.void, .void⟩, nofun⟩
  have fits : trees.Fits nested := Arboreal.tree
  have once : first.resolution? 1 = some grove := rfl
  have called : trees.calls first = 1 := rfl
  have orderly : trees.Orderly first := (trees_obeyed.run order (.ask (.start start) fits)).1
  obtain ⟨stays, -, quiet⟩ :=
    (trees_obeyed.resolves_once orderly (.ask (.start first) fits)).1 1 treeThunk grove once
  exact ⟨once, called, stays, (quiet (by simp [trees])).trans called⟩

end Trees

end Ledger

end Conform
