import Conform.Calling
import Conform.Proofs.Judgement
import Conform.Proofs.Reading

/-!
A history of a session. One moment is before another if what the heap held is still there, unchanged,
and what was resolved is still resolved to the same. An action is quiet if it leads from a sound moment
to a later sound one.

How tracing a line, looking up ancestors and resolving a deferred descriptor may end is said once, by
`trace_ends`, `ancestors_ends`, `resolve_cases` and `resolve_fails`.

Matching and subtyping are quiet as soon as the calls they make are: the thunks of deferred descriptors,
predicates, and reads of attributes. Main statements: `Tame.accepts_quiet`, `Tame.subtype_quiet`.
-/
namespace Conform

/-- What a deferred descriptor resolved to. -/
def Session.resolution? (s : Session) (id : Ident) : Option Descriptor :=
  (s.resolved.find? (·.1 == id)).map (·.2)

/-- Whether a moment comes before another one of its history. -/
structure Session.Before (s t : Session) : Prop where
  heap : s.heap.Extends t.heap
  resolved : ∀ id d, s.resolution? id = some d → t.resolution? id = some d

namespace Session.Before

theorem refl (s : Session) : s.Before s :=
  ⟨.refl _, fun _ _ h => h⟩

theorem trans {s t u : Session} (st : s.Before t) (tu : t.Before u) : s.Before u :=
  ⟨st.heap.trans tu.heap, fun id d h => tu.resolved id d (st.resolved id d h)⟩

theorem live {s t : Session} (st : s.Before t) {v : Value} (lv : v.Live s.heap) : v.Live t.heap :=
  Value.Live.grow st.heap v lv

end Session.Before

theorem Descriptor.Live.child {h : Heap} {d c : Descriptor} (live : d.Live h) (hc : c ∈ d.children) :
    c.Live h := by
  cases d <;> simp only [Descriptor.Live, Descriptor.children, liveTypes_iff, liveNamed_iff,
    List.mem_append, List.mem_map, List.mem_cons, List.not_mem_nil, or_false] at live hc
  case constraint =>
    obtain hc | ⟨f, hf, rfl⟩ := hc
    · exact live.1 c hc
    · exact live.2 f hf
  case shape =>
    obtain ⟨f, hf, rfl⟩ := hc
    exact live f hf
  case mappingOf =>
    obtain rfl | rfl := hc
    · exact live.1
    · exact live.2
  all_goals first | exact live c hc | exact hc ▸ live

/-- A session in which everything can be relied on: the heap is closed, remembered ancestors are right,
and the descriptors that matching can come by (what the deferred ones resolved to, the element types of
checked lists) are in the family. -/
structure Session.Sound (D : Descriptor → Prop) (s : Session) : Prop where
  closed : s.heap.Closed
  ancestors : ∀ e ∈ s.ancestors, e.2 = e.1.mro
  resolved : ∀ id thunk d, D (.deferred id thunk) → s.resolution? id = some d →
    D d ∧ d.Live s.heap
  elements : ∀ i, D (s.heap.checkedList i).element

/-- A step that leads from a sound moment to a later sound one. -/
def Session.Quietly (D : Descriptor → Prop) (s t : Session) : Prop :=
  s.Sound D → s.Before t ∧ t.Sound D

instance {D : Descriptor → Prop} : IsPreorder Session (Session.Quietly D) where
  refl s sound := ⟨.refl s, sound⟩
  trans _ _ _ st tu sound :=
    have first := st sound
    have second := tu first.2
    ⟨first.1.trans second.1, second.2⟩

/-- An action that leads from sound moments to later sound ones. -/
abbrev Act.Quiet {α : Type} (D : Descriptor → Prop) (x : Act α) : Prop :=
  x.Leads (Session.Quietly D)

namespace Act.Quiet

variable {α β : Type} {D : Descriptor → Prop}

/-- An action that goes on with what another one answers. -/
theorem andThen {x : Act α} {f : α → Act β} (hx : x.Quiet D)
    (hf : ∀ s a t, s.Sound D → x s = .ok a t → (f a).Quiet D) : (x >>= f).Quiet D := by
  refine .mk (fun s b u run sound => ?_) (fun s e u run sound => ?_)
  · obtain ⟨a, t, first, run⟩ := Act.bind_eq_ok.mp run
    obtain ⟨st, soundt⟩ := hx.ok first sound
    obtain ⟨tu, soundu⟩ := (hf s a t sound first).ok run soundt
    exact ⟨st.trans tu, soundu⟩
  · obtain first | ⟨a, t, first, run⟩ := Act.bind_eq_error.mp run
    · exact hx.error first sound
    · obtain ⟨st, soundt⟩ := hx.ok first sound
      obtain ⟨tu, soundu⟩ := (hf s a t sound first).error run soundt
      exact ⟨st.trans tu, soundu⟩

/-- A change of the records that nothing is read from. -/
theorem aside {f : Session → Session} (heap : ∀ s, (f s).heap = s.heap)
    (resolved : ∀ s, (f s).resolved = s.resolved)
    (ancestors : ∀ s, (∀ e ∈ s.ancestors, e.2 = e.1.mro) → ∀ e ∈ (f s).ancestors, e.2 = e.1.mro) :
    (modify f : Act PUnit).Quiet D := by
  refine .modify fun s sound => ?_
  have same (id : Ident) : (f s).resolution? id = s.resolution? id := by
    simp only [Session.resolution?, resolved]
  refine ⟨⟨by rw [heap]; exact .refl _, fun id d h => by rw [same]; exact h⟩, ?_⟩
  exact {
    closed := by rw [heap]; exact sound.closed
    ancestors := ancestors s sound.ancestors
    resolved := fun id thunk d hd h => by rw [heap]; exact sound.resolved id thunk d hd (same id ▸ h)
    elements := by rw [heap]; exact sound.elements }

end Act.Quiet

section Quiet

variable {D : Descriptor → Prop}

variable {s t : Session}

/-- A trace line is passed over, kept or given up. -/
theorem trace_ends (message : Look String) (s : Session) :
    ((s.level ≤ Logging.Severity.debug.rank → ∃ text, message s.heap = .ok text) ∧
      ∃ log, Logging.trace message s = .ok () { s with log }) ∨
    s.level ≤ Logging.Severity.debug.rank ∧ ∃ f, message s.heap = .error f ∧ Logging.trace message s = .error f s := by
  have asked : (get : Act Session) s = .ok s s := rfl
  by_cases low : s.level ≤ Logging.Severity.debug.rank
  · rw [Logging.trace, Act.bind_of_ok asked, if_pos low]
    cases worked : message s.heap with
    | ok text =>
      have told : (liftM message : Act String) s = .ok text s := Act.lift_eq_ok.mpr ⟨worked, rfl⟩
      refine .inl ⟨fun _ => ⟨text, rfl⟩, s.log ++ [Logging.line .debug ("TRACE " ++ text)], ?_⟩
      rw [Act.bind_of_ok told, Logging.record, Act.modify_eq_ok, if_pos low]
    | error f =>
      have failed : (liftM message : Act String) s = .error f s := Act.lift_eq_error.mpr ⟨worked, rfl⟩
      exact .inr ⟨low, f, rfl, Act.bind_of_error failed⟩
  · rw [Logging.trace, Act.bind_of_ok asked, if_neg low]
    exact .inl ⟨fun low' => absurd low' low, s.log, rfl⟩

theorem trace_ok {message : Look String} {a : Unit} (run : Logging.trace message s = .ok a t) :
    ∃ log, t = { s with log } := by
  obtain ⟨-, log, ended⟩ | ⟨-, f, -, ended⟩ := trace_ends message s
  · cases run.symm.trans ended
    exact ⟨log, rfl⟩
  · cases run.symm.trans ended

/-- A trace line fails only if its text cannot be worked out. -/
theorem trace_error {message : Look String} {f : Fault} (run : Logging.trace message s = .error f t) :
    message s.heap = .error f ∧ t = s := by
  obtain ⟨-, log, ended⟩ | ⟨-, f', failed, ended⟩ := trace_ends message s
  · cases run.symm.trans ended
  · cases run.symm.trans ended
    exact ⟨failed, rfl⟩

/-- A text that can be worked out can be traced. -/
theorem trace_answers (message : Look String) {text : String} (words : message s.heap = .ok text) :
    ∃ log, Logging.trace message s = .ok () { s with log } := by
  obtain ⟨-, written⟩ | ⟨-, f, failed, -⟩ := trace_ends message s
  · exact written
  · cases words.symm.trans failed

theorem record_quiet (severity : Logging.Severity) (message : String) :
    (Logging.record severity message).Quiet D := by
  refine Act.Quiet.aside (fun s => ?_) (fun s => ?_) (fun s hs => ?_)
  all_goals split
  all_goals first | rfl | exact hs

theorem trace_quiet (message : Look String) : (Logging.trace message).Quiet D :=
  .bind .get fun _ => .ite (.bind (.lift _) fun _ => record_quiet _ _) (.pure _)

/-- Whether a class is another class or derives from it, as class checks answer. -/
def Class.under (b c : Class) : Bool :=
  b.mro.contains c || (match b.isSubclass c with | .ok answer => answer | .error _ => false)

/-- Whether a value is a class that is another or derives from it, as class checks answer. -/
def Value.isUnder (v : Value) (c : Class) : Bool :=
  match v with
  | .cls k => k.under c
  | _ => false

/-- Whether a value is an instance of a class, as class checks answer. -/
def Value.isOf (v : Value) (c : Class) : Bool :=
  v.classOf == c || v.classOf.mro.contains c ||
    (match v.classOf.isInstance c with | .ok answer => answer | .error _ => false)

theorem ancestors_append (known : ∀ e ∈ s.ancestors, e.2 = e.1.mro) (c : Class) :
    ∀ e ∈ s.ancestors ++ [(c, c.mro)], e.2 = e.1.mro :=
  List.forall_mem_append.mpr ⟨known, List.forall_mem_singleton.mpr rfl⟩

/-- The ancestors of a class are remembered, or they are worked out and remembered from now on. -/
theorem ancestors_ends (c : Class) (s : Session) :
    (∃ entry, s.ancestors.find? (·.1 == c) = some entry ∧ Nominal.ancestors c s = .ok entry.2 s) ∨
    s.ancestors.find? (·.1 == c) = none ∧
      ∃ log, Nominal.ancestors c s = .ok c.mro { s with log, ancestors := s.ancestors ++ [(c, c.mro)] } := by
  have asked : (get : Act Session) s = .ok s s := rfl
  rw [Nominal.ancestors, Act.bind_of_ok asked]
  cases found : s.ancestors.find? (·.1 == c) with
  | some entry => exact .inl ⟨entry, rfl, rfl⟩
  | none =>
    obtain ⟨log, traced⟩ := trace_answers (s := s)
      (return "type_utils.get_cached_mro_set: Cache miss for " ++ c.shown ++ ". Calculating MRO.") rfl
    exact .inr ⟨rfl, log, Act.bind_of_ok traced⟩

theorem ancestors_quiet (c : Class) : (Nominal.ancestors c).Quiet D := by
  refine .bind .get fun s => ?_
  split
  · exact .pure _
  · refine .bind (trace_quiet _) fun _ => .bind (Act.Quiet.aside ?_ ?_ ?_) fun _ => .pure _
    · exact fun _ => rfl
    · exact fun _ => rfl
    · exact fun _ known => ancestors_append known c

theorem ancestors_ok (sound : s.Sound D) {c : Class} {known : List Class}
    (run : Nominal.ancestors c s = .ok known t) : known = c.mro := by
  obtain ⟨entry, found, ended⟩ | ⟨-, log, ended⟩ := ancestors_ends c s
  · cases run.symm.trans ended
    have key : entry.1 = c := by simpa using List.find?_some found
    exact key ▸ sound.ancestors entry (List.mem_of_find?_eq_some found)
  · cases run.symm.trans ended
    rfl

theorem isInstance_quiet (v : Value) (c : Class) : (Nominal.isInstance v c).Quiet D := by
  refine .ite (.pure true) (.bind (ancestors_quiet _) fun known => .ite (.pure true) ?_)
  split
  · exact .pure _
  · exact .bind (trace_quiet _) fun _ => .pure _

theorem isInstance_ok (sound : s.Sound D) {v : Value} {c : Class} {b : Bool}
    (run : Nominal.isInstance v c s = .ok b t) : b = v.isOf c := by
  unfold Nominal.isInstance at run
  split at run
  · next hc =>
    obtain ⟨rfl, -⟩ := Act.pure_eq_ok.mp run
    simp [Value.isOf, hc]
  · next hc =>
    obtain ⟨known, u, look, run⟩ := Act.bind_eq_ok.mp run
    obtain rfl := ancestors_ok sound look
    split at run
    · next hm =>
      obtain ⟨rfl, -⟩ := Act.pure_eq_ok.mp run
      simp only [Value.isOf, hm, Bool.or_true, Bool.true_or]
    · next hm =>
      simp only [Value.isOf, hc, hm, Bool.false_or]
      cases hv : v.classOf.isInstance c with
      | ok answer =>
        simp only [hv, Act.pure_eq_ok] at run
        exact run.1.symm
      | error refusal =>
        simp only [hv, Act.bind_eq_ok, Act.pure_eq_ok] at run
        obtain ⟨_, _, _, rfl, _⟩ := run
        rfl

theorem isSubclass_quiet (v : Value) (c : Class) : (Nominal.isSubclass v c).Quiet D := by
  cases v with
  | cls k =>
    refine .bind (ancestors_quiet k) fun known => .ite (.pure true) ?_
    split <;> exact .pure _
  | _ => exact .pure false

theorem isSubclass_ok (sound : s.Sound D) {v : Value} {c : Class} {b : Bool}
    (run : Nominal.isSubclass v c s = .ok b t) : b = v.isUnder c := by
  cases v with
  | cls k =>
    change b = k.under c
    obtain ⟨known, u, look, run⟩ := Act.bind_eq_ok.mp run
    obtain rfl := ancestors_ok sound look
    split at run
    · next hm =>
      obtain ⟨rfl, -⟩ := Act.pure_eq_ok.mp run
      simp only [Class.under, hm, Bool.true_or]
    · next hm =>
      simp only [Class.under, hm, Bool.false_or]
      cases hk : k.isSubclass c with
      | ok answer =>
        simp only [hk, Act.pure_eq_ok] at run
        exact run.1.symm
      | error refusal =>
        simp only [hk, Act.pure_eq_ok] at run
        exact run.1.symm
  | _ => exact (Act.pure_eq_ok.mp run).1.symm

theorem fresh_quiet : Act.fresh.Quiet D :=
  fun _ sound => ⟨⟨.refl _, fun _ _ h => h⟩,
    ⟨sound.closed, sound.ancestors, sound.resolved, sound.elements⟩⟩

theorem itemsAt_quiet {n : Nat} {v : Value} (lasting : ∀ i, v ≠ .iter i) : (v.itemsAt n).Quiet D := by
  induction n generalizing v with
  | zero => exact .throw _
  | succ n ih =>
    have through (c : Class) (i : Handle) :
        (do Value.itemsAt n (← Value.needAttribute c i "items") : Act (List Value)).Quiet D := by
      refine Act.Quiet.andThen (.lift _) fun s w t sound run => ih ?_
      exact needAttribute_items sound.closed (Act.lift_eq_ok.mp run).1
    have made {α : Type} (xs : List α) (f : α → Act Value) (hf : ∀ x, (f x).Quiet D) :
        (xs.mapM f).Quiet D := .mapM fun x _ => hf x
    refine .getHeap fun h => ?_
    split
    case h_12 => exact absurd rfl (lasting _)
    case h_14 =>
      split
      · exact .pure _
      · exact .fail _
    all_goals
      first
      | exact .pure _
      | exact .fail _
      | exact through _ _
      | exact made _ _ fun _ => .bind fresh_quiet fun _ => .pure _

theorem allFrom_quiet {r : Span} {p : Int → Act Bool} (hp : ∀ n, (p n).Quiet D) (n i : Nat) :
    (Value.allFrom r p n i).Quiet D := by
  induction n generalizing i with
  | zero => exact .pure true
  | succ n ih => exact .bind (hp _) fun _ => .ite (ih _) (.pure false)

theorem allItemsAt_quiet {p : Value → Act Bool} (hp : ∀ w, (p w).Quiet D) {n : Nat} {v : Value}
    (lasting : ∀ i, v ≠ .iter i) : (v.allItemsAt p n).Quiet D := by
  induction n generalizing v with
  | zero => exact .throw _
  | succ n ih =>
    have through (c : Class) (i : Handle) :
        (do Value.allItemsAt p n (← Value.needAttribute c i "items") : Act Bool).Quiet D := by
      refine Act.Quiet.andThen (.lift _) fun s w t sound run => ih ?_
      exact needAttribute_items sound.closed (Act.lift_eq_ok.mp run).1
    unfold Value.allItemsAt
    split
    · exact allFrom_quiet (fun _ => hp _) _ _
    · exact .allM fun _ _ => hp _
    · exact .allM fun _ _ => hp _
    · exact .getHeap fun _ => .allM fun _ _ => hp _
    · exact absurd rfl (lasting _)
    · exact through _ _
    · exact through _ _
    · exact .bind (itemsAt_quiet lasting) fun _ => .allM fun w _ => hp w

theorem allItems_quiet {p : Value → Act Bool} (hp : ∀ w, (p w).Quiet D) {v : Value}
    (lasting : ∀ i, v ≠ .iter i) : (v.allItems p).Quiet D :=
  allItemsAt_quiet hp lasting

theorem isContainer_lasting {kind : CollectionKind} {v : Value}
    (hv : Descriptor.isContainer kind v = true) (i : Handle) : v ≠ .iter i := by
  rintro rfl
  have hi : Class.iter.conforms .collection = false := by decide
  cases kind <;> simp [Descriptor.isContainer, Value.isText, Value.classOf, Value.isList, hi] at hv

theorem isWithin_quiet (container v : Value) : (Descriptor.isWithin container v).Quiet D := by
  cases container with
  | range id r => exact .lift _
  | slice id start stop step => exact .handle (.lift _) fun _ => .pure false
  | _ => exact .pure false

/-- Membership in a range or slice is answered later as before. -/
theorem isWithin_later {container v : Value} {b : Bool} {u : Session} (st : s.Before u)
    (sound : s.Sound D) (lc : container.Live s.heap) (lv : v.Live s.heap)
    (run : Descriptor.isWithin container v s = .ok b t) :
    Descriptor.isWithin container v u = .ok b u := by
  cases container with
  | range id r =>
    have now := (Act.lift_eq_ok.mp run).1
    exact Act.lift_eq_ok.mpr ⟨((inSpan_carries st.heap sound.closed r lv).ok now).1, rfl⟩
  | slice id start stop step =>
    have same := (betweenBounds_carries st.heap sound.closed lc.1 lc.2.1 lv).eq
    simp only [Descriptor.isWithin, Act.handle, liftM, monadLift, MonadLift.monadLift,
      Act.look] at run ⊢
    rw [same]
    cases now : Descriptor.betweenBounds start stop v s.heap with
    | ok a =>
      simp only [now] at run
      cases run
      rfl
    | error f =>
      simp only [now] at run ⊢
      split at run
      · next hf =>
        obtain ⟨rfl, -⟩ := Act.pure_eq_ok.mp run
        simp only [hf, if_true]
        rfl
      · cases run
  | _ =>
    obtain ⟨rfl, -⟩ := Act.pure_eq_ok.mp run
    rfl

end Quiet

/-- A read that is quiet and answers with what is there. -/
structure Act.Reads (D : Descriptor → Prop) (v : Value) (x : Act (Option Value)) : Prop where
  quiet : x.Quiet D
  live : ∀ s r t, s.Sound D → x s = .ok r t → v.Live s.heap → ∀ w ∈ r, w.Live t.heap

/-- What the thunk of a deferred descriptor answers, as a descriptor. -/
def Descriptor.answered (e : Engine) (thunk : Value) : Act Descriptor := do
  ofValue (← e.call thunk [] [])

section Resolving

variable {e : Engine} {id : Ident} {thunk : Value} {d : Descriptor} {s t u : Session} {f : Fault}

theorem find?_of_open (unresolved : s.resolution? id = none) : s.resolved.find? (·.1 == id) = none := by
  simpa only [Session.resolution?, Option.map_eq_none_iff] using unresolved

theorem resolution?_append {log : List String} (unresolved : s.resolution? id = none) (id' : Ident) :
    Session.resolution? { s with log, resolved := s.resolved ++ [(id, d)] } id' =
      if id' = id then some d else s.resolution? id' := by
  simp only [Session.resolution?, List.find?_append]
  by_cases h : id' = id
  · subst h
    simp [find?_of_open unresolved]
  · have hne : (id == id') = false := by simpa using fun e => h e.symm
    simp [h, hne]

/-- What is resolved stays so when an open node is resolved. -/
theorem append_resolved {log : List String} (unresolved : s.resolution? id = none) (id' : Ident) {d' : Descriptor}
    (h : s.resolution? id' = some d') :
    Session.resolution? { s with log, resolved := s.resolved ++ [(id, d)] } id' = some d' := by
  rw [resolution?_append unresolved, if_neg]
  · exact h
  · rintro rfl
    rw [unresolved] at h
    cases h

/-- A resolved node answers at once, whatever its thunk would do. -/
theorem resolve_of_resolved (resolved : s.resolution? id = some d) :
    Descriptor.resolve e id thunk s = .ok d s := by
  obtain ⟨entry, found, rfl⟩ := Option.map_eq_some_iff.mp resolved
  have known : (get : Act Session) s = .ok s s := rfl
  unfold Descriptor.resolve
  rw [Act.bind_of_ok known, found]
  rfl

/-- What becomes of an open node once its thunk has answered: the first answer stays. -/
def Descriptor.settle (id : Ident) (d : Descriptor) : Act Descriptor := do
  match (← get).resolved.find? (·.1 == id) with
  | some entry => return entry.2
  | none =>
    Logging.trace (do return "descriptors.DeferredType.resolve: Resolved to " ++ (← d.describe))
    modify fun s => { s with resolved := s.resolved ++ [(id, d)] }
    return d

theorem resolve_of_open (unresolved : s.resolution? id = none) :
    Descriptor.resolve e id thunk s = (Descriptor.answered e thunk >>= Descriptor.settle id) s := by
  have known : (get : Act Session) s = .ok s s := rfl
  unfold Descriptor.resolve
  rw [Act.bind_of_ok known, find?_of_open unresolved]
  simp only [Descriptor.answered, bind_assoc]
  rfl

theorem resolve_of_error (unresolved : s.resolution? id = none)
    (failed : Descriptor.answered e thunk s = .error f t) : Descriptor.resolve e id thunk s = .error f t := by
  rw [resolve_of_open unresolved]
  exact Act.bind_of_error failed

theorem settle_ok {d' : Descriptor} (unresolved : s.resolution? id = none)
    (run : Descriptor.settle id d s = .ok d' t) :
    d' = d ∧ ∃ log, t = { s with log, resolved := s.resolved ++ [(id, d)] } := by
  simp only [Descriptor.settle, Act.bind_eq_ok, Act.get_eq_ok] at run
  obtain ⟨_, _, ⟨rfl, rfl⟩, run⟩ := run
  simp only [find?_of_open unresolved, Act.bind_eq_ok, Act.modify_eq_ok, Act.pure_eq_ok] at run
  obtain ⟨_, u, traced, _, _, rfl, rfl, rfl⟩ := run
  obtain ⟨log, rfl⟩ := trace_ok traced
  exact ⟨rfl, log, rfl⟩

theorem settle_of_resolved {d₀ d' : Descriptor} (resolved : s.resolution? id = some d₀)
    (run : Descriptor.settle id d s = .ok d' t) : d' = d₀ ∧ t = s := by
  obtain ⟨entry, found, rfl⟩ := Option.map_eq_some_iff.mp resolved
  simp only [Descriptor.settle, Act.bind_eq_ok, Act.get_eq_ok] at run
  obtain ⟨_, _, ⟨rfl, rfl⟩, run⟩ := run
  simp only [found, Act.pure_eq_ok] at run
  exact ⟨run.1.symm, run.2.symm⟩

theorem settle_error (run : Descriptor.settle id d s = .error f t) :
    s.level ≤ Logging.Severity.debug.rank ∧ d.describe s.heap = .error f ∧ t = s := by
  simp only [Descriptor.settle, Act.bind_eq_error, Act.get_eq_ok, Act.get_ne_error, false_or] at run
  obtain ⟨_, _, ⟨rfl, rfl⟩, run⟩ := run
  cases found : s.resolved.find? (·.1 == id) with
  | some entry => simp only [found, Act.pure_ne_error] at run
  | none =>
    simp only [found, Act.bind_eq_error, Act.modify_ne_error, Act.pure_ne_error, and_false, exists_false,
      or_false] at run
    obtain ⟨-, log, ended⟩ | ⟨low, f', described, ended⟩ := trace_ends _ s
    · cases run.symm.trans ended
    · cases run.symm.trans ended
      exact ⟨low, by simpa [Look.bind_eq_error] using described, rfl⟩

/-- A node is resolved to what is remembered, or to what its thunk answers if nothing has come to be remembered
meanwhile. -/
theorem resolve_cases (run : Descriptor.resolve e id thunk s = .ok d u) :
    s.resolution? id = some d ∧ u = s ∨
    s.resolution? id = none ∧ ∃ d' t, Descriptor.answered e thunk s = .ok d' t ∧
      (t.resolution? id = some d ∧ u = t ∨
        t.resolution? id = none ∧ d = d' ∧ ∃ log, u = { t with log, resolved := t.resolved ++ [(id, d)] }) := by
  cases found : s.resolution? id with
  | some d₀ =>
    rw [resolve_of_resolved found] at run
    cases run
    exact .inl ⟨rfl, rfl⟩
  | none =>
    rw [resolve_of_open found] at run
    obtain ⟨d', t, asked, settling⟩ := Act.bind_eq_ok.mp run
    refine .inr ⟨rfl, d', t, asked, ?_⟩
    cases earlier : t.resolution? id with
    | some d₀ =>
      obtain ⟨rfl, rfl⟩ := settle_of_resolved earlier settling
      exact .inl ⟨rfl, rfl⟩
    | none =>
      obtain ⟨rfl, log, rfl⟩ := settle_ok earlier settling
      exact .inr ⟨rfl, rfl, log, rfl⟩

/-- A node is not resolved if its thunk does not answer, or if the answer cannot be described for the log. -/
theorem resolve_fails (run : Descriptor.resolve e id thunk s = .error f u) :
    s.resolution? id = none ∧ (Descriptor.answered e thunk s = .error f u ∨
      ∃ d, Descriptor.answered e thunk s = .ok d u ∧ u.level ≤ Logging.Severity.debug.rank ∧
        d.describe u.heap = .error f) := by
  cases found : s.resolution? id with
  | some d =>
    rw [resolve_of_resolved found] at run
    cases run
  | none =>
    rw [resolve_of_open found] at run
    refine ⟨rfl, ?_⟩
    obtain failed | ⟨d, t, asked, settling⟩ := Act.bind_eq_error.mp run
    · exact .inl failed
    · obtain ⟨low, silent, rfl⟩ := settle_error settling
      exact .inr ⟨d, asked, low, silent⟩

end Resolving

/-- A family of descriptors whose deferred members stay in it. Thunks leave what is there as it is and
answer members of the family. -/
structure Resolving (functions : Library) (D : Descriptor → Prop) : Prop where
  children : ∀ {d}, D d → ∀ c ∈ d.children, D c
  thunks : ∀ {id thunk}, D (.deferred id thunk) → ∀ n,
    (do Descriptor.ofValue (← (Engine.ofDepth functions n).call thunk [] [])).Quiet D
  targets : ∀ {id thunk}, D (.deferred id thunk) → ∀ n s d t, s.Sound D →
    (do Descriptor.ofValue (← (Engine.ofDepth functions n).call thunk [] [])) s = .ok d t →
    D d ∧ d.Live t.heap

/-- A family of descriptors that can be matched against without a change to what is there already. The
calls that matching makes are assumed to be quiet: thunks answer members of the family, predicates and
attributes are read without effect. -/
structure Tame (functions : Library) (D : Descriptor → Prop) : Prop extends Resolving functions D where
  predicates : ∀ {id message fn}, D (.predicate id message fn) → ∀ n v,
    ((Engine.ofDepth functions n).call fn [v] []).Quiet D
  attributes : ∀ {id bases predicates}, D (.constraint id bases predicates) → ∀ f ∈ predicates, ∀ n v,
    Act.Reads D v (Descriptor.readAttribute? (Engine.ofDepth functions n) v f.1)
  fields : ∀ {id fields}, D (.shape id fields) → ∀ f ∈ fields, ∀ v, Act.Reads D v (v.field? f.1)
  methods : ∀ {id names}, D (.interface id names) → ∀ m ∈ names, ∀ v,
    (Descriptor.respondsTo v m).Quiet D

namespace Resolving

variable {functions : Library} {D : Descriptor → Prop} {s t : Session}

/-- Resolving a deferred descriptor settles what it stands for, for good. -/
theorem resolve_ok (resolving : Resolving functions D) {n : Nat} {id : Ident} {thunk : Value} {d : Descriptor}
    (hd : D (.deferred id thunk)) (sound : s.Sound D)
    (run : Descriptor.resolve (Engine.ofDepth functions n) id thunk s = .ok d t) :
    s.Before t ∧ t.Sound D ∧ D d ∧ d.Live t.heap ∧ t.resolution? id = some d := by
  obtain ⟨known, rfl⟩ | ⟨-, d', w, asked, rest⟩ := resolve_cases run
  · obtain ⟨dd, live⟩ := sound.resolved id thunk d hd known
    exact ⟨.refl t, sound, dd, live, known⟩
  · obtain ⟨sw, soundw⟩ := (resolving.thunks hd n).ok asked sound
    obtain ⟨dw, lw⟩ := resolving.targets hd n s d' w sound asked
    obtain ⟨known, rfl⟩ | ⟨unresolved, rfl, log, rfl⟩ := rest
    · obtain ⟨dd, live⟩ := soundw.resolved id thunk d hd known
      exact ⟨sw, soundw, dd, live, known⟩
    · refine ⟨⟨sw.heap, fun id' e he => append_resolved unresolved id' (sw.resolved id' e he)⟩,
        ⟨soundw.closed, soundw.ancestors, fun id' thunk' e he hr => ?_, soundw.elements⟩, dw, lw,
        by rw [resolution?_append unresolved, if_pos rfl]⟩
      rw [resolution?_append unresolved] at hr
      split at hr
      · cases hr
        exact ⟨dw, lw⟩
      · exact soundw.resolved id' thunk' e he hr

section Step

open Descriptor

variable {n : Nat}

variable (resolving : Resolving functions D)
include resolving

theorem resolve_quiet {id : Ident} {thunk : Value} (hd : D (.deferred id thunk)) :
    (resolve (Engine.ofDepth functions n) id thunk).Quiet D := by
  refine .mk (fun s d t run sound => ?_) (fun s e t run sound => ?_)
  · obtain ⟨st, soundt, -⟩ := resolving.resolve_ok hd sound run
    exact ⟨st, soundt⟩
  · obtain ⟨-, failed | ⟨d, asked, -⟩⟩ := resolve_fails run
    · exact (resolving.thunks hd n).error failed sound
    · exact (resolving.thunks hd n).ok asked sound

theorem resolve_bind {α : Type} {id : Ident} {thunk : Value} (hd : D (.deferred id thunk))
    {f : Descriptor → Act α} (hf : ∀ d, D d → (f d).Quiet D) :
    (resolve (Engine.ofDepth functions n) id thunk >>= f).Quiet D := by
  refine Act.Quiet.andThen (resolving.resolve_quiet hd) fun s d t sound run => ?_
  obtain ⟨-, -, dd, -⟩ := resolving.resolve_ok hd sound run
  exact hf d dd

/-- Comparisons over an engine are quiet if those of the engine are. -/
theorem compares (hs : ∀ a b, D a → D b → ((Engine.ofDepth functions n).subtype a b).Quiet D) :
    (Engine.ofDepth functions n).Compares (Act.Quiet D) D where
  passes := Act.Leads.passes
  children := resolving.children
  subtype ha hb := hs _ _ ha hb
  isSubclass := isSubclass_quiet
  resolved hd hf := resolving.resolve_bind hd hf

/-- Subtyping within such a family is quiet, at every depth. -/
theorem subtype_quiet (n : Nat) : ∀ a b, D a → D b → ((Engine.ofDepth functions n).subtype a b).Quiet D := by
  induction n with
  | zero => exact fun _ _ _ _ => .throw _
  | succ n ih => exact fun a b ha hb => (resolving.compares ih).subtypeStep ha hb

end Step

end Resolving

namespace Tame

open Descriptor

variable {functions : Library} {D : Descriptor → Prop} {n : Nat}

/-- Judgements over an engine are quiet if matching with the engine is. -/
theorem judging (tame : Tame functions D) (ha : ∀ d v, D d → ((Engine.ofDepth functions n).accepts d v).Quiet D) :
    (Engine.ofDepth functions n).Judges (Act.Quiet D) D where
  toCompares := tame.compares (tame.subtype_quiet n)
  accepts hd v := ha _ v hd
  isInstance := isInstance_quiet
  isWithin := isWithin_quiet
  walks container hp := allItems_quiet hp (isContainer_lasting container)
  predicates hd := tame.predicates hd n
  attributes hd f hf v := (tame.attributes hd f hf n v).quiet
  fields hd f hf v := (tame.fields hd f hf v).quiet
  methods := tame.methods
  elements {id element} hd v := by
    cases v with
    | checked c i =>
      refine Act.Quiet.andThen (.bind .get fun _ => .pure _) fun s h t sound run => ?_
      obtain ⟨rfl, rfl⟩ := Act.getHeap_eq_ok.mp run
      exact tame.subtype_quiet n _ _ (sound.elements i) (tame.children hd element (by simp [Descriptor.children]))
    | _ => exact .pure false

/-- Matching and subtyping within a tame family are quiet, at every depth. -/
theorem quiet (tame : Tame functions D) (n : Nat) :
    (∀ d v, D d → ((Engine.ofDepth functions n).accepts d v).Quiet D) ∧
      ∀ a b, D a → D b → ((Engine.ofDepth functions n).subtype a b).Quiet D := by
  refine ⟨?_, tame.subtype_quiet n⟩
  induction n with
  | zero => exact fun _ _ _ => .throw _
  | succ n ih => exact fun d v hd => (tame.judging ih).acceptsStep hd v

theorem judges (tame : Tame functions D) (n : Nat) : (Engine.ofDepth functions n).Judges (Act.Quiet D) D :=
  tame.judging (tame.quiet n).1

end Tame

/-- An action answers within a history that ends in `ω` if some run of it from a sound moment does, with
values that are there at that moment. -/
def Answers {α : Type} (D : Descriptor → Prop) (ω : Session) (known : List Value) (x : Act α) (a : α) :
    Prop :=
  ∃ s t, s.Sound D ∧ (∀ v ∈ known, v.Live s.heap) ∧ x s = .ok a t ∧ t.Before ω

namespace Answers

variable {α β : Type} {D : Descriptor → Prop} {ω : Session} {known known' : List Value}

theorem pure {a b : α} (h : Answers D ω known (pure a) b) : a = b := by
  obtain ⟨s, t, _, _, run, _⟩ := h
  exact (Act.pure_eq_ok.mp run).1

theorem weaken {x : Act α} {a : α} (h : Answers D ω known x a)
    (hk : ∀ g : Heap, g.Closed → (∀ v ∈ known, v.Live g) → ∀ v ∈ known', v.Live g) :
    Answers D ω known' x a := by
  obtain ⟨s, t, sound, live, run, later⟩ := h
  exact ⟨s, t, sound, hk _ sound.closed live, run, later⟩

theorem bind {x : Act α} {f : α → Act β} {b : β} (hx : x.Quiet D) (hf : ∀ a, (f a).Quiet D)
    (h : Answers D ω known (x >>= f) b) :
    ∃ a, Answers D ω known x a ∧ Answers D ω known (f a) b := by
  obtain ⟨s, u, sound, live, run, later⟩ := h
  obtain ⟨a, t, hs, ht⟩ := Act.bind_eq_ok.mp run
  have st := hx.ok hs sound
  have tu := (hf a).ok ht st.2
  exact ⟨a, ⟨s, t, sound, live, hs, tu.1.trans later⟩,
    ⟨t, u, st.2, fun v hv => st.1.live (live v hv), ht, later⟩⟩

theorem and {x y : Act Bool} (hx : x.Quiet D) (hy : y.Quiet D) {b : Bool}
    (h : Answers D ω known (do if ← x then y else return false) b) :
    if b then Answers D ω known x true ∧ Answers D ω known y true
    else Answers D ω known x false ∨ Answers D ω known y false := by
  obtain ⟨c, first, rest⟩ := h.bind hx fun _ => .ite hy (.pure false)
  cases c with
  | false =>
    obtain rfl := rest.pure
    exact .inl first
  | true =>
    cases b with
    | true => exact ⟨first, rest⟩
    | false => exact .inr rest

theorem anyM {p : α → Act Bool} {xs : List α} (hp : ∀ x ∈ xs, (p x).Quiet D) {b : Bool}
    (h : Answers D ω known (xs.anyM p) b) :
    if b then ∃ x ∈ xs, Answers D ω known (p x) true else ∀ x ∈ xs, Answers D ω known (p x) false := by
  induction xs with
  | nil =>
    obtain rfl := h.pure
    simp
  | cons x xs ih =>
    have hp' := List.forall_mem_cons.mp hp
    obtain ⟨r, first, rest⟩ := h.bind hp'.1 fun r => by
      cases r with
      | true => exact .pure true
      | false => exact .anyM hp'.2
    cases r with
    | true =>
      obtain rfl := rest.pure
      exact ⟨x, .head _, first⟩
    | false =>
      have rest := ih hp'.2 rest
      cases b with
      | true =>
        obtain ⟨y, hy, answer⟩ := rest
        exact ⟨y, .tail _ hy, answer⟩
      | false => exact List.forall_mem_cons.mpr ⟨first, rest⟩

theorem allM {p : α → Act Bool} {xs : List α} (hp : ∀ x ∈ xs, (p x).Quiet D) {b : Bool}
    (h : Answers D ω known (xs.allM p) b) :
    if b then ∀ x ∈ xs, Answers D ω known (p x) true else ∃ x ∈ xs, Answers D ω known (p x) false := by
  induction xs with
  | nil =>
    obtain rfl := h.pure
    simp
  | cons x xs ih =>
    have hp' := List.forall_mem_cons.mp hp
    obtain ⟨r, first, rest⟩ := h.bind hp'.1 fun r => by
      cases r with
      | true => exact .allM hp'.2
      | false => exact .pure false
    cases r with
    | true =>
      have rest := ih hp'.2 rest
      cases b with
      | true => exact List.forall_mem_cons.mpr ⟨first, rest⟩
      | false =>
        obtain ⟨y, hy, answer⟩ := rest
        exact ⟨y, .tail _ hy, answer⟩
    | false =>
      obtain rfl := rest.pure
      exact ⟨x, .head _, first⟩

end Answers

end Conform
