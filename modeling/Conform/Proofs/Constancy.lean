import Conform.Proofs.Kinship
import Conform.Proofs.Likeness
import Conform.Proofs.Scripts
import Conform.Proofs.Setting

/-!
What has been asked before does not change what is answered. A session remembers the ancestors of classes, what
deferred descriptors are resolved to and which transforms are declared. As long as functions and thunks are
constant, what is remembered is what would be worked out anew, so that matching and comparing go the same way in
two sessions that differ in their memories only. Only a descriptor that asks whether another one is resolved can
tell them apart.

Main statement: `Setting.Constant.answers_alike`.
-/
namespace Conform

/-- Whether two runs end alike, apart from what is remembered, unless one of them gives up. -/
inductive Concur {α : Type} : (x y : EStateM.Result Fault Session α) → Prop
  | answer {a : α} {s t : Session} : s.Alike false t → Concur (.ok a s) (.ok a t)
  | fault {f : Fault} {s t : Session} : s.Alike false t → Concur (.error f s) (.error f t)
  | left {s : Session} {y : EStateM.Result Fault Session α} : Concur (.error .exhausted s) y
  | right {x : EStateM.Result Fault Session α} {t : Session} : Concur x (.error .exhausted t)

namespace Concur

variable {α β : Type} {s t : Session}

theorem of_echoes {x y : EStateM.Result Fault Session α} (echoes : Echoes false x y) : Concur x y := by
  cases x with
  | ok a s =>
    obtain ⟨t, rfl, alike⟩ := echoes.ok
    exact .answer alike
  | error f s =>
    cases f with
    | exhausted => exact .left
    | _ =>
      cases y with
      | ok b t => exact echoes.elim
      | error g t =>
        obtain ⟨rfl, alike⟩ := echoes
        exact .fault alike

theorem bind {x y : Act α} {f g : α → Act β} (hx : Concur (x s) (y t))
    (hf : ∀ a s' t', x s = .ok a s' → y t = .ok a t' → s'.Alike false t' → Concur (f a s') (g a t')) :
    Concur ((x >>= f) s) ((y >>= g) t) := by
  generalize first : x s = r at hx
  generalize second : y t = r' at hx
  cases hx with
  | answer alike =>
    rw [Act.bind_of_ok first, Act.bind_of_ok second]
    exact hf _ _ _ first second alike
  | fault alike =>
    rw [Act.bind_of_error first, Act.bind_of_error second]
    exact .fault alike
  | left =>
    rw [Act.bind_of_error first]
    exact .left
  | right =>
    rw [Act.bind_of_error second]
    exact .right

end Concur

/-- Whether a session is left as it was, but for its memories, its log and its records of calls. -/
structure Session.Untouched (s t : Session) : Prop where
  heap : t.heap = s.heap
  nextIdent : t.nextIdent = s.nextIdent
  names : t.names = s.names
  level : t.level = s.level

namespace Session.Untouched

variable {s t u s' t' : Session}

theorem refl (s : Session) : s.Untouched s :=
  ⟨rfl, rfl, rfl, rfl⟩

theorem trans (st : s.Untouched t) (tu : t.Untouched u) : s.Untouched u :=
  ⟨tu.heap.trans st.heap, tu.nextIdent.trans st.nextIdent, tu.names.trans st.names, tu.level.trans st.level⟩

/-- Sessions that are alike stay so while they are left untouched. -/
theorem alike (ss' : s.Untouched s') (tt' : t.Untouched t') (alike : s.Alike false t) : s'.Alike false t' where
  heap := by rw [ss'.heap, tt'.heap, alike.heap]
  nextIdent := by rw [ss'.nextIdent, tt'.nextIdent, alike.nextIdent]
  names := by rw [ss'.names, tt'.names, alike.names]
  level := by
    rw [ss'.level, tt'.level]
    exact alike.level
  resolved := nofun
  ancestors := nofun
  strayAncestors := nofun
  transforms := nofun
  transformsEnabled := nofun
  calls := nofun

end Session.Untouched

namespace Setting

variable {α β : Type} {S : Setting} {answer : Ident → Except Fault Descriptor} {s t u : Session} {n : Nat}

/-- A session that remembers what is so: the ancestors of classes, and of each node what its thunk answers. -/
structure Truthful (S : Setting) (answer : Ident → Except Fault Descriptor) (s : Session) : Prop extends
    S.Familiar s where
  informed : s.Informed
  memo : ∀ {id thunk d}, S.types (.deferred id thunk) → s.resolution? id = some d → answer id = .ok d

namespace Truthful

theorem aside (true_ : S.Truthful answer s) (familiar : S.Familiar t) (resolved : t.resolved = s.resolved)
    (ancestors : t.ancestors = s.ancestors) : S.Truthful answer t where
  toFamiliar := familiar
  informed := by
    intro e he
    rw [ancestors] at he
    exact true_.informed e he
  memo node found := by
    rw [Session.resolution?, resolved] at found
    exact true_.memo node found

theorem plainly (true_ : S.Truthful answer s) (st : s.Plainly t) : S.Truthful answer t :=
  true_.aside (true_.toFamiliar.plainly st) st.resolved st.ancestors

theorem remember (true_ : S.Truthful answer s) (c : Class) :
    S.Truthful answer { s with ancestors := s.ancestors ++ [(c, c.mro)] } where
  toFamiliar := true_.toFamiliar.aside rfl rfl rfl
  informed := ancestors_append true_.informed c
  memo := true_.memo

theorem resolve (true_ : S.Truthful answer s) {id : Ident} {d : Descriptor} (unresolved : s.resolution? id = none)
    (hd : S.types d) (known : answer id = .ok d) (log : List String) :
    S.Truthful answer { s with log, resolved := s.resolved ++ [(id, d)] } where
  toFamiliar := true_.toFamiliar.resolved_append unresolved hd log
  informed := true_.informed
  memo {id' thunk d'} node found := by
    rw [resolution?_append unresolved] at found
    split at found
    · next same =>
      cases found
      rw [same]
      exact known
    · exact true_.memo node found

end Truthful

/-- To remember what is so is a course. -/
def truth (S : Setting) (answer : Ident → Except Fault Descriptor) : Course where
  inv := S.Truthful answer
  rel _ _ := True
  fail _ _ _ := True
  types := S.types
  callees := S.callees
  refl _ := trivial
  trans _ _ := trivial
  failing _ := trivial
  failed _ _ := trivial
  plain inv st := ⟨trivial, inv.plainly st⟩
  made inv element collection _ := ⟨trivial, inv.aside (inv.toFamiliar.push element collection) rfl rfl⟩
  written inv _ := ⟨trivial, inv.aside (inv.toFamiliar.setChecked rfl rfl) rfl rfl⟩
  frozen inv := ⟨trivial, inv.aside (inv.toFamiliar.setChecked rfl rfl) rfl rfl⟩
  remembered inv _ := ⟨trivial, inv.remember _⟩
  declared inv results := ⟨trivial, inv.aside { inv.toFamiliar with results } rfl rfl⟩
  children := S.children
  predicates := S.predicates
  methods := S.methods
  elements inv := inv.elements
  results inv := inv.results
  arrays := S.arrays

/-- How a run ends whose answer is known: with that answer and a session left untouched, unless it gives up. -/
inductive Gives (S : Setting) (answer : Ident → Except Fault Descriptor) (s : Session) :
    Except Fault α → EStateM.Result Fault Session α → Prop
  | answer {a : α} {t : Session} : s.Untouched t → S.Truthful answer t → S.Gives answer s (.ok a) (.ok a t)
  | fault {f : Fault} {t : Session} : s.Untouched t → S.Truthful answer t → S.Gives answer s (.error f) (.error f t)
  | gaveUp {r : Except Fault α} {t : Session} : S.Truthful answer t → S.Gives answer s r (.error .exhausted t)

theorem Gives.concur {r : Except Fault α} {x y : EStateM.Result Fault Session α} (alike : s.Alike false t)
    (hx : S.Gives answer s r x) (hy : S.Gives answer t r y) : Concur x y := by
  cases hx with
  | answer ss' _ =>
    cases hy with
    | answer tt' _ => exact .answer (ss'.alike tt' alike)
    | gaveUp _ => exact .right
  | fault ss' _ =>
    cases hy with
    | fault tt' _ => exact .fault (ss'.alike tt' alike)
    | gaveUp _ => exact .right
  | gaveUp _ => exact .left

/-- An action that goes the same way, whatever is remembered. -/
def Steady (S : Setting) (answer : Ident → Except Fault Descriptor) (x : Act α) : Prop :=
  (S.truth answer).Keeps x ∧
    ∀ s t, S.Truthful answer s → S.Truthful answer t → s.Alike false t → Concur (x s) (x t)

namespace Steady

theorem of_gives {x : Act α} (r : Except Fault α) (hx : ∀ s, S.Truthful answer s → S.Gives answer s r (x s)) :
    S.Steady answer x := by
  constructor
  · intro s inv
    have gives := hx s inv
    generalize x s = y at gives
    cases gives with
    | answer _ inv => exact ⟨trivial, inv⟩
    | fault _ inv => exact ⟨trivial, inv⟩
    | gaveUp inv => exact ⟨trivial, inv⟩
  · intro s t first second alike
    exact (hx s first).concur alike (hx t second)

theorem of_echoing {x : Act α} (keeps : (S.truth answer).Keeps x) (echoing : x.Echoing false) : S.Steady answer x :=
  ⟨keeps, fun s t _ _ alike => .of_echoes (echoing s t alike)⟩

theorem plain {x : Act α} (hx : x.Plain ⟨true, false, true⟩) : S.Steady answer x :=
  of_echoing (.leads fun s inv => (S.truth answer).plain inv (hx.leads s)) (.plain hx)

theorem pure (a : α) : S.Steady answer (pure a) :=
  plain (.pure a)

theorem andThen {x : Act α} {f : α → Act β} (hx : S.Steady answer x)
    (hf : ∀ s a t, S.Truthful answer s → x s = .ok a t → S.Steady answer (f a)) : S.Steady answer (x >>= f) := by
  refine ⟨.andThen hx.1 fun s a t inv run => (hf s a t inv run).1, fun s t first second alike => ?_⟩
  refine .bind (hx.2 s t first second alike) fun a s' t' run run' alike' => ?_
  exact (hf s a s' first run).2 s' t' (hx.1.ok first run).2 (hx.1.ok second run').2 alike'

theorem bind {x : Act α} {f : α → Act β} (hx : S.Steady answer x) (hf : ∀ a, S.Steady answer (f a)) :
    S.Steady answer (x >>= f) :=
  andThen hx fun _ a _ _ _ => hf a

/-- The ancestors of a class are what they are, remembered or not. -/
theorem ancestors (c : Class) : S.Steady answer (Nominal.ancestors c) := by
  refine of_gives (.ok c.mro) fun s inv => ?_
  obtain ⟨t, run⟩ := Nominal.ancestors_answers inv.informed c
  have kept := Course.ancestors_keeps (W := S.truth answer) c
  rw [run]
  refine .answer ?_ (kept.ok inv run).2
  obtain ⟨entry, -, ended⟩ | ⟨-, log, ended⟩ := ancestors_ends c s
  · obtain ⟨-, rfl⟩ := EStateM.Result.ok.inj (run.symm.trans ended)
    exact .refl t
  · obtain ⟨-, rfl⟩ := EStateM.Result.ok.inj (run.symm.trans ended)
    exact ⟨rfl, rfl, rfl, rfl⟩

/-- Whether a value responds to a method is not a matter of memory: what is remembered of a deferred descriptor
cannot be called. -/
theorem respondsTo (v : Value) (name : String) : S.Steady answer (Descriptor.respondsTo v name) := by
  by_cases asked : v.recalls name = true
  · refine of_gives (.ok false) fun s inv => ?_
    have told : Descriptor.respondsTo v name s = .ok false s := by
      unfold Value.recalls at asked
      split at asked
      · obtain rfl := beq_iff_eq.mp asked
        rfl
      · cases asked
    rw [told]
    exact .answer (.refl s) inv
  · refine bind (plain (v.attribute?_plain fun asks => absurd asks asked)) fun found => ?_
    cases found <;> exact pure _

end Steady

/-- Whether no constraint and no shape of the setting asks whether a descriptor is resolved. -/
structure Discreet (S : Setting) : Prop where
  attributes : ∀ {id bases predicates}, S.types (.constraint id bases predicates) →
    ∀ f ∈ predicates, f.1 ≠ "is_resolved"
  fields : ∀ {id fields}, S.types (.shape id fields) → ∀ f ∈ fields, f.1 ≠ "is_resolved"

/-- To go the same way, whatever is remembered, is a habit. -/
def steadiness (S : Setting) (answer : Ident → Except Fault Descriptor) (discreet : S.Discreet) : Habit where
  inv := S.Truthful answer
  holds := S.Steady answer
  reach := ⟨true, false, true⟩
  types := S.types
  callees := S.callees
  receivers _ := True
  secret _ := False
  plain hx _ := .plain hx
  reading _ := Habit.reading_of_andThen _ (S.Steady answer) (.plain .getHeap) .andThen
  andThen := .andThen
  remembered := .ancestors
  made element collection unfrozen :=
    .of_echoing (Course.newChecked_keeps element collection unfrozen) (.newChecked _ _)
  written _ method items := .of_echoing (Course.write_keeps _ method items) (.write _ method items)
  frozen _ e := .of_echoing ((S.truth answer).habit.frozen trivial e) (.freeze e _)
  apart _ := id
  children := S.children
  predicates := S.predicates
  attributes type f hf v := .plain (v.attribute?_plain fun asks =>
    absurd (Value.name_of_recalls asks) (discreet.attributes type f hf))
  methods := S.methods
  fields type f hf v := .plain (v.field?_plain fun asks =>
    absurd (Value.name_of_recalls asks) (discreet.fields type f hf))
  responds _ name _ v := .respondsTo v name
  elements inv := inv.elements
  newcomers _ := trivial
  lookups inv := inv.toFamiliar.lookup
  arrays := S.arrays

/-- Functions that go the same way whatever is remembered, and thunks that always answer the same, or always fail
the same. -/
structure Constant (S : Setting) (answer : Ident → Except Fault Descriptor) : Prop where
  calls : ∀ n {f}, S.callees f → ∀ args keywords, S.Steady answer ((S.engine n).call f args keywords)
  thunks : ∀ n {id thunk}, S.types (.deferred id thunk) → ∀ s, S.Truthful answer s →
    S.Gives answer s (answer id) (Descriptor.answered (S.engine n) thunk s)
  targets : ∀ {id thunk d}, S.types (.deferred id thunk) → answer id = .ok d → S.types d

namespace Constant

variable (constant : S.Constant answer)

include constant

/-- A node is resolved to what its thunk answers, now or before. -/
theorem resolve_gives {id : Ident} {thunk : Value} (node : S.types (.deferred id thunk)) (inv : S.Truthful answer s) :
    S.Gives answer s (answer id) (Descriptor.resolve (S.engine n) id thunk s) := by
  have gives := constant.thunks n node s inv
  cases run : Descriptor.resolve (S.engine n) id thunk s with
  | ok d u =>
    obtain ⟨found, rfl⟩ | ⟨-, d', t, asked, rest⟩ := resolve_cases run
    · rw [inv.memo node found]
      exact .answer (.refl u) inv
    rw [asked] at gives
    generalize known : answer id = r at gives ⊢
    cases gives with
    | answer st inv =>
      obtain ⟨earlier, rfl⟩ | ⟨earlier, rfl, log, rfl⟩ := rest
      · cases known.symm.trans (inv.memo node earlier)
        exact .answer st inv
      · exact .answer (st.trans ⟨rfl, rfl, rfl, rfl⟩) (inv.resolve earlier (constant.targets node known) known log)
  | error f u =>
    obtain ⟨-, failed | ⟨d, asked, -, silent⟩⟩ := resolve_fails run
    · rwa [failed] at gives
    rw [asked] at gives
    obtain rfl := Descriptor.describe_speaks d _ _ silent
    generalize answer id = r at gives ⊢
    cases gives with
    | answer _ inv => exact .gaveUp inv

theorem resolve {id : Ident} {thunk : Value} (node : S.types (.deferred id thunk)) :
    S.Steady answer (Descriptor.resolve (S.engine n) id thunk) :=
  .of_gives (answer id) fun _ inv => constant.resolve_gives node inv

theorem target {id : Ident} {thunk : Value} (node : S.types (.deferred id thunk)) :
    ∀ {s d t}, S.Truthful answer s → Descriptor.resolve (S.engine n) id thunk s = .ok d t → S.types d := by
  intro s d t inv run
  have gives := constant.resolve_gives (n := n) node inv
  rw [run] at gives
  generalize known : answer id = r at gives
  cases gives
  exact constant.targets node known

/-- Matching and comparing leave what is remembered right, at every depth. -/
theorem kept (n : Nat) : (S.truth answer).Kept (S.engine n) :=
  Habit.Kept.ofDepth (H := (S.truth answer).habit)
    (fun n _ called args keywords => (constant.calls n called args keywords).1)
    (fun _ _ _ node => (constant.resolve node).1) (fun _ => constant.target) n

/-- Matching and comparing go the same way whatever is remembered, at every depth. -/
theorem steady (discreet : S.Discreet) (n : Nat) : (S.steadiness answer discreet).Kept (S.engine n) :=
  Habit.Kept.ofDepth (H := S.steadiness answer discreet) constant.calls (fun _ => constant.resolve)
    (fun _ => constant.target) n

end Constant

/-- Whether a request is about descriptors of the setting, and calls what may be called. -/
def Takes (S : Setting) : Request → Prop
  | .accepts d _ => S.types d
  | .subtype a b => S.types a ∧ S.types b
  | .resolve id thunk => S.types (.deferred id thunk)
  | .describe _ | .equal .. => True
  | .build _ _ element => S.Reads element
  | .operate _ op => (∀ f ∈ op.callees, S.callees f) ∧ ∀ v ∈ op.element?, S.Reads v

/-- What is called to fill in the context of a failed check, if anything is. -/
def enriching (e : Engine) : Option Value → Handle → Act Unit
  | none, _ => return ()
  | some callback, i => do
    let _ ← e.call callback [.context i] []

/-- The sessions that come up: whatever is asked of a session with no checked lists and no memories, and whatever is
done to plain data in between. -/
inductive Reached (S : Setting) : Session → Prop
  | start {s : Session} : s.heap.checked = #[] → s.resolved = [] → s.ancestors = [] → s.transforms = [] → S.Reached s
  | plainly {s t : Session} : S.Reached s → s.Plainly t → S.Reached t
  | ask {s : Session} (n : Nat) {r : Request} : S.Reached s → S.Takes r → S.Reached ((r.run (S.engine n)).after s)
  | check {s : Session} (n : Nat) (actual : Value) {expected : Value} {callback : Option Value} : S.Reached s →
    S.Reads expected → (∀ f ∈ callback, S.callees f) →
    S.Reached ((Check.check (S.engine n) actual expected (enriching (S.engine n) callback)).after s)
  | register {s : Session} (element fn : Value) {result : Value} : S.Reached s → S.Reads result →
    S.Reached ((Transforms.register element fn result).after s)
  | unregister {s : Session} (element fn : Value) : S.Reached s →
    S.Reached ((Transforms.unregister element fn).after s)
  | clear {s : Session} : S.Reached s → S.Reached (Transforms.clear.after s)

theorem replace_ok {declared : Transform} {table changed : List Transform} {h : Heap}
    (run : Transforms.replace declared table h = .ok changed) :
    ∀ t ∈ changed, t.result = declared.result ∨ ∃ u ∈ table, u.result = t.result := by
  induction table generalizing changed with
  | nil =>
    obtain rfl := Look.pure_eq_ok.mp run
    simp
  | cons u rest ih =>
    obtain ⟨found, -, run⟩ := Look.bind_eq_ok.mp run
    split at run
    · obtain rfl := Look.pure_eq_ok.mp run
      simp only [List.mem_cons, forall_eq_or_imp, true_or, true_and]
      exact fun t ht => .inr ⟨t, .inr ht, rfl⟩
    · obtain ⟨others, replaced, run⟩ := Look.bind_eq_ok.mp run
      obtain rfl := Look.pure_eq_ok.mp run
      simp only [List.mem_cons, forall_eq_or_imp]
      refine ⟨.inr ⟨u, .inl rfl, rfl⟩, fun t ht => (ih replaced t ht).imp id ?_⟩
      rintro ⟨w, hw, same⟩
      exact ⟨w, .inr hw, same⟩

theorem without_ok {key : TransformKey} {fn : Value} {table changed : List Transform} {h : Heap}
    (run : Transforms.without key fn table h = .ok changed) : ∀ t ∈ changed, t ∈ table := by
  induction table generalizing changed with
  | nil =>
    obtain rfl := Look.pure_eq_ok.mp run
    simp
  | cons u rest ih =>
    obtain ⟨found, -, run⟩ := Look.bind_eq_ok.mp run
    split at run
    · obtain rfl := Look.pure_eq_ok.mp run
      exact fun t ht => .tail u ht
    · obtain ⟨others, taken, run⟩ := Look.bind_eq_ok.mp run
      obtain rfl := Look.pure_eq_ok.mp run
      simp only [List.mem_cons, forall_eq_or_imp, true_or, true_and]
      exact fun t ht => .inr (ih taken t ht)

/-- A table of declarations may be put in place that is worked out from the one that is there. -/
theorem declare_keeps (look : List Transform → Look (List Transform)) {x : Act α}
    (results : ∀ {s table}, S.Truthful answer s → look s.transforms s.heap = .ok table → ∀ t ∈ table, S.types t.result)
    (hx : (S.truth answer).Keeps x) : (S.truth answer).Keeps (do
      let table ← look (← get).transforms
      modify fun s => { s with transforms := table }
      x) := by
  intro s inv
  have known : (get : Act Session) s = .ok s s := rfl
  rw [Act.bind_of_ok known]
  cases read : look s.transforms s.heap with
  | ok table =>
    rw [Act.bind_of_ok (Act.lift_eq_ok.mpr ⟨read, rfl⟩)]
    have declared := (S.truth answer).declared inv (results inv read)
    exact hx _ declared.2
  | error f =>
    rw [Act.bind_of_error (Act.lift_eq_error.mpr ⟨read, rfl⟩)]
    exact ⟨trivial, inv⟩

theorem register_keeps (element fn : Value) {result : Value} (reads : S.Reads result) :
    (S.truth answer).Keeps (Transforms.register element fn result) := by
  refine .bind (.plain (ofValue_plain element)) fun source => ?_
  refine .andThen (.plain (ofValue_plain result)) fun s target t inv read => ?_
  have type := reads s target t inv.toFamiliar read
  refine .bind (.plain (keyOf_plain source)) fun key => .bind (.lift _) fun _ => ?_
  refine declare_keeps (Transforms.replace ⟨key, fn, target⟩) (fun {s table} inv ran t ht => ?_)
    (.plain (trace_plain (by grind)))
  obtain new | ⟨u, hu, same⟩ := replace_ok ran t ht
  · rw [new]
    exact type
  · rw [← same]
    exact inv.results u hu

theorem unregister_keeps (element fn : Value) : (S.truth answer).Keeps (Transforms.unregister element fn) := by
  refine .bind (.plain (query_plain element fn)) fun key => .bind .get fun s => .bind (.lift _) fun found => ?_
  refine declare_keeps (Transforms.without key fn) (fun inv ran t ht => ?_) (.pure _)
  exact inv.results t (without_ok ran t ht)

/-- Whatever is asked, what is remembered is so. -/
theorem Reached.truthful (constant : S.Constant answer) (reached : S.Reached s) : S.Truthful answer s := by
  have after {α : Type} {x : Act α} (hx : (S.truth answer).Keeps x) {s : Session} (inv : S.Truthful answer s) :
      S.Truthful answer (x.after s) := (hx.after inv fun _ => trivial).2
  have reads {v : Value} (hv : S.Reads v) : (S.truth answer).Reads v := fun s d t inv => hv s d t inv.toFamiliar
  induction reached with
  | start checked resolved ancestors transforms =>
    refine ⟨⟨fun _ found => ?_, fun i => ?_, ?_⟩, ?_, fun _ found => ?_⟩
    · simp [Session.resolution?, resolved] at found
    · simp only [Heap.checkedList, checked]
      exact ⟨S.void, S.void⟩
    · simp [transforms]
    · simp [Session.Informed, ancestors]
    · simp [Session.resolution?, resolved] at found
  | plainly _ st inv => exact inv.plainly st
  | @ask s n r _ takes inv =>
    refine after ((constant.kept n).request ?_) inv
    cases r with
    | build c values element => exact reads takes
    | operate self op => exact ⟨takes.1, fun v hv => reads (takes.2 v hv)⟩
    | _ => exact takes
  | @check s n actual expected callback _ reading called inv =>
    have kept := constant.kept n
    have read : (S.truth answer).habit.Reads expected := reads reading
    refine after (read.bind fun d hd => .bind (kept.verify actual hd fun i => ?_) fun found => ?_) inv
    · cases callback with
      | none => exact .pure ()
      | some f => exact .bind (kept.call (called f rfl) _ _) fun _ => .pure ()
    · cases found <;> exact .bind (.plain .fresh .fresh) fun _ => .pure _
  | register element fn _ reading inv => exact after (register_keeps element fn reading) inv
  | unregister element fn _ inv => exact after (unregister_keeps element fn) inv
  | clear _ inv => exact ((S.truth answer).declared inv (by simp)).2

end Setting

/-- To remember the ancestors of classes rightly is a course on which anything may come up. -/
def informing : Course where
  inv := Session.Informed
  rel _ _ := True
  fail _ _ _ := True
  types _ := True
  callees _ := True
  refl _ := trivial
  trans _ _ := trivial
  failing _ := trivial
  failed _ _ := trivial
  plain inv st := ⟨trivial, fun e he => inv e (st.ancestors ▸ he)⟩
  made inv _ _ _ := ⟨trivial, inv⟩
  written inv _ := ⟨trivial, inv⟩
  frozen inv := ⟨trivial, inv⟩
  remembered inv _ := ⟨trivial, ancestors_append inv _⟩
  declared inv _ := ⟨trivial, inv⟩
  children _ _ _ := trivial
  predicates _ := trivial
  methods _ _ _ := fun _ _ => trivial
  elements _ _ := ⟨trivial, trivial⟩
  results _ _ _ := trivial
  arrays _ _ := trivial

theorem informing_open : informing.Open where
  types _ := trivial
  callees _ := trivial
  resolved inv _ := ⟨trivial, inv⟩
  level inv := ⟨trivial, inv⟩
  calls inv := ⟨trivial, inv⟩
  recovered _ := trivial

/-- Whatever a script does, the ancestors that are remembered of a class are its ancestors. -/
theorem Script.runSteps_informed (n : Nat) (steps : List Step) {s : Session} (informed : s.Informed) :
    ((runSteps (Engine.ofDepth Zoo.library n) steps).after s).Informed :=
  (Course.runSteps_after informing_open n steps informed).2

namespace Setting

variable {S : Setting} {answer : Ident → Except Fault Descriptor} {s t : Session}

section Forest

open Ledger

/-- Whether a descriptor is resolved, asked as if it were a field of it. -/
def asksResolved : Descriptor :=
  .shape 3 [("is_resolved", .equal 4 (.bool true))]

/-- The arrays of a tree, and, where it is asked for, whether the tree is resolved. -/
inductive Wooded (curious : Bool) : Descriptor → Prop
  | arboreal {d : Descriptor} : Arboreal d → Wooded curious d
  | truth : curious = true → Wooded curious (.equal 4 (.bool true))
  | resolved : curious = true → Wooded curious asksResolved
  | array {d : Descriptor} (id : Ident) : Wooded curious d → Wooded curious (.collection id .array d)

def forest (curious : Bool) : Setting where
  functions := trees.functions
  types := Wooded curious
  callees _ := False
  void := .arboreal .void
  children h c hc := by
    cases h with
    | arboreal h => exact .arboreal (trees.children h c hc)
    | truth => cases hc
    | resolved asked => exact List.mem_singleton.mp hc ▸ .truth asked
    | array id hd => exact List.mem_singleton.mp hc ▸ hd
  predicates h := by
    cases h with
    | arboreal h => exact trees.predicates h
  methods h := by
    cases h with
    | arboreal h => exact trees.methods h
  arrays h id := .array id h

theorem forest_constant (curious : Bool) : (forest curious).Constant fun _ => .ok grove where
  calls _ _ called := called.elim
  thunks n id thunk h s inv := by
    have node : thunk = treeThunk := by
      cases h with
      | arboreal h =>
        cases h
        rfl
    subst node
    cases n with
    | zero => exact .gaveUp inv
    | succ n => exact .answer ⟨rfl, rfl, rfl, rfl⟩ (inv.aside (inv.toFamiliar.aside rfl rfl rfl) rfl rfl)
  targets _ known := by
    cases known
    exact .arboreal (.array 2 .tree)

theorem forest_discreet : (forest false).Discreet where
  attributes h := by
    cases h with
    | arboreal h => cases h
  fields h := by
    cases h with
    | arboreal h => cases h
    | resolved asked => cases asked

/-- A list of lists, before anything is asked. -/
def beforehand : Session :=
  { heap := { lists := #[[], [.list .base 0]] } }

/-- The same list, once it has been matched. -/
def afterwards (curious : Bool) : Session :=
  ((Request.accepts tree (.list .base 1)).run ((forest curious).engine 9)).after beforehand

theorem beforehand_reached {S : Setting} : S.Reached beforehand :=
  .start rfl rfl rfl rfl

theorem afterwards_reached (curious : Bool) : (forest curious).Reached (afterwards curious) :=
  .ask 9 beforehand_reached (.arboreal .tree)

theorem beforehand_alike (curious : Bool) : beforehand.Alike false (afterwards curious) := by
  constructor
  case level => exact Int.le_refl _
  all_goals first | rfl | nofun

end Forest

end Setting

end Conform
