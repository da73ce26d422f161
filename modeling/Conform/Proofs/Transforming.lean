import Conform.Proofs.Pool
import Conform.Proofs.Vetting

/-!
Mapping with and without declared transforms. Where a declaration is found whose result type is below the
target, the results are not looked at; otherwise they are checked. The two come to the same for a function
that gives the same whenever it is called.

Main statement: `Regime.map_like_map`.
-/
namespace Conform

open Value Descriptor

namespace Regime

variable {R : Regime} {n : Nat} {s t u : Session} {T d : Descriptor} {fn : Value} {items : List Value}
  {same : Fault → Fault → Prop}

/-- Whether two values are equal, and a type does not tell them apart. -/
structure Twins (R : Regime) (T : Descriptor) (s : Session) (w w' : Value) : Prop where
  alike : isAlike w w' s.heap = .ok true
  matched : R.Holds s T w ↔ R.Holds s T w'

theorem Twins.since {w w' : Value} (twins : R.Twins T s w w') (sound : R.Sound s) (hT : R.Knows s T)
    (lw : w.Live s.heap) (lw' : w'.Live s.heap) (st : R.Since s t) : R.Twins T t w w' where
  alike := by
    rw [← twins.alike]
    exact (isAlike_carries st.before.heap sound.closed w w' lw lw').eq
  matched := by
    have here := R.steady sound st.sound st.later hT lw
    have here' := R.steady sound st.sound st.later hT lw'
    exact here.symm.trans (twins.matched.trans here')

/-- Whether two runs, one after the other, come to the same end. -/
inductive Agree {α : Type} (P : Session → α → α → Prop) (same : Fault → Fault → Prop) :
    EStateM.Result Fault Session α → EStateM.Result Fault Session α → Prop
  | answered {a a' : α} {t t' : Session} (alike : P t' a a') : Agree P same (.ok a t) (.ok a' t')
  | failed {f f' : Fault} {t t' : Session} (alike : same f f') : Agree P same (.error f t) (.error f' t')

/-- Whether a function has no effect on what is there when it is called on a value, and gives the same
whenever it is called: equal results that a type does not tell apart, or the same fault. Matching the
results comes to an answer. -/
structure Repeats (R : Regime) (n : Nat) (s : Session) (T : Descriptor) (same : Fault → Fault → Prop)
    (fn x : Value) : Prop where
  quiet : ∀ t, R.Since s t → R.Since t (((R.engine (n + 1)).call fn [x] []).after t)
  live : ∀ t w u, R.Since s t → (R.engine (n + 1)).call fn [x] [] t = .ok w u → w.Live u.heap
  decides : ∀ t w u, R.Since s t → (R.engine (n + 1)).call fn [x] [] t = .ok w u → R.Decides n u T w
  again : ∀ t t', R.Since s t → R.Since (((R.engine (n + 1)).call fn [x] []).after t) t' →
    Agree (R.Twins T) same ((R.engine (n + 1)).call fn [x] [] t) ((R.engine (n + 1)).call fn [x] [] t')

theorem Repeats.since {x : Value} (repeats : R.Repeats n s T same fn x) (st : R.Since s t) :
    R.Repeats n t T same fn x where
  quiet u tu := repeats.quiet u (st.trans tu)
  live u w v tu := repeats.live u w v (st.trans tu)
  decides u w v tu := repeats.decides u w v (st.trans tu)
  again u v tu := repeats.again u v (st.trans tu)

/-- The results of a function on some values. -/
def calls (R : Regime) (n : Nat) (fn : Value) (items : List Value) : Act (List Value) :=
  items.mapM fun x => (R.engine (n + 1)).call fn [x] []

/-- Whether a value was the result of a call between two moments. -/
def Returned (R : Regime) (n : Nat) (fn : Value) (items : List Value) (s t : Session) (w : Value) : Prop :=
  ∃ x ∈ items, ∃ s' t', R.Since s s' ∧ (R.engine (n + 1)).call fn [x] [] s' = .ok w t' ∧ R.Since t' t

theorem calls_nil : R.calls n fn [] s = .ok [] s :=
  rfl

theorem calls_failed {x : Value} {f : Fault} (first : (R.engine (n + 1)).call fn [x] [] s = .error f t) :
    R.calls n fn (x :: items) s = .error f t := by
  rw [calls, List.mapM_cons]
  exact Act.bind_of_error first

theorem calls_rest_failed {x w : Value} {f : Fault}
    (first : (R.engine (n + 1)).call fn [x] [] s = .ok w t) (rest : R.calls n fn items t = .error f u) :
    R.calls n fn (x :: items) s = .error f u := by
  rw [calls, List.mapM_cons, Act.bind_of_ok first]
  exact Act.bind_of_error rest

theorem calls_cons {x w : Value} {ws : List Value} (first : (R.engine (n + 1)).call fn [x] [] s = .ok w t)
    (rest : R.calls n fn items t = .ok ws u) : R.calls n fn (x :: items) s = .ok (w :: ws) u := by
  rw [calls, List.mapM_cons, Act.bind_of_ok first]
  exact Act.bind_of_ok rest

/-- The calls end at a moment since which all is as it was. -/
theorem calls_end (repeats : ∀ x ∈ items, R.Repeats n s T same fn x) (st : R.Since s t) :
    (∃ f u, R.calls n fn items t = .error f u ∧ R.Since t u) ∨
    ∃ ws u, R.calls n fn items t = .ok ws u ∧ R.Since t u ∧
      ∀ w ∈ ws, R.Returned n fn items t u w := by
  induction items generalizing t with
  | nil => exact .inr ⟨[], t, calls_nil, .refl st.sound, by simp⟩
  | cons x items ih =>
    simp only [List.forall_mem_cons] at repeats
    have quiet := repeats.1.quiet t st
    cases first : (R.engine (n + 1)).call fn [x] [] t with
    | error f u =>
      rw [Act.after_of_error first] at quiet
      exact .inl ⟨f, u, calls_failed first, quiet⟩
    | ok w u =>
      rw [Act.after_of_ok first] at quiet
      obtain ⟨f, v, failed, uv⟩ | ⟨ws, v, done, uv, returned⟩ := ih repeats.2 (st.trans quiet)
      · exact .inl ⟨f, v, calls_rest_failed first failed, quiet.trans uv⟩
      · refine .inr ⟨w :: ws, v, calls_cons first done, quiet.trans uv, ?_⟩
        rintro w' (_ | ⟨_, hw⟩)
        · exact ⟨x, by simp, t, u, .refl st.sound, first, uv⟩
        · obtain ⟨y, hy, s', t', us, call, tv⟩ := returned w' hw
          exact ⟨y, by simp [hy], s', t', quiet.trans us, call, tv⟩

/-- What is called later comes to the same. -/
theorem calls_agree (hT : R.Knows s T) (repeats : ∀ x ∈ items, R.Repeats n s T same fn x)
    (st : R.Since s t) (tu : R.Since ((R.calls n fn items).after t) u) :
    Agree (fun v => List.Forall₂ (R.Twins T v)) same (R.calls n fn items t) (R.calls n fn items u) := by
  induction items generalizing t u with
  | nil => exact .answered .nil
  | cons x items ih =>
    simp only [List.forall_mem_cons] at repeats
    have quiet := repeats.1.quiet t st
    have again := repeats.1.again t u st
    cases first : (R.engine (n + 1)).call fn [x] [] t with
    | error f t' =>
      rw [Act.after_of_error (calls_failed first)] at tu
      rw [Act.after_of_error first, first] at again
      generalize second : (R.engine (n + 1)).call fn [x] [] u = r at again
      obtain _ | ⟨alike⟩ := again tu
      rw [calls_failed first, calls_failed second]
      exact .failed alike
    | ok w t' =>
      rw [Act.after_of_ok first] at quiet again
      rw [first] at again
      have st' := st.trans quiet
      have lw := repeats.1.live t w t' st first
      -- The rest of the earlier calls lies between the two calls on the first value.
      have earlier : R.Since t' u ∧ R.Since ((R.calls n fn items).after t') u := by
        obtain ⟨f, v, failed, tv⟩ | ⟨ws, v, done, tv, -⟩ := calls_end repeats.2 st'
        · rw [Act.after_of_error (calls_rest_failed first failed)] at tu
          rw [Act.after_of_error failed]
          exact ⟨tv.trans tu, tu⟩
        · rw [Act.after_of_ok (calls_cons first done)] at tu
          rw [Act.after_of_ok done]
          exact ⟨tv.trans tu, tu⟩
      have su := st'.trans earlier.1
      have quiet' := repeats.1.quiet u su
      generalize second : (R.engine (n + 1)).call fn [x] [] u = r at again
      obtain @⟨_, w', _, u', twins⟩ | _ := again earlier.1
      rw [Act.after_of_ok second] at quiet'
      have su' := su.trans quiet'
      have rest := ih repeats.2 st' (earlier.2.trans quiet')
      obtain ⟨f, v, failed, uv⟩ | ⟨ws', v, done, uv, -⟩ := calls_end repeats.2 su'
      · rw [failed] at rest
        generalize others : R.calls n fn items t' = r at rest
        obtain _ | ⟨alike⟩ := rest
        rw [calls_rest_failed first others, calls_rest_failed second failed]
        exact .failed alike
      · rw [done] at rest
        generalize others : R.calls n fn items t' = r at rest
        obtain ⟨alike⟩ | _ := rest
        rw [calls_cons first others, calls_cons second done]
        refine .answered (.cons ?_ alike)
        refine twins.since su'.sound (hT.later su'.later) ?_ (repeats.1.live u w' u' su second) uv
        exact (earlier.1.trans quiet').live lw

section Running

variable {self : CheckedList.Self} {e : Engine} {found : Option Descriptor}

/-- Mapping without a look at the results. -/
def mapTrusting (e : Engine) (self : CheckedList.Self) (T : Descriptor) (fn : Value)
    (items : List Value) : Act Value := do
  let mapped ← items.mapM fun v => e.call fn [v] []
  let collection := Descriptor.collection (← Act.fresh) .array T
  Act.newChecked self.cls { items := mapped, element := T, collection, frozen := false }

/-- Mapping with a check of the results. -/
def mapChecking (e : Engine) (self : CheckedList.Self) (T : Descriptor) (fn : Value)
    (items : List Value) : Act Value := do
  Logging.trace (do return "checked.CheckedList.map: Validating mapped values against " ++ (← T.describe))
  let collection := Descriptor.collection (← Act.fresh) .array T
  let mapped ← items.mapM fun v => e.call fn [v] []
  let whole ← Act.newList mapped
  self.vet e whole collection "map" none
  Act.newChecked self.cls { items := ← whole.items, element := T, collection, frozen := false }

/-- The line of the log that says why the results are not looked at. -/
def trustMessage (result T : Descriptor) : Look String := do
  return "checked.CheckedList.map: Fast path, " ++ (← result.describe) ++ " <= " ++ (← T.describe)

/-- A map goes one of two ways, by what is declared for the function. -/
def mapFound (e : Engine) (self : CheckedList.Self) (T : Descriptor) (fn : Value)
    (items : List Value) : Option Descriptor → Act Value
  | none => mapChecking e self T fn items
  | some result => do
    if ← e.subtype result T then
      Logging.trace (trustMessage result T)
      mapTrusting e self T fn items
    else mapChecking e self T fn items

theorem run_map
    (searched : Transforms.lookup (.descriptor (s.heap.checkedList self.at_).element) fn s = .ok found t) :
    (CheckedList.Op.map (.descriptor T) fn).run e self s =
      mapFound e self T fn (s.heap.checkedList self.at_).items found t := by
  have started : (CheckedList.Op.map (.descriptor T) fn).run e self s = (do
      let fast ← match ← Transforms.lookup (.descriptor (s.heap.checkedList self.at_).element) fn with
        | none => pure false
        | some result => do
          let below ← e.subtype result T
          if below then Logging.trace (trustMessage result T)
          pure below
      if fast then mapTrusting e self T fn (s.heap.checkedList self.at_).items
      else mapChecking e self T fn (s.heap.checkedList self.at_).items : Act Value) s := rfl
  rw [started, Act.bind_of_ok searched]
  cases found with
  | none => rfl
  | some result =>
    cases judged : e.subtype result T t with
    | error f u => exact (Act.bind_of_error judged).trans (Act.bind_of_error judged).symm
    | ok below u =>
      refine (Act.bind_of_ok judged).trans (Eq.trans ?_ (Act.bind_of_ok judged).symm)
      cases below <;> rfl

/-- Whether some values that do not all match are refused: in the name of the list, or because the text of
the refusal gives up. -/
def Refused (self : CheckedList.Self) (T : Descriptor) (ws : List Value) (s : Session) (f : Fault)
    (t : Session) : Prop :=
  (∃ i k, Blames self (.collection k .array T) (.list .base i) "map" none t f ∧ t.heap.list i = ws) ∨
    f = .exhausted ∧ ∃ k, refusal (.collection k .array T) ws s.heap = .error .exhausted

/-- What becomes of the results of a map: they match and are in a new list, or they do not all match and
are refused. -/
inductive Settles (R : Regime) (self : CheckedList.Self) (T : Descriptor) (ws : List Value) (s : Session) :
    EStateM.Result Fault Session Value → Prop
  | mapped {t : Session} {i : Handle} {k : Ident} (st : R.Since s t) (all : ∀ w ∈ ws, R.Holds s T w)
    (made : t.heap.checkedList i = ⟨ws, T, .collection k .array T, false⟩) :
    Settles R self T ws s (.ok (.checked self.cls i) t)
  | refused {t : Session} {f : Fault} (st : R.Since s t) (some : ¬∀ w ∈ ws, R.Holds s T w)
    (refused : Refused self T ws s f t) : Settles R self T ws s (.error f t)

/-- How a map ends that calls its function from a moment on. -/
inductive Maps (R : Regime) (n : Nat) (self : CheckedList.Self) (T : Descriptor) (fn : Value)
    (items : List Value) (s : Session) : EStateM.Result Fault Session Value → Prop
  | raised {t : Session} {f : Fault} (called : R.calls n fn items s = .error f t) (st : R.Since s t) :
    Maps R n self T fn items s (.error f t)
  | returned {t : Session} {ws : List Value} {r : EStateM.Result Fault Session Value}
    (called : R.calls n fn items s = .ok ws t) (st : R.Since s t) (live : ∀ w ∈ ws, w.Live t.heap)
    (settles : R.Settles self T ws t r) : Maps R n self T fn items s r

/-- The results are put into a list and checked before they are in a new checked list. -/
theorem checking_settles {ws : List Value} {k : Ident} (sound : R.Sound s) (hT : R.Knows s T)
    (ls : self.value.Live s.heap) (lw : ∀ w ∈ ws, w.Live s.heap)
    (decides : ∀ w ∈ ws, R.Decides n s T w) :
    R.Settles self T ws s ((do
      let whole ← Act.newList ws
      self.vet (R.engine (n + 1)) whole (.collection k .array T) "map" none
      Act.newChecked self.cls
        { items := ← whole.items, element := T, collection := .collection k .array T, frozen := false } :
      Act Value) s) := by
  let vetting : Act (List Value) := do
    let whole ← Act.newList ws
    self.vet (R.engine (n + 1)) whole (.collection k .array T) "map" none
    whole.items
  have assoc : (do
      let whole ← Act.newList ws
      self.vet (R.engine (n + 1)) whole (.collection k .array T) "map" none
      Act.newChecked self.cls
        { items := ← whole.items, element := T, collection := .collection k .array T, frozen := false } :
      Act Value) = (do
      let items ← vetting
      Act.newChecked self.cls
        { items, element := T, collection := .collection k .array T, frozen := false }) := by
    simp only [vetting, bind_assoc]
  have joins : R.Joins s self k T ws "map" none (vetting s) :=
    newList_ends sound hT ls lw decides (.refl sound)
  rw [assoc]
  generalize vetted : vetting s = r at joins
  cases joins with
  | passed all idle =>
    have st := idle.toSince
    have made := Since.newChecked (l := ⟨ws, T, .collection k .array T, false⟩) st.sound (hT.later st.later)
      fun w hw => st.live (lw w hw)
    rw [Act.bind_of_ok vetted]
    refine .mapped (k := k) (st.trans made) all ?_
    simp [checkedList_push]
  | refused some _ blame held idle =>
    rw [Act.bind_of_error vetted]
    exact .refused idle.toSince some (.inl ⟨_, _, blame, held⟩)
  | unwritten some silent idle =>
    rw [Act.bind_of_error vetted]
    exact .refused idle.toSince some (.inr ⟨rfl, k, silent⟩)

theorem live_of_returned (repeats : ∀ x ∈ items, R.Repeats n s T same fn x) (st : R.Since s t) {w : Value}
    (returned : R.Returned n fn items t u w) : w.Live u.heap := by
  obtain ⟨x, hx, s', t', ts, called, tu⟩ := returned
  exact tu.live ((repeats x hx).live s' w t' (st.trans ts) called)

theorem mapTrusting_ends (hT : R.Knows s T) (repeats : ∀ x ∈ items, R.Repeats n s T same fn x)
    (st : R.Since s t)
    (trusted : ∀ u w, R.Since t u → R.Returned n fn items t u w → R.Holds u T w) :
    R.Maps n self T fn items t (mapTrusting (R.engine (n + 1)) self T fn items t) := by
  obtain ⟨f, u, called, tu⟩ | ⟨ws, u, called, tu, returned⟩ := calls_end repeats st
  · have failed : mapTrusting (R.engine (n + 1)) self T fn items t = .error f u := Act.bind_of_error called
    rw [failed]
    exact .raised called tu
  · let l : CheckedList := ⟨ws, T, .collection u.nextIdent .array T, false⟩
    let u' : Session := { u with nextIdent := u.nextIdent + 1 }
    have made : mapTrusting (R.engine (n + 1)) self T fn items t =
        .ok (.checked self.cls u.heap.checked.size)
          { u' with heap := { u'.heap with checked := u'.heap.checked.push l } } := Act.bind_of_ok called
    have uu' : R.Since u u' := (Idle.aside tu.sound u.log (u.nextIdent + 1) u.transformsEnabled).toSince
    have su' := (st.trans tu).trans uu'
    have lw : ∀ w ∈ ws, w.Live u.heap := fun w hw => live_of_returned repeats st (returned w hw)
    have uv := uu'.trans (.newChecked (l := l) uu'.sound (hT.later su'.later) fun w hw => uu'.live (lw w hw))
    rw [made]
    refine .returned called tu lw (.mapped (k := u.nextIdent) uv (fun w hw => ?_) ?_)
    · exact trusted u w tu (returned w hw)
    · simp [checkedList_push, u', l]

theorem mapChecking_ends (ls : self.value.Live s.heap) (hT : R.Knows s T) (sound : R.Sound s)
    (described : ∃ text, T.describe s.heap = .ok text)
    (repeats : ∀ x ∈ items, R.Repeats n s T same fn x) (st : R.Since s t) :
    ∃ t', R.Since t t' ∧
      R.Maps n self T fn items t' (mapChecking (R.engine (n + 1)) self T fn items t) := by
  let rest (k : Ident) : Act Value := do
    let mapped ← R.calls n fn items
    let whole ← Act.newList mapped
    self.vet (R.engine (n + 1)) whole (.collection k .array T) "map" none
    Act.newChecked self.cls
      { items := ← whole.items, element := T, collection := .collection k .array T, frozen := false }
  have started : ∃ k t', mapChecking (R.engine (n + 1)) self T fn items t = rest k t' ∧ R.Since t t' := by
    let message : Look String := do
      return "checked.CheckedList.map: Validating mapped values against " ++ (← T.describe)
    cases traced : Logging.trace message t with
    | error f t' =>
      obtain ⟨text, described⟩ := described
      obtain ⟨failed, -⟩ := trace_error traced
      simp [message, describe_grow st.before.heap sound.closed hT.2, described] at failed
    | ok a t' =>
      obtain ⟨log, rfl⟩ := trace_ok traced
      refine ⟨t.nextIdent, { t with log, nextIdent := t.nextIdent + 1 }, Act.bind_of_ok traced, ?_⟩
      exact (Idle.aside st.sound log (t.nextIdent + 1) t.transformsEnabled).toSince
  obtain ⟨k, t', started, tt'⟩ := started
  refine ⟨t', tt', ?_⟩
  rw [started]
  have st' := st.trans tt'
  obtain ⟨f, u, called, tu⟩ | ⟨ws, u, called, tu, returned⟩ := calls_end repeats st'
  · have failed : rest k t' = .error f u := Act.bind_of_error called
    rw [failed]
    exact .raised called tu
  · have su := st'.trans tu
    have lw : ∀ w ∈ ws, w.Live u.heap := fun w hw => live_of_returned repeats st' (returned w hw)
    have decides : ∀ w ∈ ws, R.Decides n u T w := by
      intro w hw
      obtain ⟨x, hx, a, b, ta, call, bu⟩ := returned w hw
      exact ((repeats x hx).decides a w b (st'.trans ta) call).later bu.before
    have goesOn : rest k t' = _ := Act.bind_of_ok called
    rw [goesOn]
    exact .returned called tu lw (checking_settles tu.sound (hT.later su.later) (su.live ls) lw decides)

theorem keyOf_ok {key : TransformKey} (run : Transforms.keyOf d s = .ok key t) : t = s ∧ key.source = d := by
  have untyped (f : Fault) (u : Session) (hashed : (do
      let _ ← Value.hash (.descriptor d)
      return .byValue d : Act TransformKey) s = .error f u) : u = s := by
    simp only [Act.bind_eq_error, Act.lift_eq_error, Act.pure_ne_error, and_false, exists_false, or_false] at hashed
    exact hashed.2.symm
  simp only [Transforms.keyOf, Act.handle] at run
  split at run
  · next hashed =>
    cases run
    simp only [Act.bind_eq_ok, Act.lift_eq_ok, Act.pure_eq_ok] at hashed
    obtain ⟨_, _, ⟨-, rfl⟩, rfl, rfl⟩ := hashed
    exact ⟨rfl, rfl⟩
  · next hashed =>
    obtain rfl := untyped _ _ hashed
    split at run
    · obtain ⟨rfl, rfl⟩ := Act.pure_eq_ok.mp run
      exact ⟨rfl, rfl⟩
    · cases run

theorem query_ok {key : TransformKey} (run : Transforms.query (.descriptor d) fn s = .ok key t) :
    t = s ∧ key.source = d := by
  have started : Transforms.query (.descriptor d) fn s = (do
      let key ← Transforms.keyOf d
      let _ ← fn.hash
      return key : Act TransformKey) s := rfl
  rw [started] at run
  obtain ⟨found, u, keyed, hash⟩ := Act.bind_eq_ok.mp run
  obtain ⟨rfl, source⟩ := keyOf_ok keyed
  obtain ⟨_, _, hashed, answer⟩ := Act.bind_eq_ok.mp hash
  obtain ⟨-, rfl⟩ := Act.lift_eq_ok.mp hashed
  obtain ⟨rfl, rfl⟩ := Act.pure_eq_ok.mp answer
  exact ⟨rfl, source⟩

/-- What a search among the declarations finds is the result type of one of them, made for an equal
function and a type above. It changes nothing. -/
theorem lookup_found (sound : R.Sound s) (hd : R.Knows s d)
    (known : ∀ declared ∈ s.transforms, R.Knows s declared.key.source ∧ R.Knows s declared.result)
    (searched : Transforms.lookup (.descriptor d) fn s = .ok found t) :
    t = s ∧ ∀ result ∈ found, ∃ declared ∈ s.transforms, declared.result = result ∧
      isAlike declared.fn fn s.heap = .ok true ∧ ∃ m, BelowIn s.ground m d declared.key.source := by
  obtain ⟨_, _, ⟨rfl, rfl⟩, run⟩ := Act.bind_eq_ok.mp (by simpa only [Transforms.lookup] using searched)
  split at run
  · obtain ⟨rfl, rfl⟩ := Act.pure_eq_ok.mp run
    exact ⟨rfl, nofun⟩
  · obtain ⟨key, _, queried, look⟩ := Act.bind_eq_ok.mp run
    obtain ⟨rfl, source⟩ := query_ok queried
    obtain ⟨_, _, ⟨rfl, rfl⟩, look⟩ := Act.bind_eq_ok.mp look
    obtain ⟨found, _, looked, answer⟩ := Act.bind_eq_ok.mp look
    obtain ⟨seen, rfl⟩ := Act.lift_eq_ok.mp looked
    obtain ⟨rfl, rfl⟩ := Act.pure_eq_ok.mp answer
    refine ⟨rfl, fun result hr => ?_⟩
    obtain ⟨declared, rfl, rfl⟩ := Option.map_eq_some_iff.mp hr
    obtain ⟨member, keys, functions⟩ := find?_some seen
    have below := below_of_sameKey sound (known declared member).1 (source ▸ hd) keys
    exact ⟨declared, member, rfl, functions, source ▸ below⟩

end Running

/-- What a map between a list and a type goes by: the table of declarations can be searched for the
function, what is found can be compared with the type, and both can be written into the log. -/
structure Prepared (R : Regime) (n : Nat) (s : Session) (d T : Descriptor) (fn : Value) : Prop where
  searched : ∀ t, R.Since s t → ∃ found u, Transforms.lookup (.descriptor d) fn t = .ok found u
  compared : ∀ t result u, R.Since s t → Transforms.lookup (.descriptor d) fn t = .ok (some result) u →
    ∃ yes v, (R.engine (n + 1)).subtype result T u = .ok yes v
  described : ∀ d, d = T ∨ (∃ declared ∈ s.transforms, d = declared.result) →
    ∃ text, d.describe s.heap = .ok text

section Mapping

variable {self : CheckedList.Self}

/-- What a declared function returns matches its declared type, and so the types above. -/
theorem holds_of_declared {declared : Transform} {v : Session} {x : Value} {m k : Nat}
    (truthful : declared.Truthful R) (sound : R.Sound s) (hd : R.Knows s d) (hT : R.Knows s T)
    (known : R.Knows s declared.key.source ∧ R.Knows s declared.result)
    (admits : R.Admits s d items) (alike : isAlike declared.fn fn s.heap = .ok true)
    (source : BelowIn s.ground m d declared.key.source) (st : R.Since s t)
    (result : BelowIn t.ground k declared.result T) (tu : R.Since t u)
    (repeats : ∀ x ∈ items, R.Repeats n s T same fn x) (returned : R.Returned n fn items u v x) :
    R.Holds v T x := by
  obtain ⟨y, hy, a, b, ua, called, bv⟩ := returned
  have sa := (st.trans tu).trans ua
  have quiet := (repeats y hy).quiet a sa
  rw [Act.after_of_ok called] at quiet
  have sb := sa.trans quiet
  have tb := (tu.trans ua).trans quiet
  obtain ⟨ly, matched⟩ := admits.later sound sa.sound sa.later hd y hy
  have source' := below_later sound sa.sound sa.later hd known.1 source
  have argument := holds_of_below sa.sound (hd.later sa.later) (known.1.later sa.later) ly source' matched
  have lx := (repeats y hy).live a x b sa called
  have answer := truthful s a b fn (n + 1) y x sound sa.sound sa.later alike ly argument called
  have result' := below_later st.sound sb.sound tb.later (known.2.later st.later) (hT.later st.later) result
  have above := holds_of_below sb.sound (known.2.later sb.later) (hT.later sb.later) lx result' answer
  exact (R.steady sb.sound bv.sound bv.later (hT.later sb.later) lx).mp above

variable (sound : R.Sound s) (kept : (s.heap.checkedList self.at_).Kept R s) (hT : R.Knows s T)
  (truthful : ∀ declared ∈ s.transforms, declared.Truthful R)
  (known : ∀ declared ∈ s.transforms, R.Knows s declared.key.source ∧ R.Knows s declared.result)
  (prepared : R.Prepared n s (s.heap.checkedList self.at_).element T fn)
  (repeats : ∀ x ∈ (s.heap.checkedList self.at_).items, R.Repeats n s T same fn x)

include sound kept hT truthful known prepared repeats

/-- A map ends in one of three ways, whatever is declared. -/
theorem run_maps (st : R.Since s t) :
    ∃ t', R.Since t t' ∧ R.Maps n self T fn (s.heap.checkedList self.at_).items t'
      ((CheckedList.Op.map (.descriptor T) fn).run (R.engine (n + 1)) self t) := by
  have ls : self.value.Live s.heap := kept.live
  have stays : t.heap.checkedList self.at_ = s.heap.checkedList self.at_ := st.before.heap.checkedList_eq ls
  have hd : R.Knows s (s.heap.checkedList self.at_).element := ⟨sound.elements _, sound.closed.elements _⟩
  obtain ⟨found, t', searched⟩ := prepared.searched t st
  have known' : ∀ declared ∈ t.transforms, R.Knows t declared.key.source ∧ R.Knows t declared.result := by
    rw [st.transforms]
    exact fun declared member =>
      ⟨(known declared member).1.later st.later, (known declared member).2.later st.later⟩
  obtain ⟨rfl, finds⟩ := lookup_found st.sound (hd.later st.later) known' searched
  rw [run_map (stays ▸ searched), stays]
  have describes : ∃ text, T.describe s.heap = .ok text := prepared.described T (.inl rfl)
  cases found with
  | none => exact mapChecking_ends ls hT sound describes repeats st
  | some result =>
    obtain ⟨declared, member, rfl, alike, m, source⟩ := finds result rfl
    obtain ⟨yes, u, judged⟩ := prepared.compared _ _ _ st searched
    have tu := (subtype_idle st.sound (known' declared member).2 (hT.later st.later) judged).toSince
    have su := st.trans tu
    rw [mapFound, Act.bind_of_ok judged]
    cases yes with
    | false =>
      obtain ⟨u', uu', maps⟩ := mapChecking_ends ls hT sound describes repeats su
      exact ⟨u', tu.trans uu', maps⟩
    | true =>
      rw [st.transforms] at member
      obtain ⟨k, below⟩ := below_of_subtype st.sound (known' declared (st.transforms ▸ member)).2
        (hT.later st.later) judged
      cases traced : Logging.trace (trustMessage declared.result T) u with
      | error f u' =>
        obtain ⟨failed, -⟩ := trace_error traced
        obtain ⟨text, written⟩ := prepared.described declared.result (.inr ⟨declared, member, rfl⟩)
        obtain ⟨text', written'⟩ := describes
        simp [trustMessage, describe_grow su.before.heap sound.closed (known declared member).2.2, written,
          describe_grow su.before.heap sound.closed hT.2, written'] at failed
      | ok a u' =>
        obtain ⟨log, rfl⟩ := trace_ok traced
        have uu' := (Idle.aside su.sound log u.nextIdent u.transformsEnabled).toSince
        rw [if_pos rfl, Act.bind_of_ok traced]
        refine ⟨_, tu.trans uu', mapTrusting_ends hT repeats (su.trans uu') fun v x uv returned => ?_⟩
        have admits : R.Admits s _ (s.heap.checkedList self.at_).items :=
          fun v hv => ⟨sound.closed.checked self.at_ v hv, kept.items v hv⟩
        exact holds_of_declared (truthful declared member) st.sound (hd.later st.later) (hT.later st.later)
          (known' declared (st.transforms ▸ member)) (admits.later sound st.sound st.later hd) alike source
          tu below uu' (fun x hx => (repeats x hx).since st) returned

/-- A map with the use of declarations turned on or off. -/
def mapping (R : Regime) (n : Nat) (self : CheckedList.Self) (T : Descriptor) (fn : Value)
    (enabled : Bool) : Act Value := do
  Transforms.setEnabled (.bool enabled)
  (CheckedList.Op.map (.descriptor T) fn).run (R.engine (n + 1)) self

theorem mapping_maps (enabled : Bool) (st : R.Since s t) :
    ∃ t', R.Since t t' ∧
      R.Maps n self T fn (s.heap.checkedList self.at_).items t' (R.mapping n self T fn enabled t) := by
  have turned : ∃ log, Transforms.setEnabled (.bool enabled) t =
      .ok () { t with log, transformsEnabled := enabled } := by
    have noted : Transforms.setEnabled (.bool enabled) t = Logging.record .info
        ("Transform cache " ++ (if enabled then "enabled" else "disabled"))
        { t with transformsEnabled := enabled } := rfl
    rw [noted]
    by_cases kept : t.level ≤ Logging.Severity.info.rank
    · exact ⟨_, by simp [Logging.record, kept]; rfl⟩
    · exact ⟨t.log, by simp [Logging.record, kept]⟩
  obtain ⟨log, turned⟩ := turned
  have tt' := (Idle.aside st.sound log t.nextIdent enabled).toSince
  obtain ⟨u, tu, maps⟩ := run_maps sound kept hT truthful known prepared repeats (st.trans tt')
  rw [mapping, Act.bind_of_ok turned]
  exact ⟨u, tt'.trans tu, maps⟩

end Mapping

section Comparing

variable {self : CheckedList.Self} {ws ws' : List Value}

theorem Twins.all_since (twins : List.Forall₂ (R.Twins T s) ws ws') (sound : R.Sound s) (hT : R.Knows s T)
    (lw : ∀ w ∈ ws, w.Live s.heap) (lw' : ∀ w ∈ ws', w.Live s.heap) (st : R.Since s t) :
    List.Forall₂ (R.Twins T t) ws ws' := by
  induction twins with
  | nil => exact .nil
  | cons first _ ih =>
    simp only [List.forall_mem_cons] at lw lw'
    exact .cons (first.since sound hT lw.1 lw'.1 st) (ih lw.2 lw'.2)

theorem Twins.all_match (twins : List.Forall₂ (R.Twins T s) ws ws') :
    (∀ w ∈ ws, R.Holds s T w) ↔ ∀ w ∈ ws', R.Holds s T w := by
  induction twins with
  | nil => simp
  | cons first _ ih =>
    simp only [List.forall_mem_cons]
    exact and_congr first.matched ih

/-- Whether two maps of the same values come to the same. They make lists of the same class and types with
equal contents, which are the results of the function and match the type; or the function fails alike; or
its results do not all match, and are refused. -/
inductive SameMap (R : Regime) (n : Nat) (s : Session) (self : CheckedList.Self) (T : Descriptor)
    (fn : Value) (items : List Value) (same : Fault → Fault → Prop) :
    EStateM.Result Fault Session Value → EStateM.Result Fault Session Value → Prop
  | mapped {t t' u u' v v' : Session} {ws ws' : List Value} {i i' : Handle} {k k' : Ident}
    (st : R.Since s t) (st' : R.Since s t') (called : R.calls n fn items t = .ok ws u)
    (called' : R.calls n fn items t' = .ok ws' u')
    (equal : List.Forall₂ (fun w w' => isAlike w w' v'.heap = .ok true) ws ws')
    (all : ∀ w ∈ ws, R.Holds v T w) (all' : ∀ w ∈ ws', R.Holds v' T w)
    (made : v.heap.checkedList i = ⟨ws, T, .collection k .array T, false⟩)
    (made' : v'.heap.checkedList i' = ⟨ws', T, .collection k' .array T, false⟩) :
    SameMap R n s self T fn items same (.ok (.checked self.cls i) v) (.ok (.checked self.cls i') v')
  | raised {t t' u u' : Session} {f f' : Fault} (st : R.Since s t) (st' : R.Since s t')
    (called : R.calls n fn items t = .error f u) (called' : R.calls n fn items t' = .error f' u')
    (alike : same f f') : SameMap R n s self T fn items same (.error f u) (.error f' u')
  | refused {t t' u u' v v' : Session} {ws ws' : List Value} {f f' : Fault}
    (st : R.Since s t) (st' : R.Since s t') (called : R.calls n fn items t = .ok ws u)
    (called' : R.calls n fn items t' = .ok ws' u')
    (equal : List.Forall₂ (fun w w' => isAlike w w' v'.heap = .ok true) ws ws')
    (some : ¬∀ w ∈ ws, R.Holds v T w) (some' : ¬∀ w ∈ ws', R.Holds v' T w)
    (refused : Refused self T ws u f v) (refused' : Refused self T ws' u' f' v') :
    SameMap R n s self T fn items same (.error f v) (.error f' v')

theorem Maps.after {x : Act Value} (maps : R.Maps n self T fn items t (x s)) :
    R.Since ((R.calls n fn items).after t) (x.after s) := by
  generalize run : x s = r at maps
  cases maps with
  | raised called tu =>
    rw [Act.after_of_error called, Act.after_of_error run]
    exact .refl tu.sound
  | returned called _ _ settles =>
    rw [Act.after_of_ok called]
    cases settles with
    | mapped uv => exact Act.after_of_ok run ▸ uv
    | refused uv => exact Act.after_of_error run ▸ uv

/-- Two maps, one after the other, come to the same. -/
theorem Maps.same_map {r r' : EStateM.Result Fault Session Value} (hT : R.Knows s T)
    (repeats : ∀ x ∈ items, R.Repeats n s T same fn x) (st : R.Since s t) (su : R.Since s u)
    (tu : R.Since ((R.calls n fn items).after t) u) (first : R.Maps n self T fn items t r)
    (second : R.Maps n self T fn items u r') : R.SameMap n s self T fn items same r r' := by
  have agree := calls_agree hT repeats st tu
  cases first with
  | raised called =>
    cases second with
    | raised called' =>
      rw [called, called'] at agree
      obtain _ | ⟨alike⟩ := agree
      exact .raised st su called called' alike
    | returned called' =>
      rw [called, called'] at agree
      cases agree
  | @returned v ws _ called tv live settles =>
    rw [Act.after_of_ok called] at tu
    cases second with
    | raised called' =>
      rw [called, called'] at agree
      cases agree
    | @returned v' ws' _ called' uv' live' settles' =>
      rw [called, called'] at agree
      obtain ⟨twins⟩ | _ := agree
      have sv := st.trans tv
      have sv' := su.trans uv'
      have vv' := tu.trans uv'
      have hv := hT.later sv.later
      have hv' := hT.later sv'.later
      have matched : (∀ w ∈ ws, R.Holds v T w) ↔ ∀ w ∈ ws', R.Holds v' T w :=
        (vv'.holds sv.sound hv live).symm.trans (Twins.all_match twins)
      have equal {x : Session} (vx : R.Since v' x) :
          List.Forall₂ (fun w w' => isAlike w w' x.heap = .ok true) ws ws' :=
        (Twins.all_since twins sv'.sound hv' (fun w hw => vv'.live (live w hw)) live' vx).imp
          fun _ _ twins => twins.alike
      cases settles with
      | mapped vx all made =>
        cases settles' with
        | mapped vx' all' made' =>
          exact .mapped st su called called' (equal vx') ((vx.holds sv.sound hv live).mpr all)
            ((vx'.holds sv'.sound hv' live').mpr all') made made'
        | refused _ some' => exact absurd (matched.mp all) some'
      | refused vx some refused =>
        cases settles' with
        | mapped _ all' => exact absurd (matched.mpr all') some
        | refused vx' some' refused' =>
          exact .refused st su called called' (equal vx') (mt (vx.holds sv.sound hv live).mp some)
            (mt (vx'.holds sv'.sound hv' live').mp some') refused refused'

end Comparing

section Booleans

/-- A function that gives nil. -/
abbrev nothing : Value := .fn { name := "nothing", traced := false, bare := false }

abbrev twoBooleans : CheckedList.Self := ⟨.checkedList, 0⟩

/-- A list of two booleans, and the declaration that the function takes booleans to anything. -/
def booleanDeclared : Session where
  heap := { checked := #[⟨[.bool true, .bool false], .boolean, .collection 1 .array .boolean, false⟩] }
  transforms := [⟨.byValue .boolean, nothing, .void⟩]

theorem booleanDeclared_sound : booleans.Sound booleanDeclared where
  closed := .of_lists (by simp) (by simp [Value.Live, Descriptor.Live])
  ancestors := nofun
  resolved := nofun
  elements := by
    intro i
    obtain _ | i := i
    · exact .boolean
    · exact .void

theorem booleanDeclared_known : ∀ declared ∈ booleanDeclared.transforms,
    booleans.Knows booleanDeclared declared.key.source ∧ booleans.Knows booleanDeclared declared.result := by
  intro declared member
  obtain rfl := List.mem_singleton.mp member
  exact ⟨⟨.boolean, trivial⟩, .void, trivial⟩

theorem booleanDeclared_prepared : booleans.Prepared 1 booleanDeclared .boolean .void nothing where
  searched := by
    rintro t ⟨-, -, transforms⟩
    obtain ⟨heap, nextIdent, resolved, ancestors, strayAncestors, table, enabled, level, log, calls, names⟩ := t
    obtain rfl : table = booleanDeclared.transforms := transforms
    cases enabled with
    | false => exact ⟨_, _, rfl⟩
    | true => exact ⟨_, _, rfl⟩
  compared := by
    intro t result u st searched
    have known : ∀ declared ∈ t.transforms,
        booleans.Knows t declared.key.source ∧ booleans.Knows t declared.result := by
      rw [st.transforms]
      intro declared member
      obtain ⟨source, result⟩ := booleanDeclared_known declared member
      exact ⟨source.later st.later, result.later st.later⟩
    obtain ⟨rfl, finds⟩ := lookup_found st.sound ⟨.boolean, trivial⟩ known searched
    obtain ⟨declared, member, rfl, -⟩ := finds result rfl
    rw [st.transforms] at member
    obtain rfl := List.mem_singleton.mp member
    exact ⟨_, _, rfl⟩
  described := by
    rintro d (rfl | ⟨declared, member, rfl⟩)
    · exact ⟨_, rfl⟩
    · obtain rfl := List.mem_singleton.mp member
      exact ⟨_, rfl⟩

theorem nothing_repeats (x : Value) : booleans.Repeats 1 booleanDeclared .void Eq nothing x where
  quiet t st := .refl st.sound
  live := by
    rintro t w u - called
    cases called
    trivial
  decides := by
    rintro t w u - called v - -
    exact ⟨_, v, boolean_accepts .void w v⟩
  again := by
    intro t t' _ _
    exact .answered ⟨rfl, Iff.rfl⟩

end Booleans

end Regime

end Conform
