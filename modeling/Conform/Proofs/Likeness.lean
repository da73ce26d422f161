import Conform.Proofs.Effects
import Conform.Proofs.History

/-!
Runs in sessions that are alike. The sessions differ in the log and its level, and perhaps in what is
remembered. A plain action that does not ask what is remembered answers the same in both, and leaves sessions
that are alike again. Only the text of a trace line is worked out in one run and not in the other; it can fail
in no other way than by giving up.

Main statement: `Act.Plain.echoes`.
-/
namespace Conform

/-- Whether a run ends as a louder one does, in a session that is alike, unless the louder one has given up. -/
def Echoes {α : Type} (records : Bool) : (louder quieter : EStateM.Result Fault Session α) → Prop
  | .error .exhausted _, _ => True
  | .ok a s, .ok b t => a = b ∧ s.Alike records t
  | .error f s, .error g t => f = g ∧ s.Alike records t
  | _, _ => False

namespace Echoes

variable {α β : Type} {records : Bool} {s t : Session}

theorem error (f : Fault) (alike : s.Alike records t) : Echoes (α := α) records (.error f s) (.error f t) := by
  cases f with
  | exhausted => trivial
  | _ => exact ⟨rfl, alike⟩

theorem ok {a : α} {y : EStateM.Result Fault Session α} (echoes : Echoes records (.ok a s) y) :
    ∃ t, y = .ok a t ∧ s.Alike records t := by
  cases y with
  | ok b t =>
    obtain ⟨rfl, alike⟩ := echoes
    exact ⟨t, rfl, alike⟩
  | error f t => exact echoes.elim

theorem bind {x y : Act α} {f g : α → Act β} (hx : Echoes records (x s) (y t))
    (hf : ∀ a s' t', x s = .ok a s' → s'.Alike records t' → Echoes records (f a s') (g a t')) :
    Echoes records ((x >>= f) s) ((y >>= g) t) := by
  change Echoes records (EStateM.bind x f s) (EStateM.bind y g t)
  unfold EStateM.bind
  cases first : x s with
  | ok a s' =>
    cases second : y t with
    | ok b t' =>
      rw [first, second] at hx
      obtain ⟨rfl, alike⟩ := hx
      exact hf a s' t' first alike
    | error e t' =>
      rw [first, second] at hx
      exact hx.elim
  | error e s' =>
    cases second : y t with
    | ok b t' =>
      rw [first, second] at hx
      cases e with
      | exhausted => trivial
      | _ => exact hx.elim
    | error e' t' =>
      rw [first, second] at hx
      cases e with
      | exhausted => trivial
      | _ =>
        obtain ⟨rfl, alike⟩ := hx
        exact ⟨rfl, alike⟩

end Echoes

/-- A trace line fails if it is to be kept and its text cannot be worked out. -/
theorem trace_eq_error {message : Look String} {s t : Session} {f : Fault} :
    Logging.trace message s = .error f t ↔
      s.level ≤ Logging.Severity.debug.rank ∧ message s.heap = .error f ∧ s = t := by
  simp only [Logging.trace, Act.bind_eq_error, Act.get_eq_ok, Act.get_ne_error, false_or]
  constructor
  · rintro ⟨_, _, ⟨rfl, rfl⟩, run⟩
    split at run
    · next loud =>
      simp only [Logging.record, Act.bind_eq_error, Act.lift_eq_error, Act.modify_ne_error, and_false,
        exists_false, or_false] at run
      exact ⟨loud, run⟩
    · simp only [Act.pure_ne_error] at run
  · rintro ⟨loud, silent, rfl⟩
    refine ⟨s, s, ⟨rfl, rfl⟩, ?_⟩
    rw [if_pos loud]
    exact Act.bind_eq_error.mpr (.inl (Act.lift_eq_error.mpr ⟨silent, rfl⟩))

/-- Trace lines are kept in one session and not in another one; apart from the log they do nothing. -/
theorem trace_echoes {records : Bool} {message : Look String} (words : message.Speaks) {s t : Session}
    (alike : s.Alike records t) : Echoes records (Logging.trace message s) (Logging.trace message t) := by
  cases first : Logging.trace message s with
  | error f s' =>
    obtain ⟨-, silent, rfl⟩ := trace_eq_error.mp first
    obtain rfl := words _ _ silent
    trivial
  | ok a s' =>
    obtain ⟨log, rfl⟩ := trace_ok first
    cases second : Logging.trace message t with
    | ok b t' =>
      obtain ⟨log', rfl⟩ := trace_ok second
      exact ⟨rfl, { alike with }⟩
    | error f t' =>
      obtain ⟨loud, silent, rfl⟩ := trace_eq_error.mp second
      rw [alike.heap] at silent
      have failed := trace_eq_error.mpr ⟨Int.le_trans alike.level loud, silent, rfl⟩
      rw [failed] at first
      cases first

/-- A plain action goes the same way in sessions that look the same to it. -/
theorem Act.Plain.echoes {α : Type} {r : Reach} {x : Act α} (hx : x.Plain r) :
    ∀ s t : Session, s.Alike r.records t → Echoes r.records (x s) (x t) := by
  induction hx with
  | pure a => exact fun s t alike => ⟨rfl, alike⟩
  | throw f => exact fun s t alike => .error f alike
  | lift l =>
    intro s t alike
    change Echoes r.records (Act.look l s) (Act.look l t)
    unfold Act.look
    rw [alike.heap]
    cases l s.heap with
    | ok a => exact ⟨rfl, alike⟩
    | error f => exact .error f alike
  | bind _ _ hx hf => exact fun s t alike => .bind (hx s t alike) fun a s' t' _ => hf a s' t'
  | @handle _ c x f _ _ hx hf =>
    intro s t alike
    have body := hx s t alike
    unfold Act.handle
    cases first : x s with
    | ok a s' =>
      cases second : x t with
      | ok b t' => rwa [first, second] at body
      | error e t' =>
        rw [first, second] at body
        exact body.elim
    | error e s' =>
      cases e with
      | exhausted => trivial
      | _ =>
        cases second : x t with
        | ok b t' =>
          rw [first, second] at body
          exact body.elim
        | error e' t' =>
          rw [first, second] at body
          obtain ⟨rfl, alike⟩ := body
          dsimp only
          split
          · exact hf _ s' t' alike
          · exact ⟨rfl, alike⟩
  | @get _ f sees _ _ hf =>
    intro s t alike
    change Echoes r.records (f s s) (f t t)
    rw [sees s t alike]
    exact hf s s t alike
  | modify _ _ alike _ => exact fun s t same => ⟨rfl, alike s t same⟩
  | trace words => exact fun s t alike => trace_echoes words alike

/-- An action that goes the same way in sessions that are alike. -/
def Act.Echoing (records : Bool) {α : Type} (x : Act α) : Prop :=
  ∀ s t : Session, s.Alike records t → Echoes records (x s) (x t)

namespace Act.Echoing

variable {α β : Type} {records : Bool}

theorem plain {x : Act α} (hx : x.Plain ⟨true, records, true⟩) : x.Echoing records :=
  hx.echoes

theorem pure (a : α) : (pure a : Act α).Echoing records :=
  plain (.pure a)

theorem bind {x : Act α} {f : α → Act β} (hx : x.Echoing records) (hf : ∀ a, (f a).Echoing records) :
    (x >>= f).Echoing records :=
  fun s t alike => .bind (hx s t alike) fun a s' t' _ => hf a s' t'

theorem get {f : Session → Act α} (sees : ∀ s t, s.Alike records t → f t = f s) (hf : ∀ s, (f s).Echoing records) :
    (get >>= f).Echoing records := by
  intro s t alike
  change Echoes records (f s s) (f t t)
  rw [sees s t alike]
  exact hf s s t alike

theorem modify {f : Session → Session} (hf : ∀ s t, s.Alike records t → (f s).Alike records (f t)) :
    (modify f : Act PUnit).Echoing records :=
  fun s t alike => ⟨rfl, hf s t alike⟩

theorem modifyHeap (f : Heap → Heap) : (Act.modifyHeap f).Echoing records :=
  modify fun _ _ alike => { alike with heap := congrArg f alike.heap }

theorem newChecked (c : Class) (l : CheckedList) : (Act.newChecked c l).Echoing records :=
  get (fun s t alike => by rw [alike.heap]) fun _ => bind (modifyHeap _) fun _ => pure _

theorem write (self : CheckedList.Self) (method : Option String) (items : List Value) :
    (self.write method items).Echoing records := by
  refine bind (plain (state_plain self)) fun l => ?_
  dsimp only
  split
  · exact plain (.fail _)
  · exact modifyHeap _

theorem freeze (e : Engine) (self : CheckedList.Self) : (CheckedList.Op.freeze.perform e self).Echoing records :=
  bind (plain (state_plain self)) fun _ => bind (modifyHeap _) fun _ => pure _

end Act.Echoing

end Conform
