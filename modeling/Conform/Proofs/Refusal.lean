import Conform.Proofs.Admission
import Conform.Proofs.Wording

/-!
What a check of a checked list does. A value that matches passes; for one that does not, an error is built
that names the two sides, the list, the operation and the place of the argument. Only the text of the
error can fail to be worked out, and then that failure comes in its place.
-/
namespace Conform

open Value Descriptor

/-- Whether a fault is the error of a mismatch that a checked list has found, with its context. -/
inductive Blames (self : CheckedList.Self) (expected : Descriptor) (actual : Value) (operation : String)
    (position : Option Int) (t : Session) : Fault → Prop
  | error {id k i text} (context : t.heap.context i =
      self.signed operation position k { expected := .descriptor expected, actual }) :
    Blames self expected actual operation position t
      (.raised (.mismatchError id (.descriptor expected) actual (.context i) text))

/-- Whether a session differs from another only by lines of the log and by identities that are used up. -/
def Session.Noted (s t : Session) : Prop :=
  ∃ log nextIdent, t = { s with log, nextIdent }

/-- The line of the log that tells of a mismatch. -/
def Check.traceLine (d : Descriptor) (c : CheckContext) : Look String := do
  return "checks.check: Mismatch against " ++ (← d.describe) ++ " (receiver=" ++ c.receiver.className ++
    ", operation=" ++ (← c.operation.shown) ++ ")"

namespace CheckedList.Self

variable {e : Engine} {self : CheckedList.Self} {d : Descriptor} {v : Value} {operation : String}
  {position : Option Int} {s t u : Session} {f : Fault}

theorem vet_passed (asked : e.accepts d v s = .ok true t) : self.vet e v d operation position s = .ok () t := by
  have verified : Check.verify e v d (self.sign operation position) s = .ok none t :=
    Act.bind_of_ok asked
  exact Act.bind_of_ok verified

theorem vet_failed (asked : e.accepts d v s = .error f t) :
    self.vet e v d operation position s = .error f t :=
  Act.bind_of_error (Act.bind_of_error asked)

/-- The session once the context of a mismatch has been made. -/
def reported (self : CheckedList.Self) (d : Descriptor) (v : Value) (operation : String)
    (position : Option Int) (t : Session) : Session :=
  { t with
    heap := { t.heap with
      contexts := t.heap.contexts.push
        (self.signed operation position t.nextIdent { expected := .descriptor d, actual := v }) }
    nextIdent := t.nextIdent + position.elim 1 fun _ => 2 }

/-- What becomes of a value that does not match: the error of the mismatch, or what keeps its text from
being worked out. -/
structure Refuses (c : CheckedList.Self) (d : Descriptor) (v : Value) (operation : String)
    (position : Option Int) (t : Session) (f : Fault) (u : Session) : Prop where
  noted : (c.reported d v operation position t).Noted u
  cause : Blames c d v operation position u f ∧
      (∃ text, mismatchMessage (.descriptor d) v u.heap = .ok text) ∨
    mismatchMessage (.descriptor d) v u.heap = .error f ∨ d.describe u.heap = .error f

/-- The text of an error is all that can still fail once there is a context. -/
theorem mismatchError_ends (expected actual context : Value) :
    (∃ f, mismatchMessage expected actual s.heap = .error f ∧
      Check.mismatchError expected actual context .nil s = .error f s) ∨
    ∃ text, mismatchMessage expected actual s.heap = .ok text ∧
      Check.mismatchError expected actual context .nil s =
        .ok (.mismatchError (s.nextIdent + 1) expected actual context (.str .base s.nextIdent text))
          { s with nextIdent := s.nextIdent + 2 } := by
  have untold : (liftM (truth .nil) : Act Bool) s = .ok false s := rfl
  cases message : mismatchMessage expected actual s.heap with
  | error f =>
    have failed : (liftM (mismatchMessage expected actual) : Act String) s = .error f s :=
      Act.lift_eq_error.mpr ⟨message, rfl⟩
    refine .inl ⟨f, rfl, ?_⟩
    exact (Act.bind_of_ok untold).trans (Act.bind_of_error failed)
  | ok text =>
    have told : (liftM (mismatchMessage expected actual) : Act String) s = .ok text s :=
      Act.lift_eq_ok.mpr ⟨message, rfl⟩
    exact .inr ⟨text, rfl, (Act.bind_of_ok untold).trans (Act.bind_of_ok told)⟩

/-- The rest of a check once its context is filled in. -/
def report (d : Descriptor) (v : Value) (at_ : Handle) : Act (Option Value) := do
  let c := (← Act.getHeap).context at_
  Logging.trace (do
    return "checks.check: Mismatch against " ++ (← d.describe) ++ " (receiver=" ++
      c.receiver.className ++ ", operation=" ++ (← c.operation.shown) ++ ")")
  return some (← Check.mismatchError (.descriptor d) v (.context at_) .nil)

theorem report_eq (d : Descriptor) (v : Value) (at_ : Handle) (s : Session) :
    report d v at_ s = (do
      Logging.trace (Check.traceLine d (s.heap.context at_))
      return some (← Check.mismatchError (.descriptor d) v (.context at_) .nil) : Act _) s := rfl

theorem verify_refused (self : CheckedList.Self) (operation : String) (position : Option Int)
    (asked : e.accepts d v s = .ok false t) :
    Check.verify e v d (self.sign operation position) s =
      report d v t.heap.contexts.size (self.reported d v operation position t) := by
  have unmatched : Check.verify e v d (self.sign operation position) s = (do
      let at_ ← Act.newContext { expected := .descriptor d, actual := v }
      self.sign operation position at_
      report d v at_ : Act _) t := Act.bind_of_ok asked
  have made := newContext_ok { expected := .descriptor d, actual := v } self operation position t
  have goesOn : (do
      let at_ ← (do
        let at_ ← Act.newContext { expected := .descriptor d, actual := v }
        self.sign operation position at_
        return at_ : Act Handle)
      report d v at_ : Act _) t = _ := Act.bind_of_ok made
  simp only [bind_assoc, pure_bind] at goesOn
  rw [unmatched, goesOn]
  rfl

/-- A report comes to the error of the mismatch, or to what keeps a text from being worked out. -/
theorem report_ends {i : Handle} {id : Ident} (context : s.heap.context i =
      self.signed operation position id { expected := .descriptor d, actual := v }) :
    (∃ error u, report d v i s = .ok (some error) u ∧ s.Noted u ∧
      Blames self d v operation position u (.raised error) ∧
      ∃ text, mismatchMessage (.descriptor d) v u.heap = .ok text) ∨
    ∃ f u, report d v i s = .error f u ∧ s.Noted u ∧
      (mismatchMessage (.descriptor d) v u.heap = .error f ∨ d.describe u.heap = .error f) := by
  rw [report_eq]
  cases traced : Logging.trace (Check.traceLine d (s.heap.context i)) s with
  | error f u =>
    obtain ⟨failed, rfl⟩ := trace_error traced
    have undescribed : d.describe u.heap = .error f := by
      simp only [Check.traceLine, Look.bind_eq_error, Look.pure_ne_error, and_false, exists_false,
        or_false] at failed
      obtain failed | ⟨_, -, failed⟩ := failed
      · exact failed
      · rw [context] at failed
        cases failed
    exact .inr ⟨f, u, Act.bind_of_error traced, ⟨u.log, u.nextIdent, rfl⟩, .inr undescribed⟩
  | ok a u =>
    obtain ⟨log, rfl⟩ := trace_ok traced
    rw [Act.bind_of_ok traced]
    obtain ⟨f, message, failed⟩ | ⟨text, message, built⟩ :=
      mismatchError_ends (s := { s with log }) (.descriptor d) v (.context i)
    · exact .inr ⟨f, _, Act.bind_of_error failed, ⟨_, _, rfl⟩, .inl message⟩
    · exact .inl ⟨_, _, Act.bind_of_ok built, ⟨_, _, rfl⟩, .error context, text, message⟩

theorem vet_refused (self : CheckedList.Self) (operation : String) (position : Option Int)
    (asked : e.accepts d v s = .ok false t) :
    ∃ f u, self.vet e v d operation position s = .error f u ∧
      self.Refuses d v operation position t f u := by
  have verified := verify_refused self operation position asked
  have context : (self.reported d v operation position t).heap.context t.heap.contexts.size =
      self.signed operation position t.nextIdent { expected := .descriptor d, actual := v } := by
    simp [reported, context_push]
  obtain ⟨error, u, ended, noted, blame, text⟩ | ⟨f, u, ended, noted, cause⟩ := report_ends context
  · refine ⟨.raised error, u, Act.bind_of_ok (verified.trans ended), noted, ?_⟩
    exact .inl ⟨blame, text⟩
  · refine ⟨f, u, Act.bind_of_error (verified.trans ended), noted, ?_⟩
    exact .inr cause

end CheckedList.Self

end Conform
