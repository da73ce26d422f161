import Conform.Calling
import Conform.Proofs.Refusal
import Conform.Proofs.Texts

/-!
What a check comes to. A value that matches is handed back, and a failure to match is passed on; in neither case
is the callback called. For a value that does not match a context is made, the callback fills it in, as often as it
likes, and the error of the mismatch is handed back with it. Its message is made of the texts of the descriptor and
of the value, and these may have no end: then the check fails after all.

Main statement: `Check.check_reports`; `Check.endless_unreported` is a mismatch that is not handed back.
-/
namespace Conform.Check

open Value

variable {e : Engine} {d : Descriptor} {v expected : Value} {at_ : Handle} {s t u : Session}

section Filling

/-- A context after a callback has filled it in: the last receiver and operation count, and the last position and
name that were given. -/
def filled (c : CheckContext) (ps : List Performer) : CheckContext :=
  { c with
    receiver := (ps.map (·.receiver)).getLastD c.receiver
    operation := (ps.map (·.operation)).getLastD c.operation
    position := ((ps.map (·.position)).filter fun w => !w.same .nil).getLastD c.position
    name := ((ps.map (·.name)).filter fun w => !w.same .nil).getLastD c.name }

theorem filled_cons (c : CheckContext) (p : Performer) (ps : List Performer) :
    filled c (p :: ps) = filled { c with
      receiver := p.receiver
      operation := p.operation
      position := if p.position.same .nil then c.position else p.position
      name := if p.name.same .nil then c.name else p.name } ps := by
  cases place : p.position.same .nil <;> cases name : p.name.same .nil <;>
    simp only [filled, List.map_cons, List.filter_cons, place, name, Bool.not_true, Bool.not_false, if_true,
      Bool.false_eq_true, if_false, List.getLastD_cons]

/-- What a callback does to a context: it fills it in, one performer after another, and leaves it alone
otherwise. -/
inductive Fills (at_ : Handle) : Session → List Performer → Session → Prop
  | done {s : Session} : Fills at_ s [] s
  | fill {s t u : Session} {p : Performer} {ps : List Performer} (run : fillReceiver at_ p s = .ok () t)
      (rest : Fills at_ t ps u) : Fills at_ s (p :: ps) u
  | aside {s t u : Session} {ps : List Performer} (kept : t.heap.contexts[at_]? = s.heap.contexts[at_]?)
      (rest : Fills at_ t ps u) : Fills at_ s ps u

/-- After a callback that fills in a context, the last of what was given stands there. -/
theorem Fills.filled {ps : List Performer} {c : CheckContext} (fills : Fills at_ s ps t)
    (held : s.heap.contexts[at_]? = some c) : t.heap.contexts[at_]? = some (filled c ps) := by
  induction fills generalizing c with
  | done => exact held
  | @fill s t u p ps run rest ih =>
    have context : s.heap.context at_ = c := by
      rw [Heap.context, held, Option.getD_some]
    have bound : at_ < s.heap.contexts.size := (Array.getElem?_eq_some_iff.mp held).1
    simp only [fillReceiver, Act.setContext, Act.modifyHeap, Act.bind_eq_ok, Act.getHeap_eq_ok,
      Act.modify_eq_ok] at run
    obtain ⟨_, _, ⟨rfl, rfl⟩, rfl⟩ := run
    rw [filled_cons]
    apply ih
    simp [context, bound]
  | aside kept rest ih => exact ih (kept.trans held)

end Filling

section Telling

open CheckedList.Self (report report_eq mismatchError_ends)

/-- Whether the texts of a report can be worked out: the message of the error, and the line of the log if it is
kept. -/
structure Tells (d : Descriptor) (v : Value) (at_ : Handle) (s : Session) : Prop where
  message : ∃ text, mismatchMessage (.descriptor d) v s.heap = .ok text
  line : s.level ≤ Logging.Severity.debug.rank → ∃ text, traceLine d (s.heap.context at_) s.heap = .ok text

theorem mismatchMessage_speaks (expected actual : Value) : (mismatchMessage expected actual).Speaks := by
  have texts (w : Value) : w.shown.Speaks := w.shown_speaks
  exact .bind (texts expected) fun _ => .bind (.bind (texts actual) fun _ => .pure _) fun _ => .pure _

theorem traceLine_speaks (d : Descriptor) (c : CheckContext) : (traceLine d c).Speaks :=
  .bind d.describe_speaks fun _ => .bind c.operation.shown_speaks fun _ => .pure _

/-- A report hands back the error of the mismatch if its texts can be worked out. -/
theorem report_told (tells : Tells d v at_ s) :
    ∃ i j text u, report d v at_ s =
        .ok (some (.mismatchError i (.descriptor d) v (.context at_) (.str .base j text))) u ∧
      s.Noted u ∧ mismatchMessage (.descriptor d) v s.heap = .ok text := by
  obtain ⟨text, worked⟩ := tells.message
  obtain ⟨-, log, traced⟩ | ⟨low, f, failed, -⟩ := trace_ends (traceLine d (s.heap.context at_)) s
  · rw [report_eq, Act.bind_of_ok traced]
    obtain ⟨f, failed, -⟩ | ⟨text', worked', built⟩ :=
      mismatchError_ends (s := { s with log }) (.descriptor d) v (.context at_)
    · cases worked.symm.trans failed
    · exact ⟨_, _, _, _, Act.bind_of_ok built, ⟨_, _, rfl⟩, worked'⟩
  · obtain ⟨text, line⟩ := tells.line low
    cases line.symm.trans failed

/-- If a text cannot be worked out, the report gives up. -/
theorem report_untold (untold : ¬Tells d v at_ s) : ∃ u, report d v at_ s = .error .exhausted u ∧ s.Noted u := by
  obtain ⟨line, log, traced⟩ | ⟨low, f, failed, traced⟩ := trace_ends (traceLine d (s.heap.context at_)) s
  · rw [report_eq, Act.bind_of_ok traced]
    obtain ⟨f, failed, built⟩ | ⟨text, worked, -⟩ :=
      mismatchError_ends (s := { s with log }) (.descriptor d) v (.context at_)
    · obtain rfl := mismatchMessage_speaks _ _ _ _ failed
      exact ⟨_, Act.bind_of_error built, ⟨_, _, rfl⟩⟩
    · exact absurd ⟨⟨text, worked⟩, line⟩ untold
  · obtain rfl := traceLine_speaks _ _ _ _ failed
    exact ⟨s, (report_eq ..).trans (Act.bind_of_error traced), ⟨_, _, rfl⟩⟩

end Telling

section Checking

open CheckedList.Self (report)

/-- The rest of a check once the callback has returned. -/
def outcome (d : Descriptor) (v : Value) (at_ : Handle) : Act Value := do
  match ← report d v at_ with
  | none => return .success (← Act.fresh) v
  | some error => return .failure (← Act.fresh) error

/-- The session once the context of a mismatch has been made, at the next place. -/
def opened (d : Descriptor) (v : Value) (t : Session) : Session :=
  { t with heap := { t.heap with contexts := t.heap.contexts.push { expected := .descriptor d, actual := v } } }

theorem check_matched (enrich : Handle → Act Unit) (asked : isMatch e expected v s = .ok true t) :
    check e v expected enrich s = .ok (.success t.nextIdent v) { t with nextIdent := t.nextIdent + 1 } := by
  obtain ⟨d, u, coerced, accepted⟩ := Act.bind_eq_ok.mp asked
  have verified : verify e v d enrich u = .ok none t := Act.bind_of_ok accepted
  rw [check, Act.bind_of_ok coerced, Act.bind_of_ok verified]
  rfl

theorem check_failed (enrich : Handle → Act Unit) {f : Fault} (asked : isMatch e expected v s = .error f t) :
    check e v expected enrich s = .error f t := by
  obtain failed | ⟨d, u, coerced, failed⟩ := Act.bind_eq_error.mp asked
  · exact Act.bind_of_error failed
  · have verified : verify e v d enrich u = .error f t := Act.bind_of_error failed
    rw [check, Act.bind_of_ok coerced, Act.bind_of_error verified]

/-- On a mismatch the callback runs once, on the new context, and then the outcome is worked out. -/
theorem check_mismatched (enrich : Handle → Act Unit) (coerced : Descriptor.ofValue expected s = .ok d u)
    (refused : e.accepts d v u = .ok false t) :
    check e v expected enrich s =
      (enrich t.heap.contexts.size >>= fun _ => outcome d v t.heap.contexts.size) (opened d v t) := by
  have verified : verify e v d enrich u = (do
      let at_ ← Act.newContext { expected := .descriptor d, actual := v }
      enrich at_
      report d v at_ : Act _) t := Act.bind_of_ok refused
  rw [check, Act.bind_of_ok coerced, Act.bind_congr_run verified]
  simp only [bind_assoc]
  rfl

/-- The outcome is the error of the mismatch if its texts can be worked out, and nothing but log lines comes with
it; otherwise the check gives up. -/
theorem outcome_told (tells : Tells d v at_ s) :
    ∃ i j message u, outcome d v at_ s = .ok (.failure i (.mismatchError j (.descriptor d) v (.context at_) message)) u ∧
      s.Noted u := by
  obtain ⟨j, k, text, u, reported, ⟨log, nextIdent, rfl⟩, -⟩ := report_told tells
  exact ⟨_, _, _, _, Act.bind_of_ok reported, ⟨_, _, rfl⟩⟩

theorem outcome_untold (untold : ¬Tells d v at_ s) : ∃ u, outcome d v at_ s = .error .exhausted u ∧ s.Noted u := by
  obtain ⟨u, reported, noted⟩ := report_untold untold
  exact ⟨u, Act.bind_of_error reported, noted⟩

/-- A check agrees with matching. What matches is handed back, and what keeps matching from an answer is passed on,
whatever the callback. On a mismatch the callback runs once, on the new context, before the outcome is worked out.
If it returns, having filled in the context any number of times, then the outcome is a failure that holds the
error of the mismatch, with the descriptor, the value and the context as it was filled in. Only a text without an
end gets in the way: the check gives up if the message, or the line of the log, cannot be worked out. -/
theorem check_reports (e : Engine) (v expected : Value) (s : Session) :
    (∀ t, isMatch e expected v s = .ok true t → ∀ enrich,
      check e v expected enrich s = .ok (.success t.nextIdent v) { t with nextIdent := t.nextIdent + 1 }) ∧
    (∀ f t, isMatch e expected v s = .error f t → ∀ enrich, check e v expected enrich s = .error f t) ∧
    ∀ t, isMatch e expected v s = .ok false t → ∃ d u, Descriptor.ofValue expected s = .ok d u ∧
      let at_ := t.heap.contexts.size
      (∀ enrich, check e v expected enrich s = (enrich at_ >>= fun _ => outcome d v at_) (opened d v t)) ∧
      ∀ enrich fills w, enrich at_ (opened d v t) = .ok () w → Fills at_ (opened d v t) fills w →
        (Tells d v at_ w → ∃ i j message x,
          check e v expected enrich s =
            .ok (.failure i (.mismatchError j (.descriptor d) v (.context at_) message)) x ∧
          w.Noted x ∧ x.heap.context at_ = filled { expected := .descriptor d, actual := v } fills) ∧
        (¬Tells d v at_ w → ∃ x, check e v expected enrich s = .error .exhausted x ∧ w.Noted x) := by
  refine ⟨fun t asked enrich => check_matched enrich asked, fun f t asked enrich => check_failed enrich asked,
    fun t asked => ?_⟩
  obtain ⟨d, u, coerced, refused⟩ := Act.bind_eq_ok.mp asked
  refine ⟨d, u, coerced, fun enrich => check_mismatched enrich coerced refused, ?_⟩
  intro enrich fills w returned filling
  have held : (opened d v t).heap.contexts[t.heap.contexts.size]? = some { expected := .descriptor d, actual := v } := by
    simp [opened]
  have kept := filling.filled held
  rw [check_mismatched enrich coerced refused, Act.bind_of_ok returned]
  constructor
  · intro tells
    obtain ⟨i, j, message, x, ended, noted⟩ := outcome_told tells
    refine ⟨i, j, message, x, ended, noted, ?_⟩
    obtain ⟨log, nextIdent, rfl⟩ := noted
    rw [Heap.context, kept, Option.getD_some]
  · intro untold
    exact outcome_untold untold

/-- A callback that names a position first and then another receiver and a name: the position stays. -/
theorem check_reports_twice :
    let first : Performer := { receiver := .nil, operation := .str .base 5 "push", position := .int .base 6 2 }
    let second : Performer := { receiver := .bool true, operation := .str .base 7 "put", name := .str .base 8 "item" }
    let enrich (at_ : Handle) : Act Unit := do
      fillReceiver at_ first
      fillReceiver at_ second
    let integer : Value := .descriptor (.instanceOf 1 .int)
    ∃ i j message x,
      check (Engine.ofDepth Zoo.library 1) .nil (.cls .int) enrich {} =
        .ok (.failure i (.mismatchError j integer .nil (.context 0) message)) x ∧
      x.heap.context 0 =
        { expected := integer, actual := .nil, receiver := .bool true, operation := .str .base 7 "put",
          position := .int .base 6 2, name := .str .base 8 "item" } := by
  intro first second enrich integer
  obtain ⟨-, -, mismatched⟩ := check_reports (Engine.ofDepth Zoo.library 1) .nil (.cls .int) {}
  obtain ⟨d, u, coerced, -, reports⟩ := mismatched _ rfl
  obtain ⟨rfl, -⟩ := EStateM.Result.ok.inj coerced
  obtain ⟨told, -⟩ := reports enrich [first, second] _ rfl (.fill rfl (.fill rfl .done))
  have quiet : ¬(30 : Int) ≤ 10 := by decide
  obtain ⟨i, j, message, x, run, -, context⟩ := told ⟨⟨_, rfl⟩, fun low => absurd low quiet⟩
  exact ⟨i, j, message, x, run, context⟩

/-- The text of an object that is its own attribute has no end. -/
theorem endless_untold {c : Class} {i : Handle} {name : String} {h : Heap} (own : h.thing i = [(name, .thing c i)])
    (n : Nat) (trail : Trail) : shownAt n trail (.thing c i) h = .error .exhausted := by
  induction n with
  | zero => rfl
  | succ n ih =>
    rw [shownAt]
    refine Look.bind_eq_error.mpr (.inr ⟨h, rfl, Look.bind_eq_error.mpr (.inl ?_)⟩)
    rw [own, List.mapM_cons]
    exact Look.bind_eq_error.mpr (.inl (Look.bind_eq_error.mpr (.inl ih)))

/-- A mismatch that is not handed back: the message would be without end. -/
theorem endless_unreported :
    let point : Value := .thing .point 0
    let s : Session := { heap := { things := #[[("self", point)]] } }
    let e := Engine.ofDepth Zoo.library 1
    (∃ t, isMatch e (.cls .int) point s = .ok false t) ∧
      ∃ x, check e point (.cls .int) (fun _ => pure ()) s = .error .exhausted x := by
  intro point s e
  have coerced : Descriptor.ofValue (.cls .int) s = .ok (.instanceOf 1 .int) { s with nextIdent := 2 } := rfl
  obtain ⟨t, refused, heap⟩ :
      ∃ t, e.accepts (.instanceOf 1 .int) point { s with nextIdent := 2 } = .ok false t ∧ t.heap = s.heap :=
    ⟨_, rfl, rfl⟩
  refine ⟨⟨t, (Act.bind_of_ok coerced).trans refused⟩, ?_⟩
  rw [check_mismatched _ coerced refused]
  have untold : ¬Tells (.instanceOf 1 .int) point t.heap.contexts.size (opened (.instanceOf 1 .int) point t) := by
    rintro ⟨⟨text, message⟩, -⟩
    obtain ⟨_, -, message⟩ := Look.bind_eq_ok.mp message
    obtain ⟨_, brief, -⟩ := Look.bind_eq_ok.mp message
    obtain ⟨_, shown, -⟩ := Look.bind_eq_ok.mp brief
    have own : (opened (.instanceOf 1 .int) point t).heap.thing 0 = [("self", point)] := by
      simp [opened, Heap.thing, heap, s]
    cases shown.symm.trans (endless_untold own valueDepth [])
  obtain ⟨x, ended, -⟩ := outcome_untold untold
  exact ⟨x, ended⟩

end Checking

end Conform.Check
