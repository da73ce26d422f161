import Conform.Transforms
import Conform.Proofs.Running

/-!
Texts are worked out or given up. The text of a value is worked out to a depth, and beyond it there is none;
nothing else can keep it from being worked out.

Main statements: `Value.shown_speaks`, `Descriptor.describe_speaks`.
-/
namespace Conform

/-- A reading that fails only by giving up. -/
def Look.Speaks {α : Type} (l : Look α) : Prop :=
  ∀ h f, l h = .error f → f = .exhausted

namespace Look.Speaks

variable {α β : Type}

@[grind ←]
theorem pure (a : α) : (pure a : Look α).Speaks := by
  intro h f failed
  cases failed

@[grind ←]
theorem exhausted : (throw .exhausted : Look α).Speaks := by
  intro h f failed
  cases failed
  rfl

@[grind ←]
theorem bind {x : Look α} {f : α → Look β} (hx : x.Speaks) (hf : ∀ a, (f a).Speaks) : (x >>= f).Speaks := by
  intro h e failed
  obtain first | ⟨a, -, second⟩ := Look.bind_eq_error.mp failed
  · exact hx h e first
  · exact hf a h e second

theorem read {f : Heap → Look β} (hf : ∀ h, (f h).Speaks) : (read >>= f).Speaks :=
  fun h => hf h h

@[grind ←]
theorem mapM {f : α → Look β} {xs : List α} (hf : ∀ x, (f x).Speaks) : (xs.mapM f).Speaks := by
  induction xs with
  | nil => exact pure []
  | cons x xs ih =>
    rw [List.mapM_cons]
    exact bind (hf x) fun y => bind ih fun ys => pure (y :: ys)

end Look.Speaks

/-- Whether all texts that are worked out to a depth are worked out or given up. -/
structure Spoken (n : Nat) : Prop where
  value : ∀ trail v, (Value.shownAt n trail v).Speaks
  entries : ∀ trail es, (Value.entriesShown n trail es).Speaks
  type : ∀ trail d, (Value.describeAt n trail d).Speaks
  bound : ∀ trail v, (Value.boundShown n trail v).Speaks
  named : ∀ trail fields, (Value.namedShown n trail fields).Speaks
  plain : ∀ trail v, (Value.plainAt n trail v).Speaks

namespace Spoken

open Value

theorem zero : Spoken 0 :=
  ⟨fun _ _ => .exhausted, fun _ _ => .exhausted, fun _ _ => .exhausted, fun _ _ => .exhausted,
    fun _ _ => .exhausted, fun _ _ => .exhausted⟩

theorem succ {n : Nat} (ih : Spoken n) : Spoken (n + 1) := by
  obtain ⟨value, entries, type, bound, named, plain⟩ := ih
  constructor
  · intro trail v
    unfold shownAt
    refine .read fun h => ?_
    split <;> grind
  · intro trail es
    unfold entriesShown
    grind
  · intro trail d
    unfold describeAt
    split <;> grind
  · intro trail v
    unfold boundShown
    grind
  · intro trail fields
    unfold namedShown
    grind
  · intro trail v
    unfold plainAt
    split <;> grind

theorem all (n : Nat) : Spoken n := by
  induction n with
  | zero => exact zero
  | succ n ih => exact ih.succ

end Spoken

@[grind ←]
theorem Value.shown_speaks (v : Value) : v.shown.Speaks :=
  (Spoken.all valueDepth).value [] v

@[grind ←]
theorem Value.plain_speaks (v : Value) : v.plain.Speaks :=
  (Spoken.all valueDepth).plain [] v

@[grind ←]
theorem Descriptor.describe_speaks (d : Descriptor) : d.describe.Speaks :=
  (Spoken.all valueDepth).type [] d

@[grind ←]
theorem Transforms.label_speaks (fn : Value) : (label fn).Speaks := by
  unfold label Descriptor.functionName
  split <;> grind

end Conform
