import Conform.Proofs.Deepening
import Conform.Proofs.History

/-!
What the factories collapse. Negating a negation gives back what was negated, and a constraint with one base and no
predicate is its base. A blueprint is what a descriptor is built from; it can be built by the factories, or by
putting the descriptors together as they are written down. The two descriptors match the same values, with the same
calls and the same failures. The one that the factories build has nothing left to collapse, and it needs no more
depth than the other.

Main statement: `Blueprint.built_like_raw`.
-/
namespace Conform

namespace Descriptor

/-- Whether the factories would not have built a descriptor: a negation of a negation, or a constraint with one base
and no predicate. -/
def collapses : Descriptor → Bool
  | .negation _ (.negation ..) => true
  | .constraint _ [_] [] => true
  | _ => false

/-- A descriptor in which nothing collapses, at any depth. -/
inductive Normal : Descriptor → Prop
  | intro {d : Descriptor} (head : d.collapses = false) (parts : ∀ c ∈ d.children, Normal c) : Normal d

theorem Normal.child {d c : Descriptor} (normal : d.Normal) (hc : c ∈ d.children) : c.Normal := by
  cases normal with
  | intro head parts => exact parts c hc

/-- A descriptor that matches as another one does some levels deeper, unless it gives up. -/
def Tracks (functions : Library) (k : Nat) (d raw : Descriptor) : Prop :=
  ∀ n v, ((Engine.ofDepth functions n).accepts d v).Approximates ((Engine.ofDepth functions (n + k)).accepts raw v)

/-- A descriptor that matches as another one does, and needs no more depth. -/
structure Abridges (functions : Library) (d raw : Descriptor) : Prop where
  within : Tracks functions 0 raw d
  beyond : ∃ k, Tracks functions k d raw

namespace Tracks

variable {functions : Library} {k k' : Nat} {d raw inner : Descriptor} {ds raws : List Descriptor} {i j : Ident}

theorem deepen (monotone : functions.Monotone) (h : Tracks functions k d raw) (hk : k ≤ k') :
    Tracks functions k' d raw := by
  intro n v
  obtain ⟨m, rfl⟩ := Nat.exists_eq_add_of_le hk
  apply (h n v).trans
  rw [← Nat.add_assoc]
  exact (Engine.ofDepth_approximates monotone (n + k) m).accepts raw v

/-- Descriptors are matched by their steps over the engines of smaller depth. -/
theorem of_steps (steps : ∀ n v, (acceptsStep (Engine.ofDepth functions n) d v).Approximates
    (acceptsStep (Engine.ofDepth functions (n + k)) raw v)) : Tracks functions k d raw := by
  intro n v
  cases n with
  | zero => exact .exhausted _
  | succ n =>
    rw [Nat.succ_add]
    exact steps n v

theorem union (h : List.Forall₂ (Tracks functions k) ds raws) : Tracks functions k (.union i ds) (.union j raws) := by
  apply of_steps
  intro n v
  exact .anyM_of_forall₂ (h.imp fun _ _ h => h n v)

theorem intersection (h : List.Forall₂ (Tracks functions k) ds raws) :
    Tracks functions k (.intersection i ds) (.intersection j raws) := by
  apply of_steps
  intro n v
  exact .allM_of_forall₂ (h.imp fun _ _ h => h n v)

theorem negation (h : Tracks functions k d raw) : Tracks functions k (.negation i d) (.negation j raw) := by
  apply of_steps
  intro n v
  exact .bind (h n v) fun _ => .refl _

theorem nilable (h : Tracks functions k d raw) : Tracks functions k (.nilable i d) (.nilable j raw) := by
  apply of_steps
  intro n v
  exact .ite (.refl _) (h n v)

theorem constraint (monotone : functions.Monotone) {predicates raws' : List (String × Descriptor)}
    (bases : List.Forall₂ (Tracks functions k) ds raws)
    (named : List.Forall₂ (fun f g => f.1 = g.1 ∧ Tracks functions k f.2 g.2) predicates raws') :
    Tracks functions k (.constraint i ds predicates) (.constraint j raws raws') := by
  apply of_steps
  intro n v
  have deeper := Engine.ofDepth_approximates monotone n k
  refine .bind (.allM_of_forall₂ (bases.imp fun _ _ h => h n v)) fun _ => .ite ?_ (.refl _)
  exact Engine.Approximates.allNamed_of_forall₂ (deeper.readAttribute? v)
    (named.imp fun _ _ h => ⟨h.1, h.2 n⟩)

/-- Descriptors that differ in their identity only. -/
theorem of_same_step (same : ∀ e v, acceptsStep e d v = acceptsStep e raw v) : Tracks functions 0 d raw := by
  apply of_steps
  intro n v
  rw [same]
  rfl

/-- What is negated twice is asked as it is. -/
theorem not_not (x : Act Bool) : (do return !(← (do return !(← x) : Act Bool)) : Act Bool) = x := by
  simp

/-- A negation gives up before what is negated does. -/
theorem negation_within (monotone : functions.Monotone) (n : Nat) (v : Value) :
    ((Engine.ofDepth functions n).accepts (.negation i d) v).Approximates
      (do return !(← (Engine.ofDepth functions n).accepts d v)) := by
  cases n with
  | zero => exact .exhausted _
  | succ n => exact .bind ((Engine.ofDepth_approximates monotone n 1).accepts d v) fun _ => .refl _

/-- A negation of what matches as a negation, against what that one negates. -/
theorem of_negation_negation (monotone : functions.Monotone) (h : Tracks functions 0 raw (.negation i inner)) :
    Tracks functions 0 (.negation j raw) inner := by
  intro n v
  apply (negation_within monotone n v).trans
  rw [← not_not ((Engine.ofDepth functions (n + 0)).accepts inner v)]
  exact .bind ((h n v).trans (negation_within monotone n v)) fun _ => .refl _

theorem to_negation_negation (h : Tracks functions k (.negation i inner) raw) :
    Tracks functions (k + 2) inner (.negation j raw) := by
  intro n v
  rw [← not_not ((Engine.ofDepth functions n).accepts inner v), show n + (k + 2) = n + 1 + k + 1 by omega]
  exact .bind (h (n + 1) v) fun _ => .refl _

/-- A constraint with one base and no predicate asks its base. -/
theorem accepts_base (n : Nat) (v : Value) :
    (Engine.ofDepth functions (n + 1)).accepts (.constraint i [d] []) v = (Engine.ofDepth functions n).accepts d v := by
  change acceptsStep (Engine.ofDepth functions n) (.constraint i [d] []) v = _
  simp only [acceptsStep, List.allM, allNamed, bind_assoc]
  conv_rhs => rw [← bind_pure ((Engine.ofDepth functions n).accepts d v)]
  congr 1
  funext answer
  cases answer <;> rfl

theorem of_base (monotone : functions.Monotone) (h : Tracks functions 0 raw d) :
    Tracks functions 0 (.constraint i [raw] []) d := by
  intro n v
  cases n with
  | zero => exact .exhausted _
  | succ n =>
    rw [accepts_base]
    exact (h n v).trans ((Engine.ofDepth_approximates monotone n 1).accepts d v)

theorem to_base (h : Tracks functions k d raw) : Tracks functions (k + 1) d (.constraint i [raw] []) := by
  intro n v
  rw [← Nat.add_assoc, accepts_base]
  exact h n v

/-- Descriptors that track others, each some levels deeper, all do so at one number of levels. -/
theorem exists_common {α β : Type} {P : Nat → α → β → Prop} (deepen : ∀ {k k' a b}, k ≤ k' → P k a b → P k' a b)
    {xs : List α} {ys : List β} (h : List.Forall₂ (fun a b => ∃ k, P k a b) xs ys) :
    ∃ k, List.Forall₂ (P k) xs ys := by
  induction h with
  | nil => exact ⟨0, .nil⟩
  | cons head _ ih =>
    obtain ⟨k, head⟩ := head
    obtain ⟨m, rest⟩ := ih
    exact ⟨max k m, .cons (deepen (by omega) head) (rest.imp fun _ _ => deepen (by omega))⟩

end Tracks

namespace Abridges

variable {functions : Library} {d raw inner : Descriptor} {ds raws : List Descriptor} {i j : Ident}

theorem of_same_step (same : ∀ e v, acceptsStep e d v = acceptsStep e raw v) : d.Abridges functions raw :=
  ⟨.of_same_step fun e v => (same e v).symm, 0, .of_same_step same⟩

theorem negation (h : d.Abridges functions raw) : Abridges functions (.negation i d) (.negation j raw) := by
  obtain ⟨k, beyond⟩ := h.beyond
  exact ⟨h.within.negation, k, beyond.negation⟩

theorem nilable (h : d.Abridges functions raw) : Abridges functions (.nilable i d) (.nilable j raw) := by
  obtain ⟨k, beyond⟩ := h.beyond
  exact ⟨h.within.nilable, k, beyond.nilable⟩

/-- Double negation collapses. -/
theorem negation_negation (monotone : functions.Monotone) (h : Abridges functions (.negation i inner) raw) :
    inner.Abridges functions (.negation j raw) := by
  obtain ⟨k, beyond⟩ := h.beyond
  exact ⟨h.within.of_negation_negation monotone, k + 2, beyond.to_negation_negation⟩

/-- A constraint that asks for nothing more than its base collapses. -/
theorem base (monotone : functions.Monotone) (h : d.Abridges functions raw) :
    d.Abridges functions (.constraint i [raw] []) := by
  obtain ⟨k, beyond⟩ := h.beyond
  exact ⟨h.within.of_base monotone, k + 1, beyond.to_base⟩

section Lists

variable (monotone : functions.Monotone) (h : List.Forall₂ (Abridges functions) ds raws)

include monotone h

theorem exists_beyond : ∃ k, List.Forall₂ (Tracks functions k) ds raws :=
  Tracks.exists_common (fun hk h => h.deepen monotone hk) (h.imp fun _ _ h => h.beyond)

theorem union : Abridges functions (.union i ds) (.union j raws) := by
  obtain ⟨k, beyond⟩ := exists_beyond monotone h
  exact ⟨.union (h.imp fun _ _ h => h.within).flip, k, .union beyond⟩

theorem intersection : Abridges functions (.intersection i ds) (.intersection j raws) := by
  obtain ⟨k, beyond⟩ := exists_beyond monotone h
  exact ⟨.intersection (h.imp fun _ _ h => h.within).flip, k, .intersection beyond⟩

theorem constraint {predicates raws' : List (String × Descriptor)}
    (named : List.Forall₂ (fun f g => f.1 = g.1 ∧ f.2.Abridges functions g.2) predicates raws') :
    Abridges functions (.constraint i ds predicates) (.constraint j raws raws') := by
  have deepen {k k' : Nat} {f g : String × Descriptor} (hk : k ≤ k')
      (h : f.1 = g.1 ∧ Tracks functions k f.2 g.2) : f.1 = g.1 ∧ Tracks functions k' f.2 g.2 :=
    ⟨h.1, h.2.deepen monotone hk⟩
  obtain ⟨k, bases⟩ := exists_beyond monotone h
  have each : List.Forall₂ (fun f g => ∃ k, f.1 = g.1 ∧ Tracks functions k f.2 g.2) predicates raws' := by
    refine named.imp fun f g h => ?_
    obtain ⟨m, beyond⟩ := h.2.beyond
    exact ⟨m, h.1, beyond⟩
  obtain ⟨m, others⟩ := Tracks.exists_common
    (P := fun k (f g : String × Descriptor) => f.1 = g.1 ∧ Tracks functions k f.2 g.2) deepen each
  refine ⟨.constraint monotone (h.imp fun _ _ h => h.within).flip ?_, max k m, .constraint monotone ?_ ?_⟩
  · exact (named.imp fun _ _ h => ⟨h.1.symm, h.2.within⟩).flip
  · exact bases.imp fun _ _ h => h.deepen monotone (by omega)
  · exact others.imp fun _ _ => deepen (by omega)

end Lists

end Abridges

end Descriptor

/-- The constrained scalars. -/
inductive Scalar where
  | integer
  | float
  | string
  | date
  | dateTime

namespace Scalar

def factory : Scalar → String
  | integer => "Integer"
  | float => "Float"
  | string => "String"
  | date => "Date"
  | dateTime => "DateTime"

def cls : Scalar → Class
  | integer => .int
  | float => .float
  | string => .str
  | date => .date
  | dateTime => .datetime

end Scalar

/-- What a descriptor is built from, to any depth: values that are read as descriptors, put together by calls of the
factories. -/
inductive Blueprint where
  | leaf (v : Value)
  | union (parts : List Blueprint)
  | intersection (parts : List Blueprint)
  /-- Several parts mean the negation of their union. -/
  | negation (parts : List Blueprint)
  | nilable (part : Blueprint)
  | constraint (bases : List Blueprint) (predicates : List (String × Blueprint))
  | scalar (kind : Scalar) (constraints : List Blueprint) (predicates : List (String × Blueprint))

namespace Blueprint

mutual

/-- What the calls of the factories give, from the inside to the outside and from left to right. -/
def value : Blueprint → Act Value
  | .leaf v => return v
  | .union parts => do return .descriptor (← Factory.build "Union" (← values parts) [])
  | .intersection parts => do return .descriptor (← Factory.build "Intersection" (← values parts) [])
  | .negation parts => do return .descriptor (← Factory.build "Not" (← values parts) [])
  | .nilable part => do return .descriptor (← Factory.build "Nilable" [← value part] [])
  | .constraint bases predicates => do
    let bs ← values bases
    return .descriptor (← Factory.build "Constraint" bs (← namedValues predicates))
  | .scalar kind constraints predicates => do
    let cs ← values constraints
    return .descriptor (← Factory.build kind.factory cs (← namedValues predicates))

def values : List Blueprint → Act (List Value)
  | [] => return []
  | b :: rest => do
    let v ← value b
    return v :: (← values rest)

def namedValues : List (String × Blueprint) → Act Keywords
  | [] => return []
  | (name, b) :: rest => do
    let v ← value b
    return (name, v) :: (← namedValues rest)

end

/-- The descriptor that the factories build. -/
def built (b : Blueprint) : Act Descriptor := do
  Descriptor.ofValue (← b.value)

/-- The negation of one descriptor, or of the union of several. -/
def negated : List Descriptor → Act Descriptor
  | [d] => do return .negation (← Act.fresh) d
  | ds => do
    let u := Descriptor.union (← Act.fresh) ds
    return .negation (← Act.fresh) u

mutual

/-- The descriptor as it is written down. -/
def raw : Blueprint → Act Descriptor
  | .leaf v => Descriptor.ofValue v
  | .union parts => do
    let ds ← raws parts
    return .union (← Act.fresh) ds
  | .intersection parts => do
    let ds ← raws parts
    return .intersection (← Act.fresh) ds
  | .negation parts => do negated (← raws parts)
  | .nilable part => do
    let d ← raw part
    return .nilable (← Act.fresh) d
  | .constraint bases predicates => do
    let ds ← raws bases
    let ps ← namedRaws predicates
    return .constraint (← Act.fresh) ds ps
  | .scalar kind constraints predicates => do
    let d ← Descriptor.ofValue (.cls kind.cls)
    let ds ← raws constraints
    let ps ← namedRaws predicates
    return .constraint (← Act.fresh) (d :: ds) ps

def raws : List Blueprint → Act (List Descriptor)
  | [] => return []
  | b :: rest => do
    let d ← raw b
    return d :: (← raws rest)

def namedRaws : List (String × Blueprint) → Act (List (String × Descriptor))
  | [] => return []
  | (name, b) :: rest => do
    let d ← raw b
    return (name, d) :: (← namedRaws rest)

end

/-- A blueprint that the factories take: no annotation is read as a descriptor, and nothing is built of no parts.
Descriptors that are given as they are have nothing to collapse. -/
inductive WellFormed : Blueprint → Prop
  | leaf {v} (read : ∀ hint, v ≠ .typeHint hint) (normal : ∀ d, v = .descriptor d → d.Normal) : WellFormed (.leaf v)
  | union {parts} (some : parts ≠ []) (each : ∀ b ∈ parts, WellFormed b) : WellFormed (.union parts)
  | intersection {parts} (some : parts ≠ []) (each : ∀ b ∈ parts, WellFormed b) : WellFormed (.intersection parts)
  | negation {parts} (some : parts ≠ []) (each : ∀ b ∈ parts, WellFormed b) : WellFormed (.negation parts)
  | nilable {part} (each : WellFormed part) : WellFormed (.nilable part)
  | constraint {bases predicates} (some : bases ≠ []) (each : ∀ b ∈ bases, WellFormed b)
    (named : ∀ f ∈ predicates, WellFormed f.2) : WellFormed (.constraint bases predicates)
  | scalar {kind constraints predicates} (each : ∀ b ∈ constraints, WellFormed b)
    (named : ∀ f ∈ predicates, WellFormed f.2) : WellFormed (.scalar kind constraints predicates)

section Building

variable {functions : Library} {x y : Act Descriptor} {vs : List Value} {bs : List Blueprint} {keywords : Keywords}
  {named : List (String × Blueprint)}

/-- Two ways to build a descriptor. Both succeed, and what the first one builds is normal and abridges what the second
one builds. -/
def Builds (functions : Library) (x y : Act Descriptor) : Prop :=
  ∀ s s', ∃ d t r t', x s = .ok d t ∧ y s' = .ok r t' ∧ d.Normal ∧ d.Abridges functions r

/-- What can be called, and is no class, is read as a predicate. -/
theorem ofValue_callable {v : Value} (callable : v.isCallable = true) (read : ∀ hint, v ≠ .typeHint hint)
    (given : ∀ d, v ≠ .descriptor d) (object : ∀ c, v ≠ .cls c) (s : Session) :
    ∃ i m t, Descriptor.ofValue v s = .ok (.predicate i m v) t := by
  cases v with
  | fn f =>
    obtain ⟨name, named⟩ : ∃ name, Descriptor.functionName (.fn f) s.heap = .ok name := by
      by_cases bare : f.bare = true
      · exact ⟨_, by simp only [Descriptor.functionName, bare, if_true]; rfl⟩
      · exact ⟨_, by simp only [Descriptor.functionName, bare]; rfl⟩
    exact ⟨_, _, _, (Act.bind_of_ok (Act.lift_eq_ok.mpr ⟨named, rfl⟩)).trans rfl⟩
  | thunk | patternTest | method => exact ⟨_, _, _, rfl⟩
  | typeHint hint => exact absurd rfl (read hint)
  | descriptor d => exact absurd rfl (given d)
  | cls c => exact absurd rfl (object c)
  | _ => cases callable

/-- A value is always read as the same descriptor, apart from the identity of its node and of its message, and these
do not count in matching. -/
theorem ofValue_node {v : Value} (read : ∀ hint, v ≠ .typeHint hint) (normal : ∀ d, v = .descriptor d → d.Normal) :
    ∃ node : Ident → Value → Descriptor, (∀ i m, (node i m).Normal) ∧
      (∀ i m j m' e w, Descriptor.acceptsStep e (node i m) w = Descriptor.acceptsStep e (node j m') w) ∧
      ∀ s, ∃ i m t, Descriptor.ofValue v s = .ok (node i m) t := by
  have atom {d : Descriptor} (head : d.collapses = false) (parts : d.children = []) : d.Normal :=
    .intro head (by simp [parts])
  cases v with
  | descriptor d => exact ⟨fun _ _ => d, fun _ _ => normal d rfl, fun _ _ _ _ _ _ => rfl, fun s => ⟨0, .nil, s, rfl⟩⟩
  | typeHint hint => exact absurd rfl (read hint)
  | cls c =>
    cases c with
    | anything =>
      exact ⟨fun _ _ => .void, fun _ _ => atom rfl rfl, fun _ _ _ _ _ _ => rfl, fun s => ⟨0, .nil, s, rfl⟩⟩
    | _ =>
      exact ⟨fun i _ => .instanceOf i _, fun _ _ => atom rfl rfl, fun _ _ _ _ _ _ => rfl, fun s => ⟨_, .nil, _, rfl⟩⟩
  | nil | bool | ellipsis | notImplemented =>
    exact ⟨fun i _ => .unit i _, fun _ _ => atom rfl rfl, fun _ _ _ _ _ _ => rfl, fun s => ⟨_, .nil, _, rfl⟩⟩
  | range | slice =>
    exact ⟨fun i _ => .within i _, fun _ _ => atom rfl rfl, fun _ _ _ _ _ _ => rfl, fun s => ⟨_, .nil, _, rfl⟩⟩
  | regex r =>
    exact ⟨fun i _ => .regex i r, fun _ _ => atom rfl rfl, fun _ _ _ _ _ _ => rfl, fun s => ⟨_, .nil, _, rfl⟩⟩
  | fn | thunk | patternTest | method =>
    exact ⟨fun i m => .predicate i m _, fun _ _ => atom rfl rfl, fun _ _ _ _ _ _ => rfl,
      ofValue_callable rfl read (by simp) (by simp)⟩
  | _ => exact ⟨fun i _ => .equal i _, fun _ _ => atom rfl rfl, fun _ _ _ _ _ _ => rfl, fun s => ⟨_, .nil, _, rfl⟩⟩

theorem leaf_builds {v : Value} (read : ∀ hint, v ≠ .typeHint hint) (normal : ∀ d, v = .descriptor d → d.Normal) :
    Builds functions (Descriptor.ofValue v) (Descriptor.ofValue v) := by
  intro s s'
  obtain ⟨node, normal, same, reads⟩ := ofValue_node read normal
  obtain ⟨i, m, t, first⟩ := reads s
  obtain ⟨j, m', t', second⟩ := reads s'
  exact ⟨_, t, _, t', first, second, normal i m, .of_same_step (same i m j m')⟩

/-- A factory is called with what has been prepared for it, and what it has built is read as it is. -/
theorem Builds.call {α : Type} {prepare : Act α} {factory : α → Act Descriptor} {a : α} {s t : Session}
    (prepared : prepare s = .ok a t) (h : Builds functions (factory a) y) :
    ∃ v u, (do return .descriptor (← factory (← prepare)) : Act Value) s = .ok v u ∧
      Builds functions (Descriptor.ofValue v) y := by
  obtain ⟨d, u, -, -, run, -⟩ := h t t
  refine ⟨.descriptor d, u, ?_, fun w s' => ?_⟩
  · rw [Act.bind_of_ok prepared, Act.bind_of_ok run]
    rfl
  · obtain ⟨d', u', r, t', run', rest⟩ := h t s'
    obtain ⟨rfl, -⟩ := EStateM.Result.ok.inj (run.symm.trans run')
    exact ⟨d, w, r, t', rfl, rest⟩

theorem coerceAll_cons (v : Value) (vs : List Value) :
    Factory.coerceAll (v :: vs) = do
      let d ← Descriptor.ofValue v
      let ds ← Factory.coerceAll vs
      return d :: ds :=
  List.mapM_cons

theorem coerceNamed_cons (name : String) (v : Value) (keywords : Keywords) :
    Factory.coerceNamed ((name, v) :: keywords) = do
      let d ← Descriptor.ofValue v
      let ds ← Factory.coerceNamed keywords
      return (name, d) :: ds := by
  simp [Factory.coerceNamed, List.mapM_cons]

/-- Values and blueprints, one by one. -/
theorem coerceAll_builds (h : List.Forall₂ (fun v b => Builds functions (Descriptor.ofValue v) (raw b)) vs bs)
    (s s' : Session) : ∃ ds t rs t', Factory.coerceAll vs s = .ok ds t ∧ raws bs s' = .ok rs t' ∧
      ds.length = vs.length ∧ (∀ d ∈ ds, d.Normal) ∧ List.Forall₂ (Descriptor.Abridges functions) ds rs := by
  induction h generalizing s s' with
  | nil => exact ⟨[], s, [], s', rfl, rfl, rfl, by simp, .nil⟩
  | @cons v b vs bs head _ ih =>
    obtain ⟨d, t, r, t', read, made, normal, abridges⟩ := head s s'
    obtain ⟨ds, u, rs, u', reads, makes, length, normals, all⟩ := ih t t'
    refine ⟨d :: ds, u, r :: rs, u', ?_, ?_, congrArg (· + 1) length, ?_, .cons abridges all⟩
    · rw [coerceAll_cons, Act.bind_of_ok read, Act.bind_of_ok reads]
      rfl
    · rw [raws, Act.bind_of_ok made, Act.bind_of_ok makes]
      rfl
    · simp only [List.forall_mem_cons]
      exact ⟨normal, normals⟩

theorem coerceNamed_builds
    (h : List.Forall₂ (fun f g => f.1 = g.1 ∧ Builds functions (Descriptor.ofValue f.2) (raw g.2)) keywords named)
    (s s' : Session) : ∃ ds t rs t', Factory.coerceNamed keywords s = .ok ds t ∧ namedRaws named s' = .ok rs t' ∧
      ds.length = keywords.length ∧ (∀ f ∈ ds, f.2.Normal) ∧
      List.Forall₂ (fun f g => f.1 = g.1 ∧ f.2.Abridges functions g.2) ds rs := by
  induction h generalizing s s' with
  | nil => exact ⟨[], s, [], s', rfl, rfl, rfl, by simp, .nil⟩
  | @cons f g keywords named head _ ih =>
    obtain ⟨name, v⟩ := f
    obtain ⟨name', b⟩ := g
    obtain ⟨rfl, head⟩ := head
    obtain ⟨d, t, r, t', read, made, normal, abridges⟩ := head s s'
    obtain ⟨ds, u, rs, u', reads, makes, length, normals, all⟩ := ih t t'
    refine ⟨(name, d) :: ds, u, (name, r) :: rs, u', ?_, ?_, congrArg (· + 1) length, ?_, .cons ⟨rfl, abridges⟩ all⟩
    · rw [coerceNamed_cons, Act.bind_of_ok read, Act.bind_of_ok reads]
      rfl
    · rw [namedRaws, Act.bind_of_ok made, Act.bind_of_ok makes]
      rfl
    · simp only [List.forall_mem_cons]
      exact ⟨normal, normals⟩

/-- A factory that takes any number of arguments is given all of them. -/
theorem build_variadic {name : String}
    (variadic : Factory.signature name = { name, required := [], receiver := false, variadic := true })
    (calls : ∀ keywords, Factory.build name vs keywords = do
      Factory.buildNamed name (← (Factory.signature name).accept vs keywords)) :
    Factory.build name vs [] = Factory.buildNamed name ⟨[], vs⟩ := by
  have accepted : (Factory.signature name).accept vs [] = pure ⟨[], vs⟩ := by
    rw [variadic]
    simp [Signature.accept, Signature.bind, Signature.parameters, Signature.addNamed]
  rw [calls, accepted, pure_bind]

theorem build_union : Factory.build "Union" vs [] = Factory.union vs :=
  build_variadic rfl fun _ => rfl

theorem build_intersection : Factory.build "Intersection" vs [] = Factory.intersection vs :=
  build_variadic rfl fun _ => rfl

theorem build_negation : Factory.build "Not" vs [] = Factory.negation vs :=
  build_variadic rfl fun _ => rfl

theorem build_nilable (v : Value) : Factory.build "Nilable" [v] [] = (do
    let d ← Descriptor.ofValue v
    return .nilable (← Act.fresh) d) :=
  rfl

theorem build_scalar (kind : Scalar) :
    Factory.build kind.factory vs keywords = Factory.constraint (.cls kind.cls :: vs) keywords := by
  cases kind <;> rfl

/-- A new node over what has been built. -/
theorem node_ok {α : Type} {z : Act α} {a : α} {s t : Session} (run : z s = .ok a t) (f : Ident → α → Descriptor) :
    ∃ i u, (do let a ← z; return f (← Act.fresh) a : Act Descriptor) s = .ok (f i a) u :=
  ⟨_, _, (Act.bind_of_ok run).trans rfl⟩

theorem Builds.of_parts {α β : Type} {x : Act α} {y : Act β} {f : Ident → α → Descriptor} {g : Ident → β → Descriptor}
    (parts : ∀ s s', ∃ a t b t', x s = .ok a t ∧ y s' = .ok b t' ∧
      ∀ i j, (f i a).Normal ∧ (f i a).Abridges functions (g j b)) :
    Builds functions (do let a ← x; return f (← Act.fresh) a) (do let b ← y; return g (← Act.fresh) b) := by
  intro s s'
  obtain ⟨a, t, b, t', first, second, fits⟩ := parts s s'
  obtain ⟨i, u, first⟩ := node_ok first f
  obtain ⟨j, u', second⟩ := node_ok second g
  exact ⟨_, u, _, u', first, second, fits i j⟩

section Factories

variable (monotone : functions.Monotone)
  (h : List.Forall₂ (fun v b => Builds functions (Descriptor.ofValue v) (raw b)) vs bs)

include monotone h

theorem union_builds (some : bs ≠ []) : Builds functions (Factory.union vs) (raw (.union bs)) := by
  cases h with
  | nil => exact absurd rfl some
  | cons head rest =>
    refine Builds.of_parts fun s s' => ?_
    obtain ⟨ds, t, rs, t', read, made, -, normal, abridges⟩ := coerceAll_builds (.cons head rest) s s'
    exact ⟨ds, t, rs, t', read, made, fun i j => ⟨.intro rfl normal, .union monotone abridges⟩⟩

theorem intersection_builds (some : bs ≠ []) :
    Builds functions (Factory.intersection vs) (raw (.intersection bs)) := by
  cases h with
  | nil => exact absurd rfl some
  | cons head rest =>
    refine Builds.of_parts fun s s' => ?_
    obtain ⟨ds, t, rs, t', read, made, -, normal, abridges⟩ := coerceAll_builds (.cons head rest) s s'
    exact ⟨ds, t, rs, t', read, made, fun i j => ⟨.intro rfl normal, .intersection monotone abridges⟩⟩

omit monotone h in
/-- What the negation of one value gives: what was negated if the value is read as a negation, else a new node. -/
theorem negation_ok {v : Value} {d : Descriptor} {s t : Session} (read : Descriptor.ofValue v s = .ok d t) :
    (∃ i inner, d = .negation i inner ∧ Factory.negation [v] s = .ok inner t) ∨
      ∃ i u, (Descriptor.negation i d).collapses = false ∧ Factory.negation [v] s = .ok (.negation i d) u := by
  cases d with
  | negation i inner => exact .inl ⟨i, inner, rfl, (Act.bind_of_ok read).trans rfl⟩
  | _ => exact .inr ⟨_, _, rfl, (Act.bind_of_ok read).trans rfl⟩

omit h in
theorem negation_builds_one {v : Value} {b : Blueprint} (h : Builds functions (Descriptor.ofValue v) (raw b)) :
    Builds functions (Factory.negation [v]) (raw (.negation [b])) := by
  intro s s'
  obtain ⟨d, t, r, t', read, made, normal, abridges⟩ := h s s'
  have made : raws [b] s' = .ok [r] t' := by
    rw [raws, Act.bind_of_ok made]
    rfl
  obtain ⟨j, u', second⟩ : ∃ j u', raw (.negation [b]) s' = .ok (.negation j r) u' :=
    ⟨_, _, (Act.bind_of_ok made).trans rfl⟩
  obtain ⟨i, inner, rfl, first⟩ | ⟨i, u, head, first⟩ := negation_ok read
  · exact ⟨inner, t, _, u', first, second, normal.child (.head _), abridges.negation_negation monotone⟩
  · refine ⟨_, u, _, u', first, second, .intro head ?_, abridges.negation⟩
    simpa [Descriptor.children] using normal

omit monotone h in
theorem raw_negation_two (b c : Blueprint) (bs : List Blueprint) :
    raw (.negation (b :: c :: bs)) = (do
      let d ← raw (.union (b :: c :: bs))
      return .negation (← Act.fresh) d) := by
  simp only [raw, raws, negated, bind_assoc, pure_bind]

theorem negation_builds (some : bs ≠ []) : Builds functions (Factory.negation vs) (raw (.negation bs)) := by
  cases h with
  | nil => exact absurd rfl some
  | cons head rest =>
    cases rest with
    | nil => exact negation_builds_one monotone head
    | cons second rest =>
      -- several arguments make a union, and a union is no negation
      intro s s'
      obtain ⟨ds, t, rs, t', read, made, -, normal, abridges⟩ := coerceAll_builds (.cons head (.cons second rest)) s s'
      obtain ⟨i, u, joined⟩ := node_ok read Descriptor.union
      obtain ⟨i', u, first⟩ := node_ok joined Descriptor.negation
      obtain ⟨j, u', joined'⟩ := node_ok made Descriptor.union
      obtain ⟨j', u', second⟩ := node_ok joined' Descriptor.negation
      rw [raw_negation_two]
      refine ⟨_, u, _, u', first, second, .intro rfl ?_, (Descriptor.Abridges.union monotone abridges).negation⟩
      simpa [Descriptor.children] using Descriptor.Normal.intro (d := .union i ds) rfl normal

omit monotone h in
theorem nilable_builds {v : Value} {b : Blueprint} (h : Builds functions (Descriptor.ofValue v) (raw b)) :
    Builds functions (Factory.build "Nilable" [v] []) (raw (.nilable b)) := by
  rw [build_nilable]
  refine Builds.of_parts fun s s' => ?_
  obtain ⟨d, t, r, t', read, made, normal, abridges⟩ := h s s'
  refine ⟨d, t, r, t', read, made, fun i j => ⟨.intro rfl ?_, abridges.nilable⟩⟩
  simpa [Descriptor.children] using normal

omit monotone h in
theorem constraint_node (some : vs ≠ []) (more : vs.length ≠ 1 ∨ keywords.length ≠ 0) :
    Factory.constraint vs keywords = (do
      let ds ← Factory.coerceAll vs
      let ps ← Factory.coerceNamed keywords
      return .constraint (← Act.fresh) ds ps) := by
  match vs, keywords with
  | [], _ => exact absurd rfl some
  | [_], [] => simp at more
  | [_], _ :: _ => rfl
  | _ :: _ :: _, _ => rfl

omit monotone h in
theorem collapses_constraint {ds : List Descriptor} {ps : List (String × Descriptor)} (i : Ident)
    (more : ds.length ≠ 1 ∨ ps.length ≠ 0) : (Descriptor.constraint i ds ps).collapses = false := by
  match ds, ps with
  | [], _ => rfl
  | [_], [] => simp at more
  | [_], _ :: _ => rfl
  | _ :: _ :: _, _ => rfl

theorem constraint_builds_node (some : vs ≠ []) (more : vs.length ≠ 1 ∨ keywords.length ≠ 0)
    (hn : List.Forall₂ (fun f g => f.1 = g.1 ∧ Builds functions (Descriptor.ofValue f.2) (raw g.2)) keywords named) :
    Builds functions (Factory.constraint vs keywords) (raw (.constraint bs named)) := by
  rw [constraint_node some more]
  intro s s'
  obtain ⟨ds, t, rs, t', read, made, length, normal, abridges⟩ := coerceAll_builds h s s'
  obtain ⟨ps, u, qs, u', read', made', length', normal', abridges'⟩ := coerceNamed_builds hn t t'
  obtain ⟨i, w, first⟩ := node_ok read' fun i ps => Descriptor.constraint i ds ps
  obtain ⟨j, w', second⟩ := node_ok made' fun j qs => Descriptor.constraint j rs qs
  refine ⟨_, w, _, w', (Act.bind_of_ok read).trans first, (Act.bind_of_ok made).trans second,
    .intro (collapses_constraint i (by rwa [length, length'])) ?_, .constraint monotone abridges abridges'⟩
  simp only [Descriptor.children, List.mem_append, List.mem_map]
  rintro c (hc | ⟨f, hf, rfl⟩)
  · exact normal c hc
  · exact normal' f hf

omit h in
theorem constraint_builds_base {v : Value} {b : Blueprint} (h : Builds functions (Descriptor.ofValue v) (raw b)) :
    Builds functions (Factory.constraint [v] []) (raw (.constraint [b] [])) := by
  intro s s'
  obtain ⟨d, t, r, t', read, made, normal, abridges⟩ := h s s'
  have made : raws [b] s' = .ok [r] t' := by
    rw [raws, Act.bind_of_ok made]
    rfl
  exact ⟨d, t, _, _, read, (Act.bind_of_ok made).trans rfl, normal, abridges.base monotone⟩

theorem constraint_builds (some : bs ≠ [])
    (hn : List.Forall₂ (fun f g => f.1 = g.1 ∧ Builds functions (Descriptor.ofValue f.2) (raw g.2)) keywords named) :
    Builds functions (Factory.constraint vs keywords) (raw (.constraint bs named)) := by
  cases h with
  | nil => exact absurd rfl some
  | cons head rest =>
    cases rest with
    | nil =>
      cases hn with
      | nil => exact constraint_builds_base monotone head
      | cons first others =>
        exact constraint_builds_node monotone (.cons head .nil) (by simp) (by simp) (.cons first others)
    | cons second rest =>
      exact constraint_builds_node monotone (.cons head (.cons second rest)) (by simp) (by simp) hn

end Factories

/-- A constrained scalar is a constraint with its class as the first base. -/
theorem raw_scalar (kind : Scalar) (constraints : List Blueprint) (predicates : List (String × Blueprint)) :
    raw (.scalar kind constraints predicates) =
      raw (.constraint (.leaf (.cls kind.cls) :: constraints) predicates) := by
  simp only [raw, raws, bind_assoc, pure_bind]

mutual

/-- Every value that the calls of the factories give is read as a normal descriptor, which abridges the descriptor
as it is written down. -/
theorem value_builds (monotone : functions.Monotone) (b : Blueprint) (wellFormed : b.WellFormed) (s : Session) :
    ∃ v t, b.value s = .ok v t ∧ Builds functions (Descriptor.ofValue v) (raw b) := by
  cases wellFormed with
  | @leaf v read normal => exact ⟨v, s, rfl, leaf_builds read normal⟩
  | @union parts some each =>
    obtain ⟨vs, t, called, all⟩ := values_build monotone parts each s
    have made := union_builds monotone all some
    rw [← build_union] at made
    exact made.call called
  | @intersection parts some each =>
    obtain ⟨vs, t, called, all⟩ := values_build monotone parts each s
    have made := intersection_builds monotone all some
    rw [← build_intersection] at made
    exact made.call called
  | @negation parts some each =>
    obtain ⟨vs, t, called, all⟩ := values_build monotone parts each s
    have made := negation_builds monotone all some
    rw [← build_negation] at made
    exact made.call called
  | @nilable part each =>
    obtain ⟨v, t, called, inner⟩ := value_builds monotone part each s
    exact (nilable_builds inner).call called
  | @constraint bases predicates some each named =>
    obtain ⟨vs, t, called, all⟩ := values_build monotone bases each s
    obtain ⟨keywords, t', called', others⟩ := namedValues_build monotone predicates named t
    obtain ⟨v, u, run, reads⟩ := (constraint_builds monotone all some others).call called'
    exact ⟨v, u, (Act.bind_of_ok called).trans run, reads⟩
  | @scalar kind constraints predicates each named =>
    obtain ⟨vs, t, called, all⟩ := values_build monotone constraints each s
    obtain ⟨keywords, t', called', others⟩ := namedValues_build monotone predicates named t
    have cls : Builds functions (Descriptor.ofValue (.cls kind.cls)) (raw (.leaf (.cls kind.cls))) :=
      leaf_builds (by simp) (by simp)
    have made := constraint_builds monotone (.cons cls all) (by simp) others
    rw [← build_scalar, ← raw_scalar] at made
    obtain ⟨v, u, run, reads⟩ := made.call called'
    exact ⟨v, u, (Act.bind_of_ok called).trans run, reads⟩

theorem values_build (monotone : functions.Monotone) (bs : List Blueprint) (wellFormed : ∀ b ∈ bs, b.WellFormed)
    (s : Session) : ∃ vs t, values bs s = .ok vs t ∧
      List.Forall₂ (fun v b => Builds functions (Descriptor.ofValue v) (raw b)) vs bs := by
  match bs with
  | [] => exact ⟨[], s, rfl, .nil⟩
  | b :: bs =>
    simp only [List.forall_mem_cons] at wellFormed
    obtain ⟨v, t, called, head⟩ := value_builds monotone b wellFormed.1 s
    obtain ⟨vs, u, calls, rest⟩ := values_build monotone bs wellFormed.2 t
    refine ⟨v :: vs, u, ?_, .cons head rest⟩
    rw [values, Act.bind_of_ok called, Act.bind_of_ok calls]
    rfl

theorem namedValues_build (monotone : functions.Monotone) (named : List (String × Blueprint))
    (wellFormed : ∀ f ∈ named, f.2.WellFormed) (s : Session) : ∃ keywords t, namedValues named s = .ok keywords t ∧
      List.Forall₂ (fun f g => f.1 = g.1 ∧ Builds functions (Descriptor.ofValue f.2) (raw g.2)) keywords named := by
  match named with
  | [] => exact ⟨[], s, rfl, .nil⟩
  | (name, b) :: named =>
    simp only [List.forall_mem_cons] at wellFormed
    obtain ⟨v, t, called, head⟩ := value_builds monotone b wellFormed.1 s
    obtain ⟨keywords, u, calls, rest⟩ := namedValues_build monotone named wellFormed.2 t
    refine ⟨(name, v) :: keywords, u, ?_, .cons ⟨rfl, head⟩ rest⟩
    rw [namedValues, Act.bind_of_ok called, Act.bind_of_ok calls]
    rfl

end

/-- **The factories keep the meaning.** From every well-formed blueprint, in whatever session, the factories build a
descriptor, and so do the plain constructors. The factories' one has no negation right below a negation and no
constraint with one base and no predicate, at any depth. On every value and in every session the two end in the same
way: with the same answer or failure, the same calls made in the same order, and the same session; except that the
deeper one of the two, which is never the factories' one, may give up. -/
theorem built_like_raw (monotone : functions.Monotone) {b : Blueprint} (wellFormed : b.WellFormed) (s s' : Session) :
    ∃ d t r t', b.built s = .ok d t ∧ b.raw s' = .ok r t' ∧ d.Normal ∧
      (∀ n v, ((Engine.ofDepth functions n).accepts r v).Approximates ((Engine.ofDepth functions n).accepts d v)) ∧
      ∃ k, ∀ n v,
        ((Engine.ofDepth functions n).accepts d v).Approximates ((Engine.ofDepth functions (n + k)).accepts r v) := by
  obtain ⟨v, u, called, builds⟩ := value_builds monotone b wellFormed s
  obtain ⟨d, t, r, t', read, made, normal, abridges⟩ := builds u s'
  exact ⟨d, t, r, t', (Act.bind_of_ok called).trans read, made, normal, abridges.within, abridges.beyond⟩

end Building

/-- A negation, inside a constraint that asks for nothing, inside a negation. -/
def buried : Blueprint :=
  .negation [.constraint [.negation [.scalar .string [] [("isupper", .leaf (.bool true))]]] []]

theorem buried_wellFormed : buried.WellFormed := by
  have inner : WellFormed (.scalar .string [] [("isupper", .leaf (.bool true))]) :=
    .scalar (by simp) (by simpa using WellFormed.leaf (by simp) (by simp))
  have outer : WellFormed (.constraint [.negation [.scalar .string [] [("isupper", .leaf (.bool true))]]] []) :=
    .constraint (by simp) (by simpa using WellFormed.negation (by simp) (by simpa using inner)) (by simp)
  exact .negation (by simp) (by simpa using outer)

/-- The constraint collapses first, and then the two negations. -/
theorem buried_built_like_raw : buried.WellFormed ∧ ∃ d t r t', buried.built {} = .ok d t ∧ buried.raw {} = .ok r t' ∧
    d.Normal ∧
    (∀ n v, ((Engine.ofDepth Zoo.library n).accepts r v).Approximates ((Engine.ofDepth Zoo.library n).accepts d v)) ∧
    ∃ k, ∀ n v,
      ((Engine.ofDepth Zoo.library n).accepts d v).Approximates ((Engine.ofDepth Zoo.library (n + k)).accepts r v) :=
  ⟨buried_wellFormed, built_like_raw Zoo.library_monotone buried_wellFormed {} {}⟩

end Blueprint

end Conform
