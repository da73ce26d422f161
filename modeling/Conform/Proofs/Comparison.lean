import Conform.Proofs.Ending
import Conform.Proofs.Transitivity

/-!
When a comparison of descriptors comes to an end. Comparing two descriptors follows two graphs at once and
stops where the two sides are one node, or equal without unfolding. Two recursive descriptors that were
built apart have no such place, so comparing them goes round for ever: `copies_unanswered`.

A pair asks for other pairs as the rules do, through what deferred descriptors stand for. If no chain of
such requests is endless, the comparison answers yes or no. That is so in particular if one of the two
sides is not recursive, however recursive the other is. Main statement: `subtype_answers`.
-/
namespace Conform

namespace Descriptor

/-- The rule for two descriptors asks for a comparison of parts of them. -/
inductive Demands : Descriptor → Descriptor → Descriptor × Descriptor → Prop
  | union {i j mine theirs m t} (hm : m ∈ mine) (ht : t ∈ theirs) :
    Demands (.union i mine) (.union j theirs) (m, t)
  | intersection {i j mine theirs m t} (hm : m ∈ mine) (ht : t ∈ theirs) :
    Demands (.intersection i mine) (.intersection j theirs) (m, t)
  | negation {i j m t} : Demands (.negation i m) (.negation j t) (t, m)
  | nilable {i j m t} : Demands (.nilable i m) (.nilable j t) (m, t)
  | base {i j bases bases' predicates predicates' m t} (hm : m ∈ bases) (ht : t ∈ bases') :
    Demands (.constraint i bases predicates) (.constraint j bases' predicates') (m, t)
  | named {i j bases bases' predicates predicates' e f} (he : e ∈ predicates) (hf : f ∈ predicates')
    (hn : e.1 = f.1) :
    Demands (.constraint i bases predicates) (.constraint j bases' predicates') (e.2, f.2)
  | rangeOf {i j m t} : Demands (.rangeOf i m) (.rangeOf j t) (m, t)
  | tupleOf {i j mine theirs p} (hp : p ∈ mine.zip theirs) :
    Demands (.tupleOf i mine) (.tupleOf j theirs) p
  | field {i j mine theirs e f} (he : e ∈ mine) (hf : f ∈ theirs) (hn : e.1 = f.1) :
    Demands (.shape i mine) (.shape j theirs) (e.2, f.2)
  | collection {i j kind kind' m t} (hk : kind' = .enumerable ∨ kind = kind') :
    Demands (.collection i kind m) (.collection j kind' t) (m, t)
  | key {i j key key' value value'} : Demands (.mappingOf i key value) (.mappingOf j key' value') (key, key')
  | value {i j key key' value value'} :
    Demands (.mappingOf i key value) (.mappingOf j key' value') (value, value')
  | checkedListOf {i j m t} : Demands (.checkedListOf i m) (.checkedListOf j t) (m, t)

/-- The second pair of descriptors asks for a comparison of the first. A pair of one and the same node asks
for nothing. -/
inductive Asks (stands : Descriptor → Descriptor → Prop) :
    Descriptor × Descriptor → Descriptor × Descriptor → Prop
  | resolve {id thunk b d} (distinct : b.same (.deferred id thunk) = false)
    (hd : stands (.deferred id thunk) d) : Asks stands (d, b) (.deferred id thunk, b)
  | compare {a b p} (distinct : b.same a = false) (h : Demands a b p) : Asks stands p (a, b)
  | uncover {a b id thunk p} (hb : stands (.deferred id thunk) b) (distinct : b.same a = false)
    (h : Demands a b p) : Asks stands p (a, .deferred id thunk)

/-- The first descriptor is a part of the second or what it stands for. -/
inductive Unfolds (stands : Descriptor → Descriptor → Prop) (c d : Descriptor) : Prop
  | child (h : c ∈ d.children)
  | target (h : stands d c)

/-- A demand is for a part of either side. -/
theorem Demands.children {a b : Descriptor} {p : Descriptor × Descriptor} (h : Demands a b p) :
    p.1 ∈ a.children ∧ p.2 ∈ b.children ∨ p.1 ∈ b.children ∧ p.2 ∈ a.children := by
  cases h with
  | negation => exact .inr ⟨.head _, .head _⟩
  | base hm ht => exact .inl ⟨base_mem hm, base_mem ht⟩
  | named he hf => exact .inl ⟨predicate_mem he, predicate_mem hf⟩
  | tupleOf hp => exact .inl (List.of_mem_zip hp)
  | field he hf => exact .inl ⟨List.mem_map_of_mem he, List.mem_map_of_mem hf⟩
  | value => exact .inl ⟨.tail _ (.head _), .tail _ (.head _)⟩
  | union hm ht | intersection hm ht => exact .inl ⟨hm, ht⟩
  | _ => exact .inl ⟨.head _, .head _⟩

/-- No chain of requests is endless if one side cannot be unfolded for ever and the other one always comes
from what is deferred to what is not. -/
theorem Asks.acc_of_finite {stands : Descriptor → Descriptor → Prop} {F : Descriptor → Prop}
    (children : ∀ d, F d → ∀ c ∈ d.children, F c) (targets : ∀ d c, F d → stands d c → F c)
    (guarded : ∀ d, F d → Acc (fun c d => stands d c) d) {a : Descriptor}
    (finite : Acc (Unfolds stands) a) :
    ∀ b, F b → Acc (Asks stands) (a, b) ∧ Acc (Asks stands) (b, a) := by
  replace finite := finite.transGen
  induction finite with
  | intro a _ ih =>
    -- Whatever is asked for has a part of `a` on one side, where the induction hypothesis applies.
    have forth {x y : Descriptor} (hx : Relation.TransGen (Unfolds stands) x a) (hy : F y) :
        Acc (Asks stands) (x, y) := (ih x hx y hy).1
    have back {x y : Descriptor} (hx : Relation.TransGen (Unfolds stands) x a) (hy : F y) :
        Acc (Asks stands) (y, x) := (ih x hx y hy).2
    have part {x : Descriptor} (hx : x ∈ a.children) : Relation.TransGen (Unfolds stands) x a :=
      .single (.child hx)
    intro b hb
    constructor
    · constructor
      rintro ⟨x, y⟩ asks
      cases asks with
      | resolve _ hd => exact forth (.single (.target hd)) hb
      | compare _ h =>
        obtain ⟨hx, hy⟩ | ⟨hx, hy⟩ := h.children
        · exact forth (part hx) (children b hb y hy)
        · exact back (part hy) (children b hb x hx)
      | @uncover _ b' _ _ _ hb' _ h =>
        have member := targets _ b' hb hb'
        obtain ⟨hx, hy⟩ | ⟨hx, hy⟩ := h.children
        · exact forth (part hx) (children b' member y hy)
        · exact back (part hy) (children b' member x hx)
    · have chain := guarded b hb
      induction chain with
      | intro b _ deferred =>
        constructor
        rintro ⟨x, y⟩ asks
        cases asks with
        | resolve _ hd => exact deferred x hd (targets _ x hb hd)
        | compare _ h =>
          obtain ⟨hx, hy⟩ | ⟨hx, hy⟩ := h.children
          · exact back (part hy) (children b hb x hx)
          · exact forth (part hx) (children b hb y hy)
        | uncover ha _ h =>
          have deeper {z : Descriptor} (hz : Unfolds stands z _) : Relation.TransGen (Unfolds stands) z _ :=
            .tail (.single hz) (.target ha)
          obtain ⟨hx, hy⟩ | ⟨hx, hy⟩ := h.children
          · exact back (deeper (.child hy)) (children b hb x hx)
          · exact forth (deeper (.child hx)) (children b hb y hy)

end Descriptor

open Descriptor

namespace Outlook

variable {O : Outlook} {s : Session} {a b : Descriptor}

namespace Ends

theorem pairwiseBelow {as bs : List Descriptor} (moment : O.Moment s)
    (hs : ∀ p ∈ as.zip bs, ∀ t, O.Later s t → O.Stops (fun n => (O.engine n).subtype p.1 p.2) t) :
    O.Stops (fun n => Descriptor.pairwiseBelow (O.engine n) as bs) s := by
  simp only [pairwiseBelow_eq]
  exact .allM moment hs

theorem namedBelow {mine theirs : List (String × Descriptor)} (moment : O.Moment s)
    (hs : ∀ e ∈ mine, ∀ f ∈ theirs, e.1 = f.1 → ∀ t, O.Later s t →
      O.Stops (fun n => (O.engine n).subtype e.2 f.2) t) :
    O.Stops (fun n => Descriptor.namedBelow (O.engine n) mine theirs) s := by
  simp only [namedBelow_eq]
  refine .allM moment fun f hf t st => ?_
  simp only [fieldBelow]
  cases found : named? mine f.1 with
  | none => exact .pure st.moment trivial
  | some e => exact hs e (mem_of_named? found).1 f hf (mem_of_named? found).2 t st

/-- The rule for two descriptors ends if what it asks for does. -/
theorem sameVariantBelow (moment : O.Moment s)
    (hs : ∀ p, Demands a b p → ∀ t, O.Later s t → O.Stops (fun n => (O.engine n).subtype p.1 p.2) t) :
    O.Stops (fun n => Descriptor.sameVariantBelow (O.engine n) a b) s := by
  unfold Descriptor.sameVariantBelow
  split
  case h_1 =>
    refine .allM moment fun m hm t st => .anyM st.moment fun t' ht u tu => ?_
    exact hs (m, t') (.union hm ht) u (st.trans tu)
  case h_2 =>
    refine .allM moment fun t' ht t st => .anyM st.moment fun m hm u tu => ?_
    exact hs (m, t') (.intersection hm ht) u (st.trans tu)
  case h_3 => exact hs _ .negation s moment.refl
  case h_4 => exact hs _ .nilable s moment.refl
  case h_5 =>
    refine .bind (.allM moment fun t' ht t st => .anyM st.moment fun m hm u tu => ?_) ?_
    · exact hs (m, t') (.base hm ht) u (st.trans tu)
    · intro r t st _
      refine .ite (fun _ => .namedBelow st.moment ?_) fun _ => .pure st.moment trivial
      intro e he f hf hn u tu
      exact hs _ (.named he hf hn) u (st.trans tu)
  case h_6 => exact hs _ .rangeOf s moment.refl
  case h_7 =>
    refine .ite (fun _ => .pairwiseBelow moment ?_) fun _ => .pure moment trivial
    exact fun p hp => hs p (.tupleOf hp)
  case h_8 => exact .namedBelow moment fun e he f hf hn => hs _ (.field he hf hn)
  case h_9 =>
    refine .ite (fun hk => hs _ (.collection (by simpa using hk)) s moment.refl) fun _ => ?_
    exact .pure moment trivial
  case h_10 =>
    refine .bind (hs _ .key s moment.refl) ?_
    intro r t st _
    exact .ite (fun _ => hs _ .value t st) fun _ => .pure st.moment trivial
  case h_15 => exact .pure moment trivial
  case h_16 => exact hs _ .checkedListOf s moment.refl
  case h_17 => exact .pure moment trivial
  all_goals exact .isSubclass moment _ _

end Ends

/-- A family whose members can besides be compared by value. -/
structure Compares (O : Outlook) : Prop extends Resolves O where
  equality : ∀ {a b}, O.family a → O.family b → ∀ s, O.Moment s → a.Live s.heap → b.Live s.heap →
    ∀ f, Value.equal (.descriptor b) (.descriptor a) s.heap = .error f → O.faults f

namespace Compares

/-- One deferred layer is taken off the right-hand side, if there is one. -/
theorem uncover (compares : O.Compares) (moment : O.Moment s) (hb : O.family b) (lb : b.Live s.heap) :
    O.Ends (fun n => Descriptor.uncover (O.engine n) b) s fun d t =>
      O.family d ∧ d.Live t.heap ∧
        (d = b ∨ ∃ id thunk, b = .deferred id thunk ∧ O.stands (.deferred id thunk) d) := by
  unfold Descriptor.uncover
  split
  · refine (compares.resolve moment hb).mono ?_
    intro d t _ made
    exact ⟨made.1, made.2.1, .inr ⟨_, _, rfl, made.2.2⟩⟩
  · exact .pure moment ⟨hb, lb, .inl rfl⟩

/-- Two descriptors without a deferred layer are compared, if what their rule asks for can be. -/
theorem settle (compares : O.Compares) (moment : O.Moment s) (ha : O.family a) (hb : O.family b)
    (la : a.Live s.heap) (lb : b.Live s.heap)
    (hs : b.same a = false → ∀ p, Demands a b p → ∀ t, O.Later s t →
      O.Stops (fun n => (O.engine n).subtype p.1 p.2) t) :
    O.Stops (fun n => do
      if b.same a then return true
      if ← (← Value.equal (.descriptor b) (.descriptor a)).truth then return true
      match b with
      | .void => return true
      | _ => Descriptor.sameVariantBelow (O.engine n) a b) s := by
  refine .ite (fun _ => .pure moment trivial) fun distinct => ?_
  have answers (e : Value) (he : Value.equal (.descriptor b) (.descriptor a) s.heap = .ok e) :
      s = s ∧ ∃ c, e = .bool c := ⟨rfl, Value.equalAt_bool he⟩
  refine .bind (Q := fun e t => t = s ∧ ∃ c, e = .bool c)
    (.look moment answers (compares.equality ha hb s moment la lb)) ?_
  rintro - t st ⟨rfl, c, rfl⟩
  have known (f : Fault) (hf : (Value.bool c).truth t.heap = .error f) : O.faults f := by
    simp [Value.truth] at hf
  refine .bind (Q := fun _ u => u = t) (.look moment (fun _ _ => rfl) known) ?_
  rintro r u - rfl
  refine .ite (fun _ => .pure moment trivial) fun _ => ?_
  split
  · exact .pure moment trivial
  · exact .sameVariantBelow moment (hs (by simpa using distinct))

/-- A comparison ends if no chain of requests from it is endless. -/
theorem subtype (compares : O.Compares) {p : Descriptor × Descriptor} (acc : Acc (Asks O.stands) p) :
    ∀ s, O.Moment s → O.family p.1 → O.family p.2 → p.1.Live s.heap → p.2.Live s.heap →
      O.Stops (fun n => (O.engine n).subtype p.1 p.2) s := by
  induction acc with
  | intro p _ ih =>
    obtain ⟨a, b⟩ := p
    intro s moment ha hb la lb
    have demanded {b' : Descriptor} {t : Session} (st : O.Later s t) (hb' : O.family b')
        (lb' : b'.Live t.heap) (asks : ∀ q, Demands a b' q → Asks O.stands q (a, b)) :
        ∀ q, Demands a b' q → ∀ u, O.Later t u → O.Stops (fun n => (O.engine n).subtype q.1 q.2) u := by
      intro q hq u tu
      have su := st.trans tu
      have left {x : Descriptor} (hx : x ∈ a.children) : O.family x ∧ x.Live u.heap :=
        ⟨compares.children ha x hx, Descriptor.Live.child (Descriptor.Live.grow su.before.heap a la) hx⟩
      have right {y : Descriptor} (hy : y ∈ b'.children) : O.family y ∧ y.Live u.heap :=
        ⟨compares.children hb' y hy, Descriptor.Live.child (Descriptor.Live.grow tu.before.heap b' lb') hy⟩
      obtain ⟨hx, hy⟩ | ⟨hx, hy⟩ := hq.children
      · exact ih q (asks q hq) u tu.moment (left hx).1 (right hy).1 (left hx).2 (right hy).2
      · exact ih q (asks q hq) u tu.moment (right hx).1 (left hy).1 (right hx).2 (left hy).2
    have plain : O.Stops (fun n => do
        let b ← Descriptor.uncover (O.engine n) b
        if b.same a then return true
        if ← (← Value.equal (.descriptor b) (.descriptor a)).truth then return true
        match b with
        | .void => return true
        | _ => Descriptor.sameVariantBelow (O.engine n) a b) s := by
      refine .bind (compares.uncover moment hb lb) ?_
      rintro b' t st ⟨hb', lb', covers⟩
      have la' := Descriptor.Live.grow st.before.heap a la
      refine compares.settle st.moment ha hb' la' lb' fun distinct => demanded st hb' lb' ?_
      intro q hq
      obtain rfl | ⟨id, thunk, rfl, stands⟩ := covers
      · exact .compare distinct hq
      · exact .uncover stands distinct hq
    refine .deepen ?_
    cases a with
    | never => exact .pure moment trivial
    | deferred id thunk =>
      refine .ite (fun _ => .pure moment trivial) fun distinct => ?_
      refine .bind (compares.resolve moment ha) ?_
      rintro d t st ⟨dd, ld, stands⟩
      have lb' := Descriptor.Live.grow st.before.heap b lb
      exact ih (d, b) (.resolve (by simpa using distinct) stands) t st.moment dd hb ld lb'
    | _ => exact plain

/-- Comparing two descriptors of a family in which every cycle passes through a node that is not deferred
answers yes or no, if one of the two is not recursive or if no pair of different nodes is come to again and
again. The answer is the same from some depth on. -/
theorem subtype_answers (compares : O.Compares) (strict : ∀ f, ¬O.faults f)
    (targets : ∀ d c, O.family d → O.stands d c → O.family c)
    (guarded : ∀ d, O.family d → Acc (fun c d => O.stands d c) d) (moment : O.Moment s) (ha : O.family a)
    (hb : O.family b) (la : a.Live s.heap) (lb : b.Live s.heap)
    (finite : Acc (Unfolds O.stands) a ∨ Acc (Unfolds O.stands) b ∨ Acc (Asks O.stands) (a, b)) :
    ∃ n r t, ∀ m, n ≤ m → (Engine.ofDepth O.functions m).subtype a b s = .ok r t := by
  have children : ∀ d, O.family d → ∀ c ∈ d.children, O.family c := fun d hd => compares.children hd
  have acc : Acc (Asks O.stands) (a, b) := by
    obtain finite | finite | acc := finite
    · exact (Asks.acc_of_finite children targets guarded finite b hb).1
    · exact (Asks.acc_of_finite children targets guarded finite a ha).2
    · exact acc
  obtain ⟨n, r, same, ends⟩ := compares.subtype acc s moment ha hb la lb
  cases r with
  | ok r t => exact ⟨n, r, t, same⟩
  | error f t => exact absurd ends (strict f)

section Nested

open InPlay Lawful

/-- The nested lists, with the deferred descriptor standing for its cases. -/
def nestedOutlook (faults : Fault → Prop) : Outlook where
  functions := nestedLibrary
  start := nestedStart
  family := ChainFamily
  stands d c := d = nested ∧ c = nestedCases
  faults := faults

theorem nested_resolves (faults : Fault → Prop) : (nestedOutlook faults).Resolves where
  children := chain_children
  identity := by
    rintro id thunk thunk' ⟨⟨⟩⟩ ⟨⟨⟩⟩
    rfl
  thunks := by
    rintro id thunk ⟨⟨⟩⟩ s moment
    refine .deepen (.pure moment ⟨.nested .cases, nested_live .cases, rfl, rfl⟩)
  texts := by
    rintro d (⟨_ | _ | _ | _ | _ | _⟩ | _) s _ _ f hf <;> cases hf

theorem nested_compares (faults : Fault → Prop) : (nestedOutlook faults).Compares where
  toResolves := nested_resolves faults
  equality := by
    rintro a b (⟨_ | _ | _ | _ | _ | _⟩ | _) (⟨_ | _ | _ | _ | _ | _⟩ | _) s _ _ _ f hf <;> cases hf

theorem nested_targets {faults : Fault → Prop} {d c : Descriptor} (h : (nestedOutlook faults).stands d c) :
    ChainFamily c := by
  obtain ⟨-, rfl⟩ := h
  exact .nested .cases

theorem nested_guarded (faults : Fault → Prop) (d : Descriptor) :
    Acc (fun c d => (nestedOutlook faults).stands d c) d := by
  constructor
  rintro _ ⟨-, rfl⟩
  constructor
  rintro _ ⟨impossible, -⟩
  cases impossible

theorem nested_moment (faults : Fault → Prop) : (nestedOutlook faults).Moment nestedStart :=
  ⟨.refl _, chain_sound nested_starts, fun _ hr => by cases hr⟩

/-- Lists of the cases and nested lists are both recursive, but they come to the cases on both sides. -/
theorem nested_acc (faults : Fault → Prop) :
    Acc (Asks (nestedOutlook faults).stands) (caseLists, nestedLists) := by
  constructor
  rintro _ (_ | ⟨_, ⟨⟩⟩ | _)
  constructor
  rintro _ (_ | ⟨_, ⟨⟩⟩ | ⟨⟨-, rfl⟩, distinct, -⟩)
  cases distinct

theorem caseLists_answered :
    Acc (Asks (nestedOutlook fun _ => False).stands) (caseLists, nestedLists) ∧
      ∃ n r t, ∀ m, n ≤ m →
        (Engine.ofDepth nestedLibrary m).subtype caseLists nestedLists nestedStart = .ok r t :=
  ⟨nested_acc _, subtype_answers (nested_compares fun _ => False) (fun _ => id)
    (fun _ _ _ => nested_targets) (fun d _ => nested_guarded _ d) (nested_moment _) .lists
    (.nested .lists) (chain_live .lists) (nested_live .lists) (.inr (.inr (nested_acc _)))⟩

end Nested

section Copies

/-- Lists of lists of lists and so on, twice. -/
abbrev firstCopy : Descriptor := .deferred 1 (.fn { name := "first", traced := false, bare := true })

abbrev secondCopy : Descriptor := .deferred 2 (.fn { name := "second", traced := false, bare := true })

def copyLibrary : Library := fun _ name _ _ =>
  return .descriptor (if name == "first" then .collection 3 .array firstCopy
    else .collection 4 .array secondCopy)

/-- A session in which both copies are resolved. -/
def copiesResolved : Session where
  resolved := [(1, .collection 3 .array firstCopy), (2, .collection 4 .array secondCopy)]

theorem resolved_copies_unanswered : ∀ n,
    (Engine.ofDepth copyLibrary n).subtype firstCopy secondCopy copiesResolved =
      .error .exhausted copiesResolved
  | 0 => rfl
  | 1 => rfl
  -- Two levels on, the comparison of the element types is the comparison of the copies.
  | n + 2 => resolved_copies_unanswered n

/-- Two copies of one recursive descriptor are compared for ever: no depth suffices. -/
theorem copies_unanswered (n : Nat) :
    ∃ t, (Engine.ofDepth copyLibrary n).subtype firstCopy secondCopy {} = .error .exhausted t := by
  obtain _ | _ | _ | n := n
  · exact ⟨_, rfl⟩
  · exact ⟨_, rfl⟩
  · exact ⟨_, rfl⟩
  · exact ⟨_, resolved_copies_unanswered (n + 1)⟩

end Copies

end Compares

end Outlook

end Conform
