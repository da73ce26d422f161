import Conform.Proofs.Comparison

/-!
Variance. A descriptor with a hole is a stack of frames, one for each node above the hole. Filling the hole
with two descriptors the first of which is below the second gives two descriptors in the same order if
the number of negations above the hole is even, and in the opposite order if it is odd.

A comparison asks for more than the pair in the hole: the parts of a union are compared with each other
until one is found. What it asks for may fail, so the answer is yes or a failure of a thunk or of an
equality, and never no. Main statement: `subtype_congruent`.
-/
namespace Conform

open Descriptor

/-- A node of a descriptor with one of its parts left open. -/
inductive Frame where
  | union (before after : List Descriptor)
  | intersection (before after : List Descriptor)
  | negation
  | nilable
  | base (before after : List Descriptor) (predicates : List (String × Descriptor))
  | predicate (bases : List Descriptor) (before : List (String × Descriptor)) (name : String)
    (after : List (String × Descriptor))
  | rangeOf
  | tupleOf (before after : List Descriptor)
  | field (before : List (String × Descriptor)) (name : String) (after : List (String × Descriptor))
  | collection (kind : CollectionKind)
  | key (image : Descriptor)
  | value (source : Descriptor)
  | checkedListOf

namespace Frame

/-- The node with its open part filled in. -/
def fill (f : Frame) (id : Ident) (d : Descriptor) : Descriptor :=
  match f with
  | .union before after => .union id (before ++ d :: after)
  | .intersection before after => .intersection id (before ++ d :: after)
  | .negation => .negation id d
  | .nilable => .nilable id d
  | .base before after predicates => .constraint id (before ++ d :: after) predicates
  | .predicate bases before name after => .constraint id bases (before ++ (name, d) :: after)
  | .rangeOf => .rangeOf id d
  | .tupleOf before after => .tupleOf id (before ++ d :: after)
  | .field before name after => .shape id (before ++ (name, d) :: after)
  | .collection kind => .collection id kind d
  | .key image => .mappingOf id d image
  | .value source => .mappingOf id source d
  | .checkedListOf => .checkedListOf id d

def isNegation : Frame → Bool
  | .negation => true
  | _ => false

/-- The names that the node gives to its parts. -/
def names : Frame → List String
  | .base _ _ predicates => predicates.map (·.1)
  | .predicate _ before name after | .field before name after => before.map (·.1) ++ name :: after.map (·.1)
  | _ => []

variable {f : Frame} {i j : Ident} {x y d : Descriptor} {G : Ground} {R : Descriptor → Descriptor → Prop}

theorem mem_children : d ∈ (f.fill i d).children := by
  cases f <;> simp [fill, children]

theorem plain : (f.fill i d).isDeferred = false ∧ (f.fill i d).isPayload = false := by
  cases f <;> exact ⟨rfl, rfl⟩

/-- Two fillings of one frame fall under the rule of its variant, since the other parts are the same. -/
theorem struct (refl : ∀ c, R c c) (h : R x y) (positive : f.isNegation = false) (distinct : f.names.Nodup) :
    Struct G R (f.fill i x) (f.fill j y) := by
  have some {before after : List Descriptor} :
      ∀ t ∈ before ++ y :: after, ∃ m ∈ before ++ x :: after, R m t := by
    intro t ht
    simp only [List.mem_append, List.mem_cons] at ht ⊢
    obtain ht | rfl | ht := ht
    · exact ⟨t, .inl ht, refl t⟩
    · exact ⟨x, .inr (.inl rfl), h⟩
    · exact ⟨t, .inr (.inr ht), refl t⟩
  have named {before after : List (String × Descriptor)} {name : String}
      (distinct : (before.map (·.1) ++ name :: after.map (·.1)).Nodup) :
      NamedBelow R (before ++ (name, x) :: after) (before ++ (name, y) :: after) := by
    intro e he
    have ⟨d, hd, related⟩ : ∃ d, (e.1, d) ∈ before ++ (name, x) :: after ∧ R d e.2 := by
      simp only [List.mem_append, List.mem_cons] at he ⊢
      obtain he | rfl | he := he
      · exact ⟨e.2, .inl he, refl e.2⟩
      · exact ⟨x, .inr (.inl rfl), h⟩
      · exact ⟨e.2, .inr (.inr he), refl e.2⟩
    exact ⟨(e.1, d), named?_of_distinct (by simpa using distinct) hd, related⟩
  cases f with
  | union before after =>
    apply StructBy.union
    intro m hm
    simp only [List.mem_append, List.mem_cons] at hm ⊢
    obtain hm | rfl | hm := hm
    · exact ⟨m, .inl hm, refl m⟩
    · exact ⟨y, .inr (.inl rfl), h⟩
    · exact ⟨m, .inr (.inr hm), refl m⟩
  | intersection before after => exact .intersection some
  | negation => cases positive
  | nilable => exact .nilable h
  | base before after predicates =>
    exact .constraint some fun e he => ⟨e, named?_of_distinct distinct he, refl e.2⟩
  | predicate bases before name after => exact .constraint (fun t ht => ⟨t, ht, refl t⟩) (named distinct)
  | rangeOf => exact .rangeOf h
  | tupleOf before after =>
    apply StructBy.tupleOf
    have aside (ds : List Descriptor) : List.Forall₂ R ds ds := List.forall₂_same.mpr fun c _ => refl c
    exact List.rel_append (aside before) (.cons h (aside after))
  | field before name after => exact .shape (named distinct)
  | collection kind => exact .collection (.inr rfl) h
  | key image => exact .mappingOf h (refl image)
  | value source => exact .mappingOf (refl source) h
  | checkedListOf => exact .checkedListOf h

end Frame

/-- A descriptor with a hole: the nodes from its root down to the hole. -/
abbrev Context := List Frame

namespace Context

/-- The descriptor with its hole filled. The nodes above the hole are objects of their own. -/
def plug (ids : Nat → Ident) : Context → Descriptor → Descriptor
  | [], d => d
  | f :: rest, d => f.fill (ids rest.length) (plug ids rest d)

/-- The number of negations that the hole is under. -/
def negations (C : Context) : Nat :=
  C.countP Frame.isNegation

/-- Compares two fillings in the order that they have in the hole, or the other way around where the hole
is under an odd number of negations. -/
def compare (C : Context) (e : Engine) (x y : Descriptor) : Act Bool :=
  if C.negations % 2 = 0 then e.subtype x y else e.subtype y x

variable {ids : Nat → Ident} {C : Context} {d : Descriptor} {E : Descriptor → Prop} {h : Heap}

/-- What holds of the parts of a descriptor along with it holds in the hole. -/
theorem of_plug (children : ∀ d, E d → ∀ c ∈ d.children, E c) (hd : E (C.plug ids d)) : E d := by
  induction C with
  | nil => exact hd
  | cons f rest ih => exact ih (children _ hd _ Frame.mem_children)

end Context

/-- There is no rule for descriptors that are compared by their payload. -/
theorem Answers.payload_no {functions : Library} {D : Descriptor → Prop} {ω : Session} {n : Nat}
    {a b : Descriptor} {known : List Value} {r : Bool} (payload : a.isPayload = true)
    (h : Answers D ω known (sameVariantBelow (Engine.ofDepth functions n) a b) r) : r = false := by
  cases a <;> cases payload <;> exact h.pure.symm

/-- A comparison never answers no within a history. -/
def Unrefuted (functions : Library) (D : Descriptor → Prop) (ω : Session) (a b : Descriptor) : Prop :=
  ∀ n, ¬Judged functions D ω n a b false

namespace Unrefuted

variable {functions : Library} {D E : Descriptor → Prop} {ω : Session} {a b : Descriptor} {n : Nat}

/-- A descriptor is known for its own subtype without a look at it. -/
theorem refl (d : Descriptor) : Unrefuted functions D ω d d := by
  rintro n ⟨s, t, -, -, run, -⟩
  have same : d.same d = true := by simp [Descriptor.same]
  cases n with
  | zero => cases run
  | succ n =>
    simp only [Engine.ofDepth, Engine.step] at run
    cases d <;> simp [subtypeStep, uncover, same] at run

variable (view : InView D E ω) (resolving : Resolving functions D)
include view resolving

/-- Two descriptors that fall under the rule of their variant, as far as their parts are not refuted. -/
theorem of_struct (ha : E a) (hb : E b) (plain : a.isDeferred = false) (plain' : b.isDeferred = false)
    (parts : a.isPayload = false) (related : Struct ω.ground (Unrefuted functions D ω) a b) :
    Unrefuted functions D ω a b := by
  intro n h
  cases n with
  | zero =>
    obtain ⟨s, t, -, -, run, -⟩ := h
    cases run
  | succ n =>
    cases h.judging resolving view ha hb with
    | resolve => cases plain
    | settle bottom _ uncovers hb' settling =>
      obtain rfl := uncovers.eq_of_plain plain'
      cases settling with
      | rule distinct top he hf hr =>
        have payload := hr.isPayload resolving view ha hb
          (fun x y _ _ answer unrefuted => unrefuted n answer) related
        rw [parts] at payload
        cases payload

/-- What is found a subtype once is found one ever after. -/
theorem of_judged (ha : E a) (hb : E b) (yes : Judged functions D ω n a b true) :
    Unrefuted functions D ω a b := by
  induction n generalizing a b with
  | zero =>
    obtain ⟨s, t, -, -, run, -⟩ := yes
    cases run
  | succ n ih =>
    intro m no
    cases m with
    | zero =>
      obtain ⟨s, t, -, -, run, -⟩ := no
      cases run
    | succ m =>
      cases yes.judging resolving view ha hb with
      | never =>
        cases no.judging resolving view ha hb with
        | settle bottom => exact bottom rfl
      | same same =>
        cases no.judging resolving view ha hb with
        | resolve distinct =>
          rw [same] at distinct
          cases distinct
        | settle _ plain => cases plain
      | resolve _ hd answer =>
        cases no.judging resolving view ha hb with
        | resolve _ hd' answer' =>
          obtain rfl := Option.some.inj (hd.symm.trans hd')
          exact ih (view.resolved ha hd) hb answer m answer'
        | settle _ plain => cases plain
      | settle _ plain uncovers hb' settling =>
        cases no.judging resolving view ha hb with
        | resolve => cases plain
        | settle _ _ uncovers' _ settling' =>
          obtain rfl := uncovers.unique uncovers'
          cases settling' with
          | rule distinct top he hf hr' =>
            cases settling with
            | same same =>
              rw [same] at distinct
              cases distinct
            | equal he' hf' =>
              obtain rfl := Except.ok.inj (he.symm.trans he')
              cases hf.symm.trans hf'
            | void isTop => exact top isTop
            | rule _ _ _ _ hr =>
              have related := hr.struct resolving view ha hb'
              have payload := hr'.isPayload resolving view ha hb'
                (fun x y ex ey answer found => ih ex ey found.2.2 m answer) related
              cases Answers.payload_no payload hr

/-- Filling a frame keeps the order of what is filled in, or turns it around. -/
theorem fill {f : Frame} {i j : Ident} (distinct : f.names.Nodup) (ha : E (f.fill i a))
    (hb : E (f.fill j b)) (h : Unrefuted functions D ω a b) :
    if f.isNegation then Unrefuted functions D ω (f.fill j b) (f.fill i a)
    else Unrefuted functions D ω (f.fill i a) (f.fill j b) := by
  split
  · next negative =>
    cases f with
    | negation => exact of_struct view resolving hb ha rfl rfl rfl (.negation h)
    | _ => cases negative
  · next positive =>
    exact of_struct view resolving ha hb Frame.plain.1 Frame.plain.1 Frame.plain.2
      (Frame.struct refl h (by simpa using positive) distinct)

/-- The order in the hole is the order of the whole, turned around once for each negation. -/
theorem plug {C : Context} {is js : Nat → Ident} (distinct : ∀ f ∈ C, f.names.Nodup) (ha : E (C.plug is a))
    (hb : E (C.plug js b)) (h : Unrefuted functions D ω a b) :
    (C.negations % 2 = 0 → Unrefuted functions D ω (C.plug is a) (C.plug js b)) ∧
      (C.negations % 2 = 1 → Unrefuted functions D ω (C.plug js b) (C.plug is a)) := by
  induction C with
  | nil => exact ⟨fun _ => h, fun odd => by cases odd⟩
  | cons f rest ih =>
    obtain ⟨own, distinct⟩ := List.forall_mem_cons.mp distinct
    obtain ⟨forth, back⟩ :=
      ih distinct (view.children ha _ Frame.mem_children) (view.children hb _ Frame.mem_children)
    have count : Context.negations (f :: rest) = Context.negations rest + if f.isNegation then 1 else 0 :=
      List.countP_cons
    rw [count]
    cases negative : f.isNegation with
    | false =>
      constructor
      · intro even
        simpa [negative, Context.plug] using fill view resolving own ha hb (forth (by simpa using even))
      · intro odd
        simpa [negative, Context.plug] using fill view resolving own hb ha (back (by simpa using odd))
    | true =>
      constructor
      · intro even
        have odd : Context.negations rest % 2 = 1 := by simp at even; omega
        simpa [negative, Context.plug] using fill view resolving own hb ha (back odd)
      · intro odd
        have even : Context.negations rest % 2 = 0 := by simp at odd; omega
        simpa [negative, Context.plug] using fill view resolving own ha hb (forth even)

end Unrefuted

namespace Outlook.Compares

variable {O : Outlook} {s t u : Session} {a b : Descriptor} {n : Nat}

/-- **Subtyping is a congruence.** Let a descriptor be found a subtype of another, and let both be put into
the hole of one context with any other parts, where the two results do not unfold for ever. At any later
moment the comparison of the results, in the order of the hole under an even number of negations and in
the opposite order under an odd number, comes from some depth on to one end: yes, or a failure of one of
the thunks or equalities that it asks for. -/
theorem subtype_congruent (compares : O.Compares) (resolving : Resolving O.functions O.family)
    (C : Context) (distinct : ∀ f ∈ C, f.names.Nodup) (is js : Nat → Ident) (moment : O.Moment s)
    (ha : O.family (C.plug is a))
    (hb : O.family (C.plug js b)) (la : (C.plug is a).Live s.heap) (lb : (C.plug js b).Live s.heap)
    (finite : Acc (Unfolds O.stands) (C.plug is a)) (finite' : Acc (Unfolds O.stands) (C.plug js b))
    (below : (Engine.ofDepth O.functions n).subtype a b s = .ok true t) (later : O.Later t u) :
    ∃ m r, (∀ k, m ≤ k → C.compare (Engine.ofDepth O.functions k) (C.plug is a) (C.plug js b) u = r) ∧
      match r with
      | .ok answer _ => answer = true
      | .error f _ => O.faults f := by
  have fa : O.family a := Context.of_plug (fun _ h => compares.children h) ha
  have fb : O.family b := Context.of_plug (fun _ h => compares.children h) hb
  have st : s.Before t := ((resolving.subtype_quiet n a b fa fb).ok below moment.sound).1
  have su : s.Before u := st.trans later.before
  have la' := Descriptor.Live.grow su.heap _ la
  have lb' := Descriptor.Live.grow su.heap _ lb
  -- Neither side unfolds for ever, so no chain of requests is endless.
  have acc {x y : Descriptor} (hx : Acc (Unfolds O.stands) x) (hy : Acc (Unfolds O.stands) y) :
      Acc (Asks O.stands) (x, y) := by
    refine (Asks.acc_of_finite (F := Acc (Unfolds O.stands)) ?_ ?_ ?_ hx y hy).1
    · exact fun d hd c hc => hd.inv (.child hc)
    · exact fun d c hd hc => hd.inv (.target hc)
    · exact fun d hd => Subrelation.accessible (fun h => .target h) hd
  have stops : O.Stops (fun k => C.compare (O.engine k) (C.plug is a) (C.plug js b)) u := by
    unfold Context.compare
    by_cases even : C.negations % 2 = 0
    · simp only [even, if_true]
      exact compares.subtype (acc finite finite') u later.moment ha hb la' lb'
    · simp only [even, if_false]
      exact compares.subtype (acc finite' finite) u later.moment hb ha lb' la'
  obtain ⟨m, r, same, ends⟩ := stops
  refine ⟨m, r, same, ?_⟩
  cases r with
  | error f w => exact ends
  | ok answer w =>
    cases answer with
    | true => rfl
    | false =>
      have view : InView O.family O.family w := {
        tame := id
        children := compares.children
        resolved := fun hd found => (ends.1.moment.sound.resolved _ _ _ hd found).1 }
      have la₀ : a.Live s.heap := Context.of_plug (fun _ h _ hc => h.child hc) la
      have lb₀ : b.Live s.heap := Context.of_plug (fun _ h _ hc => h.child hc) lb
      have yes : Judged O.functions O.family w n a b true :=
        ⟨s, t, moment.sound, by simp [Value.Live, la₀, lb₀], below, later.before.trans ends.1.before⟩
      have unrefuted := (Unrefuted.of_judged view resolving fa fb yes).plug view resolving distinct ha hb
      have no := same m (Nat.le_refl m)
      by_cases even : C.negations % 2 = 0
      · simp only [Context.compare, even, if_true] at no
        exact absurd ⟨u, w, later.moment.sound, by simp [Value.Live, la', lb'], no, .refl w⟩
          (unrefuted.1 even m)
      · simp only [Context.compare, even, if_false] at no
        exact absurd ⟨u, w, later.moment.sound, by simp [Value.Live, la', lb'], no, .refl w⟩
          (unrefuted.2 (by omega) m)

section Choices

/-- A choice that is made later: an optional flag. -/
abbrev later : Descriptor := .deferred 1 (.fn { name := "later", traced := false, bare := true })

abbrev laterCases : Descriptor := .nilable 2 .boolean

/-- Neither this choice nor that one. -/
abbrev neither : Context := [.negation, .union [later] []]

abbrev noFlag : Descriptor := neither.plug (· + 3) .boolean

abbrev nothing : Descriptor := neither.plug (· + 5) .void

inductive ChoiceFamily : Descriptor → Prop
  | later : ChoiceFamily later
  | cases : ChoiceFamily laterCases
  | boolean : ChoiceFamily .boolean
  | void : ChoiceFamily .void
  | flags : ChoiceFamily (.union 3 [later, .boolean])
  | noFlag : ChoiceFamily noFlag
  | all : ChoiceFamily (.union 5 [later, .void])
  | nothing : ChoiceFamily nothing

def choiceLibrary : Library := fun _ _ _ _ => return .descriptor laterCases

def choiceOutlook : Outlook where
  functions := choiceLibrary
  start := {}
  family := ChoiceFamily
  stands d c := d = later ∧ c = laterCases
  faults _ := False

theorem choice_children {d : Descriptor} (hd : ChoiceFamily d) : ∀ c ∈ d.children, ChoiceFamily c := by
  cases hd <;> intro c hc <;>
    simp only [Descriptor.children, Context.plug, Frame.fill, List.nil_append, List.cons_append,
      List.mem_cons, List.not_mem_nil, or_false] at hc
  case flags => obtain rfl | rfl := hc <;> constructor
  case all => obtain rfl | rfl := hc <;> constructor
  all_goals subst hc; constructor

theorem choice_live {d : Descriptor} {h : Heap} (hd : ChoiceFamily d) : d.Live h := by
  cases hd <;> simp [Descriptor.Live, Value.Live, Context.plug, Frame.fill]

theorem choice_compares : choiceOutlook.Compares where
  children := choice_children
  identity := by
    rintro id thunk thunk' ⟨⟩ ⟨⟩
    rfl
  thunks := by
    rintro id thunk ⟨⟩ s moment
    exact .deepen (.pure moment ⟨.cases, choice_live .cases, rfl, rfl⟩)
  texts := by
    rintro d hd s - - f hf
    cases hd <;> cases hf
  equality := by
    rintro a b ha hb s - - - f hf
    cases ha <;> cases hb <;> cases hf

theorem choice_resolving : Resolving choiceLibrary ChoiceFamily where
  children := choice_children
  thunks := by
    rintro id thunk ⟨⟩ n
    cases n with
    | zero => exact .throw _
    | succ n => exact .pure _
  targets := by
    rintro id thunk ⟨⟩ n s d t - run
    cases n with
    | zero => cases run
    | succ n =>
      cases run
      exact ⟨.cases, choice_live .cases⟩

theorem choice_moment : choiceOutlook.Moment {} where
  since := .refl _
  sound := {
    closed := .empty
    ancestors := nofun
    resolved := nofun
    elements := fun _ => .void }
  stands := nofun

theorem choice_flat {d : Descriptor} (parts : ∀ c ∈ d.children, Acc (Unfolds choiceOutlook.stands) c)
    (differ : d ≠ later) : Acc (Unfolds choiceOutlook.stands) d := by
  constructor
  rintro c (hc | ⟨rfl, -⟩)
  · exact parts c hc
  · exact absurd rfl differ

/-- No choice unfolds for ever. -/
theorem choice_finite {d : Descriptor} (hd : ChoiceFamily d) : Acc (Unfolds choiceOutlook.stands) d := by
  have boolean : Acc (Unfolds choiceOutlook.stands) .boolean := choice_flat (by simp [Descriptor.children]) (by simp)
  have void : Acc (Unfolds choiceOutlook.stands) .void := choice_flat (by simp [Descriptor.children]) (by simp)
  have cases' : Acc (Unfolds choiceOutlook.stands) laterCases :=
    choice_flat (by simpa [Descriptor.children] using boolean) (by simp)
  have later' : Acc (Unfolds choiceOutlook.stands) later := by
    constructor
    rintro c (hc | ⟨-, rfl⟩)
    · cases hc
    · exact cases'
  have flags : Acc (Unfolds choiceOutlook.stands) (.union 3 [later, .boolean]) :=
    choice_flat (by simpa [Descriptor.children] using ⟨later', boolean⟩) (by simp)
  have all : Acc (Unfolds choiceOutlook.stands) (.union 5 [later, .void]) :=
    choice_flat (by simpa [Descriptor.children] using ⟨later', void⟩) (by simp)
  cases hd with
  | later => exact later'
  | cases => exact cases'
  | boolean => exact boolean
  | void => exact void
  | flags => exact flags
  | all => exact all
  | noFlag => exact choice_flat (by simpa [Descriptor.children, Context.plug, Frame.fill] using flags) (by rintro ⟨⟩)
  | nothing => exact choice_flat (by simpa [Descriptor.children, Context.plug, Frame.fill] using all) (by rintro ⟨⟩)

/-- Every flag is something, so what is neither this nor anything is neither this nor a flag. -/
theorem nothing_below_noFlag :
    ∃ m w, ∀ k, m ≤ k → neither.compare (Engine.ofDepth choiceLibrary k) noFlag nothing {} = .ok true w := by
  have below : (Engine.ofDepth choiceLibrary 1).subtype .boolean .void {} = .ok true {} := rfl
  obtain ⟨m, r, same, ends⟩ := subtype_congruent choice_compares choice_resolving
    neither (by decide) (· + 3) (· + 5) choice_moment .noFlag .nothing
    (choice_live .noFlag) (choice_live .nothing) (choice_finite .noFlag) (choice_finite .nothing) below
    choice_moment.refl
  cases r with
  | ok answer w =>
    obtain rfl : answer = true := ends
    exact ⟨m, w, same⟩
  | error f w => exact ends.elim

end Choices

section Failing

/-- A choice whose thunk does not answer a descriptor. -/
abbrev broken : Descriptor := .deferred 1 (.fn { name := "broken", traced := false, bare := true })

def brokenLibrary : Library := fun _ _ _ _ => return .typeHint "List[int]"

/-- A flag is something, but a comparison of the choices between it and a broken one comes to the thunk. -/
theorem choice_broken :
    (∃ t, (Engine.ofDepth brokenLibrary 1).subtype .boolean .void {} = .ok true t) ∧
      ∀ n, ∃ c t, (Engine.ofDepth brokenLibrary (n + 3)).subtype (.union 2 [broken, .boolean])
        (.union 3 [broken, .void]) {} = .error (.cause c) t :=
  ⟨⟨_, rfl⟩, fun _ => ⟨_, _, rfl⟩⟩

end Failing

end Outlook.Compares

end Conform
