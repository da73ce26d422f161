import Conform.Proofs.Subtyping

/-!
What an answer of matching says about the parts of a descriptor and of a value. For every variant an
answer at one depth goes back to answers at the depth below, with everything that was read on the way
read at the last moment of the history.
-/
namespace Conform

open Value Descriptor

/-- Matching at a depth answered within a history. -/
def Matched (functions : Library) (D : Descriptor → Prop) (ω : Session) (n : Nat) (d : Descriptor)
    (v : Value) (b : Bool) : Prop :=
  Answers D ω [.descriptor d, v] ((Engine.ofDepth functions n).accepts d v) b

theorem presentEnds?_live {h : Heap} {v : Value} (lv : v.Live h) {ends : List Value}
    (he : presentEnds? v = some ends) : ∀ w ∈ ends, w.Live h := by
  have both {x y : Value} (hxy : endpoints? v = some (x, y)) : x.Live h ∧ y.Live h := by
    cases v with
    | range i r =>
      cases hxy
      exact ⟨trivial, trivial⟩
    | slice i a b c =>
      cases hxy
      exact ⟨lv.1, lv.2.1⟩
    | _ => cases hxy
  unfold presentEnds? at he
  split at he
  · cases he
  · cases he
  · next hxy =>
    cases he
    simpa using (both hxy).2
  · next hxy =>
    cases he
    simpa using (both hxy).1
  · next hxy =>
    cases he
    simpa using both hxy

namespace Matched

variable {functions : Library} {D E : Descriptor → Prop} {ω : Session} {n : Nat} {v : Value} {b : Bool}
  {id : Ident}

theorem ofDepth_zero {d : Descriptor} : ¬Matched functions D ω 0 d v b := by
  rintro ⟨s, t, -, -, run, -⟩
  cases run

/-- A descriptor in play and a value that are there when matching starts. -/
theorem start {d : Descriptor} (h : Matched functions D ω (n + 1) d v b) :
    ∃ s t, s.Sound D ∧ d.Live s.heap ∧ v.Live s.heap ∧
      acceptsStep (Engine.ofDepth functions n) d v s = .ok b t ∧ t.Before ω := by
  obtain ⟨s, t, sound, live, run, later⟩ := h
  exact ⟨s, t, sound, live (.descriptor d) (.head _), live v (.tail _ (.head _)), run, later⟩

theorem mk {d : Descriptor} {s t : Session} (sound : s.Sound D) (ld : d.Live s.heap)
    (lv : v.Live s.heap) (run : (Engine.ofDepth functions n).accepts d v s = .ok b t)
    (later : t.Before ω) : Matched functions D ω n d v b :=
  ⟨s, t, sound, by simpa using ⟨ld, lv⟩, run, later⟩

/-- Part of a descriptor and a value that are known. -/
theorem of_mem (d : Descriptor) {c : Descriptor} {known : List Value} (hd : .descriptor d ∈ known) (hc : c ∈ d.children)
    (hv : v ∈ known) (h : Answers D ω known ((Engine.ofDepth functions n).accepts c v) b) :
    Matched functions D ω n c v b := by
  refine h.weaken fun g _ live => ?_
  simpa using ⟨Descriptor.Live.child (live _ hd) hc, live v hv⟩

theorem ofChild (d : Descriptor) {c : Descriptor} (hc : c ∈ d.children)
    (h : Answers D ω [.descriptor d, v] ((Engine.ofDepth functions n).accepts c v) b) :
    Matched functions D ω n c v b :=
  of_mem d (.head _) hc (.tail _ (.head _)) h

section Variants

variable (tame : Tame functions D)

include tame

/-- Matching that starts with a look at the heap sees there what it would see later. -/
theorem look {d : Descriptor} (hd : D d) {f : Heap → Act Bool} (h : Matched functions D ω (n + 1) d v b)
    (step : acceptsStep (Engine.ofDepth functions n) d v = Act.getHeap >>= f) :
    ∃ s t, s.Sound D ∧ d.Live s.heap ∧ v.Live s.heap ∧ s.heap.Extends ω.heap ∧ f s.heap s = .ok b t ∧ t.Before ω := by
  obtain ⟨s, t, sound, ld, lv, run, later⟩ := h.start
  have grown := ((((tame.judges n).acceptsStep hd v).ok run sound).1.trans later).heap
  rw [step] at run
  obtain ⟨_, _, here, run⟩ := Act.bind_eq_ok.mp run
  obtain ⟨rfl, rfl⟩ := Act.getHeap_eq_ok.mp here
  exact ⟨s, t, sound, ld, lv, grown, run, later⟩

theorem union {types : List Descriptor} (hd : D (.union id types))
    (h : Matched functions D ω (n + 1) (.union id types) v b) :
    if b then ∃ t ∈ types, Matched functions D ω n t v true
    else ∀ t ∈ types, Matched functions D ω n t v false := by
  have answers := Answers.anyM (fun t ht => (tame.quiet n).1 t v (tame.children hd t ht)) h
  cases b with
  | true =>
    obtain ⟨t, ht, answer⟩ := answers
    exact ⟨t, ht, ofChild (.union id types) ht answer⟩
  | false => exact fun t ht => ofChild (.union id types) ht (answers t ht)

theorem intersection {types : List Descriptor} (hd : D (.intersection id types))
    (h : Matched functions D ω (n + 1) (.intersection id types) v b) :
    if b then ∀ t ∈ types, Matched functions D ω n t v true
    else ∃ t ∈ types, Matched functions D ω n t v false := by
  have answers := Answers.allM (fun t ht => (tame.quiet n).1 t v (tame.children hd t ht)) h
  cases b with
  | true => exact fun t ht => ofChild (.intersection id types) ht (answers t ht)
  | false =>
    obtain ⟨t, ht, answer⟩ := answers
    exact ⟨t, ht, ofChild (.intersection id types) ht answer⟩

theorem negation {inner : Descriptor} (hd : D (.negation id inner))
    (h : Matched functions D ω (n + 1) (.negation id inner) v b) :
    Matched functions D ω n inner v (!b) := by
  obtain ⟨c, answer, rest⟩ := Answers.bind
    ((tame.quiet n).1 inner v (tame.children hd inner (.head _))) (fun _ => .pure _) h
  obtain rfl := rest.pure
  rw [Bool.not_not]
  exact ofChild (.negation id inner) (.head _) answer

omit tame in
theorem nilable {inner : Descriptor} (h : Matched functions D ω (n + 1) (.nilable id inner) v b) :
    if v.same .nil then b = true else Matched functions D ω n inner v b := by
  change Answers D ω _ (if v.same .nil then pure true else (Engine.ofDepth functions n).accepts inner v) b
    at h
  split
  · next hv =>
    rw [if_pos hv] at h
    exact h.pure.symm
  · next hv =>
    rw [if_neg hv] at h
    exact ofChild (.nilable id inner) (.head _) h

/-- What a run over named attributes or fields comes down to, name by name. -/
theorem allNamed {read : String → Act (Option Value)} {fields : List (String × Descriptor)}
    (hr : ∀ f ∈ fields, Act.Reads D v (read f.1)) (hf : ∀ f ∈ fields, D f.2) {s t : Session}
    (sound : s.Sound D) (lv : v.Live s.heap) (lf : ∀ f ∈ fields, f.2.Live s.heap) (later : t.Before ω)
    (run : allNamed (Engine.ofDepth functions n) read fields s = .ok b t) :
    if b then ∀ f ∈ fields, ∃ w, Answers D ω [v] (read f.1) (some w) ∧ Matched functions D ω n f.2 w true
    else ∃ f ∈ fields, Answers D ω [v] (read f.1) none ∨
      ∃ w, Answers D ω [v] (read f.1) (some w) ∧ Matched functions D ω n f.2 w false := by
  have ha := (tame.quiet n).1
  let known := v :: fields.map fun f => Value.descriptor f.2
  have live : ∀ w ∈ known, w.Live s.heap := List.forall_mem_cons.mpr ⟨lv, List.forall_mem_map.mpr lf⟩
  rw [allNamed_eq] at run
  have answers := Answers.allM (fun f hf' => (tame.judges n).fieldMatches (hr f hf').quiet (hf f hf'))
    ⟨s, t, sound, live, run, later⟩
  have field {f : String × Descriptor} (member : f ∈ fields) {b : Bool}
      (h : Answers D ω known (fieldMatches (Engine.ofDepth functions n) read f) b) :
      (b = false ∧ Answers D ω [v] (read f.1) none) ∨
        ∃ w, Answers D ω [v] (read f.1) (some w) ∧ Matched functions D ω n f.2 w b := by
    obtain ⟨s, t, sound, live, run, later⟩ := h
    obtain ⟨found, u, hu, run⟩ := Act.bind_eq_ok.mp run
    obtain ⟨su, soundu⟩ := (hr f member).quiet.ok hu sound
    have lv : v.Live s.heap := live v (.head _)
    have lvs : ∀ w ∈ [v], w.Live s.heap := by simpa using lv
    cases found with
    | none =>
      obtain ⟨rfl, rfl⟩ := Act.pure_eq_ok.mp run
      exact .inl ⟨rfl, s, u, sound, lvs, hu, later⟩
    | some w =>
      have lf := live (.descriptor f.2) (List.mem_cons_of_mem _ (List.mem_map.mpr ⟨f, member, rfl⟩))
      have ut := (ha f.2 w (hf f member)).ok run soundu
      exact .inr ⟨w, ⟨s, u, sound, lvs, hu, ut.1.trans later⟩,
        .mk soundu (su.live lf) ((hr f member).live s _ u sound hu lv w rfl) run later⟩
  cases b with
  | true =>
    intro f member
    obtain ⟨no, -⟩ | found := field member (answers f member)
    · cases no
    · exact found
  | false =>
    obtain ⟨f, member, answer⟩ := answers
    exact ⟨f, member, (field member answer).imp And.right id⟩

theorem constraint {bases : List Descriptor} {predicates : List (String × Descriptor)}
    (hd : D (.constraint id bases predicates))
    (h : Matched functions D ω (n + 1) (.constraint id bases predicates) v b) :
    if b then (∀ d ∈ bases, Matched functions D ω n d v true) ∧
      ∀ f ∈ predicates, ∃ w, Answers D ω [v] (readAttribute? (Engine.ofDepth functions n) v f.1) (some w) ∧
        Matched functions D ω n f.2 w true
    else (∃ d ∈ bases, Matched functions D ω n d v false) ∨
      ∃ f ∈ predicates, Answers D ω [v] (readAttribute? (Engine.ofDepth functions n) v f.1) none ∨
        ∃ w, Answers D ω [v] (readAttribute? (Engine.ofDepth functions n) v f.1) (some w) ∧
          Matched functions D ω n f.2 w false := by
  have quietBase (d : Descriptor) (hb : d ∈ bases) := (tame.quiet n).1 d v (tame.children hd d (base_mem hb))
  have reads (f : String × Descriptor) (hf : f ∈ predicates) := tame.attributes hd f hf n v
  obtain ⟨c, first, rest⟩ := Answers.bind (.allM quietBase) (fun c => .ite
    ((tame.judges n).allNamed (fun f hf => (reads f hf).quiet)
      fun f hf => tame.children hd f.2 (predicate_mem hf)) (.pure false)) h
  have onBases := first.allM quietBase
  cases c with
  | false =>
    obtain rfl := rest.pure
    obtain ⟨d, hb, answer⟩ := onBases
    exact .inl ⟨d, hb, ofChild _ (base_mem hb) answer⟩
  | true =>
    obtain ⟨s, t, sound, live, run, later⟩ := rest
    simp only [List.forall_mem_cons, List.not_mem_nil, false_implies, implies_true, and_true] at live
    have onFields := allNamed tame reads (fun f hf => tame.children hd f.2 (predicate_mem hf)) sound live.2
      (fun f hf => Descriptor.Live.child live.1 (predicate_mem hf)) later run
    cases b with
    | true => exact ⟨fun d hb => ofChild _ (base_mem hb) (onBases d hb), onFields⟩
    | false => exact .inr onFields

theorem shape {fields : List (String × Descriptor)} (hd : D (.shape id fields))
    (h : Matched functions D ω (n + 1) (.shape id fields) v b) :
    if b then ∀ f ∈ fields, ∃ w, Answers D ω [v] (v.field? f.1) (some w) ∧
      Matched functions D ω n f.2 w true
    else ∃ f ∈ fields, Answers D ω [v] (v.field? f.1) none ∨
      ∃ w, Answers D ω [v] (v.field? f.1) (some w) ∧ Matched functions D ω n f.2 w false := by
  have field {f : String × Descriptor} (hf : f ∈ fields) : f.2 ∈ (Descriptor.shape id fields).children :=
    List.mem_map_of_mem hf
  obtain ⟨s, t, sound, ld, lv, run, later⟩ := h.start
  exact allNamed tame (fun f hf => tame.fields hd f hf v) (fun f hf => tame.children hd f.2 (field hf))
    sound lv (fun f hf => Descriptor.Live.child ld (field hf)) later run

theorem allPaired {known : List Value} {ds : List Descriptor} {vs : List Value} (hd : ∀ d ∈ ds, D d)
    (hl : vs.length = ds.length)
    (h : Answers D ω known (allPaired (Engine.ofDepth functions n) ds vs) b) :
    if b then List.Forall₂ (fun d w => Answers D ω known ((Engine.ofDepth functions n).accepts d w) true)
      ds vs
    else ∃ p ∈ ds.zip vs, Answers D ω known ((Engine.ofDepth functions n).accepts p.1 p.2) false := by
  rw [allPaired_eq] at h
  have answers := h.allM fun x hx => (tame.quiet n).1 x.1 x.2 (hd x.1 (List.of_mem_zip hx).1)
  cases b with
  | true => exact List.forall₂_iff_zip.mpr ⟨hl.symm, fun hx => answers _ hx⟩
  | false => exact answers

theorem tupleOf {types : List Descriptor} (hd : D (.tupleOf id types))
    (h : Matched functions D ω (n + 1) (.tupleOf id types) v b) :
    match positional? ω.heap v with
    | none => b = false
    | some vs => if vs.length = types.length then
        if b then List.Forall₂ (fun d w => Matched functions D ω n d w true) types vs
        else ∃ p ∈ types.zip vs, Matched functions D ω n p.1 p.2 false
      else b = false := by
  obtain ⟨s, t, sound, ld, lv, grown, run, later⟩ := look tame hd h rfl
  rw [positional?_grow grown lv]
  cases hp : positional? s.heap v with
  | none =>
    simp only [hp] at run
    exact (Act.pure_eq_ok.mp run).1.symm
  | some vs =>
    simp only [hp] at run
    dsimp only
    split at run
    · next hl =>
      have hl : vs.length = types.length := eq_of_beq hl
      rw [if_pos hl]
      have lvs := positional?_live sound.closed lv hp
      have known : ∀ w ∈ Value.descriptor (.tupleOf id types) :: vs, w.Live s.heap :=
        List.forall_mem_cons.mpr ⟨ld, lvs⟩
      have answers := allPaired tame (tame.children hd) hl ⟨s, t, sound, known, run, later⟩
      cases b with
      | true =>
        exact forall₂_imp_of_mem answers fun d hd w hw answer =>
          of_mem (.tupleOf id types) (.head _) hd (.tail _ hw) answer
      | false =>
        obtain ⟨p, hp, answer⟩ := answers
        exact ⟨p, hp, of_mem (.tupleOf id types) (.head _) (List.of_mem_zip hp).1 (.tail _ (List.of_mem_zip hp).2) answer⟩
    · next hl =>
      rw [if_neg (by simpa using hl)]
      exact (Act.pure_eq_ok.mp run).1.symm

/-- The items of a container, one by one. -/
theorem ofItems {d : Descriptor} (hd : D d) {items : List Value} {s t : Session} (sound : s.Sound D)
    (ld : d.Live s.heap) (li : ∀ w ∈ items, w.Live s.heap) (later : t.Before ω)
    (run : items.allM ((Engine.ofDepth functions n).accepts d) s = .ok b t) :
    if b then ∀ w ∈ items, Matched functions D ω n d w true
    else ∃ w ∈ items, Matched functions D ω n d w false := by
  have known : ∀ w ∈ Value.descriptor d :: items, w.Live s.heap := List.forall_mem_cons.mpr ⟨ld, li⟩
  have answers := Answers.allM (fun w _ => (tame.quiet n).1 d w hd) ⟨s, t, sound, known, run, later⟩
  have item {w : Value} (hw : w ∈ items) {b : Bool}
      (h : Answers D ω (.descriptor d :: items) ((Engine.ofDepth functions n).accepts d w) b) :
      Matched functions D ω n d w b := by
    refine h.weaken fun g _ live => ?_
    simp only [List.forall_mem_cons, List.not_mem_nil, false_implies, implies_true, and_true] at live ⊢
    exact ⟨live.1, live.2 w hw⟩
  cases b with
  | true => exact fun w hw => item hw (answers w hw)
  | false =>
    obtain ⟨w, hw, answer⟩ := answers
    exact ⟨w, hw, item hw answer⟩

theorem collection {kind : CollectionKind} {element : Descriptor} (hd : D (.collection id kind element))
    (h : Matched functions D ω (n + 1) (.collection id kind element) v b) :
    if isContainer kind v then ∃ items, v.walked ω.heap = .ok items ∧
      if b then ∀ w ∈ items, Matched functions D ω n element w true
      else ∃ w ∈ items, Matched functions D ω n element w false
    else b = false := by
  obtain ⟨s, t, sound, ld, lv, run, later⟩ := h.start
  have he := tame.children hd element (.head _)
  simp only [acceptsStep] at run
  split at run
  · next hk =>
    rw [if_pos hk]
    have lasting := isContainer_lasting hk
    have quiet := allItems_quiet (fun w => (tame.quiet n).1 element w he) lasting
    have sω := (quiet.ok run sound).1.trans later
    obtain ⟨items, walk, all⟩ := allItemsAt_walked sound.closed lasting run
    have walked := (walkedAt_carries sω.heap sound.closed valueDepth lv).ok walk
    exact ⟨items, walked.1, ofItems tame he sound ld walked.2 later all⟩
  · next hk =>
    rw [if_neg hk]
    exact (Act.pure_eq_ok.mp run).1.symm

theorem mappingOf {key value : Descriptor} (hd : D (.mappingOf id key value))
    (h : Matched functions D ω (n + 1) (.mappingOf id key value) v b) :
    match entries? ω.heap v with
    | none => b = false
    | some entries =>
      if b then ∀ e ∈ entries, Matched functions D ω n key e.1 true ∧ Matched functions D ω n value e.2 true
      else ∃ e ∈ entries, Matched functions D ω n key e.1 false ∨ Matched functions D ω n value e.2 false := by
  have hk := tame.children hd key (.head _)
  have hv := tame.children hd value (.tail _ (.head _))
  have quietKey (w : Value) := (tame.quiet n).1 key w hk
  have quietValue (w : Value) := (tame.quiet n).1 value w hv
  obtain ⟨s, t, sound, ld, lv, grown, run, later⟩ := look tame hd h rfl
  rw [entries?_grow grown lv]
  cases he : entries? s.heap v with
  | none =>
    simp only [he] at run
    exact (Act.pure_eq_ok.mp run).1.symm
  | some entries =>
    simp only [he] at run
    have le := entries?_live sound.closed lv he
    let known := Value.descriptor (.mappingOf id key value) :: entries.flatMap fun e => [e.1, e.2]
    have live : ∀ w ∈ known, w.Live s.heap := by
      refine List.forall_mem_cons.mpr ⟨ld, fun w hw => ?_⟩
      obtain ⟨e, he, hw⟩ := List.mem_flatMap.mp hw
      obtain rfl | rfl : w = e.1 ∨ w = e.2 := by simpa using hw
      · exact (le e he).1
      · exact (le e he).2
    have whole : Answers D ω known _ b := ⟨s, t, sound, live, run, later⟩
    have answers := whole.allM fun e _ => .bind (quietKey e.1) fun c =>
      .ite (quietValue e.2) (.pure false)
    have entry {d : Descriptor} (hd : d ∈ (Descriptor.mappingOf id key value).children)
        {e : Value × Value} (he : e ∈ entries) {w : Value} (hw : w = e.1 ∨ w = e.2) {b : Bool}
        (h : Answers D ω known ((Engine.ofDepth functions n).accepts d w) b) :
        Matched functions D ω n d w b :=
      of_mem (.mappingOf id key value) (.head _) hd (.tail _ (List.mem_flatMap.mpr ⟨e, he, by simpa using hw⟩)) h
    have both {e : Value × Value} (he : e ∈ entries) {b : Bool}
        (h : Answers D ω known (do
          if ← (Engine.ofDepth functions n).accepts key e.1 then
            (Engine.ofDepth functions n).accepts value e.2 else return false) b) :
        if b then Matched functions D ω n key e.1 true ∧ Matched functions D ω n value e.2 true
        else Matched functions D ω n key e.1 false ∨ Matched functions D ω n value e.2 false := by
      have answers := h.and (quietKey e.1) (quietValue e.2)
      cases b with
      | true => exact answers.imp (entry (.head _) he (.inl rfl)) (entry (.tail _ (.head _)) he (.inr rfl))
      | false => exact answers.imp (entry (.head _) he (.inl rfl)) (entry (.tail _ (.head _)) he (.inr rfl))
    cases b with
    | true => exact fun e he => both he (answers e he)
    | false =>
      obtain ⟨e, he, answer⟩ := answers
      exact ⟨e, he, both he answer⟩

theorem rangeOf {element : Descriptor} (hd : D (.rangeOf id element))
    (h : Matched functions D ω (n + 1) (.rangeOf id element) v b) :
    match presentEnds? v with
    | none => b = false
    | some ends =>
      if b then ∀ w ∈ ends, Matched functions D ω n element w true
      else ∃ w ∈ ends, Matched functions D ω n element w false := by
  obtain ⟨s, t, sound, ld, lv, run, later⟩ := h.start
  simp only [acceptsStep, endpointsMatch] at run
  cases he : presentEnds? v with
  | none =>
    simp only [he] at run
    exact (Act.pure_eq_ok.mp run).1.symm
  | some ends =>
    simp only [he] at run
    exact ofItems tame (tame.children hd element (.head _)) sound ld (presentEnds?_live lv he) later run

theorem deferred {thunk : Value} (hd : D (.deferred id thunk))
    (h : Matched functions D ω (n + 1) (.deferred id thunk) v b) :
    ∃ d, ω.ground.resolution id = some d ∧ Matched functions D ω n d v b := by
  obtain ⟨s, t, sound, ld, lv, run, later⟩ := h.start
  obtain ⟨d, u, hu, run⟩ := Act.bind_eq_ok.mp run
  obtain ⟨su, soundu, dd, lu, known⟩ := tame.resolve_ok hd sound hu
  have uω := (((tame.quiet n).1 d v dd).ok run soundu).1.trans later
  exact ⟨d, uω.resolved id d known, .mk soundu lu (su.live lv) run later⟩

theorem interface {names : List String} (hd : D (.interface id names))
    (h : Matched functions D ω (n + 1) (.interface id names) v b) :
    if b then ∀ m ∈ names, Answers D ω [v] (respondsTo v m) true
    else ∃ m ∈ names, Answers D ω [v] (respondsTo v m) false := by
  have h' : Answers D ω [v] (names.allM (respondsTo v)) b :=
    Answers.weaken h fun _ _ live w hw => live w (.tail _ hw)
  exact h'.allM fun m hm => tame.methods hd m hm v

theorem jsonList {kind : Flavour} {i : Handle} (hd : D .jsonData)
    (h : Matched functions D ω (n + 1) .jsonData (.list kind i) b) :
    if b then ∀ w ∈ ω.heap.list i, Matched functions D ω n .jsonData w true
    else ∃ w ∈ ω.heap.list i, Matched functions D ω n .jsonData w false := by
  obtain ⟨s, t, sound, ld, lv, grown, run, later⟩ := look tame hd h rfl
  rw [grown.list_eq lv]
  exact ofItems tame hd sound ld (sound.closed.lists i) later run

theorem jsonDict {kind : Flavour} {i : Handle} (hd : D .jsonData)
    (h : Matched functions D ω (n + 1) .jsonData (.dict kind i) b) :
    if b then ∀ e ∈ ω.heap.dict i, e.1.text?.isSome = true ∧ Matched functions D ω n .jsonData e.2 true
    else ∃ e ∈ ω.heap.dict i, e.1.text?.isSome = false ∨ Matched functions D ω n .jsonData e.2 false := by
  obtain ⟨s, t, sound, ld, lv, grown, run, later⟩ := look tame hd h rfl
  rw [grown.dict_eq lv]
  have known : ∀ w ∈ (s.heap.dict i).map (·.2), w.Live s.heap :=
    List.forall_mem_map.mpr fun e he => (sound.closed.dicts i e he).2
  have answers := Answers.allM (fun e _ => .ite ((tame.quiet n).1 .jsonData e.2 hd) (.pure false))
    ⟨s, t, sound, known, run, later⟩
  have entry {e : Value × Value} (he : e ∈ s.heap.dict i) {b : Bool}
      (h : Answers D ω ((s.heap.dict i).map (·.2)) (do
        if e.1.text?.isSome then (Engine.ofDepth functions n).accepts .jsonData e.2
        else return false) b) :
      if e.1.text?.isSome then Matched functions D ω n .jsonData e.2 b else b = false := by
    split
    · next hk =>
      rw [if_pos hk] at h
      refine h.weaken fun g _ live => ?_
      simpa [Value.Live, Descriptor.Live] using live e.2 (List.mem_map_of_mem he)
    · next hk =>
      rw [if_neg hk] at h
      exact h.pure.symm
  cases b with
  | true =>
    intro e he
    have answer := entry he (answers e he)
    split at answer
    · next hk => exact ⟨hk, answer⟩
    · cases answer
  | false =>
    obtain ⟨e, he, answer⟩ := answers
    have answer := entry he answer
    split at answer
    · exact ⟨e, he, .inr answer⟩
    · next hk => exact ⟨e, he, .inl (by simpa using hk)⟩

end Variants

section Leaves

theorem predicate {message fn : Value} (h : Matched functions D ω (n + 1) (.predicate id message fn) v b) :
    Answers D ω [v] (do (← (Engine.ofDepth functions n).call fn [v] []).truth : Act Bool) b :=
  Answers.weaken h fun _ _ live w hw => live w (.tail _ hw)

theorem instanceOf {c : Class} (h : Matched functions D ω (n + 1) (.instanceOf id c) v b) :
    b = v.isOf c := by
  obtain ⟨s, t, sound, -, -, run, -⟩ := h.start
  exact isInstance_ok sound run

theorem classOf {c : Class} (h : Matched functions D ω (n + 1) (.classOf id c) v b) :
    b = v.isUnder c := by
  obtain ⟨s, t, sound, -, -, run, -⟩ := h.start
  exact isSubclass_ok sound run

theorem descendantOf {c : Class} (h : Matched functions D ω (n + 1) (.descendantOf id c) v b) :
    b = (!v.same (.cls c) && v.isUnder c) := by
  obtain ⟨s, t, sound, -, -, run, -⟩ := h.start
  simp only [acceptsStep] at run
  split at run
  · next hv =>
    obtain ⟨rfl, -⟩ := Act.pure_eq_ok.mp run
    simp [hv]
  · next hv =>
    rw [isSubclass_ok sound run]
    simp [hv]

theorem unit {obj : Value} (h : Matched functions D ω (n + 1) (.unit id obj) v b) : b = v.same obj :=
  (Answers.pure h).symm

theorem equal {obj : Value} (h : Matched functions D ω (n + 1) (.equal id obj) v b) :
    ∃ r, v.equal obj ω.heap = .ok r ∧ r.truth ω.heap = .ok b := by
  obtain ⟨s, t, sound, ld, lv, run, later⟩ := h.start
  simp only [acceptsStep, Act.bind_eq_ok, Act.lift_eq_ok] at run
  obtain ⟨r, _, ⟨hr, rfl⟩, hb, rfl⟩ := run
  have atEnd := equal_grow later.heap sound.closed lv ld hr
  exact ⟨r, atEnd.1, truth_grow later.heap sound.closed atEnd.2 hb⟩

theorem within {container : Value} (h : Matched functions D ω (n + 1) (.within id container) v b) :
    isWithin container v ω = .ok b ω := by
  obtain ⟨s, t, sound, ld, lv, run, later⟩ := h.start
  have sω := ((isWithin_quiet container v).ok run sound).1.trans later
  exact isWithin_later sω sound ld lv run

theorem truthy (h : Matched functions D ω (n + 1) .truthy v b) : v.truth ω.heap = .ok b := by
  obtain ⟨s, t, sound, -, lv, run, later⟩ := h.start
  obtain ⟨look, rfl⟩ := Act.lift_eq_ok.mp run
  exact truth_grow later.heap sound.closed lv look

theorem falsy (h : Matched functions D ω (n + 1) .falsy v b) : v.truth ω.heap = .ok (!b) := by
  obtain ⟨s, t, sound, -, lv, run, later⟩ := h.start
  simp only [acceptsStep, Act.bind_eq_ok, Act.lift_eq_ok, Act.pure_eq_ok] at run
  obtain ⟨c, _, ⟨look, rfl⟩, rfl, rfl⟩ := run
  rw [Bool.not_not]
  exact truth_grow later.heap sound.closed lv look

theorem regex {pattern : Regex} (h : Matched functions D ω (n + 1) (.regex id pattern) v b) :
    match v.text? with
    | none => b = false
    | some s => b = (pattern.search s).isSome := by
  obtain ⟨s, t, sound, ld, lv, run, later⟩ := h.start
  simp only [acceptsStep, isFound] at run
  cases hv : v.text? with
  | none =>
    simp only [hv] at run
    exact (Act.pure_eq_ok.mp run).1.symm
  | some s =>
    simp only [hv] at run
    split at run
    · simp at run
    · exact (Act.pure_eq_ok.mp run).1.symm

theorem checkedListOf {element : Descriptor} (tame : Tame functions D)
    (hd : D (.checkedListOf id element))
    (h : Matched functions D ω (n + 1) (.checkedListOf id element) v b) :
    match v with
    | .checked _ i => Judged functions D ω n (ω.heap.checkedList i).element element b
    | _ => b = false := by
  obtain ⟨s, t, sound, ld, lv, run, later⟩ := h.start
  cases v with
  | checked c i =>
    obtain ⟨_, _, here, run⟩ := Act.bind_eq_ok.mp run
    obtain ⟨rfl, rfl⟩ := Act.getHeap_eq_ok.mp here
    have quiet := (tame.quiet n).2 _ _ (sound.elements i) (tame.children hd element (.head _))
    have sω := (quiet.ok run sound).1.trans later
    dsimp only
    rw [sω.heap.checkedList_eq lv]
    exact ⟨s, t, sound, by simpa using ⟨sound.closed.elements i, ld⟩, run, later⟩
  | _ => exact (Act.pure_eq_ok.mp run).1.symm

end Leaves

end Matched

end Conform
