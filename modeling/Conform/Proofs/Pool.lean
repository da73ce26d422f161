import Conform.Proofs.Contents

/-!
The pool of checked lists over a whole run. Whatever is done to the lists, in whatever order, and whether
it succeeds or fails, every list holds only what matches its element type.
-/
namespace Conform

open Value Descriptor

section Declarations

variable {h : Heap} {key : TransformKey} {fn : Value}

open Transforms

/-- What is found was declared for the key and the function. -/
theorem find?_some {table : List Transform} {declared : Transform}
    (run : find? key fn table h = .ok (some declared)) :
    declared ∈ table ∧ sameKey declared.key key h = .ok true ∧ isAlike declared.fn fn h = .ok true := by
  induction table with
  | nil => simp [find?] at run
  | cons t table ih =>
    obtain ⟨found, asked, run⟩ := Look.bind_eq_ok.mp run
    cases found with
    | false =>
      obtain ⟨member, rest⟩ := ih run
      exact ⟨List.mem_cons_of_mem _ member, rest⟩
    | true =>
      cases Look.pure_eq_ok.mp run
      obtain ⟨same, keys, asked⟩ := Look.bind_eq_ok.mp asked
      cases same with
      | true => exact ⟨List.mem_cons_self, keys, asked⟩
      | false => cases Look.pure_eq_ok.mp asked

end Declarations

namespace CheckedList.Op

/-- The values that an operation may put into a list or walk through. -/
def values : Op → List Value
  | .setItem _ value | .insert _ value | .append value | .prepend value => [value]
  | .extend values | .addInPlace values => [values]
  | .push values => values
  | .map element _ => [element]
  | .and operand | .sub operand | .or operand | .add operand => [operand]
  | _ => []

/-- Whether an operation changes the list it is performed on. -/
def changes : Op → Bool
  | .freeze => true
  | op => op.change?.isSome

end CheckedList.Op

/-- A step that only uses up identities. -/
def Session.Idles (s t : Session) : Prop :=
  t = { s with nextIdent := t.nextIdent }

instance : IsPreorder Session Session.Idles where
  refl _ := rfl
  trans _ _ _ st tu := by
    rw [Session.Idles, tu, st]

section Idle

open CheckedList

theorem fresh_idle : Act.fresh.Leads Session.Idles :=
  fun _ => rfl

theorem newInt_idle (k : Int) : (Act.newInt k).Leads Session.Idles :=
  .bind fresh_idle fun _ => .pure _

theorem fromEnd_idle (bound : Value) (length : Nat) : (fromEnd bound length).Leads Session.Idles := by
  unfold fromEnd
  split
  · exact .bind (.bind fresh_idle fun _ => .pure _) fun _ => .pure _
  · exact newInt_idle _

theorem searchFrom_idle {storage : String} {items : List Value} {value stop : Value} {fuel : Nat}
    {i : Value} : (searchFrom storage items value stop fuel i).Leads Session.Idles := by
  induction fuel generalizing i with
  | zero => exact .fail _
  | succ fuel ih =>
    unfold searchFrom
    extract_lets look rest
    have looks (u : Unit) : (look u).Leads Session.Idles := by
      refine .bind (.handle (.bind (.lift _) fun _ => .pure _) fun _ => .pure _) fun found => ?_
      cases found with
      | none => exact .fail _
      | some v =>
        refine .bind (.lift _) fun same => .ite (.pure _) ?_
        exact .bind (newInt_idle _) fun _ => ih
    have rests (before : Bool) : (rest before).Leads Session.Idles :=
      .ite (.bind (.fail _) looks) (looks ())
    split
    · exact .bind (.pure _) rests
    · exact .bind (.lift _) rests

theorem search_idle {storage : String} {items : List Value} {value start stop : Value} :
    (search storage items value start stop).Leads Session.Idles := by
  have rest (first : Value) : (do
      let negative : Look Bool :=
        if stop.same .nil then return false else Value.ordered .lt stop (.int .base 0 0)
      let last ← if ← negative then fromEnd stop items.length else pure stop
      searchFrom storage items value last (items.length + 1) first : Act Value).Leads Session.Idles := by
    refine .bind (.lift _) fun high => .ite ?_ ?_
    · exact .bind (fromEnd_idle _ _) fun _ => searchFrom_idle
    · exact .bind (.pure _) fun _ => searchFrom_idle
  refine .bind (.lift _) fun low => .ite (.bind (fromEnd_idle _ _) fun first => ?_) ?_
  · exact .bind (.lift _) fun beyond => .ite (.bind (.pure _) rest) (.bind (.pure _) rest)
  · exact .bind (.pure _) rest

end Idle

namespace Regime

variable {R : Regime} {α : Type} {s t : Session} {n : Nat} {a d : Descriptor} {v fn : Value}

/-- A declaration that is found for a type is made for a type above it. -/
theorem below_of_sameKey {key key' : TransformKey} (sound : R.Sound s) (hk : R.Knows s key.source)
    (hk' : R.Knows s key'.source) (run : Transforms.sameKey key key' s.heap = .ok true) :
    ∃ m, BelowIn s.ground m key'.source key.source := by
  cases key with
  | byValue a =>
    cases key' with
    | byValue b => exact below_of_alike sound hk hk' run
    | byIdentity b => cases run
  | byIdentity a =>
    cases key' with
    | byValue b => cases run
    | byIdentity b =>
      have same : a.same b = true := Look.pure_eq_ok.mp run
      obtain rfl : a = b := (R.lawful s sound).identity hk hk' same
      exact ⟨1, .self⟩

namespace Sure

/-- An action that only uses up identities. -/
theorem idle (order : R.InOrder s) {x : Act α} (hx : x.Leads Session.Idles) :
    R.Sure s x fun _ _ => True := by
  have ends {t : Session} (st : s.Idles t) : R.Later s t ∧ R.InOrder t := by
    have later : R.Later s t := by
      rw [st]
      exact ⟨.ofExtends (.refl _), fun _ _ => id⟩
    refine ⟨later, order.spared later ?_ ?_⟩
    · rw [st]
      exact order.sound.change order.sound.closed (Heap.Extends.refl _).spans rfl rfl
        order.sound.elements
    · rw [st]
      exact ⟨rfl, rfl⟩
  exact ⟨fun a t run => ⟨(ends (hx.ok run)).1, (ends (hx.ok run)).2, trivial⟩,
    fun e t run => ends (hx.error run)⟩

theorem handle {c : Class} {body : Act α} {handler : Fault → Act α} {Q : α → Session → Prop}
    (hb : R.Sure s body Q)
    (hh : ∀ f t, R.Later s t → R.InOrder t → R.Sure t (handler f) Q) :
    R.Sure s (Act.handle c body handler) Q := by
  have either : ∀ f t, body s = .error f t → f.isA c = true → R.Sure t (handler f) Q ∧ R.Later s t :=
    fun f t failed _ => ⟨hh f t (hb.error f t failed).1 (hb.error f t failed).2, (hb.error f t failed).1⟩
  constructor
  · intro b u run
    unfold Act.handle at run
    cases first : body s with
    | ok x t =>
      simp only [first] at run
      cases run
      exact hb.ok b u first
    | error f t =>
      simp only [first] at run
      split at run
      · next taken =>
        obtain ⟨handled, st⟩ := either f t first taken
        obtain ⟨tu, done⟩ := handled.ok b u run
        exact ⟨st.trans tu, done⟩
      · cases run
  · intro e u run
    unfold Act.handle at run
    cases first : body s with
    | ok x t =>
      simp only [first] at run
      cases run
    | error f t =>
      simp only [first] at run
      split at run
      · next taken =>
        obtain ⟨handled, st⟩ := either f t first taken
        obtain ⟨tu, done⟩ := handled.error e u run
        exact ⟨st.trans tu, done⟩
      · cases run
        exact hb.error e u first

/-- The session as it is. -/
theorem session {f : Session → Act α} {Q : α → Session → Prop} (hf : R.Sure s (f s) Q) :
    R.Sure s (get >>= f) Q :=
  ⟨hf.ok, hf.error⟩

theorem transformKey (order : R.InOrder s) :
    R.Sure s (Transforms.keyOf d) fun key _ => key.source = d := by
  refine .handle (.bind (.reading order _) fun _ _ _ order _ => ?_) fun _ _ _ order => ?_
  · exact .pure order rfl
  · exact .pure order rfl

/-- What a lookup answers is the result of a declaration for the function and a type above. -/
theorem lookup (order : R.InOrder s) (hd : R.Knows s d) :
    R.Sure s (Transforms.lookup (.descriptor d) fn) fun found t => ∀ result ∈ found,
      ∃ declared ∈ t.transforms, declared.result = result ∧
        isAlike declared.fn fn t.heap = .ok true ∧
        ∃ m, BelowIn t.ground m d declared.key.source := by
  refine session (.ite (fun _ => .pure order nofun) fun _ => ?_)
  have key : R.Sure s (Transforms.query (.descriptor d) fn) fun key _ => key.source = d := by
    refine .bind (.pure (Q := fun d' _ => d' = d) order rfl) ?_
    rintro d t st order rfl
    refine .bind (transformKey order) fun key t st order source => ?_
    exact .bind (.reading order _) fun _ _ _ order _ => .pure order source
  refine .bind key fun key t st order source => session ?_
  refine .seeing order fun found run => .pure order fun result hr => ?_
  obtain ⟨declared, rfl, rfl⟩ := Option.map_eq_some_iff.mp hr
  obtain ⟨member, keys, functions⟩ := find?_some run
  have below := below_of_sameKey order.sound (order.known declared member).1
    (source ▸ hd.later st) keys
  exact ⟨declared, member, rfl, functions, source ▸ below⟩

theorem mapM {β : Type} {f : β → Act Value} {xs : List β} {P : Value → Session → Prop}
    (order : R.InOrder s) (hf : ∀ t, R.Later s t → R.InOrder t → ∀ x ∈ xs, R.Sure t (f x) P)
    (lasts : ∀ t u w, R.Later s t → R.Later t u → R.InOrder t → R.InOrder u → P w t → P w u) :
    R.Sure s (xs.mapM f) fun ws t => ∀ w ∈ ws, P w t := by
  induction xs generalizing s with
  | nil => exact .pure order (by simp)
  | cons x xs ih =>
    rw [List.mapM_cons]
    refine .bind (hf s (.refl s) order x (by simp)) fun w t st order hw => ?_
    refine .bind (ih order (fun u tu order y hy => hf u (st.trans tu) order y (by simp [hy]))
      fun u u' w tu => lasts u u' w (st.trans tu)) fun ws u tu order' hws => ?_
    exact .pure order' (List.forall_mem_cons.mpr ⟨lasts t u w st tu order order' hw, hws⟩)

section Mapping

variable {self : CheckedList.Self} {items : List Value}

/-- Mapping without a check, by a function whose results are known to match. -/
theorem mapTrusted {cls : Class} (order : R.InOrder s) (hd : R.Knows s d)
    (hf : ∀ t, R.Later s t → R.InOrder t → ∀ v ∈ items,
      R.Sure t ((R.engine n).call fn [v] []) fun w t => w.Live t.heap ∧ R.Holds t d w) :
    R.Sure s (do
      let mapped ← items.mapM fun v => (R.engine n).call fn [v] []
      let collection := Descriptor.collection (← Act.fresh) .array d
      Act.newChecked cls { items := mapped, element := d, collection, frozen := false }) fun _ _ => True := by
  refine .bind (mapM order hf fun t u w st tu order order' hw => ?_) fun ws t st order hws => ?_
  · exact ⟨tu.live hw.1, (R.steady order.sound order'.sound tu (hd.later st) hw.1).mp hw.2⟩
  · refine .bind (fresh order) fun id u tu order' _ => ?_
    have fits : R.Fits u ⟨ws, d, .collection id .array d, false⟩ :=
      ⟨(hd.later st).later tu, ⟨id, rfl⟩, Admits.later hws order.sound order'.sound tu (hd.later st)⟩
    exact (newChecked order' fits).mono fun _ _ _ _ _ => trivial

/-- Mapping with a check of the results. -/
theorem mapChecked (order : R.InOrder s) (hi : self.at_ < s.heap.checked.size) (hd : R.Knows s d)
    (live : ∀ v ∈ items, v.Live s.heap) (hf : R.Obliges n s fn) {message : Look String} :
    R.Sure s (do
      Logging.trace message
      let collection := Descriptor.collection (← Act.fresh) .array d
      let mapped ← items.mapM fun v => (R.engine n).call fn [v] []
      let whole ← Act.newList mapped
      self.vet (R.engine n) whole collection "map" none
      Act.newChecked self.cls
        { items := ← whole.items, element := d, collection, frozen := false }) fun _ _ => True := by
  refine .bind (trace order _) fun _ t st order _ => ?_
  refine .bind (fresh order) fun id t' tt' order _ => ?_
  have st' := st.trans tt'
  refine .bind (mapM (P := fun w t => w.Live t.heap) order (fun u tu order v hv => ?_)
    fun _ _ _ _ tu _ _ => tu.live) fun ws u tu order lws => ?_
  · exact callOn order (hf.later (st'.trans tu)) ((st'.trans tu).live (live v hv))
  have su := st'.trans tu
  refine .bind (newList order lws) fun w w' uw order made => ?_
  obtain ⟨-, i, rfl, li, rfl⟩ := made
  have sw := su.trans uw
  refine .bind (vetArray order (Nat.lt_of_lt_of_le hi sw.heap.checked) (hd.later sw) li) ?_
  rintro - x wx order ⟨-, kind, j, same, admits⟩
  cases same
  refine .bind (listItems order) ?_
  rintro vs _ - - ⟨rfl, rfl⟩
  rw [wx.heap.list_eq li]
  exact (newChecked order ⟨(hd.later sw).later wx, ⟨id, rfl⟩, admits⟩).mono fun _ _ _ _ _ => trivial

/-- A function that is declared for a type above, with a result below the target, takes what matches the
type to what matches the target. -/
theorem callDeclared {target : Descriptor} {declared : Transform} {u : Session} {m k : Nat}
    (order : R.InOrder s) (member : declared ∈ s.transforms) (hd : R.Knows s d)
    (alike : isAlike declared.fn fn s.heap = .ok true)
    (source : BelowIn s.ground m d declared.key.source) (ht : R.Knows t target) (order' : R.InOrder t)
    (st : R.Later s t) (result : BelowIn t.ground k declared.result target) (tu : R.Later t u)
    (orderu : R.InOrder u) (hf : R.Obliges n u fn) (lv : v.Live u.heap) (holds : R.Holds u d v) :
    R.Sure u ((R.engine n).call fn [v] []) fun w t => w.Live t.heap ∧ R.Holds t target w := by
  obtain ⟨known, known'⟩ := order.known declared member
  have su := st.trans tu
  have source' := below_later order.sound orderu.sound su hd known source
  have hx := holds_of_below orderu.sound (hd.later su) (known.later su) lv source' holds
  refine (callOn orderu hf lv).noted.mono fun w x ux order'' answer => ?_
  have hw := order.truthful declared member s u x fn n v w order.sound orderu.sound su alike lv hx answer.1
  have result' := below_later order'.sound order''.sound (tu.trans ux) (known'.later st) ht result
  exact ⟨answer.2, holds_of_below order''.sound (known'.later (su.trans ux))
    (ht.later (tu.trans ux)) answer.2 result' hw⟩

theorem runMap {element : Value} (order : R.InOrder s) (hi : self.at_ < s.heap.checked.size)
    (le : element.Live s.heap) (known : ∀ d t, Descriptor.ofValue element s = .ok d t → R.family d)
    (hf : R.Obliges n s fn) :
    R.Sure s (CheckedList.Op.runMap (R.engine n) self element fn) fun _ _ => True := by
  refine .bind (ofValue order le).noted fun target t st order made => state (state ?_)
  have ht : R.Knows t target := ⟨known target t made.1, made.2⟩
  have hi := Nat.lt_of_lt_of_le hi st.heap.checked
  have hd := order.element self.at_
  have admits := order.items hi
  have validating {u : Session} {message : Look String} (tu : R.Later t u) (order : R.InOrder u) :
      R.Sure u (do Logging.trace message; _) _ :=
    mapChecked order (Nat.lt_of_lt_of_le hi tu.heap.checked) (ht.later tu)
      (fun v hv => tu.live (admits v hv).1) (hf.later (st.trans tu))
  refine .bind (lookup order hd) fun found u tu orderu declares => ?_
  cases found with
  | none => exact validating tu orderu
  | some result =>
    obtain ⟨declared, member, rfl, alike, m, source⟩ := declares result rfl
    refine .bind (subtype orderu (orderu.known declared member).2 (ht.later tu)) ?_
    intro below w uw orderw hb
    have tw := tu.trans uw
    cases below with
    | false => exact validating tw orderw
    | true =>
      obtain ⟨k, below⟩ := hb rfl
      refine .bind (trace orderw _) fun _ x wx orderx _ => ?_
      refine mapTrusted orderx ((ht.later tw).later wx) fun y xy ordery v hv => ?_
      have wy := wx.trans xy
      have ty := tw.trans wy
      have hv := admits.later order.sound ordery.sound ty hd v hv
      exact callDeclared orderu member (hd.later tu) alike source (ht.later tw) orderw uw below wy
        ordery (hf.later (st.trans ty)) hv.1 hv.2

end Mapping

section Operating

variable {self : CheckedList.Self} {value index : Value} {vs incoming : List Value} {method : Option String}

/-- Contents put together from what the list holds and from values that came in. -/
theorem writeFrom (hi : self.at_ < s.heap.checked.size) (st : R.Later s t) (order : R.InOrder t)
    (changing : R.changing self.at_) (admits : R.Admits t (s.heap.checkedList self.at_).element incoming)
    (among : vs ⊆ (t.heap.checkedList self.at_).items ++ incoming) :
    R.Sure t (self.write method vs) fun _ _ => True := by
  have hi := Nat.lt_of_lt_of_le hi st.heap.checked
  refine write order hi changing fun v hv => ?_
  obtain hv | hv := List.mem_append.mp (among hv)
  · exact order.items hi v hv
  · exact st.heap.elements self.at_ ‹_› ▸ admits v hv

/-- Contents that the list held before. -/
theorem writeOld (order : R.InOrder s) (hi : self.at_ < s.heap.checked.size) (st : R.Later s t)
    (order' : R.InOrder t) (changing : R.changing self.at_)
    (among : vs ⊆ (s.heap.checkedList self.at_).items) : R.Sure t (self.write method vs) fun _ _ => True :=
  writeFrom hi st order' changing
    ((order.items hi).later order.sound order'.sound st (order.element self.at_))
    (List.Subset.trans among (List.subset_append_right _ _))

/-- A copy put together from what the list held before and from values that came in. -/
theorem copyFrom (order : R.InOrder s) (hi : self.at_ < s.heap.checked.size) (st : R.Later s t)
    (order' : R.InOrder t) (admits : R.Admits t (s.heap.checkedList self.at_).element incoming)
    (among : vs ⊆ (s.heap.checkedList self.at_).items ++ incoming) :
    R.Sure t (self.with vs) fun _ _ => True := by
  refine copyWith order' (Nat.lt_of_lt_of_le hi st.heap.checked) fun v hv => ?_
  rw [st.heap.elements self.at_ hi]
  obtain hv | hv := List.mem_append.mp (among hv)
  · exact (order.items hi).later order.sound order'.sound st (order.element self.at_) v hv
  · exact admits v hv

/-- A copy put together from what the list holds by now and from values that came in. -/
theorem copyNow (hi : self.at_ < s.heap.checked.size) (st : R.Later s t) (order : R.InOrder t)
    (admits : R.Admits t (s.heap.checkedList self.at_).element incoming)
    (among : vs ⊆ (t.heap.checkedList self.at_).items ++ incoming) : R.Sure t (self.with vs) fun _ _ => True :=
  copyFrom order (Nat.lt_of_lt_of_le hi st.heap.checked) (.refl t) order (st.heap.elements self.at_ hi ▸ admits) among

section

variable (order : R.InOrder s) (hi : self.at_ < s.heap.checked.size)
include order hi

/-- A copy of what the list held before. -/
theorem copyOld (st : R.Later s t) (order' : R.InOrder t) (among : vs ⊆ (s.heap.checkedList self.at_).items) :
    R.Sure t (self.with vs) fun _ _ => True :=
  have none : R.Admits t (s.heap.checkedList self.at_).element [] := nofun
  copyFrom order hi st order' none (by simpa using among)

theorem runExtend (changing : R.changing self.at_) (lv : value.Live s.heap) :
    R.Sure s (CheckedList.Op.runExtend (R.engine n) self value) fun _ _ => True := by
  have joined {t : Session} (st : R.Later s t) (order : R.InOrder t) {incoming : List Value}
      (admits : R.Admits t (s.heap.checkedList self.at_).element incoming) :
      R.Sure t (do self.write (some "extend") ((← self.state).items ++ incoming)) fun _ _ => True :=
    state (writeFrom hi st order changing admits (List.Subset.refl _))
  unfold CheckedList.Op.runExtend
  split
  · exact .bind (foreignValues order hi lv) fun _ t st order admits => joined st order admits
  · exact .bind (collect order hi lv) fun _ t st order passed => joined st order passed.1

theorem runSetItem (changing : R.changing self.at_) (lv : value.Live s.heap) :
    R.Sure s (CheckedList.Op.runSetItem (R.engine n) self index value) fun _ _ => True := by
  unfold CheckedList.Op.runSetItem
  split
  · refine .bind (collect order hi lv) fun incoming t st order passed => state ?_
    refine .seeing order fun vs run => ?_
    exact writeFrom hi st order changing passed.1 (assignedSlice_subset run)
  · refine .bind (vetElement order hi lv) fun _ t st order admits => state ?_
    refine .seeing order fun vs run => writeFrom hi st order changing admits ?_
    exact List.Subset.trans (assignedAt_subset run) (List.perm_append_singleton _ _).symm.subset

theorem runPush (changing : R.changing self.at_) (lv : ∀ v ∈ vs, v.Live s.heap) :
    R.Sure s (CheckedList.Op.perform (R.engine n) self (.push vs)) fun _ _ => True := by
  obtain ⟨id, hc⟩ := (order.kept self.at_ hi).collection
  refine state (.bind (newList order lv) fun w t st order' made => ?_)
  obtain ⟨-, i, rfl, li, rfl⟩ := made
  rw [hc]
  refine .bind (vetArray order' (Nat.lt_of_lt_of_le hi st.heap.checked)
    ((order.element self.at_).later st) li) ?_
  rintro - u tu order ⟨-, kind, j, same, admits⟩
  cases same
  refine state (.bind (writeFrom hi (st.trans tu) order changing admits (List.Subset.refl _)) ?_)
  exact fun _ _ _ order _ => .pure order trivial

open CheckedList in
/-- Whatever an operation does to a list, it keeps the session in order. -/
theorem perform {op : Op} (live : ∀ v ∈ op.values, v.Live s.heap)
    (changing : op.changes = true → R.changing self.at_) (obliges : ∀ f ∈ op.callees, R.Obliges n s f)
    (known : ∀ element fn, op = .map element fn → ∀ d t, Descriptor.ofValue element s = .ok d t →
      R.family d) : R.Sure s (op.perform (R.engine n) self) fun _ _ => True := by
  have lives := (order.items hi).live
  have ended {α : Type} {x : Act α} {t : Session} (v : Value) (hx : R.Sure t x fun _ _ => True) :
      R.Sure t (x >>= fun _ => Pure.pure v) fun _ _ => True :=
    .bind hx fun _ _ _ order _ => .pure order trivial
  cases op with
  | push vs => exact runPush order hi (changing rfl) live
  | length => exact state (idle order (newInt_idle _))
  | iterate => exact state (idle order (.bind fresh_idle fun _ => .pure _))
  | reversed => exact state (idle order (.bind fresh_idle fun _ => .pure _))
  | contains value => exact state (.seeing order fun _ _ => .pure order trivial)
  | indexOf value start stop => exact state (idle order search_idle)
  | toList => exact state ((newList order lives).mono fun _ _ _ _ _ => trivial)
  | getItem index =>
    refine state ?_
    cases index with
    | slice id start stop step =>
      exact .seeing order fun slice _ => copyOld order hi (.refl s) order slice.read_subset
    | _ => exact .reading order _
  | count value =>
    refine state (.bind (idle order (.filterM fun _ _ => .lift _)) ?_)
    exact fun _ _ _ order _ => idle order (newInt_idle _)
  | setItem index value =>
    exact state (ended _ (runSetItem order hi (changing rfl) (live value (by simp [Op.values]))))
  | insert index value =>
    refine state (.bind (vetElement order hi (live value (by simp [Op.values]))) ?_)
    refine fun _ t st order admits => state (.seeing order fun vs run => ?_)
    refine ended _ (writeFrom hi st order (changing rfl) admits ?_)
    exact List.Subset.trans (insertedAt_subset run) (List.perm_append_singleton _ _).symm.subset
  | append value =>
    refine state (.bind (vetElement order hi (live value (by simp [Op.values]))) ?_)
    exact fun _ t st order admits => state (ended _ (writeFrom hi st order (changing rfl) admits
      (List.Subset.refl _)))
  | prepend value =>
    refine state (.bind (vetElement order hi (live value (by simp [Op.values]))) ?_)
    exact fun _ t st order admits => state (ended _ (writeFrom hi st order (changing rfl) admits
      (List.perm_append_singleton _ _).symm.subset))
  | extend values =>
    exact state (ended _ (runExtend order hi (changing rfl) (live values (by simp [Op.values]))))
  | addInPlace values =>
    exact state (ended _ (runExtend order hi (changing rfl) (live values (by simp [Op.values]))))
  | deleteItem index =>
    refine state (.seeing order fun vs run => ?_)
    exact ended _ (writeOld order hi (.refl s) order (changing rfl) (deletedAt_subset run))
  | pop index =>
    refine state (.seeing order fun popped run => ?_)
    exact ended _ (writeOld order hi (.refl s) order (changing rfl) (poppedAt_subset run).2)
  | shift =>
    refine state (.seeing order fun popped run => ?_)
    exact ended _ (writeOld order hi (.refl s) order (changing rfl) (poppedAt_subset run).2)
  | remove value =>
    refine state (.seeing order fun vs run => ?_)
    exact ended _ (writeOld order hi (.refl s) order (changing rfl) (removeFirst_subset run))
  | clear => exact state (ended _ (writeOld order hi (.refl s) order (changing rfl) (by simp)))
  | reverse => exact state (ended _ (writeOld order hi (.refl s) order (changing rfl) (by simp)))
  | filterInPlace test =>
    refine state (.bind (keepIf order (obliges test (by simp [Op.callees])) lives) ?_)
    exact fun vs t st order' among => ended _ (writeOld order hi st order' (changing rfl) among)
  | rejectInPlace test =>
    refine state (.bind (keepIf order (obliges test (by simp [Op.callees])) lives) ?_)
    exact fun vs t st order' among => ended _ (writeOld order hi st order' (changing rfl) among)
  | sortInPlace comparator key falling =>
    refine state (.bind (sortItems order (obliges comparator (by simp [Op.callees]))
      (obliges key (by simp [Op.callees])) lives ?_) ?_)
    · exact fun t st order' vs among => writeOld order hi st order' (changing rfl) among
    · exact fun vs t st order' among => ended _ (writeOld order hi st order' (changing rfl) among)
  | filter test =>
    refine state (.bind (keepIf order (obliges test (by simp [Op.callees])) lives) ?_)
    exact fun vs t st order' among => copyOld order hi st order' among
  | reject test =>
    refine state (.bind (keepIf order (obliges test (by simp [Op.callees])) lives) ?_)
    exact fun vs t st order' among => copyOld order hi st order' among
  | sort comparator key falling =>
    refine state (.bind (sortItems order (obliges comparator (by simp [Op.callees]))
      (obliges key (by simp [Op.callees])) lives fun _ _ order _ _ => .pure order trivial) ?_)
    exact fun vs t st order' among => copyOld order hi st order' among
  | extreme side count key =>
    have hk := obliges key (by simp [Op.callees])
    have least : R.Sure s (do return (← CheckedList.best? (R.engine n) side key
        (s.heap.checkedList self.at_).items).getD .nil) fun _ _ => True :=
      .bind (best? order hk lives) fun _ _ _ order _ => .pure order trivial
    have several : R.Sure s (do self.with (← CheckedList.extremes (R.engine n) side count key
        (s.heap.checkedList self.at_).items)) fun _ _ => True :=
      .bind (extremes order hk lives) fun vs t st order' among => copyOld order hi st order' among
    refine state ?_
    cases count with
    | nil => exact least
    | _ => exact several
  | minmax key =>
    have hk := obliges key (by simp [Op.callees])
    refine state (.bind (best? order hk lives) fun low t st order _ => ?_)
    refine .bind (best? order (hk.later st) fun v hv => st.live (lives v hv)) ?_
    exact fun high u _ order _ => idle order (.bind fresh_idle fun _ => .pure _)
  | map element fn =>
    exact state (runMap order hi (live element (by simp [Op.values])) (known element fn rfl)
      (obliges fn (by simp [Op.callees])))
  | and operand =>
    refine state (.bind (operandValues order) ?_)
    rintro vs _ - - ⟨rfl, -⟩
    exact .seeing order fun vs run => copyOld order hi (.refl _) order (uniqueCommon_subset run)
  | sub operand =>
    refine state (.bind (operandValues order) ?_)
    rintro vs _ - - ⟨rfl, -⟩
    exact .seeing order fun vs run => copyOld order hi (.refl _) order (keepAbsent_subset run)
  | or operand =>
    refine state (.bind (foreignValues order hi (live operand (by simp [Op.values]))) ?_)
    refine fun incoming t st order' admits => state (.seeing order' fun vs run => ?_)
    exact copyNow hi st order' admits (unique_subset run)
  | add operand =>
    refine state (.bind (foreignValues order hi (live operand (by simp [Op.values]))) ?_)
    exact fun incoming t st order' admits => state (copyNow hi st order' admits (List.Subset.refl _))
  | freeze =>
    exact state (ended _ (setChecked order hi (changing rfl) rfl rfl (order.items hi)))

open CheckedList in
theorem run {op : Op} (live : ∀ v ∈ op.values, v.Live s.heap)
    (changing : op.changes = true → R.changing self.at_) (obliges : ∀ f ∈ op.callees, R.Obliges n s f)
    (known : ∀ element fn, op = .map element fn → ∀ d t, Descriptor.ofValue element s = .ok d t →
      R.family d) : R.Sure s (op.run (R.engine n) self) fun _ _ => True := by
  have performed := perform order hi live changing obliges known
  unfold Op.run
  split
  · refine .bind (Q := fun _ t => t = s) (state (.ite (fun _ => .fail order _) fun _ => ?_)) ?_
    · exact .pure order rfl
    · rintro - _ - - rfl
      exact performed
  · exact performed

end

/-- A checked list is made by calling its type. -/
theorem callType {id : Ident} {args : List Value} {keywords : Keywords} (order : R.InOrder s)
    (hd : R.Knows s d) (la : ∀ w ∈ args, w.Live s.heap) :
    R.Sure s ((R.engine n).call (.descriptor (.checkedListOf id d)) args keywords) fun _ _ => True := by
  cases n with
  | zero => exact .throw order _
  | succ n => exact buildChecked order hd la

end Operating

theorem ofAfter {x : Act α} {Q : α → Session → Prop}
    (ends : R.Later s (x.after s) ∧ R.InOrder (x.after s)) (answers : ∀ a t, x s = .ok a t → Q a t) :
    R.Sure s x Q := by
  refine ⟨fun a t run => ?_, fun e t run => ?_⟩
  · rw [Act.after_of_ok run] at ends
    exact ⟨ends.1, ends.2, answers a t run⟩
  · rwa [Act.after_of_error run] at ends

end Sure

open CheckedList in
/-- The steps of a run, in any order. A step ends where it leads to, whether it succeeds or fails; what a
callback does is again a run. -/
inductive Run (R : Regime) : Session → Session → Prop where
  | refl (s : Session) : Run R s s
  | trans {s t u : Session} : Run R s t → Run R t u → Run R s u
  -- new values come into being, and the records of matching grow
  | grow {s t : Session} (st : s.Before t) (sound : R.Sound t) (spares : s.Spares t) : Run R s t
  -- transforms are declared or withdrawn, and their use is turned on or off
  | declare {s : Session} {table : List Transform} {enabled : Bool}
      (truthful : ∀ declared ∈ table, declared.Truthful R)
      (known : ∀ declared ∈ table, R.Knows s declared.key.source ∧ R.Knows s declared.result) :
      Run R s { s with transforms := table, transformsEnabled := enabled }
  -- a list is made of values and an element type
  | construct {s : Session} (n : Nat) (c : Class) {values element : Value}
      (live : values.Live s.heap ∧ element.Live s.heap)
      (known : ∀ d t, Descriptor.ofValue element s = .ok d t → R.family d) :
      Run R s ((CheckedList.construct (R.engine n) c values element).after s)
  -- a list is made by calling the type of lists of an element type
  | build {s : Session} (n : Nat) (id : Ident) {d : Descriptor} {args : List Value} (keywords : Keywords)
      (known : R.Knows s d) (live : ∀ w ∈ args, w.Live s.heap) :
      Run R s (((R.engine n).call (.descriptor (.checkedListOf id d)) args keywords).after s)
  -- an operation is performed on a list
  | operate {s : Session} (n : Nat) {self : Self} {op : Op} (there : self.at_ < s.heap.checked.size)
      (live : ∀ v ∈ op.values, v.Live s.heap) (changing : op.changes = true → R.changing self.at_)
      (known : ∀ element fn, op = .map element fn → ∀ d t, Descriptor.ofValue element s = .ok d t →
        R.family d)
      (calls : ∀ f ∈ op.callees, ∀ t args, R.Later s t → R.InOrder t → (∀ a ∈ args, a.Live t.heap) →
        Run R t (((R.engine n).call f args []).after t))
      (answers : ∀ f ∈ op.callees, ∀ t args w u, R.Later s t → R.InOrder t →
        (∀ a ∈ args, a.Live t.heap) → (R.engine n).call f args [] t = .ok w u → w.Live u.heap) :
      Run R s ((op.run (R.engine n) self).after s)

/-- Order lasts when truthful declarations take the place of others. -/
theorem InOrder.declared {table : List Transform} {enabled : Bool} (order : R.InOrder s)
    (truthful : ∀ declared ∈ table, declared.Truthful R)
    (known : ∀ declared ∈ table, R.Knows s declared.key.source ∧ R.Knows s declared.result) :
    let t : Session := { s with transforms := table, transformsEnabled := enabled }
    R.Later s t ∧ R.InOrder t := by
  intro t
  have st : R.Later s t := ⟨.ofExtends (.refl _), fun _ _ => id⟩
  have sound : R.Sound t :=
    order.sound.change order.sound.closed st.heap.spans rfl rfl order.sound.elements
  refine ⟨st, sound, fun i hi => ⟨(order.kept i hi).collection, fun v hv => ?_⟩, truthful, known⟩
  exact ((order.items hi).later order.sound sound st (order.element i) v hv).2

/-- A run leads from order to order. -/
theorem Run.inOrder (run : R.Run s t) (order : R.InOrder s) : R.Later s t ∧ R.InOrder t := by
  induction run with
  | refl s => exact ⟨.refl s, order⟩
  | trans _ _ first second =>
    obtain ⟨st, order⟩ := first order
    obtain ⟨tu, order⟩ := second order
    exact ⟨st.trans tu, order⟩
  | grow st sound spares => exact ⟨.ofBefore st, order.spared (.ofBefore st) sound spares⟩
  | declare truthful known => exact order.declared truthful known
  | construct n c live known => exact (Sure.construct order live.1 live.2 known).after
  | build n id keywords known live => exact (Sure.callType order known live).after
  | operate n there live changing known _ answers calls =>
    refine (Sure.run order there live changing (fun f hf t args st order la => ?_) known).after
    exact .ofAfter (calls f hf t args st order la order) fun w u => answers f hf t args w u st order la

/-- Whether a value matches a type, for good: to some depth the answer is yes, and to none it is no. -/
def Matches (R : Regime) (s : Session) (d : Descriptor) (v : Value) : Prop :=
  R.Holds s d v ∧ ∀ n t, (R.engine n).accepts d v s ≠ .ok false t

theorem matches_of_below {m : Nat} (sound : R.Sound s) (ha : R.Knows s a) (hd : R.Knows s d)
    (lv : v.Live s.heap) (below : BelowIn s.ground m a d) (holds : R.Holds s a v) : R.Matches s d v :=
  ⟨holds_of_below sound ha hd lv below holds, fun _ _ => not_refused sound ha hd lv below holds⟩

/-- The items of a list match its element type. -/
theorem InOrder.matches_items (order : R.InOrder s) (i : Handle) :
    ∀ v ∈ (s.heap.checkedList i).items, R.Matches s (s.heap.checkedList i).element v := by
  intro v hv
  by_cases hi : i < s.heap.checked.size
  · obtain ⟨lv, holds⟩ := order.items hi v hv
    exact matches_of_below order.sound (order.element i) (order.element i) lv (m := 1) .self holds
  · simp [Heap.checkedList, Array.getElem?_eq_none (Nat.le_of_not_lt hi)] at hv

/-- The items of a list that is found to be a list of a type match that type. -/
theorem InOrder.matches_of_checkedListOf {c : Class} {i : Handle} {id : Ident} (order : R.InOrder s)
    (ha : R.Knows s a)
    (found : (R.engine n).accepts (.checkedListOf id a) (.checked c i) s = .ok true t) :
    ∀ v ∈ (s.heap.checkedList i).items, R.Matches t a v := by
  intro v hv
  cases n with
  | zero => cases found
  | succ n =>
    obtain ⟨st, order', below⟩ := (Sure.subtype order (order.element i) ha).ok true t found
    obtain ⟨m, below⟩ := below rfl
    obtain ⟨holds, -⟩ := order.matches_items i v hv
    have lv := order.sound.closed.checked i v hv
    exact matches_of_below order'.sound ((order.element i).later st) (ha.later st) (st.live lv) below
      ((R.steady order.sound order'.sound st (order.element i) lv).mp holds)

section Booleans

/-- The two types of a small pool. -/
inductive BooleanFamily : Descriptor → Prop
  | void : BooleanFamily .void
  | boolean : BooleanFamily .boolean

theorem boolean_tame {functions : Library} : Tame functions BooleanFamily where
  children := by rintro d (_ | _) c hc <;> cases hc
  thunks := by rintro _ _ ⟨⟩
  targets := by rintro _ _ ⟨⟩
  predicates := by rintro _ _ _ ⟨⟩
  attributes := by rintro _ _ _ ⟨⟩
  fields := by rintro _ _ ⟨⟩
  methods := by rintro _ _ ⟨⟩

theorem boolean_payload {x : Value} (hx : Payload (Session.Knows BooleanFamily s) x) : False := by
  obtain ⟨d, ⟨hd, -⟩, hx⟩ := hx
  cases hd <;> simp [Descriptor.parts] at hx

theorem boolean_class {c : Class} (hc : Names (Session.Knows BooleanFamily s) c) : False := by
  obtain ⟨id, ⟨hd, -⟩ | ⟨hd, -⟩ | ⟨hd, -⟩⟩ := hc <;> cases hd

theorem boolean_lawful {functions : Library} (sound : s.Sound BooleanFamily) :
    Lawful functions BooleanFamily (s.Knows BooleanFamily) s where
  sound := sound
  tame := And.left
  live := And.right
  elements := fun i => ⟨sound.elements i, sound.closed.elements i⟩
  identity := by
    rintro a b ⟨_ | _, -⟩ ⟨_ | _, -⟩ same <;> first | rfl | cases same
  order := {
    children := by rintro d ⟨_ | _, -⟩ c hc <;> cases hc
    resolved := by rintro _ _ _ ⟨⟨⟩, -⟩
    alike_symm := fun hx => (boolean_payload hx).elim
    alike_trans := fun hx => (boolean_payload hx).elim
    same_symm := by rintro _ _ _ _ ⟨⟨⟩, -⟩
    same_trans := by rintro _ _ _ _ _ _ ⟨⟨⟩, -⟩
    under_trans := fun hc => (boolean_class hc).elim }
  instances := fun hc => (boolean_class hc).elim
  subclasses := fun hc => (boolean_class hc).elim
  antisymm := fun hc => (boolean_class hc).elim
  units := by rintro _ _ _ _ ⟨⟨⟩, -⟩
  equals := by rintro _ _ _ _ ⟨⟨⟩, -⟩
  containers := by rintro _ _ _ _ ⟨⟨⟩, -⟩
  patterns := by rintro _ _ _ _ ⟨⟨⟩, -⟩
  tests := by rintro _ _ _ _ _ _ ⟨⟨⟩, -⟩
  reads := by rintro _ _ _ ⟨⟨⟩, -⟩
  members := by rintro _ _ ⟨⟨⟩, -⟩
  responds := by rintro _ _ ⟨⟨⟩, -⟩

/-- What the two types match. -/
def booleanAnswer : Descriptor → Value → Bool
  | .boolean, .bool _ => true
  | .boolean, _ => false
  | _, _ => true

theorem boolean_accepts {functions : Library} {n : Nat} {d : Descriptor} (hd : BooleanFamily d)
    (v : Value) (s : Session) :
    (Engine.ofDepth functions (n + 1)).accepts d v s = .ok (booleanAnswer d v) s := by
  cases hd with
  | void => rfl
  | boolean => cases v <;> rfl

theorem boolean_holds {functions : Library} {d : Descriptor} (hd : BooleanFamily d) :
    Conform.Holds functions s d v ↔ booleanAnswer d v = true := by
  constructor
  · rintro ⟨n, t, run⟩
    cases n with
    | zero => cases run
    | succ n =>
      rw [boolean_accepts hd] at run
      exact (EStateM.Result.ok.inj run).1
  · intro yes
    exact ⟨1, s, by rw [boolean_accepts hd, yes]⟩

/-- Lists of booleans and of anything, all of which may change. -/
def booleans : Regime where
  functions := fun _ _ _ _ => return .nil
  family := BooleanFamily
  changing := fun _ => True
  tame := boolean_tame
  lawful := fun _ => boolean_lawful
  accepts_spares := by
    intro n d v s _ hd
    cases n with
    | zero => exact ⟨rfl, rfl⟩
    | succ n =>
      rw [Act.after_of_ok (boolean_accepts hd v s)]
      exact ⟨rfl, rfl⟩
  subtype_spares := by
    intro n a b s _ ha hb
    cases n with
    | zero => exact ⟨rfl, rfl⟩
    | succ n => cases ha <;> cases hb <;> exact ⟨rfl, rfl⟩
  total := fun _ hd _ => ⟨1, _, _, boolean_accepts hd.1 _ _⟩
  steady := fun _ _ _ hd _ => (boolean_holds hd.1).trans (boolean_holds hd.1).symm
  payloads := fun _ _ _ hx => (boolean_payload hx).elim

/-- A session with a plain list of two booleans. -/
def booleanStart : Session where
  heap := { lists := #[[.bool true, .bool false]] }

theorem boolean_sound : booleans.Sound booleanStart where
  closed := .of_lists (by simp [Value.Live]) (by simp)
  ancestors := nofun
  resolved := nofun
  elements := fun _ => .void

open CheckedList

/-- The list of the two booleans. -/
def booleanMade : Session :=
  (construct (booleans.engine 3) .checkedList (.list .base 0) (.descriptor .boolean)).after booleanStart

/-- An operation on that list. -/
def booleanStep (op : Op) (s : Session) : Session :=
  (op.run (booleans.engine 3) ⟨.checkedList, 0⟩).after s

/-- A boolean is appended, nil is refused, and the list is added to itself. -/
def booleanEnd : Session :=
  booleanStep (.add (.checked .checkedList 0))
    (booleanStep (.append .nil) (booleanStep (.append (.bool true)) booleanMade))

theorem boolean_run : booleans.Run booleanStart booleanEnd := by
  have made : booleans.Run booleanStart booleanMade :=
    .construct 3 .checkedList ⟨Nat.zero_lt_one, trivial⟩ fun d t read => by
      cases read
      exact .boolean
  have step {s : Session} {op : Op} (there : 0 < s.heap.checked.size)
      (live : ∀ v ∈ op.values, v.Live s.heap) (plain : op.callees = [])
      (known : ∀ element fn, op ≠ .map element fn) : booleans.Run s (booleanStep op s) :=
    .operate 3 there live (fun _ => trivial) (fun element fn same => absurd same (known element fn))
      (by simp [plain]) (by simp [plain])
  have appended : booleans.Run booleanMade (booleanStep (.append (.bool true)) booleanMade) :=
    step Nat.zero_lt_one (by simp [Op.values, Value.Live]) rfl (by simp)
  have refused : booleans.Run _ (booleanStep (.append .nil) _) :=
    step (s := booleanStep (.append (.bool true)) booleanMade) Nat.zero_lt_one
      (by simp [Op.values, Value.Live]) rfl (by simp)
  have added : booleans.Run _ booleanEnd :=
    step Nat.zero_lt_one (List.forall_mem_singleton.mpr Nat.zero_lt_one) rfl (by simp)
  exact made.trans (appended.trans (refused.trans added))

end Booleans

end Regime

end Conform
