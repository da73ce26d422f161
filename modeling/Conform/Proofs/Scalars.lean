import Conform.Proofs.Identity
import Conform.Proofs.Numbers

/-!
Scalars: the values that hold no others. Each is equal to what has the same content, whatever its kind: one, true
and 1.0 are one number, bytes and a byte buffer are equal if their bytes are, and ranges if they hold the same
integers. A NaN has no content, nor has what is only itself, such as a function.

Main statement: `Value.scalars_lawful`: among scalars, equality is symmetric and transitive, and hashes respect it.
-/
namespace Conform

open Value

/-- Laws of equality and hashing among some values, at a given depth: equality gives one answer both ways and is
transitive, and values that are equal hash alike if they are hashable. -/
structure LawfulOn (V : Value → Prop) (h : Heap) (n : Nat) : Prop where
  symm : ∀ {x y r}, V x → V y → alike (equalAt n) x y h = .ok r → alike (equalAt n) y x h = .ok r
  trans : ∀ {x y z}, V x → V y → V z → alike (equalAt n) x y h = .ok true →
    alike (equalAt n) y z h = .ok true → alike (equalAt n) x z h = .ok true
  hash : ∀ {x y p q}, V x → V y → alike (equalAt n) x y h = .ok true → hashAt n x h = .ok p →
    hashAt n y h = .ok q → p = q

theorem LawfulOn.mono {V W : Value → Prop} {h : Heap} {n : Nat} (laws : LawfulOn W h n) (sub : ∀ x, V x → W x) :
    LawfulOn V h n where
  symm hx hy := laws.symm (sub _ hx) (sub _ hy)
  trans hx hy hz := laws.trans (sub _ hx) (sub _ hy) (sub _ hz)
  hash hx hy := laws.hash (sub _ hx) (sub _ hy)

/-- Without any depth, only what is identical is found equal. -/
theorem LawfulOn.zero (V : Value → Prop) (h : Heap) : LawfulOn V h 0 := by
  have found {x y : Value} {r : Bool} : alike (equalAt 0) x y h = .ok r ↔ x.same y = true ∧ r = true := by
    unfold alike
    split
    · next same => simp [same, eq_comm (a := true)]
    · next differ =>
      refine ⟨fun run => ?_, fun known => absurd known.1 differ⟩
      cases run
  refine ⟨?_, ?_, ?_⟩
  · intro x y r _ _ run
    obtain ⟨same, yes⟩ := found.mp run
    exact found.mpr ⟨same_symm same, yes⟩
  · intro x y z _ _ _ first second
    exact found.mpr ⟨same_trans (found.mp first).1 (found.mp second).1, rfl⟩
  · intro x y p q _ _ _ hashed
    cases hashed

namespace Value

variable {x y z : Value} {h : Heap} {n : Nat}

/-- Whether a value holds no others that count when it is compared. -/
def isScalar : Value → Bool
  | .tuple .. | .pair .. | .frozenset .. | .frozenMap .. | .slice .. | .success .. | .failure .. | .mismatch .. => false
  | .descriptor _ | .list .. | .dict .. | .set _ | .checked .. | .context _ => false
  | .thing .coin _ | .thing .odd _ => false
  | _ => true

/-- What scalars are compared by. -/
inductive Content where
  | number (q : Bool ⊕ ℚ)
  | text (s : String)
  | bytes (bs : List UInt8)
  | span (length : Nat) (start step : Option Int)
  | day (d : Day)
  | moment (m : Moment)
  | pattern (source : String) (binary : Bool) (flags : Regex.Flags)
  | hint (name : String)

/-- The content of a range: the step does not count if there is no second integer. -/
def spanContent (r : Span) : Content :=
  .span r.length (if r.length = 0 then none else some r.start) (if r.length ≤ 1 then none else some r.step)

def content? (h : Heap) (v : Value) : Option Content :=
  match v with
  | .bool _ | .int .. | .float .. => (v.number?.bind Exact.denoted?).map .number
  | .str _ _ s => some (.text s)
  | .bytes .. | .bytearray _ => (bytes? h v).map .bytes
  | .range _ r => some (spanContent r)
  | .day _ d => some (.day d)
  | .moment _ m => some (.moment m)
  | .regex r => some (.pattern r.source r.binary r.flags)
  | .typeHint n => some (.hint (if n == "int | str" then "Union[int, str]" else n))
  | _ => none

/-- Whether two values have one content. -/
def Agree (h : Heap) (x y : Value) : Prop :=
  ∃ c, content? h x = some c ∧ content? h y = some c

theorem Agree.symm (agree : Agree h x y) : Agree h y x := by
  obtain ⟨c, first, second⟩ := agree
  exact ⟨c, second, first⟩

theorem Agree.trans (first : Agree h x y) (second : Agree h y z) : Agree h x z := by
  obtain ⟨c, hx, hy⟩ := first
  obtain ⟨d, hy', hz⟩ := second
  obtain rfl : c = d := Option.some.inj (hy.symm.trans hy')
  exact ⟨c, hx, hz⟩

section Content

theorem content?_number {q : Bool ⊕ ℚ} :
    content? h x = some (.number q) ↔ ∃ a, x.number? = some a ∧ a.denoted? = some q := by
  unfold content? number?
  cases x <;> simp [spanContent]

theorem content?_text {s : String} : content? h x = some (.text s) ↔ x.text? = some s := by
  unfold content? number? text?
  cases x <;> simp [spanContent]

theorem content?_bytes {bs : List UInt8} : content? h x = some (.bytes bs) ↔ bytes? h x = some bs := by
  unfold content? number? bytes?
  cases x <;> simp [spanContent]

theorem spanContent_eq_iff {r q : Span} : spanContent r = spanContent q ↔ sameSpan r q = true := by
  unfold spanContent sameSpan
  by_cases empty : r.length = 0
  · simp [empty]
    grind
  · grind

theorem agree_number {a : Exact} (number : x.number? = some a) :
    Agree h x y ↔ ∃ b, y.number? = some b ∧ a.beq b = true := by
  have content : content? h x = a.denoted?.map .number := by
    cases x with
    | bool | int | float => exact Option.some.inj number ▸ rfl
    | _ => cases number
  constructor
  · rintro ⟨c, first, second⟩
    obtain ⟨q, denoted, rfl⟩ := Option.map_eq_some_iff.mp (content.symm.trans first)
    obtain ⟨b, number', denoted'⟩ := content?_number.mp second
    exact ⟨b, number', Exact.beq_iff.mpr ⟨q, denoted, denoted'⟩⟩
  · rintro ⟨b, number', equal⟩
    obtain ⟨q, denoted, denoted'⟩ := Exact.beq_iff.mp equal
    exact ⟨.number q, content?_number.mpr ⟨a, number, denoted⟩, content?_number.mpr ⟨b, number', denoted'⟩⟩

theorem agree_iff {c : Content} (content : content? h x = some c) : Agree h x y ↔ content? h y = some c := by
  constructor
  · rintro ⟨d, first, second⟩
    rwa [← content, first]
  · exact fun second => ⟨c, content, second⟩

theorem agree_range {i : Ident} {r : Span} :
    Agree h (.range i r) y ↔ ∃ j q, y = .range j q ∧ sameSpan r q = true := by
  rw [agree_iff rfl]
  cases y with
  | range j q =>
    simp only [content?, Option.some.injEq, ← spanContent_eq_iff]
    grind
  | _ => simp [content?, number?, spanContent]

theorem agree_day {i : Ident} {d : Day} : Agree h (.day i d) y ↔ ∃ j, y = .day j d := by
  rw [agree_iff rfl]
  unfold content? number?
  cases y <;> simp [spanContent]

theorem agree_moment {i : Ident} {m : Moment} : Agree h (.moment i m) y ↔ ∃ j, y = .moment j m := by
  rw [agree_iff rfl]
  unfold content? number?
  cases y <;> simp [spanContent]

theorem agree_regex {r : Regex} : Agree h (.regex r) y ↔ ∃ q, y = .regex q ∧ r.same q = true := by
  rw [agree_iff rfl]
  cases y with
  | regex q =>
    simp only [content?, Option.some.injEq, Content.pattern.injEq, Regex.same, Bool.and_eq_true, beq_iff_eq]
    grind
  | _ => simp [content?, number?, spanContent]

theorem agree_typeHint {n : String} :
    Agree h (.typeHint n) y ↔ ∃ m, y = .typeHint m ∧
      (if m == "int | str" then "Union[int, str]" else m) = if n == "int | str" then "Union[int, str]" else n := by
  rw [agree_iff rfl]
  unfold content? number?
  cases y <;> simp [spanContent]

/-- What a scalar says about another value: whether they have one content, if it has something to say. -/
def Says (h : Heap) (x y : Value) (o : Option Bool) : Prop :=
  (∀ eq, ownEqual? eq x y h = .ok (o.map .bool)) ∧ (o = some true ↔ Agree h x y)

theorem says_number {a : Exact} (number : x.number? = some a) : Says h x y (y.number?.map a.beq) := by
  constructor
  · intro eq
    cases x with
    | bool | int | float =>
      obtain rfl := Option.some.inj number
      unfold ownEqual?
      cases y.number? <;> rfl
    | _ => cases number
  · rw [agree_number number, Option.map_eq_some_iff]

theorem says_bytes {bs : List UInt8} (held : bytes? h x = some bs) : Says h x y ((bytes? h y).map (bs == ·)) := by
  constructor
  · intro eq
    cases x with
    | bytes | bytearray =>
      obtain rfl := Option.some.inj held
      refine (Look.bind_of_ok rfl).trans ?_
      cases bytes? h y <;> rfl
    | _ => cases held
  · rw [agree_iff (content?_bytes.mpr held), content?_bytes, Option.map_eq_some_iff]
    simp

theorem says_scalar (scalar : x.isScalar = true) (y : Value) (h : Heap) : ∃ o, Says h x y o := by
  cases x with
  | bool | int | float => exact ⟨_, says_number rfl⟩
  | bytes | bytearray => exact ⟨_, says_bytes rfl⟩
  | str kind id s =>
    refine ⟨y.text?.map (s == ·), fun eq => ?_, ?_⟩
    · rw [Option.map_map]
      rfl
    · rw [agree_iff rfl, content?_text, Option.map_eq_some_iff]
      simp
  | range id r =>
    cases y with
    | range id' q => exact ⟨some (sameSpan r q), fun eq => rfl, by simp [agree_range]⟩
    | _ => exact ⟨none, fun eq => rfl, by simp [agree_range]⟩
  | day id d =>
    cases y with
    | day id' d' => exact ⟨some (d == d'), fun eq => rfl, by simpa [agree_day] using eq_comm⟩
    | _ => exact ⟨none, fun eq => rfl, by simp [agree_day]⟩
  | moment id m =>
    cases y with
    | moment id' m' => exact ⟨some (m == m'), fun eq => rfl, by simpa [agree_moment] using eq_comm⟩
    | _ => exact ⟨none, fun eq => rfl, by simp [agree_moment]⟩
  | regex r =>
    cases y with
    | regex q => exact ⟨some (r.same q), fun eq => rfl, by simp [agree_regex]⟩
    | _ => exact ⟨none, fun eq => rfl, by simp [agree_regex]⟩
  | typeHint n =>
    cases y with
    | typeHint m =>
      refine ⟨some _, fun eq => rfl, ?_⟩
      simp only [agree_typeHint, Option.some.injEq, Bool.or_eq_true, Bool.and_eq_true, beq_iff_eq]
      grind
    | _ => exact ⟨none, fun eq => rfl, by simp [agree_typeHint]⟩
  | tuple | pair | frozenset | frozenMap | slice | success | failure | mismatch | descriptor | list | dict | set
  | checked | context => cases scalar
  | thing c i =>
    cases c with
    | coin | odd => cases scalar
    | _ => exact ⟨none, fun eq => rfl, by simp [Agree, content?]⟩
  | _ => exact ⟨none, fun eq => rfl, by simp [Agree, content?]⟩

end Content

/-- The one who is asked first and has something to say decides. -/
theorem askBoth_bool {ask : Value → Value → Look (Option Value)} {o o' : Option Bool} {d : Bool}
    (first : ask x y h = .ok (o.map .bool)) (second : ask y x h = .ok (o'.map .bool)) :
    ∃ b, askBoth ask x y (.bool d) h = .ok (.bool b) ∧ (o = some b ∨ o' = some b ∨ o = none ∧ o' = none ∧ b = d) := by
  unfold askBoth
  cases reflectedFirst x y with
  | false =>
    cases o with
    | some b => exact ⟨b, Look.bind_of_ok first, .inl rfl⟩
    | none =>
      refine ⟨o'.getD d, (Look.bind_of_ok first).trans ((Look.bind_of_ok second).trans ?_), ?_⟩
      · cases o' <;> rfl
      · cases o' <;> simp
  | true =>
    cases o' with
    | some b => exact ⟨b, Look.bind_of_ok second, .inr (.inl rfl)⟩
    | none =>
      refine ⟨o.getD d, (Look.bind_of_ok second).trans ((Look.bind_of_ok first).trans ?_), ?_⟩
      · cases o <;> rfl
      · cases o <;> simp

/-- Two scalars are found equal if they are identical or have one content. -/
theorem alike_scalar (hx : x.isScalar = true) (hy : y.isScalar = true) :
    ∃ r, alike (equalAt (n + 1)) x y h = .ok r ∧ (r = true ↔ x.same y = true ∨ Agree h x y) := by
  unfold alike
  split
  · next same => exact ⟨true, rfl, by simp [same]⟩
  · next differ =>
    obtain ⟨o, own, agree⟩ := says_scalar hx y h
    obtain ⟨o', own', agree'⟩ := says_scalar hy x h
    obtain ⟨b, answer, said⟩ := askBoth_bool (d := x.same y) (own (equalAt n)) (own' (equalAt n))
    refine ⟨b, Look.bind_of_ok answer, ?_⟩
    have both : Agree h y x ↔ Agree h x y := ⟨.symm, .symm⟩
    rw [both] at agree'
    obtain rfl | rfl | ⟨rfl, rfl, rfl⟩ := said
    · simpa [differ] using agree
    · simpa [differ] using agree'
    · simpa [differ] using agree

/-- Identical scalars have one content. -/
theorem content?_of_same (scalar : x.isScalar = true) (same : x.same y = true) : content? h x = content? h y := by
  fun_induction Value.same x y <;> simp_all [content?, number?, bytes?, Regex.same, isScalar]

section Hash

variable {p q : HashCode}

theorem hashAt_number {a : Exact} {k : Int} (number : x.number? = some a) (hashed : a.hash? = some k) :
    hashAt (n + 1) x h = .ok (.number k) := by
  have code (i : Ident) : hashNumber i a = .number k := by
    rw [hashNumber, hashed]
  cases x with
  | bool b =>
    obtain rfl := Option.some.inj number
    cases b <;> cases hashed <;> rfl
  | int kind i m =>
    obtain rfl := Option.some.inj number
    exact congrArg Except.ok (code i)
  | float i b =>
    obtain rfl := Option.some.inj number
    exact congrArg Except.ok (code i)
  | _ => cases number

theorem hashAt_bytes {bs : List UInt8} (held : bytes? h x = some bs) (run : hashAt (n + 1) x h = .ok p) :
    p = .codes (bs.map UInt8.toNat) := by
  cases x with
  | bytes i bs' =>
    obtain rfl := Option.some.inj held
    exact (Except.ok.inj run).symm
  | bytearray i => cases run
  | _ => cases held

theorem hashAt_identity (own : hashAt (n + 1) x h =
      (if x.classOf.isHashable then return identityCode x else Look.fail (.unhashable x.operandName) : Look HashCode) h)
    (run : hashAt (n + 1) x h = .ok p) : p = identityCode x := by
  rw [own] at run
  split at run
  · exact (Look.pure_eq_ok.mp run).symm
  · cases run

/-- Values with one content hash alike. -/
theorem hashAt_of_agree (agree : Agree h x y) (first : hashAt n x h = .ok p) (second : hashAt n y h = .ok q) :
    p = q := by
  cases n with
  | zero => cases first
  | succ n =>
    have numbers {a : Exact} (number : x.number? = some a) : p = q := by
      obtain ⟨b, number', equal⟩ := (agree_number number).mp agree
      obtain ⟨alike, some⟩ := Exact.hash?_of_beq equal
      obtain ⟨k, hashed⟩ := Option.isSome_iff_exists.mp some
      rw [hashAt_number number hashed] at first
      rw [hashAt_number number' (alike ▸ hashed)] at second
      exact Except.ok.inj (first.symm.trans second)
    cases x with
    | bool | int | float => exact numbers rfl
    | str kind i s =>
      have text := content?_text.mp ((agree_iff rfl).mp agree)
      cases y with
      | str =>
        obtain rfl := Option.some.inj text
        exact Except.ok.inj (first.symm.trans second)
      | _ => cases text
    | bytes | bytearray =>
      have held := content?_bytes.mp ((agree_iff rfl).mp agree)
      rw [hashAt_bytes rfl first, hashAt_bytes held second]
    | range i r =>
      obtain ⟨j, r', rfl, same⟩ := agree_range.mp agree
      simp only [hashAt, Look.pure_eq_ok] at first second
      simp only [sameSpan, Bool.and_eq_true, Bool.or_eq_true, beq_iff_eq] at same
      rw [← first, ← second, ← same.1]
      grind
    | day =>
      obtain ⟨j, rfl⟩ := agree_day.mp agree
      exact Except.ok.inj (first.symm.trans second)
    | moment =>
      obtain ⟨j, rfl⟩ := agree_moment.mp agree
      exact Except.ok.inj (first.symm.trans second)
    | regex r =>
      obtain ⟨r', rfl, same⟩ := agree_regex.mp agree
      simp only [Regex.same, Bool.and_eq_true, beq_iff_eq] at same
      rw [hashAt_identity rfl first, hashAt_identity rfl second, identityCode, identityCode, same.1.1, same.1.2, same.2]
    | typeHint m =>
      obtain ⟨m', rfl, same⟩ := agree_typeHint.mp agree
      rw [hashAt_identity rfl first, hashAt_identity rfl second, identityCode, identityCode, same]
    | _ =>
      obtain ⟨c, content, -⟩ := agree
      cases content

/-- What has no content, a NaN apart, hashes by what it is. -/
theorem hashAt_bare (scalar : x.isScalar = true) (content : content? h x = none) (double : ∀ i a, x ≠ .float i a)
    (run : hashAt (n + 1) x h = .ok p) : p = x.unitCode := by
  cases x with
  | float i a => exact absurd rfl (double i a)
  | bool | int => simp [content?, number?, Exact.ofInt, Exact.denoted?] at content
  | str | bytes | bytearray | range | day | moment | regex | typeHint => cases content
  | tuple | pair | frozenset | frozenMap | slice | success | failure | mismatch | descriptor | list | dict | set
  | checked | context => cases scalar
  | thing c i =>
    cases c with
    | coin | odd => cases scalar
    | _ => exact hashAt_identity rfl run
  | _ => exact hashAt_identity rfl run

theorem hashAt_of_same (hx : x.isScalar = true) (hy : y.isScalar = true) (same : x.same y = true)
    (first : hashAt n x h = .ok p) (second : hashAt n y h = .ok q) : p = q := by
  cases content : content? h x with
  | some c => exact hashAt_of_agree ⟨c, content, content?_of_same hx same ▸ content⟩ first second
  | none =>
    cases n with
    | zero => cases first
    | succ n =>
      by_cases double : ∃ i a, y = .float i a
      · -- A double is identical to itself only.
        obtain ⟨i, a, rfl⟩ := double
        obtain rfl : x = .float i a := by
          cases x <;> simp_all [Value.same]
        exact Except.ok.inj (first.symm.trans second)
      · have double' (i : Ident) (a : Binary64) : x ≠ .float i a := by
          rintro rfl
          have kind := ctorIdx_of_same same
          cases y with
          | float => exact double ⟨_, _, rfl⟩
          | _ => cases kind
        rw [hashAt_bare hx content double' first,
          hashAt_bare hy (content?_of_same hx same ▸ content) (by simpa using double) second, unitCode_of_same same]

end Hash

/-- Among scalars, equality gives one answer both ways, is transitive and respected by hashes. -/
theorem scalars_lawful (h : Heap) (n : Nat) : LawfulOn (·.isScalar = true) h n := by
  cases n with
  | zero => exact .zero _ h
  | succ n =>
    have found {x y : Value} (hx : x.isScalar = true) (hy : y.isScalar = true) :
        alike (equalAt (n + 1)) x y h = .ok true ↔ x.same y = true ∨ Agree h x y := by
      obtain ⟨r, run, found⟩ := alike_scalar (n := n) (h := h) hx hy
      rw [run, ← found]
      simp
    refine ⟨?_, ?_, ?_⟩
    · intro x y r hx hy run
      obtain ⟨r₁, run₁, found₁⟩ := alike_scalar (n := n) (h := h) hx hy
      obtain ⟨r₂, run₂, found₂⟩ := alike_scalar (n := n) (h := h) hy hx
      obtain rfl : r = r₁ := Except.ok.inj (run.symm.trans run₁)
      have both : Agree h x y ↔ Agree h y x := ⟨.symm, .symm⟩
      rw [same_comm, both, ← found₂, Bool.coe_iff_coe] at found₁
      rw [run₂, found₁]
    · intro x y z hx hy hz first second
      rw [found hx hz]
      obtain same | agree := (found hx hy).mp first
      · obtain same' | agree' := (found hy hz).mp second
        · exact .inl (same_trans same same')
        · obtain ⟨c, hc, hc'⟩ := agree'
          exact .inr ⟨c, (content?_of_same hx same).trans hc, hc'⟩
      · obtain same' | agree' := (found hy hz).mp second
        · obtain ⟨c, hc, hc'⟩ := agree
          exact .inr ⟨c, hc, (content?_of_same hy same').symm.trans hc'⟩
        · exact .inr (agree.trans agree')
    · intro x y p q hx hy equal first second
      obtain same | agree := (found hx hy).mp equal
      · exact hashAt_of_same hx hy same first second
      · exact hashAt_of_agree agree first second

end Value

end Conform
