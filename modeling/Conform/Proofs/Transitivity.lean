import Conform.Proofs.Subsumption

/-!
Subtyping is transitive. Each of the three comparisons may be made at another moment of the history and
to another depth, and what is deferred may be resolved in any of them. Main statement: `subtype_trans`.
-/
namespace Conform

namespace InPlay

variable {functions : Library} {D E : Descriptor → Prop} {ω : Session} {a b c : Descriptor}
  {n m k : Nat} {r : Bool}

/-- If one descriptor is found a subtype of a second and the second of a third, then the first, compared
with the third, is found its subtype as soon as the comparison comes to an answer. -/
theorem subtype_trans (play : InPlay D E ω) (resolving : Resolving functions D) (ha : E a) (hb : E b)
    (hc : E c) (hab : Judged functions D ω n a b true) (hbc : Judged functions D ω m b c true)
    (hac : Judged functions D ω k a c r) : r = true := by
  have first := play.below_of_judged resolving ha hb hab
  have second := play.below_of_judged resolving hb hc hbc
  have whole := BelowIn.trans play.order ha hb hc first second
  cases r with
  | true => rfl
  | false => exact absurd whole (play.not_below_of_judged resolving ha hc hac)

section Nested

open Lawful

/-- Lists of the cases, where `nestedLists` has the deferred descriptor that stands for them. -/
abbrev caseLists : Descriptor := .collection 6 .array nestedCases

inductive ChainFamily : Descriptor → Prop
  | nested {d} (h : NestedFamily d) : ChainFamily d
  | lists : ChainFamily caseLists

theorem chain_children {d : Descriptor} (hd : ChainFamily d) : ∀ c ∈ d.children, ChainFamily c := by
  intro c hc
  cases hd with
  | nested hd => exact .nested (nested_tame.children hd c hc)
  | lists =>
    obtain rfl : c = nestedCases := by simpa [Descriptor.children] using hc
    exact .nested .cases

theorem chain_resolving : Resolving nestedLibrary ChainFamily where
  children := chain_children
  thunks := by
    rintro id thunk ⟨⟨⟩⟩ n
    cases n with
    | zero => exact .throw _
    | succ n => exact .pure nestedCases
  targets := by
    rintro id thunk ⟨⟨⟩⟩ n s d t sound run
    cases n with
    | zero => cases run
    | succ n =>
      cases run
      exact ⟨.nested .cases, nested_live .cases⟩

theorem chain_live {d : Descriptor} {h : Heap} (hd : ChainFamily d) : d.Live h := by
  cases hd with
  | nested hd => exact nested_live hd
  | lists => simp [Descriptor.Live, Value.Live]

/-- What is sound for the nested lists is sound with the lists of cases as well. -/
theorem chain_sound {s : Session} (sound : s.Sound NestedFamily) : s.Sound ChainFamily where
  closed := sound.closed
  ancestors := sound.ancestors
  resolved := by
    rintro id thunk d ⟨hd⟩ hr
    obtain ⟨member, live⟩ := sound.resolved id thunk d hd hr
    exact ⟨.nested member, live⟩
  elements i := .nested (sound.elements i)

theorem chain_payload {x : Value} (hx : Payload ChainFamily x) : Payload NestedFamily x := by
  obtain ⟨d, hd, hx⟩ := hx
  cases hd with
  | nested hd => exact ⟨d, hd, hx⟩
  | lists => simp [Descriptor.parts] at hx

theorem chain_names {c : Class} (hc : Names ChainFamily c) : Names NestedFamily c := by
  obtain ⟨id, ⟨⟨hc⟩⟩ | ⟨⟨hc⟩⟩ | ⟨⟨hc⟩⟩⟩ := hc
  · exact ⟨id, .inl hc⟩
  · exact ⟨id, .inr (.inl hc)⟩
  · exact ⟨id, .inr (.inr hc)⟩

theorem chain_inPlay : InPlay ChainFamily ChainFamily nestedEnd where
  sound := chain_sound nested_ends
  tame := id
  live := chain_live
  elements i := .nested (nested_ends.elements i)
  identity := by
    rintro a b (⟨_ | _ | _ | _ | _ | _⟩ | _) (⟨_ | _ | _ | _ | _ | _⟩ | _) same <;>
      first | rfl | cases same
  order := {
    children := chain_children
    resolved := by
      rintro id thunk d ⟨hd⟩ hr
      exact .nested (nested_lawful.order.resolved hd hr)
    alike_symm := fun hx hy => nested_lawful.order.alike_symm (chain_payload hx) (chain_payload hy)
    alike_trans := fun hx hy hz =>
      nested_lawful.order.alike_trans (chain_payload hx) (chain_payload hy) (chain_payload hz)
    same_symm := by rintro _ _ _ _ ⟨⟨⟩⟩
    same_trans := by rintro _ _ _ _ _ _ ⟨⟨⟩⟩
    under_trans := fun hb hc hd =>
      nested_lawful.order.under_trans (chain_names hb) (chain_names hc) (chain_names hd) }

theorem caseLists_below : Judged nestedLibrary ChainFamily nestedEnd 3 caseLists nestedLists true :=
  ⟨nestedStart, { nestedStart with resolved := [(1, nestedCases)] }, chain_sound nested_starts,
    by simp [Value.Live, Descriptor.Live], rfl, .refl _, fun _ _ h => h⟩

theorem nestedLists_below :
    Judged nestedLibrary ChainFamily nestedEnd 3 nestedLists nestedCollections true :=
  ⟨nestedStart, nestedStart, chain_sound nested_starts,
    by simp [Value.Live, Descriptor.Live], rfl, nested_before⟩

/-- Lists of the cases are lists of nested lists, and these are collections of nested lists. -/
theorem caseLists_below_collections :
    Judged nestedLibrary ChainFamily nestedEnd 3 caseLists nestedLists true ∧
      Judged nestedLibrary ChainFamily nestedEnd 3 nestedLists nestedCollections true ∧
      ∀ k r, Judged nestedLibrary ChainFamily nestedEnd k caseLists nestedCollections r → r = true :=
  ⟨caseLists_below, nestedLists_below, fun _ _ =>
    subtype_trans chain_inPlay chain_resolving .lists (.nested .lists) (.nested .collections)
      caseLists_below nestedLists_below⟩

end Nested

end InPlay

end Conform
