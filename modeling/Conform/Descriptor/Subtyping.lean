import Conform.Descriptor.Matching

/-!
When one descriptor is a subtype of another. Variants are compared with the same variant only, besides
the bottom and the top; what cannot be shown by these rules counts as no.
-/
namespace Conform.Descriptor

/-- Whether every one of the first descriptors has one of the second above it. -/
def eachBelowSome (e : Engine) (mine theirs : List Descriptor) : Act Bool :=
  mine.allM fun m => theirs.anyM fun t => e.subtype m t

/-- Whether every one of the second descriptors has one of the first below it. -/
def someBelowEach (e : Engine) (mine theirs : List Descriptor) : Act Bool :=
  theirs.allM fun t => mine.anyM fun m => e.subtype m t

/-- Whether descriptors are below each other one by one. -/
def pairwiseBelow (e : Engine) : List Descriptor → List Descriptor → Act Bool
  | a :: as, b :: bs => do
    if ← e.subtype a b then pairwiseBelow e as bs else return false
  | _, _ => return true

/-- The entry of a name. The last one counts if there are several. -/
def named? (fields : List (String × Descriptor)) (name : String) : Option (String × Descriptor) :=
  fields.reverse.find? (·.1 == name)

/-- Whether every name that the second side asks for is asked for by the first, at least as strictly. -/
def namedBelow (e : Engine) (mine : List (String × Descriptor)) : List (String × Descriptor) → Act Bool
  | [] => return true
  | (name, expected) :: rest => do
    match named? mine name with
    | none => return false
    | some entry => if ← e.subtype entry.2 expected then namedBelow e mine rest else return false

/-- The rules for two descriptors of one variant. -/
def sameVariantBelow (e : Engine) (a b : Descriptor) : Act Bool := do
  match a, b with
  | .union _ mine, .union _ theirs => eachBelowSome e mine theirs
  | .intersection _ mine, .intersection _ theirs => someBelowEach e mine theirs
  | .negation _ mine, .negation _ theirs => e.subtype theirs mine
  | .nilable _ mine, .nilable _ theirs => e.subtype mine theirs
  | .constraint _ bases predicates, .constraint _ bases' predicates' =>
    if ← someBelowEach e bases bases' then namedBelow e predicates predicates' else return false
  | .rangeOf _ mine, .rangeOf _ theirs => e.subtype mine theirs
  | .tupleOf _ mine, .tupleOf _ theirs =>
    if mine.length == theirs.length then pairwiseBelow e mine theirs else return false
  | .shape _ mine, .shape _ theirs => namedBelow e mine theirs
  | .collection _ kind mine, .collection _ kind' theirs =>
    if kind' == .enumerable || kind == kind' then e.subtype mine theirs else return false
  | .mappingOf _ key value, .mappingOf _ key' value' =>
    if ← e.subtype key key' then e.subtype value value' else return false
  | .instanceOf _ c, .instanceOf _ c' => Nominal.isSubclass (.cls c) c'
  | .classOf _ c, .classOf _ c' => Nominal.isSubclass (.cls c) c'
  | .descendantOf _ c, .classOf _ c' => Nominal.isSubclass (.cls c) c'
  | .descendantOf _ c, .descendantOf _ c' => Nominal.isSubclass (.cls c) c'
  | .interface _ mine, .interface _ theirs => return theirs.all mine.contains
  | .checkedListOf _ mine, .checkedListOf _ theirs => e.subtype mine theirs
  | _, _ => return false

/-- The right-hand side with one deferred layer taken off. -/
def uncover (e : Engine) (d : Descriptor) : Act Descriptor :=
  match d with
  | .deferred id thunk => resolve e id thunk
  | _ => return d

/-- One step of subtyping. -/
def subtypeStep (e : Engine) (a b : Descriptor) : Act Bool := do
  match a with
  | .never => return true
  | .deferred id thunk =>
    if b.same a then return true
    e.subtype (← resolve e id thunk) b
  | _ =>
    let b ← uncover e b
    if b.same a then return true
    if ← (← Value.equal (.descriptor b) (.descriptor a)).truth then return true
    match b with
    | .void => return true
    | _ => sameVariantBelow e a b

end Conform.Descriptor
