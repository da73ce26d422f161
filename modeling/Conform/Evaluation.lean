import Conform.Construction

/-!
What an expression evaluates to. Parts are evaluated from left to right; every evaluation of an
expression that builds something builds a new thing.
-/
namespace Conform

/-- Puts an attribute in place, keeping the position of one that is there. -/
def putAttribute (name : String) (v : Value) : List (String × Value) → List (String × Value)
  | [] => [(name, v)]
  | (n, w) :: rest => if n == name then (n, v) :: rest else (n, w) :: putAttribute name v rest

/-- The value that a name is bound to. -/
def lookupName (name : String) : Act Value := do
  match (← get).names.find? (·.1 == name) with
  | some entry => return entry.2
  | none => Act.fail (.keyMissing (Text.quoted name))

/-- Binds a name. -/
def bindName (name : String) (v : Value) : Act Unit :=
  modify fun s => { s with names := putAttribute name v s.names }

namespace Expr

mutual

def evaluate (e : Engine) : Expr → Act Value
  | .nil => return .nil
  | .ellipsis => return .ellipsis
  | .notImplemented => return .notImplemented
  | .bool b => return .bool b
  | .int kind n => do return .int kind (← Act.fresh) n
  | .float x => Act.newFloat x
  | .str kind s => do return .str kind (← Act.fresh) s
  | .bytes bs => do return .bytes (← Act.fresh) bs
  | .bytearray bs => Act.newBuffer bs
  | .list kind items => do Act.newListOf kind (← evaluateAll e items)
  | .tuple items => do Act.newTuple (← evaluateAll e items)
  | .pair left right => do
    let l ← evaluate e left
    let r ← evaluate e right
    return .pair (← Act.fresh) l r
  | .set items => do Act.newSet (← Factory.distinct (← evaluateAll e items))
  | .frozenset items => do
    let members ← Factory.distinct (← evaluateAll e items)
    return .frozenset (← Act.fresh) members
  | .dict kind entries => do Act.newDict kind (← evaluateEntries e entries [])
  | .frozenMap entries => do
    let known ← evaluateEntries e entries []
    return .frozenMap (← Act.fresh) known
  | .iter items => do Act.newIter (← evaluateAll e items)
  | .range bounds => do
    let span ← Construction.toSpan (← evaluateAll e bounds)
    return .range (← Act.fresh) span
  | .slice bounds => do Construction.toSlice (← evaluateAll e bounds)
  | .day d => do return .day (← Act.fresh) d
  | .moment m => do return .moment (← Act.fresh) m
  | .regex source binary ignoreCase => do
    return .regex (← Factory.compile source binary ignoreCase)
  | .cls c => return .cls c
  | .typeHint name => return if name == "Any" then .cls .anything else .typeHint name
  | .fn f => return .fn f
  | .thunk label body => do return .thunk (← Act.fresh) label body
  | .thing c attributes => do
    let known ← evaluateNamed e attributes []
    if c.mro.contains .thing || c == .mixin then Act.newThing c known
    else return .other (← Act.fresh) c
  | .exception c args => do Construction.construct e c (← evaluateAll e args) []
  | .success value => do
    let v ← evaluate e value
    return .success (← Act.fresh) v
  | .failure error => do
    let v ← evaluate e error
    return .failure (← Act.fresh) v
  | .checked c values element frozen => do
    let vs ← evaluate e values
    let t ← evaluate e element
    let l ← CheckedList.construct e c vs t
    match l, frozen with
    | .checked c i, true => CheckedList.Op.freeze.run e ⟨c, i⟩
    | _, _ => return l
  | .constant name =>
    match Factory.constant? name with
    | some d => return .descriptor d
    | none => Act.fail (.noSuchName name)
  | .factory name args keywords => do
    let positional ← evaluateAll e args
    let named ← evaluateNamed e keywords []
    return .descriptor (← Factory.build name positional named)
  | .ref name => lookupName name

def evaluateAll (e : Engine) : List Expr → Act (List Value)
  | [] => return []
  | x :: rest => do
    let v ← evaluate e x
    return v :: (← evaluateAll e rest)

/-- The entries of a mapping; a key that comes again keeps its place and takes the later value. -/
def evaluateEntries (e : Engine) : List (Expr × Expr) → List (Value × Value) → Act (List (Value × Value))
  | [], known => return known
  | (key, value) :: rest, known => do
    let k ← evaluate e key
    let v ← evaluate e value
    let _ ← k.hash
    evaluateEntries e rest (← Operator.putEntry k v known)

/-- Named values; a name that comes again keeps its place and takes the later value. -/
def evaluateNamed (e : Engine) : List (String × Expr) → Keywords → Act Keywords
  | [], known => return known
  | (name, value) :: rest, known => do
    let v ← evaluate e value
    evaluateNamed e rest (putAttribute name v known)

end

end Expr

end Conform
