import Conform.Value.Equality

/-!
Hashing. The hash of a value is a code in which equal values agree: numbers are reduced alike whatever
their kind, a descriptor counts as the tuple of its parts, and objects count by identity. Values that
can change have none.
-/
namespace Conform

/-- A prefix code: a tag, a length where there is one, and the contents. -/
abbrev HashCode := List Int

namespace HashCode

def number (n : Int) : HashCode := [0, n]

/-- Texts and bytes with the same codes hash alike, and the empty ones as zero. -/
def codes (cs : List Nat) : HashCode :=
  if cs.isEmpty then number 0 else 1 :: (cs.length : Int) :: cs.map Int.ofNat

def tuple (items : List HashCode) : HashCode :=
  2 :: (items.length : Int) :: items.flatten

/-- The order of the members does not matter. -/
def members (items : List HashCode) : HashCode :=
  let sorted := items.mergeSort fun a b => !(compare b a == .lt)
  3 :: (items.length : Int) :: sorted.flatten

/-- The identity of an object of a given sort. -/
def token (sort : Int) (id : Nat) : HashCode := [4, sort, id]

/-- A name that stands for one object. -/
def named (sort : Int) (name : String) : HashCode :=
  [5, sort, (name.length : Int)] ++ name.toList.map fun c => (c.toNat : Int)

end HashCode

namespace Value

def hashNumber (id : Ident) (x : Exact) : HashCode :=
  match x.hash? with
  | some n => .number n
  | none => .token 0 id

def hashText (s : String) : HashCode :=
  .codes (s.toList.map Char.toNat)

/-- Identity as a hash, for values that are hashed by what they are. -/
def identityCode : Value → HashCode
  | .cls c => .named 1 c.qualifiedName
  | .fn f => .named (if f.traced then 2 else 3) (if f.bare then f.name ++ "!" else f.name)
  | .typeHint n => .named 4 (if n == "int | str" then "Union[int, str]" else n)
  | .regex r => .named (if r.binary then 5 else if r.flags.ignoreCase then 8 else 6) r.source
  | .nil => .token 1 0
  | .ellipsis => .token 2 0
  | .notImplemented => .token 3 0
  | .missing => .token 4 0
  | .thunk id .. => .token 5 id
  | .patternTest id .. => .token 6 id
  | .exception id .. => .token 7 id
  | .mismatchError id .. => .token 8 id
  | .outcomeError id .. => .token 9 id
  | .keys id _ => .token 10 id
  | .other id _ => .token 11 id
  | .iter i => .token 12 i
  | .thing _ i => .token 13 i
  | .list _ i => .token 14 i
  | .dict _ i => .token 15 i
  | .set i => .token 16 i
  | .bytearray i => .token 17 i
  | .checked _ i => .token 18 i
  | .context i => .token 19 i
  | .str _ id _ => .token 20 id
  | .int _ id _ => .token 21 id
  | .float id _ => .token 22 id
  | .bool b => .token 23 (if b then 1 else 0)
  | .bytes id _ => .token 24 id
  | .tuple id _ => .token 25 id
  | .pair id _ _ => .token 26 id
  | .frozenset id _ => .token 27 id
  | .frozenMap id _ => .token 28 id
  | .range id _ => .token 29 id
  | .slice id .. => .token 30 id
  | .day id _ => .token 31 id
  | .moment id _ => .token 32 id
  | .success id _ => .token 33 id
  | .failure id _ => .token 34 id
  | .mismatch id .. => .token 35 id
  | .descriptor d => .token 36 (d.ident?.getD 0)
  | .method _ name _ => .named 7 name

/-- A unit hashes by the very object that it holds: what exists once by its value. -/
def unitCode (v : Value) : HashCode :=
  match v with
  | .int .base _ n => if isShared n then .number n else identityCode v
  | .str .base _ s => if isSharedText s then hashText s else identityCode v
  | .bytes _ [] => .token 38 0
  | .bytes _ [b] => .token 39 b.toNat
  | .tuple _ [] => .token 40 0
  | .descriptor d =>
    match d.ident? with
    | some id => .token 36 id
    | none => .named 8 d.variant.name
  | _ => identityCode v

def hashPart (hash : Value → Look HashCode) : Descriptor.Part → Look HashCode
  | .value v => hash v
  | .child d => hash (.descriptor d)
  | .children ds => do return .tuple (← ds.mapM fun d => hash (.descriptor d))
  | .named fields => do
    return .tuple (← fields.mapM fun (n, d) => do
      return .tuple [hashText n, ← hash (.descriptor d)])
  | .names ns => return .members (ns.map hashText)

def hashAt : Nat → Value → Look HashCode
  | 0, _ => throw .exhausted
  | fuel + 1, v =>
    match v with
    | .bool b => return .number (if b then 1 else 0)
    | .int _ id n => return hashNumber id (.ofInt n)
    | .float id x => return hashNumber id x.exact
    | .str _ _ s => return hashText s
    | .bytes _ bs => return .codes (bs.map UInt8.toNat)
    | .tuple _ items => do return .tuple (← items.mapM (hashAt fuel))
    | .pair _ l r => do return .tuple [← hashAt fuel l, ← hashAt fuel r]
    | .frozenset _ items => do return .members (← items.mapM (hashAt fuel))
    | .range _ r =>
      let absent := identityCode .nil
      return .tuple [.number r.length, if r.length == 0 then absent else .number r.start,
        if r.length ≤ 1 then absent else .number r.step]
    | .day _ d => return 6 :: d.numbers.map Int.ofNat
    | .moment _ m => return 7 :: m.numbers.map Int.ofNat
    | .success _ w => do return .tuple [← hashAt fuel w]
    | .failure _ w => do return .tuple [← hashAt fuel w]
    | .mismatch _ e r w m => do return .tuple (← [e, r, w, m].mapM (hashAt fuel))
    | .thing .coin i => do hashAt fuel (← needAttribute .coin i "value")
    | .descriptor (.unit _ obj) => return .tuple [.named 10 "unit", unitCode obj]
    | .descriptor (.deferred id _) => return .token 37 id
    | .descriptor d => do return .tuple (← d.parts.mapM (hashPart (hashAt fuel)))
    | _ => if v.classOf.isHashable then return identityCode v
        else Look.fail (.unhashable v.operandName)

/-- The hash of a value. -/
def hash (v : Value) : Look HashCode :=
  hashAt valueDepth v

end Value

end Conform
