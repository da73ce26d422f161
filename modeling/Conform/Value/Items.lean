import Conform.Value.Hash

/-!
Walking through the items of a value, and membership.
-/
namespace Conform.Value

/-- The items of a value that can be walked through. Walking through a one-shot iterator uses it up. -/
def itemsAt : Nat → Value → Act (List Value)
  | 0, _ => throw .exhausted
  | fuel + 1, v => do
    let h ← Act.getHeap
    match v with
    | .list _ i => return h.list i
    | .tuple _ items => return items
    | .pair _ l r => return [l, r]
    | .dict _ i => return (h.dict i).map (·.1)
    | .frozenMap _ entries => return entries.map (·.1)
    | .set i => return h.set i
    | .frozenset _ items => return items
    | .str _ _ s => s.toList.mapM fun c => Act.newStr c.toString
    | .bytes _ bs => bs.mapM fun b => Act.newInt b.toNat
    | .bytearray i => (h.buffer i).mapM fun b => Act.newInt b.toNat
    | .range _ r => r.toList.mapM Act.newInt
    | .iter i =>
      Act.setIter i []
      return h.iter i
    | .checked _ i => return (h.checkedList i).items
    | .keys _ owner =>
      match entries? h owner with
      | some entries => return entries.map (·.1)
      | none => Act.fail (.notIterable v.operandName)
    | .thing .bag i => itemsAt fuel (← needAttribute .bag i "items")
    | .thing .onlyIter i => itemsAt fuel (← needAttribute .onlyIter i "items")
    | _ => Act.fail (.notIterable v.operandName)

def items (v : Value) : Act (List Value) :=
  itemsAt valueDepth v

/-- An integer that exists only while it is looked at. -/
def passingInt (n : Int) : Value :=
  .int .base 0 n

/-- A letter that exists only while it is looked at. -/
def passingLetter (c : Char) : Value :=
  .str .base 0 c.toString

/-- Whether the integers of a progression pass a test, asked in order from a position on. -/
def allFrom (r : Span) (p : Int → Act Bool) : Nat → Nat → Act Bool
  | 0, _ => return true
  | n + 1, i => do
    if ← p (r.get i) then allFrom r p n (i + 1) else return false

/-- Draws items from a one-shot iterator while they pass a test. What stands behind the first that fails
stays there. -/
def drawWhile (p : Value → Act Bool) (at_ : Handle) : Nat → Act Bool
  | 0 => return true
  | n + 1 => do
    match (← Act.getHeap).iter at_ with
    | [] => return true
    | v :: rest =>
      Act.setIter at_ rest
      if ← p v then drawWhile p at_ n else return false

/-- Whether all items pass a test. Walking stops at the first that fails. -/
def allItemsAt (p : Value → Act Bool) : Nat → Value → Act Bool
  | 0, _ => throw .exhausted
  | fuel + 1, v => do
    match v with
    | .range _ r => allFrom r (fun n => p (passingInt n)) r.length 0
    | .str _ _ s => s.toList.allM fun c => p (passingLetter c)
    | .bytes _ bs => bs.allM fun b => p (passingInt b.toNat)
    | .bytearray i => ((← Act.getHeap).buffer i).allM fun b => p (passingInt b.toNat)
    | .iter i => drawWhile p i ((← Act.getHeap).iter i).length
    | .thing .bag i => allItemsAt p fuel (← needAttribute .bag i "items")
    | .thing .onlyIter i => allItemsAt p fuel (← needAttribute .onlyIter i "items")
    | _ => (← itemsAt fuel v).allM p

def allItems (p : Value → Act Bool) (v : Value) : Act Bool :=
  allItemsAt p valueDepth v

/-- Whether a value is a text or bytes, which count as whole. -/
def isText : Value → Bool
  | .str .. | .bytes .. | .bytearray _ => true
  | _ => false

/-- Whether a value maps keys to values. -/
def isMapping : Value → Bool
  | .dict .. | .frozenMap .. => true
  | _ => false

/-- Whether one list of codes occurs in another. -/
def occursIn {α : Type} [BEq α] (part : List α) : List α → Bool
  | [] => part.isEmpty
  | c :: cs => part.isPrefixOf (c :: cs) || occursIn part cs

/-- Whether an integer, or anything equal to one, is in a progression. Numbers are decided by
arithmetic; an object that answers for itself is asked about the first integer. -/
def inSpan (r : Span) (v : Value) : Look Bool := do
  match v with
  | .bool _ | .int .. => return v.int?.any r.contains
  | .float _ x => return (x.exact.isIntegral && (x.exact.truncate?).any r.contains)
  | .thing .odd i =>
    if r.length == 0 then return false
    match ← needAttribute .odd i "answer" with
    | .notImplemented => return false
    | answer => truth answer
  | _ => return false

/-- Whether a byte or a stretch of bytes is in a byte sequence. -/
def inBytes (bs : List UInt8) (v : Value) : Look Bool := do
  match bytes? (← read) v, v.int? with
  | some part, _ => return occursIn part bs
  | none, some n =>
    if n < 0 || 255 < n then Look.fail .byteRange
    return bs.contains n.toNat.toUInt8
  | none, none => Look.fail (.notBytesLike v.operandName)

/-- Refuses what cannot be a member of a set. A set that can change stands for its contents. -/
def needMember (v : Value) : Look Unit := do
  match v with
  | .set _ => return ()
  | _ =>
    let _ ← v.hash

/-- Whether a value is in a container. -/
def containsAt : Nat → Value → Value → Act Bool
  | 0, _, _ => throw .exhausted
  | fuel + 1, container, v => do
    let h ← Act.getHeap
    match container with
    | .list _ i => memberOf isAlike v (h.list i)
    | .tuple .. | .pair .. => memberOf isAlike v (container.tuple?.getD [])
    | .checked _ i => memberOf isAlike v (h.checkedList i).items
    | .set i =>
      needMember v
      memberOf isAlike v (h.set i)
    | .bytes _ bs => inBytes bs v
    | .bytearray i => inBytes (h.buffer i) v
    | .frozenset _ members =>
      needMember v
      memberOf isAlike v members
    | .dict _ i =>
      let _ ← v.hash
      memberOf isAlike v ((h.dict i).map (·.1))
    | .frozenMap _ entries =>
      let _ ← v.hash
      memberOf isAlike v (entries.map (·.1))
    | .keys _ owner => containsAt fuel owner v
    | .range _ r => inSpan r v
    | .str _ _ s =>
      match v.text? with
      | some t => return occursIn t.toList s.toList
      | none => Act.fail (.notSubstring v.operandName)
    | .thing .bag i => containsAt fuel (← needAttribute .bag i "items") v
    | .thing .onlyIter _ | .iter _ =>
      return !(← allItems (fun item => do return !(← isAlike item v)) container)
    | _ => Act.fail (.notContainer container.operandName)

def contains (container v : Value) : Act Bool :=
  containsAt valueDepth container v

/-- The integer that an index denotes. -/
def index? : Value → Option Int := int?

/-- A text key of a mapping. -/
def entryNamed? (entries : List (Value × Value)) (name : String) : Option Value :=
  (entries.find? fun (k, _) => k.text? == some name).map (·.2)

end Conform.Value
