import Conform.CheckedList.Operation
import Conform.Operator

/-!
Subscripts: reading, assigning and deleting the item or slice that an index or key denotes.
-/
namespace Conform.Subscript

/-- A slice or an item of a list of things, each wrapped as a value of the right kind. -/
def pick {α : Type} (kind : String) (xs : List α) (subscript : Value) (one : α → Act Value)
    (many : List α → Act Value) : Act Value := do
  match subscript with
  | .slice _ start stop step => many ((← Value.asSlice xs.length start stop step).read xs)
  | _ => one (← Value.itemAt kind xs subscript)

/-- A byte or a stretch of bytes. -/
def pickBytes (kind : String) (outOfRange : Cause) (bs : List UInt8) (subscript : Value)
    (many : List UInt8 → Act Value) : Act Value := do
  match subscript with
  | .slice _ start stop step => many ((← Value.asSlice bs.length start stop step).read bs)
  | _ =>
    match Sequence.get? bs (← Value.asSubscript kind subscript) with
    | some b => Act.newInt b.toNat
    | none => Act.fail outOfRange

/-- A part of an arithmetic progression, which is one again. -/
def pickSpan (r : Span) (subscript : Value) : Act Value := do
  match subscript with
  | .slice _ start stop step =>
    let s ← Value.asSlice r.length start stop step
    return .range (← Act.fresh) ⟨r.start + r.step * s.start, r.start + r.step * s.stop, r.step * s.step⟩
  | _ =>
    match subscript.int? with
    | none => Act.fail (.badIndex "range" subscript.operandName)
    | some n =>
      match Sequence.position? r.length n with
      | some i => Act.newInt (r.get i)
      | none => Act.fail (.outOfRange "range object")

/-- The entry of a mapping. -/
def pickEntry (entries : List (Value × Value)) (key : Value) : Act Value := do
  let _ ← key.hash
  match ← Value.entryAt Value.isAlike key entries with
  | some v => return v
  | none =>
    let shown ← key.shown
    Act.fail (.keyMissing shown)

def get (e : Engine) (v subscript : Value) : Act Value := do
  let h ← Act.getHeap
  match v with
  | .checked c i => (CheckedList.Op.getItem subscript).run e ⟨c, i⟩
  | .list _ i => pick "list" (h.list i) subscript pure Act.newList
  | .tuple .. | .pair .. => pick "tuple" (v.tuple?.getD []) subscript pure Act.newTuple
  | .str _ _ s =>
    pick "string" s.toList subscript (fun c => Act.newStr c.toString) (fun cs => Act.newStr (String.ofList cs))
  | .bytes _ bs =>
    pickBytes "byte" .byteOutOfRange bs subscript fun part => do return .bytes (← Act.fresh) part
  | .bytearray i =>
    pickBytes "bytearray" (.outOfRange "bytearray") (h.buffer i) subscript Act.newBuffer
  | .range _ r => pickSpan r subscript
  | .dict _ i => pickEntry (h.dict i) subscript
  | .frozenMap _ entries => pickEntry entries subscript
  | .cls c => Act.fail (.classNotSubscriptable c.name)
  | _ => Act.fail (.notSubscriptable v.operandName)

/-- The items that are assigned to a slice. -/
def incoming (step v : Value) : Act (List Value) :=
  Act.handle .typeError v.items fun _ =>
    Act.fail (if step.same .nil || step.int? == some 1 then .assignNonIterable else .assignNonIterableSlice)

def set (e : Engine) (v subscript value : Value) : Act Unit := do
  let h ← Act.getHeap
  match v with
  | .checked c i =>
    let _ ← (CheckedList.Op.setItem subscript value).run e ⟨c, i⟩
  | .list _ i =>
    match subscript with
    | .slice _ start stop step =>
      let _ ← Value.asSlice (h.list i).length start stop step
      Act.setList i (← Value.assignedSlice (h.list i) start stop step (← incoming step value))
    | _ => Act.setList i (← Value.assignedAt (h.list i) subscript value)
  | .dict _ i =>
    let _ ← subscript.hash
    Act.setDict i (← Operator.putEntry subscript value (h.dict i))
  | _ => Act.fail (.noItemAssignment v.operandName)

/-- Whether a value counts as a sequence when an item is deleted by number. -/
def hasPlaces : Value → Bool
  | .nil | .ellipsis | .notImplemented | .bool _ | .int .. | .float .. | .slice .. | .day .. | .moment ..
  | .regex _ | .cls _ => false
  | _ => true

def delete (e : Engine) (v subscript : Value) : Act Unit := do
  let h ← Act.getHeap
  match v with
  | .checked c i =>
    let _ ← (CheckedList.Op.deleteItem subscript).run e ⟨c, i⟩
  | .list _ i => Act.setList i (← Value.deletedAt (h.list i) subscript)
  | .dict _ i =>
    let _ ← pickEntry (h.dict i) subscript
    let kept ← (h.dict i).filterM fun (k, _) => do return !(← Value.isAlike k subscript)
    Act.setDict i kept
  | _ =>
    if hasPlaces v && subscript.int?.isSome then Act.fail (.noIndexDeletion v.operandName)
    Act.fail (.noItemDeletion v.operandName)

end Conform.Subscript
