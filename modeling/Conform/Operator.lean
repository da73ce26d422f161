import Conform.CheckedList.Operation

/-!
Operators on values: arithmetic on numbers, joining and repeating of sequences, the algebra of sets and
mappings. A checked list as the left operand answers for itself.
-/
namespace Conform

inductive Operator where
  | add
  | sub
  | mul
  | and
  | or
  deriving DecidableEq

namespace Operator

def symbol : Operator → String
  | .add => "+"
  | .sub => "-"
  | .mul => "*"
  | .and => "&"
  | .or => "|"

/-- The floating-point number behind a number. -/
def float? : Value → Act (Option Binary64)
  | .float _ x => return some x
  | v =>
    match v.int? with
    | none => return none
    | some n =>
      match Binary64.ofInt? n with
      | some x => return some x
      | none => Act.fail .hugeToFloat

/-- A logical operation on the two's complement digits. -/
def bitwise (f : Bool → Bool → Bool) (m n : Int) : Int :=
  let width := (max m.natAbs n.natAbs).log2 + 2
  let bit (k : Int) (i : Nat) : Bool := (k >>> i) % 2 == 1
  let digits := (List.range width).map fun i => if f (bit m i) (bit n i) then (1 : Int) <<< i else 0
  let total := digits.foldl (· + ·) 0
  if f (m < 0) (n < 0) then total - (1 : Int) <<< width else total

/-- Arithmetic on integers; booleans stay booleans under the logical operators. -/
def onInts (o : Operator) (a b : Value) (m n : Int) : Act Value :=
  match o, a, b with
  | .and, .bool p, .bool q => return .bool (p && q)
  | .or, .bool p, .bool q => return .bool (p || q)
  | .add, _, _ => Act.newInt (m + n)
  | .sub, _, _ => Act.newInt (m - n)
  | .mul, _, _ => Act.newInt (m * n)
  | .and, _, _ => Act.newInt (bitwise (· && ·) m n)
  | .or, _, _ => Act.newInt (bitwise (· || ·) m n)

/-- Arithmetic where one operand is a floating-point number. -/
def onFloats (o : Operator) (x y : Binary64) : Act (Option Value) := do
  match o with
  | .add => return some (← Act.newFloat (x.add y))
  | .sub => return some (← Act.newFloat (x.add y.neg))
  | .mul => return some (← Act.newFloat (x.mul y))
  | _ => return none

def onNumbers? (o : Operator) (a b : Value) : Act (Option Value) := do
  match a.int?, b.int? with
  | some m, some n => return some (← onInts o a b m n)
  | _, _ =>
    if a.number?.isNone || b.number?.isNone || o == .and || o == .or then return none
    match ← float? a with
    | none => return none
    | some x =>
      match ← float? b with
      | none => return none
      | some y => onFloats o x y

/-- The algebra of sets; the result is of the kind of the left operand. -/
def onSets? (o : Operator) (a b : Value) : Act (Option Value) := do
  let h ← Act.getHeap
  match Value.set? h a, Value.set? h b with
  | some x, some y =>
    let result ← match o with
      | .and => x.filterM fun v => do return ← Value.memberOf Value.isAlike v y
      | .sub => x.filterM fun v => do return !(← Value.memberOf Value.isAlike v y)
      | .or => CheckedList.unique (x ++ y)
      | _ => return none
    match a with
    | .frozenset .. => return some (.frozenset (← Act.fresh) result)
    | _ => return some (← Act.newSet result)
  | _, _ => return none

/-- Puts an entry into a mapping; a key that is there keeps its place. -/
def putEntry (key value : Value) : List (Value × Value) → Look (List (Value × Value))
  | [] => return [(key, value)]
  | (k, v) :: rest => do
    if ← Value.isAlike k key then return (k, value) :: rest
    return (k, v) :: (← putEntry key value rest)

def onMappings? (o : Operator) (a b : Value) : Act (Option Value) := do
  match o, a, b with
  | .or, .dict _ i, .dict _ j =>
    let h ← Act.getHeap
    let merged ← (h.dict j).foldlM (fun entries (k, v) => putEntry k v entries) (h.dict i)
    return some (← Act.newDict .base merged)
  | _, _, _ => return none

/-- Joins a sequence and what follows. -/
def join? (a b : Value) : Act (Option Value) := do
  let h ← Act.getHeap
  match a with
  | .str _ _ s =>
    match b.text? with
    | some t => return some (← Act.newStr (s ++ t))
    | none => Act.fail (.concatenate "str" b.operandName)
  | .list _ i =>
    match Value.list? h b with
    | some items => return some (← Act.newList (h.list i ++ items))
    | none => Act.fail (.concatenate "list" b.operandName)
  | .tuple .. | .pair .. =>
    match b.tuple? with
    | some items => return some (← Act.newTuple (a.tuple?.getD [] ++ items))
    | none => Act.fail (.concatenate "tuple" b.operandName)
  | .bytes .. | .bytearray _ =>
    match Value.bytes? h a, Value.bytes? h b with
    | some x, some y =>
      match a with
      | .bytes .. => return some (.bytes (← Act.fresh) (x ++ y))
      | _ => return some (← Act.newBuffer (x ++ y))
    | _, _ => Act.fail (.concatenateBytes a.operandName b.operandName)
  | _ => return none

def isSequence : Value → Bool
  | .str .. | .list .. | .tuple .. | .pair .. | .bytes .. | .bytearray _ => true
  | _ => false

/-- The number of times that a sequence is repeated. -/
def repetitions (v : Value) : Act Nat := do
  match v.int? with
  | some n => if Value.fitsSize n then return n.toNat else Act.fail (.hugeRepeat v.operandName)
  | none => Act.fail (.repeatBy v.operandName)

def repeated {α : Type} (n : Nat) (xs : List α) : List α :=
  if xs.isEmpty then [] else (List.replicate n xs).flatten

/-- The most items that a repeated sequence may have. -/
def repeatLimit : Nat := 1 <<< 32

/-- Repeats a sequence. -/
def times (a : Value) (n : Nat) : Act Value := do
  let h ← Act.getHeap
  if repeatLimit < n * (← a.length) then Act.fail .outOfMemory
  match a with
  | .str _ _ s => Act.newStr (String.ofList (repeated n s.toList))
  | .list _ i => Act.newList (repeated n (h.list i))
  | .bytes _ bs => return .bytes (← Act.fresh) (repeated n bs)
  | .bytearray i => Act.newBuffer (repeated n (h.buffer i))
  | _ => Act.newTuple (repeated n (a.tuple?.getD []))

/-- What a checked list does under an operator. -/
def onChecked? (o : Operator) (b : Value) : Option CheckedList.Op :=
  match o with
  | .add => some (.add b)
  | .sub => some (.sub b)
  | .and => some (.and b)
  | .or => some (.or b)
  | .mul => none

/-- Applies an operator; `shown` is how a complaint calls it. -/
def applyShown (e : Engine) (o : Operator) (shown : String) (a b : Value) : Act Value := do
  let refuse : Act Value := Act.fail (.badOperands shown a.operandName b.operandName)
  match a with
  | .checked c i =>
    match onChecked? o b with
    | some op => op.run e ⟨c, i⟩
    | none => if isSequence b then Act.fail (.repeatBy a.operandName) else refuse
  | _ =>
    match ← onNumbers? o a b with
    | some v => return v
    | none =>
      match ← onSets? o a b with
      | some v => return v
      | none =>
        match ← onMappings? o a b with
        | some v => return v
        | none =>
          match o with
          | .add =>
            match ← join? a b with
            | some v => return v
            | none => refuse
          | .mul =>
            if isSequence a then times a (← repetitions b)
            else if isSequence b then times b (← repetitions a)
            else refuse
          | _ => refuse

def apply (e : Engine) (o : Operator) (a b : Value) : Act Value :=
  applyShown e o o.symbol a b

/-- Applies an operator in place where the left operand can change. -/
def applyInPlace (e : Engine) (o : Operator) (a b : Value) : Act Value := do
  match o, a with
  | .add, .checked c i => (CheckedList.Op.addInPlace b).run e ⟨c, i⟩
  | .add, .list _ i =>
    let items ← b.items
    Act.setList i ((← Act.getHeap).list i ++ items)
    return a
  | .add, .bytearray i =>
    let h ← Act.getHeap
    match Value.bytes? h b with
    | some bs =>
      Act.setBuffer i (h.buffer i ++ bs)
      return a
    | none => Act.fail (.concatenateBytes "bytearray" b.operandName)
  | _, .set i =>
    match ← onSets? o a b with
    | some (.set j) =>
      Act.setSet i ((← Act.getHeap).set j)
      return a
    | _ => applyShown e o (o.symbol ++ "=") a b
  | _, _ => applyShown e o (o.symbol ++ "=") a b

/-- Changes the sign of a number. -/
def negate (v : Value) : Act Value := do
  match v with
  | .float _ x => Act.newFloat x.neg
  | _ =>
    match v.int? with
    | some n => Act.newInt (-n)
    | none => Act.fail (.badUnary "-" v.operandName)

end Operator

end Conform
