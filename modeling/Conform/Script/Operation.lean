import Conform.Script.Function

/-!
The operators that a script applies by name, and the writing and deleting of attributes.
-/
namespace Conform.Script

/-- The items of a value, last first. -/
def reversedItems (v : Value) : Act (List Value) := do
  match v with
  | .list .. | .tuple .. | .pair .. | .str .. | .bytes .. | .bytearray _ | .range .. | .dict ..
  | .checked .. | .keys _ (.dict ..) => return (← v.items).reverse
  | _ => Act.fail (.notReversible v.operandName)

/-- Whether a value is an instance of a class or of one of several; a refusal is an error. -/
def isInstance (v info : Value) : Act Bool := do
  match instanceVerdict v info with
  | .ok answer => return answer
  | .error refusal => Act.fail (.classRefused refusal)

/-- Applies an operator to a value. Arguments that are not there count as nil. -/
def applyOperator (e : Engine) (name : String) (on : Value) (args : List Value) : Act Value := do
  let first := args[0]?.getD .nil
  let second := args[1]?.getD .nil
  match name with
  | "getitem" => Subscript.get e on first
  | "setitem" =>
    Subscript.set e on first second
    return .nil
  | "delitem" =>
    Subscript.delete e on first
    return .nil
  | "len" => Act.newInt (← on.length)
  | "contains" => return .bool (← on.contains first)
  | "list" => Act.newList (← on.items)
  | "reversed" => Act.newList (← reversedItems on)
  | "eq" => on.equal first
  | "ne" => return .bool (← on.unequal first)
  | "is" => return .bool (on.same first)
  | "bool" => return .bool (← on.truth)
  | "repr" => Act.newStr (← on.shown)
  | "str" => Act.newStr (← on.plain)
  | "and" => Operator.apply e .and on first
  | "sub" => Operator.apply e .sub on first
  | "or" => Operator.apply e .or on first
  | "add" => Operator.apply e .add on first
  | "mul" => Operator.apply e .mul on first
  | "iadd" => Operator.applyInPlace e .add on first
  | "isub" => Operator.applyInPlace e .sub on first
  | "lt" => return .bool (← Value.ordered .lt on first)
  | "isinstance" => return .bool (← isInstance on first)
  | "hashable" =>
    let _ ← on.hash
    return .bool true
  | "same_hash" =>
    let a ← on.hash
    return .bool (a == (← first.hash))
  | _ => Act.fail (.keyMissing (Text.quoted name))

/-- Whether a value refuses to have its fields written at all. -/
def isFixed : Value → Bool
  | .success .. | .failure .. | .mismatch .. => true
  | .descriptor (.deferred ..) => false
  | .descriptor _ => true
  | _ => false

/-- The attributes of an object that are worked out and cannot be written. -/
def isComputed (v : Value) (name : String) : Bool :=
  match v with
  | .checked .. => ["element_type", "collection_type", "is_frozen"].contains name
  | .context _ => name == "mismatch"
  | .descriptor (.deferred ..) => name == "is_resolved"
  | .thing c _ =>
    (c.mro.contains .puppy && name == "weight") ||
      (c == .prickly && (name == "hidden" || name == "broken"))
  | _ => false

/-- Whether a value can carry attributes of its own. -/
def hasRoom : Value → Bool
  | .thing .. | .checked .. | .context _ | .exception .. | .mismatchError .. | .outcomeError ..
  | .descriptor (.deferred ..) | .fn _ | .thunk .. | .list .derived _ | .dict .derived _
  | .str .derived .. | .int .derived .. | .iter _ | .frozenMap .. | .other .. => true
  | _ => false

/-- A context with a field written. -/
def withField (c : CheckContext) (name : String) (v : Value) : CheckContext :=
  match name with
  | "expected" => { c with expected := v }
  | "actual" => { c with actual := v }
  | "receiver" => { c with receiver := v }
  | "operation_name" => { c with operation := v }
  | "argument_position" => { c with position := v }
  | "argument_name" => { c with name := v }
  | _ => c

/-- The complaint about an attribute that a value without room for it cannot take. -/
def readOnly (v : Value) (name : String) : Act Unit := do
  match ← v.attribute? name with
  | some (.method ..) =>
    Act.fail (.readOnlyAttribute v.operandName name)
  | _ => Act.fail (v.noAttribute name)

def setAttribute (on : Value) (name : String) (v : Value) : Act Unit := do
  if isFixed on then Act.fail (.assignField name)
  if isComputed on name then Act.fail (.noSetter on.className name)
  match on with
  | .thing _ i => Act.setThing i (putAttribute name v ((← Act.getHeap).thing i))
  | .context i => Act.setContext i (withField ((← Act.getHeap).context i) name v)
  | _ => unless hasRoom on do readOnly on name

def deleteAttribute (on : Value) (name : String) : Act Unit := do
  if isFixed on then Act.fail (.deleteField name)
  if isComputed on name then Act.fail (.noDeleter on.className name)
  match on with
  | .thing c i =>
    let attributes := (← Act.getHeap).thing i
    if attributes.any (·.1 == name) then Act.setThing i (attributes.filter (·.1 != name))
    else Act.fail (.noAttribute c.name name)
  | _ => if hasRoom on then Act.fail (.noAttribute on.operandName name) else readOnly on name

end Conform.Script
