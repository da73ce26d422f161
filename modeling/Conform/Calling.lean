import Conform.Evaluation
import Conform.Zoo

/-!
Calls, and the engine that ties calls, matching and subtyping together.
-/
namespace Conform

namespace Calling

/-- Records a call of a traced function. -/
def recordCall (name : String) (args : List Value) (keywords : Keywords) : Act Unit :=
  modify fun s => { s with calls := s.calls ++ [⟨name, args, keywords⟩] }

/-- Tests a text by a pattern: the evaluator gets the unnamed captures by position and the named ones by
name. -/
def testPattern (e : Engine) (r : Regex) (evaluator v : Value) : Act Value := do
  match v.text? with
  | none => return .bool false
  | some s =>
    if r.binary then Act.fail .binaryPattern
    match r.search s with
    | none => return .bool false
    | some found =>
      let capture (text : Option String) : Act Value :=
        match text with
        | some t => Act.newStr t
        | none => return .nil
      let isNamed (i : Nat) : Bool := r.names.any (·.2 == i + 1)
      let unnamed := found.groups.zipIdx.filter fun (_, i) => !isNamed i
      let positional ← unnamed.mapM fun (text, _) => capture text
      let named ← r.names.mapM fun (name, i) => do
        return (name, ← capture ((found.groups[i - 1]?).getD none))
      return .bool (← (← e.call evaluator positional named).truth)

/-- The class that a descriptor takes a method from. -/
def definingClass (c : Class) (name : String) : Class :=
  match c, name with
  | .variant .never, "subtype_of" | .variant .deferred, "subtype_of" => c
  | _, "subtype_of" => .descriptor
  | .variant .array, _ | .variant .set, _ => .variant .enumerable
  | _, _ => c

/-- The parameters of the methods of descriptors and contexts. -/
def ownSignature (c : Class) (name : String) : Signature :=
  match name with
  | "match" => { name := (definingClass c name).name ++ ".match", required := ["value"] }
  | "subtype_of" => { name := (definingClass c name).name ++ ".subtype_of", required := ["other"] }
  | "fill_receiver" =>
    { name := "CheckContext.fill_receiver", required := ["receiver", "operation_name"],
      optional := [("argument_position", .nil), ("argument_name", .nil)] }
  | _ => { name := (definingClass c name).name ++ "." ++ name, required := [] }

/-- A new checked list of the values given to its type. -/
def buildChecked (e : Engine) (c : Class) (element : Descriptor) (args : List Value) (keywords : Keywords) :
    Act Value := do
  let b ← ({ name := c.name ++ ".__call__", required := [], variadic := true } : Signature).accept
    args keywords
  CheckedList.construct e .checkedList (← Act.newTuple b.rest) (.descriptor element)

/-- Subtyping against any value. Below what is no descriptor are only the bottom and what equals it. -/
def isBelow (e : Engine) (d : Descriptor) (other : Value) : Act Bool := do
  match other with
  | .descriptor b => e.subtype d b
  | _ =>
    match ← Descriptor.uncover e d with
    | .never => return true
    | d => (← other.equal (.descriptor d)).truth

/-- The methods of a descriptor. -/
def descriptorMethod (e : Engine) (d : Descriptor) (name : String) (args : List Value)
    (keywords : Keywords) : Act Value := do
  let c := Class.variant d.variant
  match name, d with
  | "__call__", .checkedListOf _ element => buildChecked e c element args keywords
  | _, _ =>
    let b ← (ownSignature c name).accept args keywords
    match name, d with
    | "match", _ => return .bool (← e.accepts d (b.get "value"))
    | "describe", _ => Act.newStr (← d.describe)
    | "subtype_of", _ => return .bool (← isBelow e d (b.get "other"))
    | "resolve", .deferred id thunk => return .descriptor (← Descriptor.resolve e id thunk)
    | _, _ => return .nil

/-- Fills in who performed a check, and answers the context. -/
def fillReceiver (at_ : Handle) (args : List Value) (keywords : Keywords) : Act Value := do
  let b ← (ownSignature .checkContext "fill_receiver").accept args keywords
  Check.fillReceiver at_
    { receiver := b.get "receiver"
      operation := b.get "operation_name"
      position := b.get "argument_position"
      name := b.get "argument_name" }
  return .context at_

/-- Calls a method that is bound to its owner. -/
def boundMethod (e : Engine) (owner : Value) (name : String) (args : List Value) (keywords : Keywords) :
    Act Value := do
  let unknown : Act Value := Act.fail (.notCallable owner.operandName)
  let fromZoo : Act Value := (Zoo.method? owner owner.classOf name args keywords).getD unknown
  match owner with
  | .checked c i => (CheckedList.invoke? e ⟨c, i⟩ name args keywords).getD unknown
  | .success .. | .failure .. => (Outcome.invoke? e owner name args keywords).getD unknown
  | .descriptor d => descriptorMethod e d name args keywords
  | .context i => fillReceiver i args keywords
  | .fn _ | .thunk .. => e.call owner args keywords
  | .cls c =>
    match name with
    | "mro" => Act.newList (c.mro.map .cls)
    | "__call__" => e.call owner args keywords
    | _ => fromZoo
  | .typeHint _ => e.call owner args keywords
  | .thing .. | .frozenMap .. | .iter _ => fromZoo
  | _ =>
    match ← Value.plainMethod? e owner name args keywords with
    | some body => body
    | none => unknown

/-- Calls a method that was read from a class: the first argument is the receiver. -/
def unboundMethod (e : Engine) (c : Class) (name : String) (args : List Value) (keywords : Keywords) :
    Act Value := do
  match args with
  | [] => Act.fail (.callShape ("unbound method " ++ c.name ++ "." ++ name ++ "() needs an argument"))
  | receiver :: rest =>
    if receiver.classOf.mro.contains c then boundMethod e receiver name rest keywords
    else Act.fail (.callShape ("descriptor '" ++ name ++ "' for '" ++ c.name ++
      "' objects doesn't apply to a '" ++ receiver.operandName ++ "' object"))

/-- One step of a call. -/
def callStep (functions : Library) (e : Engine) (callee : Value) (args : List Value) (keywords : Keywords) :
    Act Value := do
  match callee with
  | .fn f =>
    if f.traced then recordCall f.name args keywords
    functions e f.name args keywords
  | .thunk _ label body =>
    let _ ← ({ name := "Thunk.__call__", required := [] } : Signature).accept args keywords
    recordCall label [] []
    body.evaluate e
  | .cls c => Construction.construct e c args keywords
  | .typeHint hint => Construction.ofHint e hint args keywords
  | .patternTest _ r evaluator =>
    let b ← (Zoo.takes "Pattern.<locals>._evaluate" ["value"]).accept args keywords
    testPattern e r evaluator (b.get "value")
  | .descriptor (.checkedListOf _ element) => buildChecked e (.variant .checkedList) element args keywords
  | .method owner name .unbound | .method owner name .unboundWrapper =>
    match owner with
    | .cls c => unboundMethod e c name args keywords
    | _ => boundMethod e owner name args keywords
  | .method (.cls c) name .function =>
    if name == "legs" then boundMethod e (.cls c) name args keywords
    else unboundMethod e c name args keywords
  | .method owner name _ => boundMethod e owner name args keywords
  | _ => Act.fail (.notCallable callee.operandName)

end Calling

namespace Engine

/-- The rules applied over an engine. -/
def step (functions : Library) (e : Engine) : Engine where
  accepts := Descriptor.acceptsStep e
  subtype := Descriptor.subtypeStep e
  call := Calling.callStep functions e

/-- The engine of a given depth. -/
def ofDepth (functions : Library) : Nat → Engine
  | 0 => exhausted
  | n + 1 => step functions (ofDepth functions n)

/-- The depth at which recursion is given up. -/
def depth : Nat := 1500

/-- The engine that scripts run on. -/
def standard : Engine :=
  ofDepth Zoo.library depth

end Engine

end Conform
