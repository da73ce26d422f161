import Conform.Descriptor.Coercion
import Conform.Regex.Pattern
import Conform.Signature
import Conform.Value.Attribute
import Conform.Value.Hash

/-!
Building descriptors. Arguments may be bare values; double negation collapses, and a constraint without
predicates is its base.
-/
namespace Conform.Factory

/-- The constants. -/
def constant? : String → Option Descriptor
  | "Any_" => some .any
  | "Void" => some .void
  | "Never" => some .never
  | "Boolean" => some .boolean
  | "Truthy" => some .truthy
  | "Falsy" => some .falsy
  | "JSONData" => some .jsonData
  | "Callable_" => some (.interface 0 ["__call__"])
  | _ => none

def coerceAll (vs : List Value) : Act (List Descriptor) :=
  vs.mapM Descriptor.ofValue

def coerceNamed (fields : Keywords) : Act (List (String × Descriptor)) :=
  fields.mapM fun (n, v) => do return (n, ← Descriptor.ofValue v)

def union (types : List Value) : Act Descriptor := do
  if types.isEmpty then Act.fail (.noTypes "Union")
  let ds ← coerceAll types
  return .union (← Act.fresh) ds

def intersection (types : List Value) : Act Descriptor := do
  if types.isEmpty then Act.fail (.noTypes "Intersection")
  let ds ← coerceAll types
  return .intersection (← Act.fresh) ds

/-- Negation. Several types mean the negation of their union; negating a negation gives back what was
negated. -/
def negation (types : List Value) : Act Descriptor := do
  match types with
  | [] => Act.fail (.noTypes "Not")
  | [t] =>
    match ← Descriptor.ofValue t with
    | .negation _ inner => return inner
    | d => return .negation (← Act.fresh) d
  | _ =>
    let u ← union types
    return .negation (← Act.fresh) u

def constraint (bases : List Value) (predicates : Keywords) : Act Descriptor := do
  match bases, predicates with
  | [], _ => Act.fail .noBase
  | [b], [] => Descriptor.ofValue b
  | _, _ =>
    let ds ← coerceAll bases
    let ps ← coerceNamed predicates
    return .constraint (← Act.fresh) ds ps

def shape (fields : Keywords) : Act Descriptor := do
  if fields.isEmpty then Act.fail .noField
  let ds ← coerceNamed fields
  return .shape (← Act.fresh) ds

/-- A class, as a class descriptor must have it. -/
def needClass (who : String) (v : Value) : Act Class := do
  match v with
  | .cls c => return c
  | _ =>
    let shown ← v.shown
    Act.fail (.notClass who shown)

/-- The distinct values of a set, the first of equals kept. -/
def distinct (vs : List Value) : Act (List Value) :=
  vs.foldlM (fun kept v => do
    let _ ← v.hash
    if ← Value.memberOf Value.isAlike v kept then return kept else return kept ++ [v]) []

def sortedTexts (ts : List String) : List String :=
  ts.mergeSort fun a b => decide (a ≤ b)

def interface (methods : List Value) : Act Descriptor := do
  if methods.isEmpty then Act.fail .noMethod
  let names ← distinct methods
  if names.all fun n => n.text?.isSome then
    return .interface (← Act.fresh) (sortedTexts (names.filterMap Value.text?))
  let shown ← names.mapM fun n => (n.shown : Look String)
  Act.fail (.methodNames ("[" ++ commas ((sortedTexts shown).map Text.quoted) ++ "]"))

def predicate (message fn : Value) : Act Descriptor := do
  if fn.isCallable then return .predicate (← Act.fresh) message fn
  let m ← message.shown
  let f ← fn.shown
  Act.fail (.notPredicate m f)

def within (container : Value) : Act Descriptor := do
  match container with
  | .range .. | .slice .. => return .within (← Act.fresh) container
  | _ => Act.fail (.notRange container.className)

def deferred (thunk : Value) : Act Descriptor := do
  if thunk.isCallable then return .deferred (← Act.fresh) thunk
  let shown ← thunk.shown
  Act.fail (.notThunk shown)

/-- Compiles a pattern given as text. -/
def compile (source : String) (binary ignoreCase : Bool) : Act Regex := do
  match Regex.compile source binary ignoreCase with
  | .ok r => return r
  | .error .hugeCount => Act.fail .hugeRepetition
  | .error d => Act.fail (.badPattern (d.message source))

/-- A test of texts by a pattern and a function of its captures. -/
def pattern (source evaluator : Value) : Act Descriptor := do
  match evaluator with
  | .nil => Act.fail .noEvaluator
  | _ =>
    let r ← match source with
      | .str _ _ s => compile s false false
      | .regex r => pure r
      | _ => Act.fail ((← source.getAttribute "groupindex").noAttribute "values")
    let test := Value.patternTest (← Act.fresh) r evaluator
    return .predicate (← Act.fresh) (← Act.newStr ("Pattern(" ++ r.quotedSource ++ ")")) test

/-- The parameters of a factory. -/
def signature (name : String) : Signature :=
  let s (required : List String) : Signature := { name, required, receiver := false }
  match name with
  | "Nilable" => s ["type_"]
  | "RangeOf" | "ArrayOf" | "SetOf" | "EnumerableOf" | "CheckedListOf" => s ["element_type"]
  | "MappingOf" => s ["key_type", "value_type"]
  | "InstanceOf" | "ClassOf" | "DescendantOf" => s ["cls"]
  | "Predicate" => s ["message", "fn"]
  | "Unit" | "Equal" => s ["obj"]
  | "Within" => s ["container"]
  | "Deferred" => s ["thunk"]
  | "Pattern" => { s ["regex"] with optional := [("evaluator", .nil)] }
  | "Shape" => s []
  | _ => { s [] with variadic := true }

/-- Refuses a name that is no factory. -/
def unknown (name : String) : Act Descriptor :=
  match constant? name with
  | some d => Act.fail (.notCallable d.variant.name)
  | none => Act.fail (.noSuchName name)

/-- Calls a factory whose parameters have names. -/
def buildNamed (name : String) (b : Bound) : Act Descriptor := do
  let coerced (parameter : String) : Act Descriptor := Descriptor.ofValue (b.get parameter)
  match name with
  | "Union" => union b.rest
  | "Intersection" => intersection b.rest
  | "Not" => negation b.rest
  | "Interface" => interface b.rest
  | "TupleOf" =>
    let ds ← coerceAll b.rest
    return .tupleOf (← Act.fresh) ds
  | "Nilable" =>
    let d ← coerced "type_"
    return .nilable (← Act.fresh) d
  | "RangeOf" =>
    let d ← coerced "element_type"
    return .rangeOf (← Act.fresh) d
  | "ArrayOf" =>
    let d ← coerced "element_type"
    return .collection (← Act.fresh) .array d
  | "SetOf" =>
    let d ← coerced "element_type"
    return .collection (← Act.fresh) .set d
  | "EnumerableOf" =>
    let d ← coerced "element_type"
    return .collection (← Act.fresh) .enumerable d
  | "CheckedListOf" =>
    let d ← coerced "element_type"
    return .checkedListOf (← Act.fresh) d
  | "MappingOf" =>
    let k ← coerced "key_type"
    let v ← coerced "value_type"
    return .mappingOf (← Act.fresh) k v
  | "InstanceOf" =>
    let c ← needClass "InstanceOf" (b.get "cls")
    return .instanceOf (← Act.fresh) c
  | "ClassOf" =>
    let c ← needClass "ClassType" (b.get "cls")
    return .classOf (← Act.fresh) c
  | "DescendantOf" =>
    let c ← needClass "DescendantType" (b.get "cls")
    return .descendantOf (← Act.fresh) c
  | "Predicate" => predicate (b.get "message") (b.get "fn")
  | "Unit" => return .unit (← Act.fresh) (b.get "obj")
  | "Equal" => return .equal (← Act.fresh) (b.get "obj")
  | "Within" => within (b.get "container")
  | "Deferred" => deferred (b.get "thunk")
  | "Pattern" => pattern (b.get "regex") (b.get "evaluator")
  | _ => unknown name

/-- Calls a factory. -/
def build (name : String) (args : List Value) (keywords : Keywords) : Act Descriptor := do
  match name with
  | "Constraint" => constraint args keywords
  | "Integer" => constraint (.cls .int :: args) keywords
  | "Float" => constraint (.cls .float :: args) keywords
  | "String" => constraint (.cls .str :: args) keywords
  | "Date" => constraint (.cls .date :: args) keywords
  | "DateTime" => constraint (.cls .datetime :: args) keywords
  | "Shape" =>
    let _ ← (signature "Shape").accept args []
    shape keywords
  | _ => buildNamed name (← (signature name).accept args keywords)

end Conform.Factory
