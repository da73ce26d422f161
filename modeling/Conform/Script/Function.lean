import Conform.Calling
import Conform.Logging

/-!
The functions of the library as a script calls them, by name.
-/
namespace Conform.Script

/-- The parameters of a function. -/
def parameters? (name : String) : Option Signature :=
  let s (required : List String) : Signature := { name, required, receiver := false }
  let filled := [("receiver", Value.nil), ("operation_name", .nil), ("argument_position", .nil),
    ("argument_name", .nil)]
  match name with
  | "check" => some { s ["actual", "expected"] with optional := [("enrich", .nil)] }
  | "matches" => some (s ["descriptor", "value"])
  | "subtype" => some (s ["candidate", "of"])
  | "to_descriptor" | "is_typing_annotation" => some (s ["obj"])
  | "register_transform" => some (s ["element_type", "fn", "result_type"])
  | "lookup_transform" | "unregister_transform" => some (s ["element_type", "fn"])
  | "clear_transforms" | "transform_cache_size" | "is_transform_cache_enabled" | "mro_cache_types" =>
    some (s [])
  | "set_transform_cache_enabled" => some (s ["enabled"])
  | "set_verbosity" => some (s ["level"])
  | "is_instance_optimized" => some (s ["value", "expected_type"])
  | "is_subclass_safe" => some (s ["candidate", "expected_type"])
  | "range_contains" => some (s ["container", "value"])
  | "range_endpoints" | "_truncate_repr" => some (s ["value"])
  | "read_field" | "read_attribute" => some (s ["value", "name"])
  | "get_cached_mro_set" => some (s ["value_type"])
  | "_construct_type_error" => some (s ["expected", "actual"])
  | "CheckContext" =>
    some { name := "CheckContext.__init__", required := ["expected", "actual"], optional := filled }
  | "Mismatch" =>
    some { name := "Mismatch.__init__", required := ["expected_repr", "received_repr", "value"],
           optional := [("message", .nil)] }
  | _ => none

/-- Sets the level of the log. Anything equal to a level counts, but only integers can be stored. -/
def setVerbosity (level : Value) : Act Unit := do
  let isSet := match level with
    | .set _ => true
    | _ => false
  unless isSet do
    let _ ← level.hash
  let known ← Value.memberOf Value.isAlike level (Logging.levels.map fun n => .int .base 0 n)
  let shown ← level.plain
  if !known then Act.fail (.badLevel shown)
  match level.int? with
  | none => Act.fail (.badLevelKind shown)
  | some n =>
    modify fun s => { s with level := n }
    Logging.trace (return "logging.set_verbosity: Level is now " ++ Logging.levelName n)

/-- The complaint about something that is no class. -/
def classComplaint (subject : String) : String :=
  if subject == "instance" then "isinstance() arg 2 must be a type, a tuple of types, or a union"
  else "issubclass() arg 2 must be a class, a tuple of classes, or a union"

/-- The classes of an annotation that can be asked about, or the complaint. -/
def hintClasses (hint : String) (complaint : String) : Except String (List Class) :=
  if hint == "int | str" || hint == "Union[int, str]" then .ok [.int, .str]
  else if hint == "Optional[int]" then .ok [.int, .noneType]
  else if hint == "List" then .ok [.list]
  else if hint == "Callable" then .ok [.callable]
  else if hint.startsWith "list[" || hint.startsWith "dict[" then
    .error ((if complaint.startsWith "isinstance" then "isinstance()" else "issubclass()") ++
      " argument 2 cannot be a parameterized generic")
  else if hint == "Optional" || hint == "Union" then
    .error ("typing." ++ hint ++ " cannot be used with " ++
      (if complaint.startsWith "isinstance" then "isinstance()" else "issubclass()"))
  else if hint == "T" || hint == "ForwardRef" then .error complaint
  else .error "Subscripted generics cannot be used with class and instance checks"

/-- The classes that a class, a tuple of classes or a union means. -/
def classesOf (complaint : String) : Nat → Value → Except String (List Class)
  | 0, _ => .error complaint
  | fuel + 1, v =>
    match v with
    | .cls c => .ok [c]
    | .typeHint hint => hintClasses hint complaint
    | .tuple _ items => do
      let parts ← items.mapM (classesOf complaint fuel)
      return parts.flatten
    | .pair _ l r => do
      let first ← classesOf complaint fuel l
      return first ++ (← classesOf complaint fuel r)
    | _ => .error complaint

/-- Whether one of several answers is yes; the first refusal before that counts. -/
def anyVerdict (ask : Class → Class.Verdict) : List Class → Class.Verdict
  | [] => .ok false
  | c :: rest =>
    match ask c with
    | .ok true => .ok true
    | .ok false => anyVerdict ask rest
    | .error refusal => .error refusal

/-- Whether a value is an instance of a class or of one of several. -/
def instanceVerdict (v info : Value) : Class.Verdict := do
  let classes ← classesOf (classComplaint "instance") 100 info
  anyVerdict v.classOf.isInstance classes

/-- An instance check on anything. What cannot be asked counts as no. -/
def isInstanceOf (v info : Value) : Act Bool := do
  match info with
  | .cls c => Nominal.isInstance v c
  | _ =>
    let _ ← Nominal.ancestors v.classOf
    let _ ← info.hash
    match instanceVerdict v info with
    | .ok answer => return answer
    | .error refusal =>
      Logging.trace (do return "type_utils.is_instance_optimized: isinstance(" ++ v.className ++ ", " ++
        (← info.shown) ++ ") raised TypeError(" ++ Text.quoted refusal ++ "). Result: False")
      return false

/-- A subclass check on anything. -/
def isSubclassOf (v info : Value) : Act Bool := do
  match info, v with
  | .cls c, _ => Nominal.isSubclass v c
  | _, .cls b =>
    let _ ← Nominal.ancestors b
    let _ ← info.hash
    match (do
      let classes ← classesOf (classComplaint "class") 100 info
      anyVerdict b.isSubclass classes : Class.Verdict) with
    | .ok answer => return answer
    | .error _ => return false
  | _, _ => return false

/-- A name of an attribute, which must be a text. -/
def attributeName (v : Value) : Act String :=
  match v.text? with
  | some s => return s
  | none => Act.fail (.callShape ("attribute name must be string, not '" ++ v.operandName ++ "'"))

/-- Membership in a range, a slice, or anything with the two ends of one. -/
def rangeContains (container v : Value) : Act Bool := do
  match container with
  | .range .. => Descriptor.isWithin container v
  | _ =>
    let start ← container.getAttribute "start"
    let stop ← container.getAttribute "stop"
    Act.handle .typeError (Descriptor.betweenBounds start stop v) fun _ => return false

/-- The remembered classes. -/
def rememberedClasses : Act Value := do
  let s ← get
  Act.newSet (s.ancestors.map (fun entry => .cls entry.1) ++ s.strayAncestors)

/-- Calls a function with bound arguments. -/
def applyFunction (e : Engine) (name : String) (b : Bound) : Act Value := do
  match name with
  | "check" =>
    Check.check e (b.get "actual") (b.get "expected") fun at_ =>
      match b.get "enrich" with
      | .nil => return ()
      | callback => do
        let _ ← e.call callback [.context at_] []
  | "matches" => return .bool (← Check.isMatch e (b.get "descriptor") (b.get "value"))
  | "subtype" => return .bool (← Check.isSubtype e (b.get "candidate") (b.get "of"))
  | "to_descriptor" => return .descriptor (← Descriptor.ofValue (b.get "obj"))
  | "is_typing_annotation" =>
    match b.get "obj" with
    | .typeHint _ => return .bool true
    | _ => return .bool false
  | "register_transform" =>
    Transforms.register (b.get "element_type") (b.get "fn") (b.get "result_type")
    return .nil
  | "lookup_transform" =>
    match ← Transforms.lookup (b.get "element_type") (b.get "fn") with
    | some d => return .descriptor d
    | none => return .nil
  | "unregister_transform" => return .bool (← Transforms.unregister (b.get "element_type") (b.get "fn"))
  | "clear_transforms" =>
    Transforms.clear
    return .nil
  | "transform_cache_size" => Act.newInt (← Transforms.size)
  | "set_transform_cache_enabled" =>
    Transforms.setEnabled (b.get "enabled")
    return .nil
  | "is_transform_cache_enabled" => return .bool (← get).transformsEnabled
  | "set_verbosity" =>
    setVerbosity (b.get "level")
    return .nil
  | "is_instance_optimized" => return .bool (← isInstanceOf (b.get "value") (b.get "expected_type"))
  | "is_subclass_safe" => return .bool (← isSubclassOf (b.get "candidate") (b.get "expected_type"))
  | "range_contains" => return .bool (← rangeContains (b.get "container") (b.get "value"))
  | "range_endpoints" =>
    let start ← (b.get "value").getAttribute "start"
    let stop ← (b.get "value").getAttribute "stop"
    Act.newTuple [start, stop]
  | "read_field" => return (← (b.get "value").field? (← attributeName (b.get "name"))).getD .missing
  | "read_attribute" =>
    return (← Descriptor.readAttribute? e (b.get "value") (← attributeName (b.get "name"))).getD .missing
  | "get_cached_mro_set" =>
    match b.get "value_type" with
    | .cls c => Act.newSet ((← Nominal.ancestors c).map .cls)
    | v => Act.newSet (← Nominal.strayAncestors v)
  | "mro_cache_types" => rememberedClasses
  | "_construct_type_error" => Act.newStr (← Value.mismatchMessage (b.get "expected") (b.get "actual"))
  | "_truncate_repr" => Act.newStr (← (b.get "value").shownBriefly)
  | "CheckContext" =>
    return .context (← Act.newContext
      { expected := b.get "expected"
        actual := b.get "actual"
        receiver := b.get "receiver"
        operation := b.get "operation_name"
        position := b.get "argument_position"
        name := b.get "argument_name" })
  | "Mismatch" =>
    return .mismatch (← Act.fresh) (b.get "expected_repr") (b.get "received_repr") (b.get "value")
      (b.get "message")
  | _ => return .nil

/-- Calls a function by name. -/
def callFunction (e : Engine) (name : String) (args : List Value) (keywords : Keywords) : Act Value := do
  match parameters? name with
  | some s => applyFunction e name (← s.accept args keywords)
  | none => Act.fail (.keyMissing (Text.quoted name))

end Conform.Script
