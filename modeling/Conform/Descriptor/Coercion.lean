import Conform.Value.Shown

/-!
Reading a bare value as a descriptor: classes match their instances, ranges and slices their members,
patterns the texts they are found in, functions what they accept, singletons themselves, and anything
else what is equal to it.
-/
namespace Conform.Descriptor

/-- The name of an annotation: what stands before its arguments. -/
def hintName? (hint : String) : Option String :=
  if hint == "ForwardRef" || hint.toList.contains '|' then none
  else some (String.ofList (hint.toList.takeWhile (· != '[')))

/-- The message of a function used as a predicate: its name if it knows it, else its text. -/
def functionName (v : Value) : Look String := do
  match v with
  | .fn f => if f.bare then v.shown else return f.name
  | .cls c => return c.name
  | .patternTest .. => return "_evaluate"
  | .method _ name _ => return name
  | .typeHint n =>
    match hintName? n with
    | some name => return name
    | none => v.shown
  | _ => v.shown

def ofValue (v : Value) : Act Descriptor := do
  match v with
  | .descriptor d => return d
  | .cls .anything => return .void
  | .typeHint n => Act.fail (.hintGiven (hintShown n))
  | .cls c => return .instanceOf (← Act.fresh) c
  | .nil | .bool _ | .ellipsis | .notImplemented => return .unit (← Act.fresh) v
  | .range .. | .slice .. => return .within (← Act.fresh) v
  | .regex r => return .regex (← Act.fresh) r
  | _ =>
    if v.isCallable then
      let name ← functionName v
      return .predicate (← Act.fresh) (← Act.newStr name) v
    return .equal (← Act.fresh) v

end Conform.Descriptor
