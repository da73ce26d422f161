import Conform.Descriptor.Coercion
import Conform.Logging
import Conform.Value.Hash

/-!
Declared transforms: "this function maps elements of that type to results of this type". A declaration is
found again by an equal element type and the same function; declaring it twice replaces the first.
-/
namespace Conform.Transforms

/-- A descriptor is keyed by its value where that can be hashed, by its identity otherwise. -/
def keyOf (d : Descriptor) : Act TransformKey :=
  Act.handle .typeError
    (do
      let _ ← Value.hash (.descriptor d)
      return .byValue d)
    fun _ => return .byIdentity d

def sameKey : TransformKey → TransformKey → Look Bool
  | .byValue a, .byValue b => Value.isAlike (.descriptor a) (.descriptor b)
  | .byIdentity a, .byIdentity b => return a.same b
  | _, _ => return false

/-- Whether a declaration is the one for a key and a function. -/
def isFor (key : TransformKey) (fn : Value) (t : Transform) : Look Bool := do
  if ← sameKey t.key key then Value.isAlike t.fn fn else return false

/-- The key of a query. The function must have a hash. -/
def query (element fn : Value) : Act TransformKey := do
  let key ← keyOf (← Descriptor.ofValue element)
  let _ ← fn.hash
  return key

/-- The declaration for a key and a function. -/
def find? (key : TransformKey) (fn : Value) : List Transform → Look (Option Transform)
  | [] => return none
  | t :: rest => do
    if ← isFor key fn t then return some t else find? key fn rest

/-- Replaces the declaration for a key and a function, or adds it. -/
def replace (t : Transform) : List Transform → Look (List Transform)
  | [] => return [t]
  | u :: rest => do
    if ← isFor t.key t.fn u then return { u with result := t.result } :: rest
    return u :: (← replace t rest)

/-- Takes the declaration for a key and a function away. -/
def without (key : TransformKey) (fn : Value) : List Transform → Look (List Transform)
  | [] => return []
  | t :: rest => do
    if ← isFor key fn t then return rest
    return t :: (← without key fn rest)

/-- How a function is called in the log. -/
def label (fn : Value) : Look String :=
  match fn with
  | .fn f => if f.bare then fn.plain else return f.name
  | .cls _ | .patternTest .. | .method .. | .typeHint _ => Descriptor.functionName fn
  | _ => fn.plain

def register (element fn result : Value) : Act Unit := do
  let source ← Descriptor.ofValue element
  let target ← Descriptor.ofValue result
  let key ← keyOf source
  let _ ← fn.hash
  let table ← replace ⟨key, fn, target⟩ (← get).transforms
  modify fun s => { s with transforms := table }
  Logging.trace (do
    return "transforms.register_transform: " ++ (← source.describe) ++ " --" ++ (← label fn) ++ "--> " ++
      (← target.describe))

/-- The declared result type, or nothing; always nothing while the cache is off. -/
def lookup (element fn : Value) : Act (Option Descriptor) := do
  if !(← get).transformsEnabled then return none
  let key ← query element fn
  return (← find? key fn (← get).transforms).map (·.result)

/-- Takes a declaration away; answers whether there was one. -/
def unregister (element fn : Value) : Act Bool := do
  let key ← query element fn
  let found ← find? key fn (← get).transforms
  let table ← without key fn (← get).transforms
  modify fun s => { s with transforms := table }
  return found.isSome

def clear : Act Unit :=
  modify fun s => { s with transforms := [] }

def size : Act Nat := do
  return (← get).transforms.length

/-- Turns the use of declarations on or off. They are kept either way. -/
def setEnabled (flag : Value) : Act Unit := do
  let on ← flag.truth
  modify fun s => { s with transformsEnabled := on }
  Logging.record .info ("Transform cache " ++ (if on then "enabled" else "disabled"))

end Conform.Transforms
