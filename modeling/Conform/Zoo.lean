import Conform.Construction
import Conform.Subscript

/-!
The surroundings of a script: named functions that serve as callbacks, and the methods of the animals and
other objects.
-/
namespace Conform

/-- A collection of named functions: what each does with its arguments, given an engine for the calls
that it makes itself. -/
abbrev Library := Engine → String → List Value → Keywords → Act Value

namespace Zoo

/-- A function that only takes integers. -/
def onInt (v : Value) (f : Int → Act Value) : Act Value :=
  match v.int? with
  | some n => f n
  | none => Act.fail (.notInt v.className)

def raise (c : Class) (args : List Value) : Act Value := do
  throw (.raised (.exception (← Act.fresh) c args))

def succeed (v : Value) : Act Value := do
  return .success (← Act.fresh) v

def fail (v : Value) : Act Value := do
  return .failure (← Act.fresh) v

/-- The functions of one argument. -/
def unary? (e : Engine) (name : String) (x : Value) : Option (Act Value) :=
  let zero : Value := .int .base 0 0
  match name with
  | "identity" => some (return x)
  | "double" => some (do Operator.apply e .mul x (← Act.newInt 2))
  | "inc" => some (do Operator.apply e .add x (← Act.newInt 1))
  | "neg" => some (Operator.negate x)
  | "stringify" | "message" => some (Construction.construct e .str [x] [])
  | "repr" => some (do Act.newStr (← x.shown))
  | "length" => some (do Act.newInt (← x.length))
  | "upper" => some (do e.call (← x.getAttribute "upper") [] [])
  | "first" => some (Subscript.get e x zero)
  | "wrap" => some (Act.newList [x])
  | "sometimes_broken" => some do
      if ← (← x.equal (← Act.newInt 2)).truth then Act.newStr "oops" else return x
  | "returns_none" => some (return .nil)
  | "rejected" => some (do Act.newStr ((← x.plain) ++ " rejected"))
  | "value_error" => some (do return .exception (← Act.fresh) .valueError [x])
  | "class_name" => some (Act.newStr x.className)
  | "payload" => some (x.getAttribute "payload")
  | "is_even" => some (onInt x fun n => return .bool (n % 2 == 0))
  | "mod3" => some (onInt x fun n => Act.newInt (n % 3))
  | "half" => some (onInt x fun n => do
      if n % 2 == 0 then succeed (← Act.newInt (n / 2))
      else fail (← Act.newStr ((← x.plain) ++ " is odd")))
  | "is_positive" => some (do return .bool (← Value.ordered .gt x zero))
  | "truthy" => some (do return .bool (← x.truth))
  | "yes" => some (return .bool true)
  | "no" => some (return .bool false)
  | "key_error" => some (raise .keyError [x])
  | "boom" => some (Act.fail .boom)
  | "positive" => some do
      if ← Value.ordered .gt x zero then succeed x else fail (← Act.newStr "not positive")
  | "succeed" => some (succeed x)
  | "fail" => some (fail x)
  | "fail_exc" => some do
      let message ← Act.newStr ("bad " ++ (← x.plain))
      fail (.exception (← Act.fresh) .valueError [message])
  | "fail_class" => some (fail (.cls .lookupError))
  | _ => none

/-- Less than zero, zero, or more than zero, by the order of two values. -/
def threeWay (a b : Value) : Act Value := do
  if ← Value.ordered .lt a b then Act.newInt (-1)
  else if ← Value.ordered .gt a b then Act.newInt 1
  else Act.newInt 0

/-- The comparators. -/
def comparator? (name : String) (a b : Value) : Option (Act Value) :=
  match name with
  | "cmp_asc" => some (threeWay a b)
  | "cmp_desc" => some (threeWay b a)
  | "cmp_len" => some (do
      let m ← a.length
      let n ← b.length
      Act.newInt ((m : Int) - n))
  | "cmp_zero" => some (Act.newInt 0)
  | _ => none

/-- The functions that take any arguments. -/
def variadic? (name : String) (args : List Value) (keywords : Keywords) : Option (Act Value) :=
  match name with
  | "ev_any" => some (return .bool true)
  | "ev_count" => some (Act.newInt ((args.length : Int) - keywords.length))
  | "ev_all_set" =>
    some (return .bool (args.all (!·.same .nil) && keywords.all fun (_, v) => !v.same .nil))
  | _ => none

/-- A signature without a receiver. -/
def takes (name : String) (required : List String) : Signature :=
  { name, required, receiver := false }

/-- The tests of captured texts. -/
def evaluator? (name : String) (args : List Value) (keywords : Keywords) : Option (Act Value) :=
  match name with
  | "ev_ascending" => some do
      let b ← (takes name ["low", "high"]).accept args keywords
      let low ← Construction.toInt (b.get "low")
      return .bool (low < (← Construction.toInt (b.get "high")))
  | "ev_20" => some do
      let b ← (takes name ["year"]).accept args keywords
      match (b.get "year").text? with
      | some s => return .bool (s.startsWith "20")
      | none => Act.fail (.noAttribute (b.get "year").operandName "startswith")
  | "ev_big" => some do
      let b ← (takes name ["n"]).accept args keywords
      return .bool (10 < (← Construction.toInt (b.get "n")))
  | _ => none

def comparatorNames : List String := ["cmp_asc", "cmp_desc", "cmp_len", "cmp_zero"]

/-- The named functions. -/
def library : Library := fun e name args keywords => do
  match variadic? name args keywords <|> evaluator? name args keywords with
  | some body => body
  | none =>
    if comparatorNames.contains name then
      let b ← (takes "<lambda>" ["a", "b"]).accept args keywords
      (comparator? name (b.get "a") (b.get "b")).getD (return .nil)
    else
      let b ← (takes "<lambda>" ["x"]).accept args keywords
      (unary? e name (b.get "x")).getD (Act.fail (.keyMissing (Text.quoted name)))

/-- What the methods of the objects answer. -/
def method? (owner : Value) (c : Class) (name : String) (args : List Value) (keywords : Keywords) :
    Option (Act Value) :=
  let of (definer : String) (required : List String) (body : Bound → Act Value) : Option (Act Value) :=
    some do body (← ({ name := definer ++ "." ++ name, required } : Signature).accept args keywords)
  match name with
  | "speak" => of "Animal" [] fun _ => Act.newStr "..."
  | "fetch" => of "Dog" [] fun _ => Act.newStr "ball"
  | "bite" => of "Dog" ["target"] fun _ => return .nil
  | "kind" => of "Dog" [] fun _ => Act.newStr "dog"
  | "legs" =>
    some do
      let _ ← ({ name := "Dog.legs", required := [], receiver := false } : Signature).accept args keywords
      Act.newInt 4
  | "mixin_method" => of "Mixin" [] fun _ => Act.newStr "mixed"
  | "__bool__" => of "NoBool" [] fun _ => do return .bool (← owner.truth)
  | "__len__" => of c.name [] fun _ => do Act.newInt (← owner.length)
  | "__iter__" => of c.name [] fun _ => do
      match owner with
      | .thing _ i => (← Value.needAttribute c i "items").iterator
      | .frozenMap .. => return .other (← Act.fresh) (.internal "dict_keyiterator")
      | _ => return owner
  | "__contains__" =>
    match owner with
    | .frozenMap .. => of "Mapping" ["key"] fun b => do return .bool (← owner.contains (b.get "key"))
    | _ => of c.name ["item"] fun b => do return .bool (← owner.contains (b.get "item"))
  | "keys" => of "Mapping" [] fun _ => do return .keys (← Act.fresh) owner
  | "__next__" => of c.name [] fun _ => do
      match owner with
      | .iter i =>
        match (← Act.getHeap).iter i with
        | [] => raise (.internal "StopIteration") []
        | v :: rest =>
          Act.setIter i rest
          return v
      | _ => return .nil
  | _ => none

end Zoo

end Conform
