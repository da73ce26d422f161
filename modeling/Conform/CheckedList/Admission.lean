import Conform.Check
import Conform.Value.Index

/-!
What a checked list lets in. Every value is checked before the list changes, so a failed check leaves it
as it was; the error names the list, the operation and the argument.
-/
namespace Conform.CheckedList

/-- A checked list as a value. -/
structure Self where
  cls : Class
  at_ : Handle

def Self.value (self : Self) : Value :=
  .checked self.cls self.at_

def Self.state (self : Self) : Act CheckedList := do
  return (← Act.getHeap).checkedList self.at_

/-- Why the storage of a frozen list takes no new contents, by a method or by assignment. -/
def tupleRefusal : Option String → Cause
  | some method => .noAttribute "tuple" method
  | none => .noItemAssignment "tuple"

/-- Puts new contents in place, by a method of the storage or by assignment. The storage refuses them if
the list has been frozen since the operation began. -/
def Self.write (self : Self) (method : Option String) (items : List Value) : Act Unit := do
  let l ← self.state
  if l.frozen then Act.fail (tupleRefusal method)
  Act.setChecked self.at_ { l with items }

/-- A new list of the same class and types, for contents that come from this one. -/
def Self.with (self : Self) (items : List Value) : Act Value := do
  Act.newChecked self.cls { ← self.state with items, frozen := false }

/-- Refuses to change a frozen list. -/
def Self.ensureMutable (self : Self) (operation : String) : Act Unit := do
  if (← self.state).frozen then Act.fail (.frozen operation)

/-- The place of an argument as a value. -/
def place : Option Int → Act Value
  | some p => Act.newInt p
  | none => return .nil

/-- Records in the context of a failed check which list performed it. -/
def Self.sign (self : Self) (operation : String) (position : Option Int) (at_ : Handle) : Act Unit := do
  let name ← Act.newStr operation
  let place ← place position
  Check.fillReceiver at_ { receiver := self.value, operation := name, position := place }

/-- Checks a value that is about to go in. -/
def Self.vet (e : Engine) (self : Self) (v : Value) (expected : Descriptor) (operation : String)
    (position : Option Int) : Act Unit :=
  Check.require e v expected (self.sign operation position)

/-- Checks a single element. -/
def Self.vetElement (e : Engine) (self : Self) (v : Value) (operation : String) (position : Int) :
    Act Unit := do
  self.vet e v (← self.state).element operation (some position)

/-- Lists are checked as they are; texts and mappings too, so that they fail as a whole instead of
falling apart. -/
def isWhole (v : Value) : Bool :=
  v.isList || v.isText || v.isMapping

/-- Checks a bulk of values and answers a copy. -/
def Self.collect (e : Engine) (self : Self) (v : Value) (operation : String) (position : Option Int) :
    Act (List Value) := do
  let whole ← if isWhole v then pure v else do
    let items ← v.items
    Act.newList items
  self.vet e whole (← self.state).collection operation position
  whole.items

/-- The values of an operand, which must be a list or a checked list. -/
def operandValues (other : Value) (operation : String) : Act (List Value) := do
  match other with
  | .checked _ i => return ((← Act.getHeap).checkedList i).items
  | .list _ i => return (← Act.getHeap).list i
  | _ => Act.fail (.foreignOperand operation other.className)

/-- Whether an operand is a checked list whose element type is a subtype of this one's, so that its
elements need no check. -/
def Self.trusts (e : Engine) (self : Self) (other : Value) : Act Bool := do
  match other with
  | .checked _ i => e.subtype ((← Act.getHeap).checkedList i).element (← self.state).element
  | _ => return false

/-- The values of an operand that are about to join, checked unless that is known to succeed. -/
def Self.foreignValues (e : Engine) (self : Self) (other : Value) (operation : String) :
    Act (List Value) := do
  let values ← operandValues other operation
  if ← self.trusts e other then return values
  let whole ← Act.newList values
  self.vet e whole (← self.state).collection operation (some 0)
  whole.items

/-- A new checked list. The list exists before its contents are checked, and an error shows it empty. -/
def construct (e : Engine) (c : Class) (values element : Value) : Act Value := do
  let d ← Descriptor.ofValue element
  let collection := Descriptor.collection (← Act.fresh) .array d
  let self : Self := ⟨c, (← Act.getHeap).checked.size⟩
  let v ← Act.newChecked c { items := [], element := d, collection, frozen := false }
  self.write none (← self.collect e values "__init__" none)
  return v

end Conform.CheckedList
