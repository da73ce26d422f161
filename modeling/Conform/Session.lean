import Conform.Fault

/-!
The state that scripts work on: the heap of changing values, and the records that outlive a single
operation (resolved descriptors, cached ancestors, declared transforms, the log).

Reading the heap and acting on the state are kept apart: a `Look` can only read the heap, so whatever is
written as a `Look` depends on nothing else and changes nothing.
-/
namespace Conform

/-- The changing values, one table for each kind. -/
structure Heap where
  lists : Array (List Value) := #[]
  dicts : Array (List (Value × Value)) := #[]
  sets : Array (List Value) := #[]
  buffers : Array (List UInt8) := #[]
  iters : Array (List Value) := #[]
  things : Array (List (String × Value)) := #[]
  checked : Array CheckedList := #[]
  contexts : Array CheckContext := #[]

namespace Heap

def list (h : Heap) (i : Handle) : List Value :=
  (h.lists[i]?).getD []

def dict (h : Heap) (i : Handle) : List (Value × Value) :=
  (h.dicts[i]?).getD []

def set (h : Heap) (i : Handle) : List Value :=
  (h.sets[i]?).getD []

def buffer (h : Heap) (i : Handle) : List UInt8 :=
  (h.buffers[i]?).getD []

def iter (h : Heap) (i : Handle) : List Value :=
  (h.iters[i]?).getD []

def thing (h : Heap) (i : Handle) : List (String × Value) :=
  (h.things[i]?).getD []

def checkedList (h : Heap) (i : Handle) : CheckedList :=
  (h.checked[i]?).getD ⟨[], .void, .void, false⟩

def context (h : Heap) (i : Handle) : CheckContext :=
  (h.contexts[i]?).getD { expected := .nil, actual := .nil }

end Heap

/-- What keys a declared transform: a descriptor by its value, or by its identity where its value cannot
be hashed. -/
inductive TransformKey where
  | byValue (d : Descriptor)
  | byIdentity (d : Descriptor)

/-- A declaration that a function maps elements of one type to results of another. -/
structure Transform where
  key : TransformKey
  fn : Value
  result : Descriptor

/-- A recorded call of a traced function. -/
structure TracedCall where
  name : String
  args : List Value
  keywords : Keywords

structure Session where
  heap : Heap := {}
  nextIdent : Ident := 1
  /-- What deferred descriptors resolved to. -/
  resolved : List (Ident × Descriptor) := []
  /-- Cached ancestors of classes. -/
  ancestors : List (Class × List Class) := []
  /-- Values that are no classes but whose ancestors were asked for all the same. -/
  strayAncestors : List Value := []
  transforms : List Transform := []
  transformsEnabled : Bool := true
  level : Int := 30
  log : List String := []
  calls : List TracedCall := []
  names : List (String × Value) := []

/-- Reading the heap. -/
abbrev Look := ReaderT Heap (Except Fault)

/-- Acting on the session. What was done before a failure stays done. -/
abbrev Act := EStateM Fault Session

namespace Look

def fail {α : Type} (c : Cause) : Look α :=
  throw (.cause c)

end Look

namespace Act

def fail {α : Type} (c : Cause) : Act α :=
  throw (.cause c)

/-- Reads the heap as it is now. -/
def look {α : Type} (l : Look α) : Act α := fun s =>
  match l s.heap with
  | .ok a => .ok a s
  | .error f => .error f s

instance : MonadLift Look Act := ⟨look⟩

def modifyHeap (f : Heap → Heap) : Act Unit :=
  modify fun s => { s with heap := f s.heap }

/-- A new identity. -/
def fresh : Act Ident := fun s =>
  .ok s.nextIdent { s with nextIdent := s.nextIdent + 1 }

def newInt (n : Int) : Act Value := do
  return .int .base (← fresh) n

def newFloat (x : Binary64) : Act Value := do
  return .float (← fresh) x

def newStr (s : String) : Act Value := do
  return .str .base (← fresh) s

def newTuple (items : List Value) : Act Value := do
  return .tuple (← fresh) items

def newListOf (kind : Flavour) (items : List Value) : Act Value := do
  let h := (← get).heap
  modifyHeap fun h => { h with lists := h.lists.push items }
  return .list kind h.lists.size

def newList (items : List Value) : Act Value :=
  newListOf .base items

def newDict (kind : Flavour) (entries : List (Value × Value)) : Act Value := do
  let h := (← get).heap
  modifyHeap fun h => { h with dicts := h.dicts.push entries }
  return .dict kind h.dicts.size

def newSet (items : List Value) : Act Value := do
  let h := (← get).heap
  modifyHeap fun h => { h with sets := h.sets.push items }
  return .set h.sets.size

def newBuffer (bs : List UInt8) : Act Value := do
  let h := (← get).heap
  modifyHeap fun h => { h with buffers := h.buffers.push bs }
  return .bytearray h.buffers.size

def newIter (items : List Value) : Act Value := do
  let h := (← get).heap
  modifyHeap fun h => { h with iters := h.iters.push items }
  return .iter h.iters.size

def newThing (c : Class) (attributes : List (String × Value)) : Act Value := do
  let h := (← get).heap
  modifyHeap fun h => { h with things := h.things.push attributes }
  return .thing c h.things.size

def newChecked (c : Class) (l : CheckedList) : Act Value := do
  let h := (← get).heap
  modifyHeap fun h => { h with checked := h.checked.push l }
  return .checked c h.checked.size

def newContext (c : CheckContext) : Act Handle := do
  let h := (← get).heap
  modifyHeap fun h => { h with contexts := h.contexts.push c }
  return h.contexts.size

def setList (i : Handle) (items : List Value) : Act Unit :=
  modifyHeap fun h => { h with lists := h.lists.setIfInBounds i items }

def setDict (i : Handle) (entries : List (Value × Value)) : Act Unit :=
  modifyHeap fun h => { h with dicts := h.dicts.setIfInBounds i entries }

def setSet (i : Handle) (items : List Value) : Act Unit :=
  modifyHeap fun h => { h with sets := h.sets.setIfInBounds i items }

def setBuffer (i : Handle) (bs : List UInt8) : Act Unit :=
  modifyHeap fun h => { h with buffers := h.buffers.setIfInBounds i bs }

def setIter (i : Handle) (items : List Value) : Act Unit :=
  modifyHeap fun h => { h with iters := h.iters.setIfInBounds i items }

def setThing (i : Handle) (attributes : List (String × Value)) : Act Unit :=
  modifyHeap fun h => { h with things := h.things.setIfInBounds i attributes }

def setChecked (i : Handle) (l : CheckedList) : Act Unit :=
  modifyHeap fun h => { h with checked := h.checked.setIfInBounds i l }

def setContext (i : Handle) (c : CheckContext) : Act Unit :=
  modifyHeap fun h => { h with contexts := h.contexts.setIfInBounds i c }

def getHeap : Act Heap := do
  return (← get).heap

/-- Handles the faults that a handler for a class of exceptions takes. -/
def handle {α : Type} (c : Class) (body : Act α) (handler : Fault → Act α) : Act α := fun s =>
  match body s with
  | .ok a s => .ok a s
  | .error f s => if f.isA c then handler f s else .error f s

end Act

end Conform
