import Conform.Value.Truth
import Conform.Value.Parts

/-!
Equality of values. Each kind of value has its own notion, which may decline to answer; the other
operand is asked then, and identity decides if both decline. Containers take identical items for equal
without asking. One kind of object answers with whatever it was given, so the result is a value.
-/
namespace Conform.Value

/-- Identity, or else equality that counts as true. -/
def alike (eq : Value → Value → Look Value) (a b : Value) : Look Bool := do
  if same a b then return true
  truth (← eq a b)

/-- Whether two sequences have equal items throughout. -/
def allAlike (test : Value → Value → Look Bool) : List Value → List Value → Look Bool
  | [], [] => return true
  | a :: as, b :: bs => do
    if ← test a b then allAlike test as bs else return false
  | _, _ => return false

/-- Whether some item is equal to a value. -/
def memberOf (test : Value → Value → Look Bool) (v : Value) : List Value → Look Bool
  | [] => return false
  | a :: as => do
    if ← test a v then return true else memberOf test v as

/-- The entry of a mapping at a key. -/
def entryAt (test : Value → Value → Look Bool) (key : Value) :
    List (Value × Value) → Look (Option Value)
  | [] => return none
  | (k, v) :: rest => do
    if ← test k key then return some v else entryAt test key rest

/-- Whether every item of one set is in another. -/
def subset (test : Value → Value → Look Bool) (as bs : List Value) : Look Bool :=
  as.allM fun a => memberOf test a bs

/-- Whether two mappings of one size have equal entries. -/
def sameEntries (test : Value → Value → Look Bool) (as bs : List (Value × Value)) : Look Bool :=
  if as.length != bs.length then return false
  else as.allM fun (k, v) => do
    match ← entryAt test k bs with
    | some w => test v w
    | none => return false

/-- The items of a set. -/
def set? (h : Heap) : Value → Option (List Value)
  | .set i => some (h.set i)
  | .frozenset _ items => some items
  | _ => none

/-- The bytes of a byte sequence. -/
def bytes? (h : Heap) : Value → Option (List UInt8)
  | .bytes _ bs => some bs
  | .bytearray i => some (h.buffer i)
  | _ => none

/-- The items of a plain list. -/
def list? (h : Heap) : Value → Option (List Value)
  | .list _ i => some (h.list i)
  | _ => none

/-- Lists of different length differ without a look at their items. -/
def sameItems (test : Value → Value → Look Bool) (as bs : List Value) : Look Bool :=
  if as.length != bs.length then return false else allAlike test as bs

/-- Whether two progressions hold the same integers. -/
def sameSpan (a b : Span) : Bool :=
  a.length == b.length &&
    (a.length == 0 || (a.start == b.start && (a.length == 1 || a.step == b.step)))

/-- Whether two descriptors have equal children. -/
def sameChildren (test : Value → Value → Look Bool) : List Descriptor → List Descriptor → Look Bool
  | [], [] => return true
  | a :: as, b :: bs => do
    if ← test (.descriptor a) (.descriptor b) then sameChildren test as bs else return false
  | _, _ => return false

def sameNamed (test : Value → Value → Look Bool) :
    List (String × Descriptor) → List (String × Descriptor) → Look Bool
  | [], [] => return true
  | (m, a) :: as, (n, b) :: bs => do
    if m != n then return false
    if ← test (.descriptor a) (.descriptor b) then sameNamed test as bs else return false
  | _, _ => return false

def samePart (test : Value → Value → Look Bool) : Descriptor.Part → Descriptor.Part → Look Bool
  | .value v, .value w => test v w
  | .child a, .child b => test (.descriptor a) (.descriptor b)
  | .children as, .children bs => sameChildren test as bs
  | .named as, .named bs => sameNamed test as bs
  | .names as, .names bs => return as == bs
  | _, _ => return false

def sameParts (test : Value → Value → Look Bool) :
    List Descriptor.Part → List Descriptor.Part → Look Bool
  | [], [] => return true
  | a :: as, b :: bs => do
    if ← samePart test a b then sameParts test as bs else return false
  | _, _ => return false

/-- What a descriptor says about being equal to another: units by the very object, deferred ones not at
all, the rest by variant and parts. -/
def descriptorEqual? (test : Value → Value → Look Bool) (a b : Descriptor) : Look (Option Value) := do
  match a, b with
  | .unit _ v, .unit _ w => return some (.bool (same v w))
  | .deferred .., _ => return none
  | _, _ =>
    if a.variant == b.variant then return some (.bool (← sameParts test a.parts b.parts))
    return none

/-- What the first value says about being equal to the second, or nothing. -/
def ownEqual? (eq : Value → Value → Look Value) (a b : Value) : Look (Option Value) := do
  let h ← read
  let test := alike eq
  let decided (b : Bool) : Option Value := some (.bool b)
  match a with
  | .bool _ | .int .. | .float .. =>
    match a.number?, b.number? with
    | some x, some y => return decided (x.beq y)
    | _, _ => return none
  | .str _ _ s => return b.text?.map fun t => .bool (s == t)
  | .bytes .. | .bytearray _ =>
    match bytes? h a, bytes? h b with
    | some x, some y => return decided (x == y)
    | _, _ => return none
  | .tuple .. | .pair .. =>
    match a.tuple?, b.tuple? with
    | some x, some y => return decided (← allAlike test x y)
    | _, _ => return none
  | .list _ i =>
    match list? h b with
    | some items => return decided (← sameItems test (h.list i) items)
    | none => return none
  | .dict _ i =>
    match b with
    | .dict _ j => return decided (← sameEntries test (h.dict i) (h.dict j))
    | _ => return none
  | .frozenMap _ entries =>
    match entries? h b with
    | some others => return decided (← sameEntries test entries others)
    | none => return none
  | .set _ | .frozenset .. =>
    match set? h a, set? h b with
    | some x, some y =>
      if x.length != y.length then return decided false
      return decided (← subset test x y)
    | _, _ => return none
  | .range _ r =>
    match b with
    | .range _ q => return decided (sameSpan r q)
    | _ => return none
  | .slice _ s t p =>
    match b with
    | .slice _ s' t' p' => return decided (← allAlike test [s, t, p] [s', t', p'])
    | _ => return none
  | .day _ d =>
    match b with
    | .day _ e => return decided (d == e)
    | _ => return none
  | .moment _ m =>
    match b with
    | .moment _ n => return decided (m == n)
    | _ => return none
  | .regex r =>
    match b with
    | .regex q => return decided (r.same q)
    | _ => return none
  | .typeHint n =>
    match b with
    | .typeHint m =>
      let unions := ["Union[int, str]", "int | str"]
      return decided (n == m || (unions.contains n && unions.contains m))
    | _ => return none
  | .success _ v =>
    match b with
    | .success _ w => return decided (← test v w)
    | _ => return none
  | .failure _ v =>
    match b with
    | .failure _ w => return decided (← test v w)
    | _ => return none
  | .mismatch _ e r v m =>
    match b with
    | .mismatch _ e' r' v' m' => return decided (← allAlike test [e, r, v, m] [e', r', v', m'])
    | _ => return none
  | .context i =>
    match b with
    | .context j =>
      let c := h.context i
      let d := h.context j
      return decided (← allAlike test
        [c.expected, c.actual, c.receiver, c.operation, c.position, c.name]
        [d.expected, d.actual, d.receiver, d.operation, d.position, d.name])
    | _ => return none
  | .checked _ i =>
    match b with
    | .checked _ j => return decided (← sameItems test (h.checkedList i).items (h.checkedList j).items)
    | .list _ j => return decided (← sameItems test (h.checkedList i).items (h.list j))
    | _ => return none
  | .thing .coin i =>
    match b with
    | .thing .coin j =>
      return some (← eq (← needAttribute .coin i "value") (← needAttribute .coin j "value"))
    | _ => return none
  | .thing .odd i =>
    match ← needAttribute .odd i "answer" with
    | .notImplemented => return none
    | answer => return some answer
  | .descriptor d =>
    match b with
    | .descriptor e => descriptorEqual? test d e
    | _ => return none
  | _ => return none

/-- Whether the second operand is asked first: its class derives from the first one's. -/
def reflectedFirst (a b : Value) : Bool :=
  a.classOf != b.classOf && b.classOf.mro.contains a.classOf

/-- The answers of the two operands, in the order in which they are asked. -/
def askBoth {α : Type} (ask : Value → Value → Look (Option α)) (a b : Value) (otherwise : α) :
    Look α := do
  let (x, y) := if reflectedFirst a b then (b, a) else (a, b)
  match ← ask x y with
  | some r => return r
  | none => return (← ask y x).getD otherwise

/-- The result of comparing two values for equality. -/
def equalAt : Nat → Value → Value → Look Value
  | 0, _, _ => throw .exhausted
  | fuel + 1, a, b => askBoth (ownEqual? (equalAt fuel)) a b (.bool (same a b))

def equal (a b : Value) : Look Value :=
  equalAt valueDepth a b

/-- Identity or equality, as containers decide it. -/
def isAlike (a b : Value) : Look Bool :=
  alike equal a b

/-- The result of comparing two values for difference: what an operand says about equality, negated. -/
def unequal (a b : Value) : Look Bool :=
  askBoth (fun x y => do
    match ← ownEqual? (equalAt valueDepth) x y with
    | some v => return some (!(← truth v))
    | none => return none) a b (!same a b)

end Conform.Value
