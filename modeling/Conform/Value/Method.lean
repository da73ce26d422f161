import Conform.CheckedList.Ordering
import Conform.CheckedList.Operation
import Conform.Text.Case
import Conform.Value.Attribute

/-!
The methods of plain data: numbers, texts, bytes, lists, tuples, sets, mappings, ranges, days.
-/
namespace Conform

/-- The day of the week, Monday being zero. -/
def Day.weekday (d : Day) : Nat :=
  let leap := d.year % 4 == 0 && (d.year % 100 != 0 || d.year % 400 == 0)
  let before := [0, 31, 59, 90, 120, 151, 181, 212, 243, 273, 304, 334].getD (d.month - 1) 0
  let y := d.year - 1
  let ordinal := y * 365 + y / 4 - y / 100 + y / 400 + before +
    (if leap && 2 < d.month then 1 else 0) + d.day
  (ordinal + 6) % 7

namespace Text

/-- The longest parts without white space. -/
def words {α : Type} (isBlank : α → Bool) : List α → List α → List (List α)
  | [], [] => []
  | [], word => [word.reverse]
  | c :: rest, word =>
    if isBlank c then (if word.isEmpty then [] else [word.reverse]) ++ words isBlank rest []
    else words isBlank rest (c :: word)

/-- A list without blanks at its ends. -/
def stripped {α : Type} (isBlank : α → Bool) (cs : List α) : List α :=
  ((cs.dropWhile isBlank).reverse.dropWhile isBlank).reverse

/-- The parts between separators. The fuel is the length of the list. -/
def parts {α : Type} [BEq α] (separator : List α) : Nat → List α → List α → List (List α)
  | 0, rest, part => [part.reverse ++ rest]
  | fuel + 1, rest, part =>
    if separator.isPrefixOf rest then part.reverse :: parts separator fuel (rest.drop separator.length) []
    else
      match rest with
      | [] => [part.reverse]
      | c :: rest => parts separator fuel rest (c :: part)

/-- White space among bytes. -/
def isBlankByte (b : UInt8) : Bool :=
  b == 32 || (9 ≤ b && b ≤ 13)

def isUpperByte (b : UInt8) : Bool :=
  65 ≤ b && b ≤ 90

def isLowerByte (b : UInt8) : Bool :=
  97 ≤ b && b ≤ 122

end Text

namespace Value

/-- The complaint about a call that does not fit. -/
def refuseCall {α : Type} (text : String) : Act α :=
  Act.fail (.callShape text)

/-- Refuses arguments by name. -/
def noKeywords (v : Value) (name : String) (keywords : Keywords) : Act Unit :=
  if keywords.isEmpty then return () else
  if name.startsWith "__" && !(name == "__contains__" && (v.isMapping || v.classOf.conforms .setLike)) then
    refuseCall ("wrapper " ++ name ++ "() takes no keyword arguments")
  else refuseCall (v.className ++ "." ++ name ++ "() takes no keyword arguments")

/-- Runs a method that takes no arguments. -/
def taking0 (v : Value) (name : String) (args : List Value) (body : Act Value) : Act Value :=
  if args.isEmpty then body
  else if name.startsWith "__" then refuseCall s!"expected 0 arguments, got {args.length}"
  else refuseCall (v.className ++ "." ++ name ++ s!"() takes no arguments ({args.length} given)")

/-- Runs a method that takes one argument. -/
def taking1 (v : Value) (name : String) (args : List Value) (body : Value → Act Value) : Act Value :=
  match args with
  | [a] => body a
  | _ => refuseCall (v.className ++ "." ++ name ++
      s!"() takes exactly one argument ({args.length} given)")

/-- Runs a special method that takes one argument. -/
def takingOperand (args : List Value) (body : Value → Act Value) : Act Value :=
  match args with
  | [a] => body a
  | _ => refuseCall s!"expected 1 argument, got {args.length}"

/-- The class of the iterator over a value. -/
def iteratorName (v : Value) : String :=
  match v with
  | .str .base _ s => if s.toList.all fun c => c.toNat < 128 then "str_ascii_iterator" else "str_iterator"
  | .str .derived .. => "str_iterator"
  | .dict .. => "dict_keyiterator"
  | .set _ | .frozenset .. => "set_iterator"
  | .list .. => "list_iterator"
  | .tuple .. | .pair .. => "tuple_iterator"
  | .bytes .. => "bytes_iterator"
  | .bytearray _ => "bytearray_iterator"
  | _ => "range_iterator"

def iterator (v : Value) : Act Value := do
  return .other (← Act.fresh) (.internal v.iteratorName)

/-- The methods that several kinds of values share. -/
def sharedMethod? (v : Value) (name : String) (args : List Value) : Option (Act Value) :=
  match name with
  | "__len__" => some (taking0 v name args do Act.newInt (← v.length))
  | "__iter__" => some (taking0 v name args v.iterator)
  | "__bool__" => some (taking0 v name args do return .bool (← v.truth))
  | "__contains__" =>
    let body (a : Value) : Act Value := do return .bool (← v.contains a)
    match v with
    | .set _ | .frozenset .. | .dict .. => some (taking1 v name args body)
    | _ => some (takingOperand args body)
  | _ => none

def numberMethod? (v : Value) (name : String) (args : List Value) : Option (Act Value) :=
  match v, name with
  | .float _ x, "__abs__" => some (taking0 v name args (Act.newFloat x.abs))
  | .float .., "conjugate" => some (taking0 v name args (pure v))
  | .float _ x, "is_integer" => some (taking0 v name args (return .bool x.exact.isIntegral))
  | _, _ =>
    match v.int?, name with
    | some n, "__abs__" => some (taking0 v name args (Act.newInt n.natAbs))
    | some n, "conjugate" => some (taking0 v name args (Act.newInt n))
    | some n, "bit_length" =>
      some (taking0 v name args (Act.newInt (if n == 0 then 0 else n.natAbs.log2 + 1)))
    | _, _ => none

/-- Texts joined by a separator. -/
def joinTexts (separator : String) (source : Value) : Act Value := do
  let items ← Act.handle .typeError source.items fun _ => Act.fail .joinNonIterable
  let texts ← items.zipIdx.mapM fun (item, i) =>
    match item.text? with
    | some t => (return t : Act String)
    | none => Act.fail (.joinItem i "str instance" item.operandName)
  Act.newStr (String.intercalate separator texts)

/-- The parts of a text between white space or between separators. -/
def splitText (s : String) (args : List Value) : Act Value := do
  let parts ← match args with
    | [] | [.nil] => pure (Text.words Text.isSpace s.toList [])
    | [a] =>
      match a.text? with
      | some "" => Act.fail .emptySeparator
      | some t => pure (Text.parts t.toList (s.length + 1) s.toList [])
      | none => Act.fail (.separatorKind ("must be str or None, not " ++ a.operandName))
    | _ => refuseCall s!"split() takes at most 2 arguments ({args.length} given)"
  Act.newList (← parts.mapM fun cs => Act.newStr (String.ofList cs))

def textMethod? (v : Value) (s : String) (name : String) (args : List Value) : Option (Act Value) :=
  match name with
  | "isdigit" => some (taking0 v name args (return .bool (s.length != 0 && s.toList.all Text.isDigit)))
  | "islower" => some (taking0 v name args (return .bool (Text.isLower s)))
  | "isupper" => some (taking0 v name args (return .bool (Text.isUpper s)))
  | "lower" => some (taking0 v name args (Act.newStr (Text.lower s)))
  | "upper" => some (taking0 v name args (Act.newStr (Text.upper s)))
  | "join" => some (taking1 v name args (joinTexts s))
  | "split" => some (splitText s args)
  | "strip" =>
    some (match args with
      | [] | [.nil] => Act.newStr (String.ofList (Text.stripped Text.isSpace s.toList))
      | [a] =>
        match a.text? with
        | some t => Act.newStr (String.ofList (Text.stripped t.toList.contains s.toList))
        | none => Act.fail (.separatorKind "strip arg must be None or str")
      | _ => refuseCall s!"strip expected at most 1 argument, got {args.length}")
  | _ => none

/-- Bytes of the same kind as a value. -/
def likeBytes (v : Value) (bs : List UInt8) : Act Value := do
  match v with
  | .bytearray _ => Act.newBuffer bs
  | _ => return .bytes (← Act.fresh) bs

def bytesMethod? (v : Value) (bs : List UInt8) (name : String) (args : List Value) : Option (Act Value) :=
  let cased := bs.any fun b => Text.isUpperByte b || Text.isLowerByte b
  match name with
  | "isdigit" => some (taking0 v name args (return .bool (!bs.isEmpty && bs.all fun b => 48 ≤ b && b ≤ 57)))
  | "islower" => some (taking0 v name args (return .bool (cased && !bs.any Text.isUpperByte)))
  | "isupper" => some (taking0 v name args (return .bool (cased && !bs.any Text.isLowerByte)))
  | "lower" =>
    some (taking0 v name args (likeBytes v (bs.map fun b => if Text.isUpperByte b then b + 32 else b)))
  | "upper" =>
    some (taking0 v name args (likeBytes v (bs.map fun b => if Text.isLowerByte b then b - 32 else b)))
  | "strip" => some (taking0 v name args (likeBytes v (Text.stripped Text.isBlankByte bs)))
  | "split" =>
    some (taking0 v name args do
      Act.newList (← (Text.words Text.isBlankByte bs []).mapM (likeBytes v)))
  | "join" =>
    some (taking1 v name args fun source => do
      let items ← Act.handle .typeError source.items fun _ => Act.fail .joinNonIterable
      let h ← Act.getHeap
      let parts ← items.zipIdx.mapM fun (item, i) =>
        match bytes? h item with
        | some part => (return part : Act (List UInt8))
        | none => Act.fail (.joinItem i "a bytes-like object" item.operandName)
      likeBytes v (List.flatten (parts.intersperse bs)))
  | _ => none

/-- The methods that change a byte buffer. -/
def bufferMethod? (v : Value) (at_ : Handle) (bs : List UInt8) (name : String) (args : List Value) :
    Option (Act Value) :=
  match name with
  | "clear" => some (taking0 v name args do
      Act.setBuffer at_ []
      return .nil)
  | "copy" => some (taking0 v name args (Act.newBuffer bs))
  | "reverse" => some (taking0 v name args do
      Act.setBuffer at_ bs.reverse
      return .nil)
  | "append" => some (taking1 v name args fun a => do
      let n ← a.asOffset
      if n < 0 || 255 < n then Act.fail .byteRange
      Act.setBuffer at_ (bs ++ [n.toNat.toUInt8])
      return .nil)
  | "pop" =>
    let pop (index : Value) : Act Value := do
      let i ← index.asOffset
      if bs.isEmpty then Act.fail (.emptyPop "bytearray")
      match Sequence.get? bs i, Sequence.delete? bs i with
      | some b, some rest =>
        Act.setBuffer at_ rest
        Act.newInt b.toNat
      | _, _ => Act.fail (.outOfRange "pop")
    some (match args with
      | [] => pop (.int .base 0 (-1))
      | [a] => pop a
      | _ => refuseCall s!"pop expected at most 1 argument, got {args.length}")
  | _ => bytesMethod? v bs name args

/-- The position of an item, or the complaint that it is not there. -/
def positionOf (items : List Value) (absent : Cause) (args : List Value) : Act Value := do
  match args with
  | [] => refuseCall "index expected at least 1 argument, got 0"
  | value :: bounds =>
    if 2 < bounds.length then
      refuseCall s!"index expected at most 3 arguments, got {args.length}"
    let bound (v : Value) : Look Int :=
      match v.int? with
      | some n => return n
      | none => Look.fail .badSliceBound
    let first ← match bounds[0]? with
      | some v => bound v
      | none => pure 0
    let last ← match bounds[1]? with
      | some v => bound v
      | none => pure sizeLimit
    let s := Sequence.slice items.length (some first) (some last) 1
    let place? ← s.positions.findM? fun i => do return ← isAlike (items[i]?.getD .nil) value
    match place? with
    | some i => Act.newInt i
    | none => Act.fail absent

def countOf (items : List Value) (value : Value) : Act Value := do
  let found ← items.filterM fun v => do return ← isAlike v value
  Act.newInt found.length

def listMethod? (e : Engine) (v : Value) (at_ : Handle) (items : List Value) (name : String)
    (args : List Value) (keywords : Keywords) : Option (Act Value) :=
  let set (items : List Value) : Act Value := do
    Act.setList at_ items
    return .nil
  match name with
  | "append" => some (taking1 v name args fun a => set (items ++ [a]))
  | "clear" => some (taking0 v name args (set []))
  | "copy" => some (taking0 v name args (Act.newList items))
  | "reverse" => some (taking0 v name args (set items.reverse))
  | "extend" => some (taking1 v name args fun a => do
      let more ← a.items
      set (items ++ more))
  | "insert" =>
    some (match args with
      | [i, a] => do set (← insertedAt items i a)
      | _ => refuseCall s!"insert expected 2 arguments, got {args.length}")
  | "remove" => some (taking1 v name args fun a => do set (← CheckedList.removeFirst a items))
  | "count" => some (taking1 v name args (countOf items))
  | "index" => some do
      let shown ← match args with
        | [] => pure ""
        | a :: _ => (a.shown : Look String)
      positionOf items (.absentFrom (shown ++ " is not in list")) args
  | "pop" =>
    let pop (index : Value) : Act Value := do
      let (item, rest) ← poppedAt items index
      Act.setList at_ rest
      return item
    some (match args with
      | [] => pop (.int .base 0 (-1))
      | [a] => pop a
      | _ => refuseCall s!"pop expected at most 1 argument, got {args.length}")
  | "sort" => some do
      if !args.isEmpty then refuseCall "sort() takes no positional arguments"
      let given (n : String) (default_ : Value) : Value :=
        (keywords.find? (·.1 == n)).elim default_ (·.2)
      match keywords.find? fun (n, _) => n != "key" && n != "reverse" with
      | some (n, _) => refuseCall ("'" ++ n ++ "' is an invalid keyword argument for sort()")
      | none =>
        let store (items : List Value) : Act Unit := Act.setList at_ items
        set (← CheckedList.sortItems e .nil (given "key" .nil) (given "reverse" (.bool false)) items store)
  | _ => none

def tupleMethod? (v : Value) (items : List Value) (name : String) (args : List Value) :
    Option (Act Value) :=
  match name with
  | "count" => some (taking1 v name args (countOf items))
  | "index" => some (positionOf items (.absentFrom "tuple.index(x): x not in tuple") args)
  | _ => none

def setMethod? (v : Value) (name : String) (args : List Value) : Option (Act Value) :=
  match v, name with
  | .frozenset .., "copy" => some (taking0 v name args (pure v))
  | .set i, "copy" => some (taking0 v name args do Act.newSet ((← Act.getHeap).set i))
  | .set i, "clear" => some (taking0 v name args do
      Act.setSet i []
      return .nil)
  | .set i, "pop" => some (taking0 v name args do
      match (← Act.getHeap).set i with
      | [] => Act.fail (.emptyCollectionPop "pop from an empty set")
      | a :: rest =>
        Act.setSet i rest
        return a)
  | _, _ => none

/-- Takes a key out of a dictionary. -/
def popKey (at_ : Handle) (key : Value) (default? : Option Value) : Act Value := do
  let entries := (← Act.getHeap).dict at_
  let _ ← key.hash
  match ← entryAt isAlike key entries, default? with
  | some w, _ =>
    let kept ← entries.filterM fun (k, _) => do return !(← isAlike k key)
    Act.setDict at_ kept
    return w
  | none, some w => return w
  | none, none =>
    let shown ← key.shown
    Act.fail (.keyMissing shown)

def dictMethod? (v : Value) (at_ : Handle) (name : String) (args : List Value) : Option (Act Value) :=
  match name with
  | "copy" => some (taking0 v name args do Act.newDict .base ((← Act.getHeap).dict at_))
  | "clear" => some (taking0 v name args do
      Act.setDict at_ []
      return .nil)
  | "keys" => some (taking0 v name args do return .keys (← Act.fresh) v)
  | "popitem" => some (taking0 v name args do
      match ((← Act.getHeap).dict at_).reverse with
      | [] => Act.fail (.emptyCollectionPop "popitem(): dictionary is empty")
      | (k, w) :: rest =>
        Act.setDict at_ rest.reverse
        Act.newTuple [k, w])
  | "pop" =>
    some (match args with
      | [] => refuseCall "pop expected at least 1 argument, got 0"
      | [key] => popKey at_ key none
      | [key, w] => popKey at_ key (some w)
      | _ => refuseCall s!"pop expected at most 2 arguments, got {args.length}")
  | _ => none

def regexMethod? (r : Regex) (name : String) (args : List Value) : Option (Act Value) :=
  match name, args with
  | "split", [] | "match", [] => some (refuseCall (name ++ "() missing required argument 'string' (pos 1)"))
  | "match", a :: _ => some do
      match a.text? with
      | none => Act.fail (.notSearchable a.operandName)
      | some s =>
        if r.binary then Act.fail .binaryPattern
        match r.search s with
        | some found => if found.span.1 == 0 then return .other (← Act.fresh) (.internal "Match") else return .nil
        | none => return .nil
  | _, _ => none

/-- The methods that a kind of plain values has for itself. -/
def ownMethod? (e : Engine) (h : Heap) (v : Value) (name : String) (args : List Value) (keywords : Keywords) :
    Option (Act Value) :=
  match v with
  | .str _ _ s => textMethod? v s name args
  | .bytes _ bs => bytesMethod? v bs name args
  | .bytearray i => bufferMethod? v i (h.buffer i) name args
  | .list _ i => listMethod? e v i (h.list i) name args keywords
  | .tuple .. | .pair .. => tupleMethod? v (v.tuple?.getD []) name args
  | .set _ | .frozenset .. => setMethod? v name args
  | .dict _ i => dictMethod? v i name args
  | .day _ d =>
    match name with
    | "isoformat" => some (taking0 v name args (Act.newStr d.iso))
    | "weekday" => some (taking0 v name args (Act.newInt d.weekday))
    | _ => none
  | .moment _ m =>
    match name with
    | "isoformat" => some (Act.newStr m.iso)
    | "weekday" => some (taking0 v name args (Act.newInt m.day.weekday))
    | _ => none
  | .regex r => regexMethod? r name args
  | _ => numberMethod? v name args

/-- Calls a method of a plain value by name. -/
def plainMethod? (e : Engine) (v : Value) (name : String) (args : List Value) (keywords : Keywords) :
    Act (Option (Act Value)) := do
  match ownMethod? e (← Act.getHeap) v name args keywords <|> sharedMethod? v name args with
  | some body => return some do
      if !(v.isList && name == "sort") then noKeywords v name keywords
      body
  | none => return none

end Value

end Conform
