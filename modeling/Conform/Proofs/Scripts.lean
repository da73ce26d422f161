import Conform.Proofs.Course
import Conform.Script.Step

/-!
Whatever a script does has a habit that is claimed of whatever may come up: expressions are evaluated, classes
and methods called, operators applied, items and attributes read, written and deleted, the library's own
functions used, in any order and to any depth. Only the level of the log is set by a function that a habit may
leave out.

Main statements: `Habit.Wide.kept`, `Habit.perform_has`, `Course.runSteps_after`.
-/
namespace Conform

/-- Whether an action sets the level of the log. -/
def Script.Action.setsLevel : Action → Bool
  | .function name .. => name == "set_verbosity"
  | _ => false

namespace Habit

/-- A habit that is claimed of whatever calls may come by. -/
structure Wide (H : Habit) : Prop where
  types : ∀ d, H.types d
  callees : ∀ f, H.callees f
  receivers : ∀ i, H.receivers i
  bounds : H.reach = .calls ∨ H.reach = .all
  looks : H.Looks
  /-- A deferred descriptor is resolved once its thunk has been called. -/
  resolve : ∀ {e : Engine}, (∀ f args keywords, H.Has (e.call f args keywords)) → ∀ id thunk,
    H.Has (Descriptor.resolve e id thunk)
  recorded : ∀ name args keywords, H.Has (Calling.recordCall name args keywords)

/-- A habit that is claimed of whatever may come up. -/
structure Open (H : Habit) : Prop extends Wide H where
  reach : H.reach = .all
  bounds := .inr reach
  looks := .of_reach (reach ▸ rfl) (reach ▸ rfl)
  register : ∀ element fn result, H.Has (Transforms.register element fn result)
  unregister : ∀ element fn, H.Has (Transforms.unregister element fn)
  clear : H.Has Transforms.clear

/-- A library whose functions have a habit as soon as the calls that they make have it. -/
def Suits (H : Habit) (functions : Library) : Prop :=
  ∀ e, H.Kept e → ∀ name args keywords, H.Has (functions e name args keywords)

variable {α : Type} {H : Habit} {e : Engine}

namespace Wide

theorem plain (any : H.Wide) {x : Act α} (hx : x.Plain .calls) : H.Has x := by
  refine H.plain ?_ fun c secret => absurd secret (H.apart (any.receivers c))
  rcases any.bounds with bounds | bounds
  · exact bounds ▸ hx
  · exact bounds ▸ hx.all

theorem lift (any : H.Wide) (l : Look α) : H.Has (liftM l : Act α) :=
  any.plain (.lift l)

theorem reads (any : H.Wide) (v : Value) : H.Reads v :=
  fun _ d _ _ _ => any.types d

theorem engine (any : H.Wide) (accepts : ∀ d v, H.Has (e.accepts d v))
    (subtype : ∀ a b, H.Has (e.subtype a b))
    (call : ∀ f args keywords, H.Has (e.call f args keywords)) : H.Kept e where
  accepts _ := accepts _
  subtype _ _ := subtype _ _
  call _ := call _
  resolve _ := any.resolve call _ _
  target _ _ _ _ _ _ := any.types _

end Wide

theorem Open.plain (any : H.Open) {x : Act α} (hx : x.Plain .all) : H.Has x :=
  H.plain (any.reach ▸ hx) fun c secret => absurd secret (H.apart (any.receivers c))

section Calls

variable (any : H.Wide) (kept : H.Kept e)

include any kept

theorem construct_has (c : Class) (args : List Value) (keywords : Keywords) :
    H.Has (Construction.construct e c args keywords) := by
  have made (values element : Value) : H.Has (CheckedList.construct e c values element) :=
    kept.construct c values (any.reads element)
  unfold Construction.construct
  split
  · exact .bind (any.plain (accept_plain _ _ _)) fun _ => made _ _
  · exact .bind (any.plain (accept_plain _ _ _)) fun _ => made _ _
  all_goals exact any.plain (by grind)

theorem ofHint_has (hint : String) (args : List Value) (keywords : Keywords) :
    H.Has (Construction.ofHint e hint args keywords) := by
  have built := construct_has any kept
  unfold Construction.ofHint
  repeat' first
    | with_reducible refine Has.ite ?_ ?_
    | split
  all_goals first
    | exact built _ _ _
    | exact .fail _

theorem operate_has (self : CheckedList.Self) (op : CheckedList.Op) : H.Has (op.run e self) :=
  kept.operate (fun _ => any.receivers _) (fun _ => H.apart (any.receivers _)) any.looks
    (fun f _ => any.callees f) fun v _ => any.reads v

theorem applyShown_has (o : Operator) (shown : String) (a b : Value) :
    H.Has (Operator.applyShown e o shown a b) := by
  have ran := operate_has any kept
  unfold Operator.applyShown
  split
  · split
    · exact ran _ _
    · exact any.plain (by grind)
  · repeat' first
      | with_reducible refine Has.ite ?_ ?_
      | with_reducible refine Has.bind ?_ fun _ => ?_
      | split
    all_goals exact any.plain (by grind)

theorem applyInPlace_has (o : Operator) (a b : Value) : H.Has (Operator.applyInPlace e o a b) := by
  have applied := applyShown_has any kept
  unfold Operator.applyInPlace
  split
  · exact operate_has any kept _ _
  · exact any.plain (by grind)
  · exact any.plain (by grind)
  · refine .bind (any.plain (Operator.onSets?_plain o _ b)) fun found => ?_
    split
    · exact any.plain (by grind)
    · exact applied _ _ _ _
  · exact applied _ _ _ _

theorem get_has (v subscript : Value) : H.Has (Subscript.get e v subscript) := by
  refine .bind (any.plain .getHeap) fun h => ?_
  split
  · exact operate_has any kept _ _
  all_goals exact any.plain (by grind)

theorem set_has (v subscript value : Value) : H.Has (Subscript.set e v subscript value) := by
  refine .bind (any.plain .getHeap) fun h => ?_
  split
  · exact .bind (operate_has any kept _ _) fun _ => .pure _
  all_goals exact any.plain (by grind)

theorem delete_has (v subscript : Value) : H.Has (Subscript.delete e v subscript) := by
  refine .bind (any.plain .getHeap) fun h => ?_
  split
  · exact .bind (operate_has any kept _ _) fun _ => .pure _
  all_goals exact any.plain (by grind)

theorem listMethod?_has (v : Value) (i : Handle) (items : List Value) (name : String) (args : List Value)
    (keywords : Keywords) : ∀ body ∈ Value.listMethod? e v i items name args keywords, H.Has body := by
  unfold Value.listMethod?
  split <;> simp only [Option.mem_def, reduceCtorEq, Option.some.injEq, forall_eq', false_implies, implies_true]
  case h_11 =>
    have sorted (key falling : Value) : H.Has (CheckedList.sortItems e .nil key falling items (Act.setList i)) :=
      kept.sortItems (fun _ => any.callees _) (fun _ => any.callees _) falling items fun _ =>
        any.plain (.setList rfl _ _)
    repeat' first
      | with_reducible refine Has.ite ?_ ?_
      | with_reducible refine Has.bind ?_ fun _ => ?_
      | split
    all_goals first
      | exact sorted _ _
      | exact any.plain (by grind)
  all_goals exact any.plain (by grind)

theorem ownMethod?_has (h : Heap) (v : Value) (name : String) (args : List Value) (keywords : Keywords) :
    ∀ body ∈ Value.ownMethod? e h v name args keywords, H.Has body := by
  unfold Value.ownMethod?
  split
  case h_4 => exact listMethod?_has any kept _ _ _ _ _ _
  case h_10 | h_11 =>
    split <;> simp only [Option.mem_def, reduceCtorEq, Option.some.injEq, forall_eq', false_implies, implies_true]
    all_goals exact any.plain (by grind)
  all_goals
    intro body hb
    first
    | exact any.plain (Value.textMethod?_plain _ _ _ _ body hb)
    | exact any.plain (Value.bytesMethod?_plain _ _ _ _ body hb)
    | exact any.plain (Value.bufferMethod?_plain _ _ _ _ _ body hb)
    | exact any.plain (Value.tupleMethod?_plain _ _ _ _ body hb)
    | exact any.plain (Value.setMethod?_plain _ _ _ body hb)
    | exact any.plain (Value.dictMethod?_plain _ _ _ _ body hb)
    | exact any.plain (Value.regexMethod?_plain _ _ _ body hb)
    | exact any.plain (Value.numberMethod?_plain _ _ _ body hb)

theorem plainMethod?_has {v : Value} {name : String} {args : List Value} {keywords : Keywords} {s t : Session}
    {found : Option (Act Value)} (run : Value.plainMethod? e v name args keywords s = .ok found t) :
    ∀ body ∈ found, H.Has body := by
  have known : ∀ body ∈ (Value.ownMethod? e s.heap v name args keywords <|> v.sharedMethod? name args),
      H.Has body := by
    have own := ownMethod?_has any kept s.heap v name args keywords
    generalize Value.ownMethod? e s.heap v name args keywords = mine at own ⊢
    cases mine with
    | none => exact fun body shared => any.plain (v.sharedMethod?_plain name args body shared)
    | some body => exact own
  simp only [Value.plainMethod?, Act.bind_eq_ok, Act.getHeap_eq_ok] at run
  obtain ⟨_, _, ⟨rfl, rfl⟩, run⟩ := run
  generalize (Value.ownMethod? e s.heap v name args keywords <|> v.sharedMethod? name args) = offered at known run
  cases offered with
  | none =>
    obtain ⟨rfl, -⟩ := Act.pure_eq_ok.mp run
    rintro _ ⟨⟩
  | some body =>
    obtain ⟨rfl, -⟩ := Act.pure_eq_ok.mp run
    rintro _ ⟨⟩
    have hb := known body rfl
    exact .ite (.bind (any.plain (v.noKeywords_plain name keywords)) fun _ => hb) hb

theorem outcomeRaise_has (error : Value) : H.Has (Outcome.raise e error) := by
  have wrapped : H.Has (do throw (.raised (← Outcome.payloadError error)) : Act Value) :=
    any.plain (by grind)
  refine .ite (.throw _) ?_
  split
  · exact .ite (.bind (kept.call (any.callees _) [] []) fun _ => .throw _) wrapped
  · exact wrapped

theorem outcome_has (self : Value) (op : Outcome.Op) : H.Has (op.run e self) := by
  have called (f : Value) (args : List Value) : H.Has (e.call f args []) := kept.call (any.callees f) args []
  have raised := outcomeRaise_has any kept
  have steps (raising : Bool) (index : Nat) (current : Value) (steps : List Value) (last : Value) :
      H.Has (Outcome.runSteps e raising index current steps last) := by
    induction steps generalizing index current last with
    | nil => exact .pure last
    | cons step rest ih =>
      refine .bind (called step [current]) fun answer => ?_
      refine .bind (any.plain (Outcome.ensure_plain answer step)) fun result => ?_
      split
      · exact .bind (any.plain (trace_plain (by grind))) fun _ => .ite (raised _) (.pure _)
      · exact ih _ _ _
      · exact .pure _
  have lifted (raising : Bool) (error : Value) (chain : List Value) :
      H.Has (Outcome.liftFrom e raising error chain) := .ite (.fail _) (steps raising 0 error chain .nil)
  unfold Outcome.Op.run
  split
  · cases op with
    | map f => exact .bind (called f _) fun _ => any.plain (by grind)
    | bind f => exact .bind (called f _) fun _ => any.plain (by grind)
    | filter test onReject =>
      refine .bind (called test _) fun _ => .bind (any.lift _) fun _ => .ite (.pure _) ?_
      split
      · exact any.plain (by grind)
      · exact .bind (called _ _) fun _ => any.plain (by grind)
    | _ => exact .pure _
  · cases op with
    | valueOr fallback => exact called fallback _
    | raiseOrValue => exact raised _
    | lift chain => exact lifted false _ chain
    | liftOrRaise chain => exact lifted true _ chain
    | _ => exact .pure _
  · exact .pure _

theorem descriptorMethod_has (d : Descriptor) (name : String) (args : List Value) (keywords : Keywords) :
    H.Has (Calling.descriptorMethod e d name args keywords) := by
  have below (other : Value) : H.Has (Calling.isBelow e d other) := by
    unfold Calling.isBelow
    split
    · exact kept.subtype (any.types d) (any.types _)
    · have uncovered : H.Has (Descriptor.uncover e d) := by
        unfold Descriptor.uncover
        split
        · exact kept.resolve (any.types _)
        · exact .pure d
      refine .bind uncovered fun d => ?_
      split
      · exact .pure true
      · exact .bind (any.lift _) fun _ => any.lift _
  unfold Calling.descriptorMethod
  split
  · refine .bind (any.plain (accept_plain _ _ _)) fun _ => .bind (any.plain (.newTuple _)) fun _ => ?_
    exact kept.construct _ _ (any.reads _)
  · refine .bind (any.plain (accept_plain _ _ _)) fun b => ?_
    split
    · exact .bind (kept.accepts (any.types d) _) fun _ => .pure _
    · exact any.plain (by grind)
    · exact .bind (below _) fun _ => .pure _
    · exact .bind (kept.resolve (any.types _)) fun _ => .pure _
    · exact .pure _

theorem boundMethod_has (owner : Value) (name : String) (args : List Value) (keywords : Keywords) :
    H.Has (Calling.boundMethod e owner name args keywords) := by
  have called (f : Value) : H.Has (e.call f args keywords) := kept.call (any.callees f) args keywords
  have offered {body? : Option (Act Value)} (hb : ∀ body ∈ body?, H.Has body) :
      H.Has (body?.getD (Act.fail (.notCallable owner.operandName))) := by
    cases body? with
    | none => exact .fail _
    | some body => exact hb body rfl
  have animal : H.Has ((Zoo.method? owner owner.classOf name args keywords).getD
      (Act.fail (.notCallable owner.operandName))) :=
    offered fun body hb => any.plain (Zoo.method?_plain owner _ name args keywords body hb)
  have outcome : H.Has ((Outcome.invoke? e owner name args keywords).getD
      (Act.fail (.notCallable owner.operandName))) := by
    refine offered fun body hb => ?_
    obtain ⟨signature, -, rfl⟩ := Option.map_eq_some_iff.mp hb
    refine .bind (any.plain (accept_plain _ _ _)) fun bound => ?_
    split
    · exact outcome_has any kept _ _
    · exact .pure _
  unfold Calling.boundMethod
  split
  · refine offered fun body hb => ?_
    obtain ⟨signature, -, rfl⟩ := Option.map_eq_some_iff.mp hb
    refine .bind (any.plain (accept_plain _ _ _)) fun bound => ?_
    split
    · exact operate_has any kept _ _
    · exact .pure _
  · exact outcome
  · exact outcome
  · exact descriptorMethod_has any kept _ name args keywords
  · exact any.plain (Calling.fillReceiver_plain _ args keywords)
  · exact called _
  · exact called _
  · split
    · exact any.plain (.newList _)
    · exact called _
    · exact animal
  · exact called _
  · exact animal
  · exact animal
  · exact animal
  · refine .andThen (any.plain ?_) fun s found t inv run => ?_
    · unfold Value.plainMethod?
      grind
    · have known := plainMethod?_has any kept run
      cases found with
      | none => exact .fail _
      | some body => exact known body rfl

theorem unboundMethod_has (c : Class) (name : String) (args : List Value) (keywords : Keywords) :
    H.Has (Calling.unboundMethod e c name args keywords) := by
  unfold Calling.unboundMethod
  split
  · exact .fail _
  · exact .ite (boundMethod_has any kept _ name _ keywords) (.fail _)

theorem testPattern_has (r : Regex) (evaluator v : Value) :
    H.Has (Calling.testPattern e r evaluator v) := by
  have called (args : List Value) (keywords : Keywords) : H.Has (e.call evaluator args keywords) :=
    kept.call (any.callees _) args keywords
  unfold Calling.testPattern
  repeat' first
    | with_reducible refine Has.ite ?_ ?_
    | with_reducible refine Has.bind ?_ fun _ => ?_
    | split
  all_goals first
    | exact called _ _
    | exact any.plain (by grind)

end Calls

mutual

/-- Expressions are evaluated part by part. -/
theorem evaluate_has (any : H.Wide) (kept : H.Kept e) (x : Expr) : H.Has (x.evaluate e) := by
  unfold Expr.evaluate
  cases x with
  | list _ items | tuple items | set items | frozenset items | iter items | range items | slice items =>
    exact .bind (evaluateAll_has any kept items) fun _ => any.plain (by grind)
  | dict _ entries | frozenMap entries =>
    exact .bind (evaluateEntries_has any kept entries []) fun _ => any.plain (by grind)
  | success value | failure value =>
    exact .bind (evaluate_has any kept value) fun _ => any.plain (by grind)
  | pair left right =>
    refine .bind (evaluate_has any kept left) fun _ => .bind (evaluate_has any kept right) fun _ => ?_
    exact any.plain (by grind)
  | thing c attributes =>
    exact .bind (evaluateNamed_has any kept attributes []) fun _ => any.plain (by grind)
  | exception c args =>
    exact .bind (evaluateAll_has any kept args) fun _ => construct_has any kept c _ []
  | checked c values element frozen =>
    refine .bind (evaluate_has any kept values) fun vs => .bind (evaluate_has any kept element) fun t => ?_
    refine .bind (kept.construct c vs (any.reads t)) fun l => ?_
    split
    · exact operate_has any kept _ _
    · exact .pure _
  | factory name args keywords =>
    refine .bind (evaluateAll_has any kept args) fun _ => ?_
    exact .bind (evaluateNamed_has any kept keywords []) fun _ => any.plain (by grind)
  | _ => exact any.plain (by grind)

theorem evaluateAll_has (any : H.Wide) (kept : H.Kept e) (xs : List Expr) :
    H.Has (Expr.evaluateAll e xs) := by
  cases xs with
  | nil => exact .pure []
  | cons x rest =>
    unfold Expr.evaluateAll
    exact .bind (evaluate_has any kept x) fun _ => .bind (evaluateAll_has any kept rest) fun _ => .pure _

theorem evaluateEntries_has (any : H.Wide) (kept : H.Kept e) (entries : List (Expr × Expr))
    (known : List (Value × Value)) : H.Has (Expr.evaluateEntries e entries known) := by
  match entries with
  | [] => exact .pure known
  | (key, value) :: rest =>
    unfold Expr.evaluateEntries
    refine .bind (evaluate_has any kept key) fun _ => .bind (evaluate_has any kept value) fun _ => ?_
    exact .bind (any.lift _) fun _ => .bind (any.lift _) fun _ => evaluateEntries_has any kept rest _

theorem evaluateNamed_has (any : H.Wide) (kept : H.Kept e) (named : List (String × Expr))
    (known : Keywords) : H.Has (Expr.evaluateNamed e named known) := by
  match named with
  | [] => exact .pure known
  | (name, value) :: rest =>
    unfold Expr.evaluateNamed
    exact .bind (evaluate_has any kept value) fun _ => evaluateNamed_has any kept rest _

end

/-- A call has the habit, whatever is called. -/
theorem callStep_has {functions : Library} (any : H.Wide) (suits : H.Suits functions) (kept : H.Kept e)
    (callee : Value) (args : List Value) (keywords : Keywords) :
    H.Has (Calling.callStep functions e callee args keywords) := by
  have accepted (signature : Signature) : H.Has (signature.accept args keywords) :=
    any.plain (accept_plain signature args keywords)
  have recorded (name : String) (args : List Value) (keywords : Keywords) :
      H.Has (Calling.recordCall name args keywords) := any.recorded name args keywords
  unfold Calling.callStep
  split
  · have ran := suits e kept
    exact .ite (.bind (recorded _ _ _) fun _ => ran _ args keywords) (ran _ args keywords)
  · exact .bind (accepted _) fun _ => .bind (recorded _ _ _) fun _ => evaluate_has any kept _
  · exact construct_has any kept _ args keywords
  · exact ofHint_has any kept _ args keywords
  · exact .bind (accepted _) fun _ => testPattern_has any kept _ _ _
  · refine .bind (accepted _) fun _ => .bind (any.plain (.newTuple _)) fun _ => ?_
    exact kept.construct _ _ (any.reads _)
  · split
    · exact unboundMethod_has any kept _ _ args keywords
    · exact boundMethod_has any kept _ _ args keywords
  · split
    · exact unboundMethod_has any kept _ _ args keywords
    · exact boundMethod_has any kept _ _ args keywords
  · exact .ite (boundMethod_has any kept _ _ args keywords) (unboundMethod_has any kept _ _ args keywords)
  · exact boundMethod_has any kept _ _ args keywords
  · exact .fail _

/-- Engines of all depths have a habit that is claimed of whatever calls may come by. -/
theorem Wide.kept {functions : Library} (any : H.Wide) (suits : H.Suits functions) (n : Nat) :
    H.Kept (Engine.ofDepth functions n) := by
  induction n with
  | zero => exact any.engine (fun _ _ => .throw _) (fun _ _ => .throw _) fun _ _ _ => .throw _
  | succ n ih =>
    exact any.engine (fun d v => ih.acceptsStep (any.types d) v)
      (fun a b => ih.subtypeStep (any.types a) (any.types b)) (callStep_has any suits ih)

/-- The named functions have such a habit. -/
theorem Wide.suits (any : H.Wide) : H.Suits Zoo.library := by
  intro e kept name args keywords
  have offered {body? : Option (Act Value)} {otherwise : Act Value} (hb : ∀ body ∈ body?, H.Has body)
      (ho : H.Has otherwise) : H.Has (body?.getD otherwise) := by
    cases body? with
    | none => exact ho
    | some body => exact hb body rfl
  have unary (x : Value) : ∀ body ∈ Zoo.unary? e name x, H.Has body := by
    unfold Zoo.unary?
    split <;> simp only [Option.mem_def, reduceCtorEq, Option.some.injEq, forall_eq', false_implies, implies_true]
    case h_2 | h_3 =>
      exact .bind (any.plain (.newInt _)) fun _ => applyShown_has any kept _ _ _ _
    case h_5 | h_6 => exact construct_has any kept _ _ _
    case h_9 => exact .bind (any.plain (x.getAttribute_plain fun _ => rfl)) fun _ => kept.call (any.callees _) _ _
    case h_10 => exact get_has any kept _ _
    all_goals exact any.plain (by grind)
  have fixed : ∀ body ∈ (Zoo.variadic? name args keywords <|> Zoo.evaluator? name args keywords),
      H.Has body := by
    have first := Zoo.variadic?_plain (r := .calls) name args keywords
    generalize Zoo.variadic? name args keywords = mine at first ⊢
    cases mine with
    | none => exact fun body hb => any.plain (Zoo.evaluator?_plain name args keywords body hb)
    | some body => exact fun body hb => any.plain (first body hb)
  unfold Zoo.library
  generalize (Zoo.variadic? name args keywords <|> Zoo.evaluator? name args keywords) = body? at fixed ⊢
  cases body? with
  | some body => exact fixed body rfl
  | none =>
    refine .ite (.bind (any.plain (accept_plain _ _ _)) fun b => ?_)
      (.bind (any.plain (accept_plain _ _ _)) fun b => ?_)
    · exact offered (fun body hb => any.plain (Zoo.comparator?_plain _ _ _ body hb)) (.pure _)
    · exact offered (unary _) (.fail _)

section Functions

open Script

@[grind ←]
theorem reversedItems_plain (v : Value) : (reversedItems v).Plain .all := by
  unfold reversedItems
  split <;> grind

@[grind ←]
theorem isInstance_plain (v info : Value) : (Script.isInstance v info).Plain .all := by
  unfold Script.isInstance
  grind

@[grind ←]
theorem setAttribute_plain (on : Value) (name : String) (v : Value) : (setAttribute on name v).Plain .all := by
  unfold setAttribute readOnly
  repeat' first
    | with_reducible refine Act.Plain.ite ?_ ?_
    | with_reducible refine Act.Plain.bind ?_ fun _ => ?_
    | split
  all_goals grind

@[grind ←]
theorem deleteAttribute_plain (on : Value) (name : String) : (deleteAttribute on name).Plain .all := by
  unfold deleteAttribute readOnly
  repeat' first
    | with_reducible refine Act.Plain.ite ?_ ?_
    | with_reducible refine Act.Plain.bind ?_ fun _ => ?_
    | split
  all_goals grind

@[grind ←]
theorem attributeName_plain (v : Value) : (attributeName v).Plain .all := by
  unfold attributeName
  grind

@[grind ←]
theorem rangeContains_plain (container v : Value) : (rangeContains container v).Plain .all := by
  unfold rangeContains Descriptor.isWithin
  split
  · grind
  · refine .bind (Value.getAttribute_plain _ fun _ => rfl) fun _ => ?_
    refine .bind (Value.getAttribute_plain _ fun _ => rfl) fun _ => ?_
    exact .handle (.lift _) fun _ => .pure false

@[grind ←]
theorem strayAncestors_plain (v : Value) : (Nominal.strayAncestors v).Plain .all := by
  refine .bind (.lift _) fun _ => .get (fun _ _ alike => by rw [alike.strayAncestors rfl]) (fun _ _ _ => rfl) fun s => ?_
  refine .bind (.filterM fun _ => .lift _) fun known => ?_
  split
  · exact .pure _
  · refine .bind (trace_plain (by grind)) fun _ => .bind (.lift _) fun shown => .bind (record_plain _ _) fun _ => ?_
    refine .bind (.modify ?_ nofun ?_ fun _ _ _ => rfl) fun _ => .pure _
    · exact fun _ => ⟨rfl, rfl, rfl, rfl, rfl, rfl⟩
    · exact fun _ _ alike => { alike with strayAncestors := fun h => congrArg (· ++ [v]) (alike.strayAncestors h) }

@[grind ←]
theorem bindName_plain (name : String) (v : Value) : (bindName name v).Plain .all := by
  refine .modify (fun _ => ⟨rfl, rfl, rfl, rfl, rfl, rfl⟩) nofun (fun _ _ alike => ?_) fun _ _ _ => rfl
  exact { alike with names := congrArg (putAttribute name v) alike.names }

@[grind ←]
theorem resultFields_plain (v : Value) : (resultFields v).Plain .all := by
  have named : (namesOf v).Plain .all :=
    .ite (.pure _) (.get (fun _ _ alike => by rw [alike.names]) (fun _ _ _ => rfl) fun _ => .pure _)
  exact .bind (.lift _) fun _ => .bind named fun _ => .pure _

@[grind ←]
theorem size_plain : Transforms.size.Plain .all :=
  .get (fun _ _ alike => by rw [alike.transforms rfl]) (fun _ _ _ => rfl) fun _ => .pure _

@[grind ←]
theorem rememberedClasses_plain : rememberedClasses.Plain .all :=
  .get (fun _ _ alike => by rw [alike.ancestors rfl, alike.strayAncestors rfl]) (fun _ _ _ => rfl) fun _ => .newSet _

theorem isInstanceOf_has (any : H.Open) (v info : Value) : H.Has (isInstanceOf v info) := by
  unfold isInstanceOf
  split
  · exact isInstance_has v _
  · exact .bind (.remembered _) fun _ => any.plain (by grind)

theorem isSubclassOf_has (any : H.Open) (v info : Value) : H.Has (isSubclassOf v info) := by
  unfold isSubclassOf
  split
  · exact isSubclass_has v _
  · exact .bind (.remembered _) fun _ => any.plain (by grind)
  · exact .pure false

end Functions

section Steps

open Script


variable (any : H.Open) (kept : H.Kept e)

include any kept

theorem applyOperator_has (name : String) (on : Value) (args : List Value) :
    H.Has (applyOperator e name on args) := by
  have applied := applyShown_has any.toWide kept
  unfold applyOperator
  split
  · exact get_has any.toWide kept _ _
  · exact .bind (set_has any.toWide kept _ _ _) fun _ => .pure _
  · exact .bind (delete_has any.toWide kept _ _) fun _ => .pure _
  case h_14 | h_15 | h_16 | h_17 | h_18 => exact applied _ _ _ _
  case h_19 | h_20 => exact applyInPlace_has any.toWide kept _ _ _
  all_goals exact any.plain (by grind)

theorem check_has (actual expected : Value) {enrich : Handle → Act Unit} (he : ∀ i, H.Has (enrich i)) :
    H.Has (Check.check e actual expected enrich) := by
  refine .bind (any.plain (ofValue_plain expected)) fun d => .bind (kept.verify actual (any.types d) he) fun found => ?_
  split <;> exact any.plain (by grind)

theorem applyFunction_has {name : String} (loud : name = "set_verbosity" → ∀ level, H.Has (setVerbosity level))
    (b : Bound) : H.Has (applyFunction e name b) := by
  unfold applyFunction
  split
  · refine check_has any kept _ _ fun i => ?_
    split
    · exact .pure ()
    · exact .bind (kept.call (any.callees _) _ _) fun _ => .pure ()
  · exact .bind (.bind (any.plain (ofValue_plain _)) fun d => kept.accepts (any.types d) _) fun _ => .pure _
  · refine .bind (.bind (any.plain (ofValue_plain _)) fun a => ?_) fun _ => .pure _
    refine .bind (any.plain (ofValue_plain _)) fun b => ?_
    exact kept.subtype (any.types a) (any.types b)
  case h_6 => exact .bind (any.register _ _ _) fun _ => .pure _
  case h_8 => exact .bind (any.unregister _ _) fun _ => .pure _
  case h_9 => exact .bind any.clear fun _ => .pure _
  case h_12 => exact any.plain (.get (fun _ _ alike => by rw [alike.transformsEnabled rfl]) (fun off => by cases off) fun _ => .pure _)
  case h_13 => exact .bind (loud rfl _) fun _ => .pure _
  case h_14 => exact .bind (isInstanceOf_has any _ _) fun _ => .pure _
  case h_15 => exact .bind (isSubclassOf_has any _ _) fun _ => .pure _
  case h_19 =>
    refine .bind (any.plain (attributeName_plain _)) fun _ => .bind (kept.readAttribute? ?_ ?_) fun _ => .pure _
    · exact any.plain (Value.attribute?_plain _ fun _ => rfl)
    · exact fun _ _ => any.callees _
  case h_20 =>
    split
    · exact .bind (.remembered _) fun _ => any.plain (.newSet _)
    · exact any.plain (by grind)
  all_goals exact any.plain (by grind)

theorem perform_has {action : Action} (loud : action.setsLevel = true → ∀ level, H.Has (setVerbosity level))
    (on : Value) : H.Has (action.perform e on) := by
  cases action with
  | eval value => exact evaluate_has any.toWide kept value
  | build c values element =>
    refine .bind (evaluate_has any.toWide kept values) fun _ => .bind (evaluate_has any.toWide kept element) fun t => ?_
    exact kept.construct c _ (any.reads t)
  | call _ method args keywords =>
    refine .bind (evaluateAll_has any.toWide kept args) fun _ => .bind (evaluateNamed_has any.toWide kept keywords []) fun _ => ?_
    exact .bind (any.plain (on.getAttribute_plain fun _ => rfl)) fun f => kept.call (any.callees f) _ _
  | operate _ operator args =>
    exact .bind (evaluateAll_has any.toWide kept args) fun _ => applyOperator_has any kept operator on _
  | read _ name => exact any.plain (on.getAttribute_plain fun _ => rfl)
  | write _ name value => exact .bind (evaluate_has any.toWide kept value) fun _ => any.plain (by grind)
  | delete _ name => exact .bind (any.plain (deleteAttribute_plain on name)) fun _ => .pure _
  | function name args keywords =>
    refine .bind (evaluateAll_has any.toWide kept args) fun _ => .bind (evaluateNamed_has any.toWide kept keywords []) fun _ => ?_
    unfold callFunction
    split
    · refine .bind (any.plain (accept_plain _ _ _)) fun b => applyFunction_has any kept (fun named => loud ?_) b
      simp [Action.setsLevel, named]
    · exact .fail _

end Steps

end Habit

namespace Course

variable {α : Type} {W : Course} {e : Engine}

open Script

/-- A course on which anything may come up. -/
structure Open (W : Course) : Prop where
  types : ∀ d, W.types d
  callees : ∀ f, W.callees f
  resolved : ∀ {s id d}, W.inv s → s.resolved.find? (·.1 == id) = none →
    W.rel s { s with resolved := s.resolved ++ [(id, d)] } ∧
      W.inv { s with resolved := s.resolved ++ [(id, d)] }
  level : ∀ {s n}, W.inv s → W.rel s { s with level := n } ∧ W.inv { s with level := n }
  calls : ∀ {s calls}, W.inv s → W.rel s { s with calls } ∧ W.inv { s with calls }
  recovered : ∀ {s f t}, W.fail s f t → W.rel s t

namespace Open

variable (any : W.Open)
include any

/-- A deferred descriptor is resolved once its thunk has been called. -/
theorem resolve (call : ∀ f args keywords, W.Keeps (e.call f args keywords)) (id : Ident) (thunk : Value) :
    W.Keeps (Descriptor.resolve e id thunk) := by
  refine .bind .get fun s => ?_
  split
  · exact .pure _
  · refine .bind (call thunk [] []) fun v => .bind (.plain (ofValue_plain v)) fun d => .leads fun s inv => ?_
    rw [Act.after_congr (Act.bind_of_ok (Act.get_eq_ok.mpr ⟨rfl, rfl⟩))]
    cases found : s.resolved.find? (·.1 == id) with
    | none => exact note_after inv fun kept => any.resolved kept found
    | some entry => exact ⟨W.refl s, inv⟩

theorem register (element fn result : Value) : W.Keeps (Transforms.register element fn result) := by
  refine .bind (.plain (ofValue_plain element)) fun source => .bind (.plain (ofValue_plain result)) fun target => ?_
  refine .bind (.plain (keyOf_plain source)) fun key => .bind (.lift _) fun _ => .bind .get fun s => ?_
  refine .bind (.lift _) fun table => .bind (.leads fun s inv => ?_) fun _ => .plain (trace_plain (by grind))
  exact W.declared inv fun t _ => any.types _

theorem unregister (element fn : Value) : W.Keeps (Transforms.unregister element fn) := by
  refine .bind (.plain (query_plain element fn)) fun key => .bind .get fun s => .bind (.lift _) fun found => ?_
  refine .bind .get fun s => .bind (.lift _) fun table => .bind (.leads fun s inv => ?_) fun _ => .pure _
  exact W.declared inv fun t _ => any.types _

theorem clear : W.Keeps Transforms.clear :=
  .leads fun _ inv => W.declared inv fun t _ => any.types t.result

theorem recorded (name : String) (args : List Value) (keywords : Keywords) :
    W.Keeps (Calling.recordCall name args keywords) :=
  .leads fun _ inv => any.calls inv

theorem habit : W.habit.Open where
  types := any.types
  callees := any.callees
  receivers _ := trivial
  reach := rfl
  resolve := any.resolve
  recorded := any.recorded
  register := any.register
  unregister := any.unregister
  clear := any.clear

theorem setVerbosity (level : Value) : W.Keeps (setVerbosity level) := by
  have set (n : Int) : W.Keeps (modify fun s => { s with level := n } : Act PUnit) :=
    .leads fun s inv => any.level inv
  unfold Script.setVerbosity
  repeat' first
    | with_reducible refine Keeps.ite ?_ ?_
    | with_reducible refine Keeps.bind ?_ fun _ => ?_
    | split
  all_goals first
    | exact set _
    | exact .plain (by grind)

theorem attempt {x : Act α} (hx : W.Keeps x) : W.Keeps (attempt x) := by
  refine .leads fun s inv => ?_
  cases run : x s with
  | ok a t =>
    have ends : (Script.attempt x).after s = t := by simp only [Act.after, Script.attempt, run]
    rw [ends]
    exact hx.ok inv run
  | error f t =>
    have ends : (Script.attempt x).after s = t := by simp only [Act.after, Script.attempt, run]
    rw [ends]
    exact (hx.error inv run).imp any.recovered id

theorem drain : W.Keeps drain := by
  refine .leads fun s inv => ?_
  -- What is written back was read at the start, so only the records are changed.
  have reported : (do
      let calls ← s.calls.mapM fun c => (Snapshot.tracedCall c : Look Report)
      return (if calls.isEmpty then [] else [("calls", Report.list calls)]) ++
        (if s.log.isEmpty then [] else [("log", .list (s.log.map .text))]) : Act (List (String × Report))).Plain .all :=
    .bind (.mapM fun _ => .lift _) fun _ => .pure _
  obtain ⟨first, inv⟩ : W.rel s { s with calls := [] } ∧ W.inv { s with calls := [] } := any.calls inv
  have cleared : Session.Plainly { s with calls := [] } { s with calls := [], log := [] } :=
    ⟨rfl, rfl, rfl, rfl, rfl, rfl⟩
  have rest := W.plain inv (cleared.trans (reported.leads _))
  exact ⟨W.trans first rest.1, rest.2⟩

end Open

theorem step_keeps (any : W.Open) (kept : W.Kept e) (step : Step) : W.Keeps (step.run e) := by
  have performed (on : Value) : W.Keeps (attempt (step.action.perform e on)) :=
    any.attempt (Habit.perform_has any.habit kept (fun _ => any.setVerbosity) on)
  unfold Step.run
  refine .bind (any.attempt ?_) fun subject => ?_
  · split
    · exact .bind (Habit.evaluate_has any.habit.toWide kept _) fun _ => .pure _
    · exact .pure _
  · repeat' first
      | with_reducible refine Keeps.bind ?_ fun _ => ?_
      | split
    all_goals first
      | exact performed _
      | exact any.drain
      | exact .plain (by grind)

/-- What a script does, step by step, keeps to a course on which anything may come up. -/
theorem runSteps_keeps (any : W.Open) (kept : W.Kept e) (steps : List Step) : W.Keeps (runSteps e steps) :=
  .bind (Habit.Has.mapM (H := W.habit) fun step => step_keeps any kept step) fun _ => .pure _

/-- How a session stands to the one in which a script was started. -/
theorem runSteps_after (any : W.Open) (n : Nat) (steps : List Step) {s : Session} (inv : W.inv s) :
    W.rel s ((runSteps (Engine.ofDepth Zoo.library n) steps).after s) ∧
      W.inv ((runSteps (Engine.ofDepth Zoo.library n) steps).after s) :=
  (runSteps_keeps any (any.habit.kept any.habit.suits n) steps).after inv any.recovered

end Course

end Conform
