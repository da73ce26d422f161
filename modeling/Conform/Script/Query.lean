import Conform.Script.Step

/-!
Questions that are answered at one go: which values match a descriptor, how descriptors stand to each
other, what a check answers, and how the library is set up.
-/
namespace Conform.Script

/-- A question to the library, or a script. -/
inductive Query where
  | matching (env : List (String × Expr)) (type : Expr) (values : List Expr)
  | subtyping (env : List (String × Expr)) (types : List Expr)
  | checking (env : List (String × Expr)) (actual expected : Expr) (enrich : Option (List (List Expr)))
  | steps (steps : List Step)
  | settings

/-- Binds names in order. -/
def bindAll (e : Engine) : List (String × Expr) → Act Unit
  | [] => return ()
  | (name, x) :: rest => do
    bindName name (← x.evaluate e)
    bindAll e rest

/-- Whether one value matches; the bare answer if there is nothing else to tell. -/
def matchOne (e : Engine) (d : Descriptor) (x : Expr) : Act Report := do
  match ← attempt (do e.accepts d (← x.evaluate e)) with
  | .ok answer =>
    match ← drain with
    | [] => return .bool answer
    | extras => return .record (("ok", .bool answer) :: extras)
  | .error f =>
    let fields ← Snapshot.fault f
    return .record (fields ++ (← drain))

def answerMatching (e : Engine) (env : List (String × Expr)) (type : Expr) (values : List Expr) :
    Act Report := do
  bindAll e env
  let d ← Descriptor.ofValue (← type.evaluate e)
  let described ← d.describe
  let results ← values.mapM (matchOne e d)
  return .record
    [("kind", .text d.variant.name), ("describe", .text described), ("results", .list results)]

/-- A table of answers, row by row. -/
def table (ds : List Descriptor) (ask : Descriptor → Descriptor → Act Bool) : Act Report := do
  let rows ← ds.mapM fun a => do
    let row ← ds.mapM fun b => do return Report.bool (← ask a b)
    return Report.list row
  return .list rows

def answerSubtyping (e : Engine) (env : List (String × Expr)) (types : List Expr) : Act Report := do
  bindAll e env
  let ds ← types.mapM fun t => do Descriptor.ofValue (← t.evaluate e)
  let described ← ds.mapM fun d => (d.describe : Look String)
  let below ← table ds e.subtype
  let equal ← table ds fun a b => do
    let answer ← Value.equal (.descriptor a) (.descriptor b)
    return ← answer.truth
  return .record
    [("describe", .list (described.map .text)), ("subtype", below), ("equal", equal)]

/-- Fills a context once for each list of arguments. -/
def fillAll (at_ : Handle) (fills : List (List Value)) : Act Unit :=
  fills.forM fun args => do
    let _ ← Calling.fillReceiver at_ args []

def answerChecking (e : Engine) (env : List (String × Expr)) (actual expected : Expr)
    (enrich : Option (List (List Expr))) : Act Report := do
  bindAll e env
  let fills ← match enrich with
    | some fills => do
      let evaluated ← fills.mapM fun args => Expr.evaluateAll e args
      pure (some evaluated)
    | none => pure none
  let v ← actual.evaluate e
  let expectedValue ← expected.evaluate e
  let before := (← Act.getHeap).contexts.size
  let outcome ← Check.check e v expectedValue fun at_ =>
    match fills with
    | some fills => fillAll at_ fills
    | none => return ()
  let called := fills.isSome && before < (← Act.getHeap).contexts.size
  let report ← Snapshot.value outcome
  let kind := match outcome with
    | .success .. => "Success"
    | _ => "Failure"
  return .record (
    [("outcome", report), ("enriched", .int (if called then 1 else 0)), ("repr_kind", .text kind)] ++
      (match outcome with
        | .success _ w => [("same", Report.bool (w.same v))]
        | _ => []))

/-- The names of the descriptor factories and constants. -/
def typeNames : List String :=
  ["Any_", "ArrayOf", "Boolean", "Callable_", "CheckedListOf", "ClassOf", "Constraint", "Date",
    "DateTime", "Deferred", "DescendantOf", "EnumerableOf", "Equal", "Falsy", "Float", "InstanceOf",
    "Integer", "Interface", "Intersection", "JSONData", "MappingOf", "Never", "Nilable", "Not", "Pattern",
    "Predicate", "RangeOf", "SetOf", "Shape", "String", "Truthy", "TupleOf", "Union", "Unit", "Void",
    "Within"]

/-- The names that the library makes known. -/
def exportedNames : List String :=
  ["ArgumentError", "CastironError", "CheckContext", "CheckedList", "CheckedListOf",
    "ConfigurationError", "Descriptor", "Failure", "ImmutableError", "Outcome", "OutcomeError", "Success",
    "TypeMismatchError", "check", "clear_transforms", "logger", "matches", "register_transform",
    "set_transform_cache_enabled", "set_verbosity", "subtype", "to_descriptor", "types",
    "unregister_transform"]

/-- How the library is set up. -/
def setup : Report :=
  let texts (names : List String) : Report := .list (names.map .text)
  let initial : Session := {}
  .record
    [("handlers", .int 1), ("version", .text "0.1.0"), ("logger", .text Logging.loggerName),
      ("level", .int initial.level), ("max_repr", .int Value.shownLimit),
      ("cache_default", .bool initial.transformsEnabled),
      ("format", .text "%(levelname)s:%(name)s: %(message)s"),
      ("levels", .list (Logging.levels.map .int)),
      ("singletons", texts ["NoneType", "NotImplementedType", "bool", "ellipsis"]),
      ("types", texts typeNames), ("exports", texts exportedNames),
      ("success_args", texts ["value"]), ("failure_args", texts ["error"])]

def Query.answer (e : Engine) : Query → Act Report
  | .matching env type values => answerMatching e env type values
  | .subtyping env types => answerSubtyping e env types
  | .checking env actual expected enrich => answerChecking e env actual expected enrich
  | .steps script => runSteps e script
  | .settings => return setup

/-- Answers a query in a session of its own. An error that no step or value takes is the answer. -/
def Query.run (e : Engine) (q : Query) : Act Report := do
  match ← attempt (q.answer e) with
  | .ok report => return report.extend (← drain)
  | .error f =>
    let fields ← Snapshot.fault f
    return .record (fields ++ (← drain))

/-- The text of the answer to a query. -/
def Query.text (e : Engine) (q : Query) : String :=
  match q.run e {} with
  | .ok report _ => report.render
  | .error _ _ => Report.null.render

end Conform.Script
