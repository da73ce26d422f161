import Conform.Value

/-!
The parts that make up a descriptor. Two descriptors are equal if they are of one variant and their
parts are equal; a descriptor hashes as the tuple of its parts.
-/
namespace Conform.Descriptor

inductive Part where
  | value (v : Value)
  | child (d : Descriptor)
  | children (ds : List Descriptor)
  | named (fields : List (String × Descriptor))
  | names (ns : List String)

def parts : Descriptor → List Part
  | .any | .void | .never | .boolean | .truthy | .falsy | .jsonData | .deferred .. | .unit .. => []
  | .union _ types | .intersection _ types | .tupleOf _ types => [.children types]
  | .negation _ inner | .nilable _ inner => [.child inner]
  | .rangeOf _ element | .collection _ _ element | .checkedListOf _ element => [.child element]
  | .constraint _ bases predicates => [.children bases, .named predicates]
  | .shape _ fields => [.named fields]
  | .mappingOf _ key value => [.child key, .child value]
  | .instanceOf _ c | .classOf _ c | .descendantOf _ c => [.value (.cls c)]
  | .interface _ methods => [.names methods]
  | .predicate _ message fn => [.value message, .value fn]
  | .equal _ obj => [.value obj]
  | .within _ container => [.value container]
  | .regex _ pattern => [.value (.regex pattern)]

end Conform.Descriptor
