import Conform.Session

/-!
The three judgements that call each other: whether a value matches a descriptor, whether one descriptor
is a subtype of another, and what a call answers. Matching calls predicates and thunks, calls build
checked lists, and checked lists match.

Every rule is written over an engine that it takes as an argument. An engine of depth `n + 1` applies
the rules over the engine of depth `n`; one of depth zero gives up.
-/
namespace Conform

structure Engine where
  /-- Whether a value matches a descriptor. -/
  accepts : Descriptor → Value → Act Bool
  /-- Whether every value that matches the first descriptor is known to match the second. -/
  subtype : Descriptor → Descriptor → Act Bool
  /-- Calls a value with arguments. -/
  call : Value → List Value → Keywords → Act Value

namespace Engine

/-- The engine that gives up. -/
def exhausted : Engine where
  accepts _ _ := throw .exhausted
  subtype _ _ := throw .exhausted
  call _ _ _ := throw .exhausted

end Engine

end Conform
