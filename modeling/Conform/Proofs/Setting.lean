import Conform.Proofs.Resolution

/-!
The setting of a run: the descriptors that come up in it, closed under their parts, and the values that are
called in it. A session fits a setting if what it holds and remembers is of the setting.

Main statements: `Setting.Familiar.lookup`, `Setting.Familiar.resolved_append`.
-/
namespace Conform

/-- The descriptors that come up in a run, and the values that are called in it. -/
structure Setting where
  functions : Library
  types : Descriptor → Prop
  callees : Value → Prop
  void : types .void
  children : ∀ {d}, types d → ∀ c ∈ d.children, types c
  predicates : ∀ {id message fn}, types (.predicate id message fn) → callees fn
  methods : ∀ {id bases predicates}, types (.constraint id bases predicates) → ∀ f ∈ predicates,
    ∀ {v w : Value} {s t}, v.attribute? f.1 s = .ok (some w) t → w.isBoundMethod → callees w
  arrays : ∀ {d}, types d → ∀ id, types (.collection id .array d)

namespace Setting

abbrev engine (S : Setting) (n : Nat) : Engine :=
  Engine.ofDepth S.functions n

/-- A session in which only descriptors of the setting have come up. -/
structure Familiar (S : Setting) (s : Session) : Prop where
  resolved : ∀ {id thunk d}, S.types (.deferred id thunk) → s.resolution? id = some d → S.types d
  elements : ∀ i, S.types (s.heap.checkedList i).element ∧ S.types (s.heap.checkedList i).collection
  results : ∀ t ∈ s.transforms, S.types t.result

/-- Whether what a value is read as is a descriptor of the setting. -/
def Reads (S : Setting) (v : Value) : Prop :=
  ∀ s d t, S.Familiar s → Descriptor.ofValue v s = .ok d t → S.types d

namespace Familiar

variable {S : Setting} {s t : Session}

variable (known : S.Familiar s)
include known

theorem aside (checked : t.heap.checked = s.heap.checked) (resolved : t.resolved = s.resolved)
    (transforms : t.transforms = s.transforms) : S.Familiar t where
  resolved node found := by
    refine known.resolved node ?_
    rwa [Session.resolution?, resolved] at found
  elements i := by
    have same : t.heap.checkedList i = s.heap.checkedList i := by rw [Heap.checkedList, checked, Heap.checkedList]
    rw [same]
    exact known.elements i
  results := by
    rw [transforms]
    exact known.results

theorem plainly (st : s.Plainly t) : S.Familiar t :=
  known.aside st.checked st.resolved st.transforms

theorem push {l : CheckedList} (element : S.types l.element) (collection : S.types l.collection) :
    S.Familiar { s with heap.checked := s.heap.checked.push l } where
  resolved := known.resolved
  elements i := by
    rw [checkedList_push]
    split
    · exact ⟨element, collection⟩
    · exact known.elements i
  results := known.results

theorem setChecked {i : Handle} {l : CheckedList} (element : l.element = (s.heap.checkedList i).element)
    (collection : l.collection = (s.heap.checkedList i).collection) :
    S.Familiar { s with heap.checked := s.heap.checked.setIfInBounds i l } where
  resolved := known.resolved
  elements j := by
    by_cases there : i < s.heap.checked.size
    · rw [checkedList_set there]
      split
      · rw [element, collection]
        exact known.elements i
      · exact known.elements j
    · rw [Array.setIfInBounds, dif_neg there]
      exact known.elements j
  results := known.results

/-- A node of the setting is resolved to a descriptor of the setting. -/
theorem resolved_append {id : Ident} {d : Descriptor} (unresolved : s.resolution? id = none)
    (hd : S.types d) (log : List String) : S.Familiar { s with log, resolved := s.resolved ++ [(id, d)] } where
  resolved {id' thunk d'} node found := by
    rw [resolution?_append unresolved] at found
    split at found
    · cases found
      exact hd
    · exact known.resolved node found
  elements := known.elements
  results := known.results

/-- What a transform is declared to give is of the setting. -/
theorem lookup {element fn : Value} {found : Option Descriptor}
    (run : Transforms.lookup element fn s = .ok found t) : ∀ d ∈ found, S.types d := by
  intro d hd
  obtain ⟨declared, mem, rfl⟩ := Transforms.lookup_mem run d hd
  exact known.results declared mem

end Familiar

end Setting

end Conform
