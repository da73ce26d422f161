import Conform.Sorting

/-!
Selecting the few best of many. A heap keeps the best seen so far with the worst of them on top; a
candidate that beats the top takes its place. Comparisons may act and may fail.
-/
namespace Conform.Selection

variable {m : Type → Type} [Monad m] {α : Type}

/-- Moves an element towards the top while it belongs above its parent, but not past `start`. -/
def climb (above : α → α → m Bool) (start : Nat) (heap : Array α) (i : Nat) : m (Array α) :=
  if _h : start < i then do
    let parent := (i - 1) / 2
    match heap[i]?, heap[parent]? with
    | some x, some p =>
      if ← above x p then climb above start (heap.swapIfInBounds i parent) parent else return heap
    | _, _ => return heap
  else return heap
termination_by i

/-- The child of a position that belongs on top. -/
def topChild (above : α → α → m Bool) (heap : Array α) (i : Nat) : m Nat :=
  match heap[2 * i + 1]?, heap[2 * i + 2]? with
  | some l, some r => do
    if ← above l r then return 2 * i + 1 else return 2 * i + 2
  | _, _ => return 2 * i + 1

/-- Moves an element down to a leaf, the better child taking its place each time; then up again to
where it belongs. The fuel is at least the number of elements. -/
def sink (above : α → α → m Bool) (start : Nat) : Nat → Array α → Nat → m (Array α)
  | 0, heap, i => climb above start heap i
  | fuel + 1, heap, i =>
    if i < heap.size / 2 then do
      let child ← topChild above heap i
      sink above start fuel (heap.swapIfInBounds i child) child
    else climb above start heap i

/-- Restores the order below a position. -/
def settle (above : α → α → m Bool) (heap : Array α) (i : Nat) : m (Array α) :=
  sink above i heap.size heap i

/-- Settles the first `n` positions from the last to the first. -/
def settleAll (above : α → α → m Bool) : Nat → Array α → m (Array α)
  | 0, heap => return heap
  | n + 1, heap => do settleAll above n (← settle above heap n)

/-- Arranges elements as a heap. -/
def heapify (above : α → α → m Bool) (heap : Array α) : m (Array α) :=
  settleAll above (heap.size / 2) heap

/-- Replaces the top. -/
def replaceTop (above : α → α → m Bool) (heap : Array α) (x : α) : m (Array α) :=
  settle above (heap.setIfInBounds 0 x) 0

end Conform.Selection
