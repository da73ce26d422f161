/-!
Sorting and selection with comparisons that may act and may fail. The sort takes the ascending or
strictly descending run at the start and inserts every later element after its equals, found by binary
search; it is stable, and if a comparison fails the elements stand as they were ordered until then.
-/
namespace Conform.Sorting

variable {m : Type → Type} [Monad m] {α : Type}

/-- How far a run goes on: `down` for a strictly descending one. -/
def runLength (less : α → α → m Bool) (down : Bool) : α → List α → m Nat
  | _, [] => return 0
  | previous, x :: xs => do
    if (← less x previous) == down then return (← runLength less down x xs) + 1
    return 0

/-- The length of the run at the start, and whether it descends. -/
def firstRun (less : α → α → m Bool) : List α → m (Nat × Bool)
  | [] => return (0, false)
  | [_] => return (1, false)
  | x :: y :: rest => do
    let down ← less y x
    return ((← runLength less down y rest) + 2, down)

/-- Binary search for the first place whose element the pivot is less than. The bounds are the left and
right end of what is still open, and the fuel is at least their distance. -/
def searchPlace (less : α → α → m Bool) (sorted : Array α) (pivot : α) : Nat → Nat → Nat → m Nat
  | 0, low, _ => return low
  | fuel + 1, low, high =>
    if low < high then do
      let middle := low + (high - low) / 2
      match sorted[middle]? with
      | none => return low
      | some x =>
        if ← less pivot x then searchPlace less sorted pivot fuel low middle
        else searchPlace less sorted pivot fuel (middle + 1) high
    else return low

/-- Inserts the elements one after the other. `report` is told the arrangement before each search, so
that it is known what stands if the search fails. -/
def insertAll (less : α → α → m Bool) (report : List α → m Unit) : List α → List α → m (List α)
  | sorted, [] => return sorted
  | sorted, x :: xs => do
    report (sorted ++ x :: xs)
    let place ← searchPlace less sorted.toArray x (sorted.length + 1) 0 sorted.length
    insertAll less report (sorted.insertIdx place x) xs

/-- A stable sort. -/
def sortReporting (less : α → α → m Bool) (report : List α → m Unit) (xs : List α) : m (List α) := do
  let (n, down) ← firstRun less xs
  let run := if down then (xs.take n).reverse else xs.take n
  insertAll less report run (xs.drop n)

def sort (less : α → α → m Bool) (xs : List α) : m (List α) :=
  sortReporting less (fun _ => return ()) xs

/-- A stable sort in falling order: equal elements keep their order. -/
def sortDown (less : α → α → m Bool) (xs : List α) : m (List α) := do
  return (← sort less xs.reverse).reverse

/-- The first element that no other beats. -/
def best (beats : α → α → m Bool) : α → List α → m α
  | champion, [] => return champion
  | champion, x :: xs => do
    if ← beats x champion then best beats x xs else best beats champion xs

end Conform.Sorting
