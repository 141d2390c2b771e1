/-
  EventCalendar.RunSort.Search

  Where an element belongs in a run.  Elements of a run go to the left of it or
  do not, and the place between them is found by halving the run, or first by
  steps that double from one end of it.
-/

namespace EventCalendar.RunSort

variable {α : Type}

/-! ## Places -/

/-- The place at which elements cease to go left, among `size` places from `low` on: the middle one
    is looked at, and then one half of them. -/
def bisect (left : Nat → Bool) (low size : Nat) : Nat :=
  if size = 0 then low
  else if left (low + size / 2) then bisect left (low + size / 2 + 1) (size - size / 2 - 1)
  else bisect left low (size / 2)
termination_by size

/-- Steps of doubled width, 1, 3, 7 and so on, up to one that is not taken or to a limit: how far
    the last one went that was taken, and how far the next one would go. -/
def widen (taken : Nat → Bool) (limit last next : Nat) : Nat × Nat :=
  if next < limit ∧ taken next then widen taken limit next (2 * next + 1)
  else (last, min next limit)
termination_by limit - next

/-- The place at which elements cease to go left, among `count` elements: doubled steps are taken
    from one of them in the direction of the place, and the last step is halved. -/
def gallop (left : Nat → Bool) (count start : Nat) : Nat :=
  if left start then
    let (last, next) := widen (fun d => left (start + d)) (count - start) 0 1
    bisect left (start + last + 1) (next - last - 1)
  else
    let (last, next) := widen (fun d => !left (start - d)) (start + 1) 0 1
    bisect left (start + 1 - next) (next - last - 1)

/-! ## Runs -/

/-- The ends from which a run is looked at. -/
inductive Side where
  | front
  | back
  deriving DecidableEq, Repr

/-- How many elements of a run go first, one after the other, if those that do are told by a test.
    From the back the run is given the other way round, and its places count from its beginning. -/
def Side.lead (side : Side) (first : α → Bool) (run : List α) : Nat :=
  match side with
  | .front => gallop (fun i => run[i]?.any first) run.length 0
  | .back => run.length -
      gallop (fun i => !run[run.length - 1 - i]?.any first) run.length (run.length - 1)

end EventCalendar.RunSort
