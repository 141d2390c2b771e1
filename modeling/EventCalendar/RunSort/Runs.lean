/-
  EventCalendar.RunSort.Runs

  Sorting by the runs that a list has.  Neighbouring elements that ascend or
  descend make up a run, short runs are extended, and runs are merged with their
  neighbours in an order that depends on where they lie in the list.  Elements
  of which neither comes before the other keep their order.
-/

import EventCalendar.RunSort.Merge

namespace EventCalendar.RunSort

variable {α : Type} (lt : α → α → Bool)

/-! ## The next run -/

/-- The elements at the beginning of a list that go on from another one in one direction, and the
    rest. -/
def goingOn (descends : Bool) (last : α) : List α → List α × List α
  | [] => ([], [])
  | a :: l =>
    if lt a last == descends then
      let (run, rest) := goingOn descends a l
      (a :: run, rest)
    else ([], a :: l)

/-- The elements at the beginning of a list that ascend, or that descend and are turned round, and
    the rest. -/
def naturalRun : List α → List α × List α
  | [] => ([], [])
  | a :: l =>
    let descends := l.head?.any (lt · a)
    let (run, rest) := goingOn lt descends a l
    (if descends then (a :: run).reverse else a :: run, rest)

/-- A run with one more element, after those that it does not come before. -/
def insert (run : List α) (a : α) : List α :=
  let place := bisect (fun i => run[i]?.any fun b => !lt a b) 0 run.length
  run.take place ++ a :: run.drop place

/-- The run at the beginning of a list, extended to a least length, and the rest. -/
def nextRun (least : Nat) (l : List α) : List α × List α :=
  let (run, rest) := naturalRun lt l
  let missing := least - run.length
  ((rest.take missing).foldl (insert lt) run, rest.drop missing)

/-- The least length of a run: the length of the list, halved until it is less than 64, and one more
    if a half was left over. -/
def leastLength (length : Nat) (leftOver : Nat) : Nat :=
  if length < 64 then length + leftOver else leastLength (length / 2) (max leftOver (length % 2))
termination_by length

/-! ## Runs that wait -/

/-- A run that waits to be merged with the next one. -/
structure Waiting (α : Type) where
  run : List α
  /-- The depth of the boundary to the next run, in a tree that halves the list. -/
  depth : Nat
  deriving DecidableEq, Repr

/-- The runs that have been found. -/
structure Stack (α : Type) where
  /-- The runs before the last one, the nearest one first. -/
  waiting : List (Waiting α)
  last : List α
  threshold : Nat
  deriving DecidableEq, Repr

/-- The depth of the boundary between two runs: the first at which their middles lie in different
    parts of the list.  The middles are given as the double of the first one, and of the way from
    it to the second one. -/
def boundaryDepth (length middle way : Nat) : Nat :=
  if 0 < way ∧ way < length ∧ middle / length = (middle + way) / length then
    boundaryDepth length (2 * middle) (2 * way) + 1
  else 1
termination_by length - way

/-- The last run is merged with those before it whose boundaries lie deeper than the next one. -/
def collapse (depth : Nat) : List (Waiting α) → List α → Nat → Stack α
  | [], last, threshold => ⟨[], last, threshold⟩
  | w :: waiting, last, threshold =>
    if depth < w.depth then
      let (merged, threshold) := mergeRuns lt threshold w.run last
      collapse depth waiting merged threshold
    else ⟨w :: waiting, last, threshold⟩

/-- One more run is put on the stack, of a list of some length. -/
def Stack.push (length : Nat) (s : Stack α) (run : List α) : Stack α :=
  let start := (s.waiting.flatMap (·.run)).length
  let depth := boundaryDepth length (2 * start + s.last.length) (s.last.length + run.length)
  let collapsed := collapse lt depth s.waiting s.last s.threshold
  ⟨⟨collapsed.last, depth⟩ :: collapsed.waiting, run, collapsed.threshold⟩

/-- All runs are merged, given the last one first.  The one before the last goes with the shorter
    one of its neighbours. -/
def mergeAll (threshold : Nat) : List (List α) → List α
  | [] => []
  | [run] => run
  | [right, left] => (mergeRuns lt threshold left right).1
  | last :: middle :: first :: runs =>
    if first.length < last.length then
      let (merged, threshold) := mergeRuns lt threshold first middle
      mergeAll threshold (last :: merged :: runs)
    else
      let (merged, threshold) := mergeRuns lt threshold middle last
      mergeAll threshold (merged :: first :: runs)
termination_by runs => runs.length

/-- The runs of a stack, the last one first. -/
def Stack.runs (s : Stack α) : List (List α) := s.last :: s.waiting.map (·.run)

/-- All runs of the stack are merged. -/
def Stack.merged (s : Stack α) : List α := mergeAll lt s.threshold s.runs

/-! ## Sorting -/

theorem goingOn_append (descends : Bool) (last : α) (l : List α) :
    (goingOn lt descends last l).1 ++ (goingOn lt descends last l).2 = l := by
  induction l generalizing last with
  | nil => rfl
  | cons a l ih =>
    rw [goingOn]
    split
    · exact congrArg (a :: ·) (ih a)
    · rfl

theorem length_nextRun_lt (least : Nat) (a : α) (l : List α) :
    (nextRun lt least (a :: l)).2.length < (a :: l).length := by
  have happend := congrArg List.length (goingOn_append lt (l.head?.any (lt · a)) a l)
  rw [List.length_append] at happend
  rw [nextRun, naturalRun, List.length_drop, List.length_cons]
  omega

/-- The runs of a list are put on a stack. -/
def gather (length least : Nat) (s : Stack α) : List α → Stack α
  | [] => s
  | a :: l =>
    let next := nextRun lt least (a :: l)
    gather length least (s.push lt length next.1) next.2
termination_by l => l.length
decreasing_by exact length_nextRun_lt lt least a l

/-- A list in order.  Elements of which neither comes before the other keep their order. -/
def sort (l : List α) : List α :=
  let least := leastLength l.length 0
  let (run, rest) := nextRun lt least l
  (gather lt l.length least ⟨[], run, leastGallop⟩ rest).merged lt

end EventCalendar.RunSort
