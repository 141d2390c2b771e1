/-
  EventCalendar.RunSort.Merge

  Two runs made one.  The shorter one is put aside, and elements are taken from
  the two in order: one by one, or, once many in a row have come from the same
  run, as many at a time as go before the other run.
-/

import EventCalendar.RunSort.Search

namespace EventCalendar.RunSort

variable {α : Type}

/-! ## Two runs that are merged -/

/-- How elements are taken. -/
inductive Pace where
  /-- One by one, after so many in a row from the shorter or from the longer run. -/
  | single (ofShort ofLong : Nat)
  /-- As many at a time as go first. -/
  | gallop
  deriving DecidableEq, Repr

/-- Two runs on the way to one.  What is taken next stands at the heads. -/
structure Merging (α : Type) where
  /-- What has been taken, the last one first. -/
  merged : List α
  short : List α
  long : List α
  pace : Pace
  /-- How many in a row from one run there are before more are taken at a time. -/
  threshold : Nat
  deriving DecidableEq, Repr

/-- After so many at a time it is still worth while to look for more than one. -/
def leastGallop : Nat := 7

namespace Merging

/-- The longer run begins. -/
def start (threshold : Nat) (short long : List α) : Merging α :=
  ⟨(long.take 1).reverse, short, long.drop 1, .single 0 0, threshold⟩

/-- Only one run is left, or of the shorter one nothing but the element that comes last of all. -/
def isOver (m : Merging α) : Bool := m.short.tail.isEmpty || m.long.isEmpty

/-- All elements, once only one run is left. -/
def result (m : Merging α) : List α := m.merged.reverse ++ m.long ++ m.short

/-- With some elements taken from the shorter run. -/
def takeShort (count : Nat) (m : Merging α) : Merging α :=
  { m with merged := (m.short.take count).reverse ++ m.merged, short := m.short.drop count }

/-- With some elements taken from the longer run. -/
def takeLong (count : Nat) (m : Merging α) : Merging α :=
  { m with merged := (m.long.take count).reverse ++ m.merged, long := m.long.drop count }

section

variable (lt : α → α → Bool) (side : Side)

/-- The head of the longer run comes before that of the shorter one. -/
def longFirst (m : Merging α) : Bool :=
  m.long.head?.any fun y => m.short.head?.any fun x => lt y x

/-- One element is taken: of the longer run if its head comes first. -/
def single (ofShort ofLong : Nat) (m : Merging α) : Merging α :=
  if m.longFirst lt then
    { m.takeLong 1 with
      pace := if ofLong + 1 < m.threshold then .single 0 (ofLong + 1) else .gallop }
  else
    { m.takeShort 1 with
      pace := if ofShort + 1 < m.threshold then .single (ofShort + 1) 0 else .gallop }

/-- How many elements of the shorter run go first. -/
def leadShort (m : Merging α) : Nat :=
  side.lead (fun x => m.long.head?.all fun y => !lt y x) m.short

/-- How many elements of the longer run go first. -/
def leadLong (m : Merging α) : Nat :=
  side.lead (fun y => m.short.head?.all fun x => lt y x) m.long

/-- What goes first is taken from the shorter run, and one element from the longer one. -/
def passShort (m : Merging α) : Merging α :=
  let m := m.takeShort (m.leadShort lt side)
  if m.isOver then m else m.takeLong 1

/-- What goes first is taken from the longer run, and one element from the shorter one. -/
def passLong (m : Merging α) : Merging α :=
  let m := m.takeLong (m.leadLong lt side)
  if m.isOver then m else m.takeShort 1

/-- After both runs have had their turn, more than one is taken at a time as long as there were
    many. -/
def paced (many : Bool) (m : Merging α) : Merging α :=
  if m.isOver then m
  else if many then { m with threshold := max 1 (m.threshold - 1) }
  else { m with pace := .single 0 0, threshold := m.threshold + 1 }

/-- Each run has its turn, the left one first. -/
def round (m : Merging α) : Merging α :=
  match side with
  | .front =>
    let next := m.passShort lt side
    if next.isOver then next
    else (next.passLong lt side).paced
      (leastGallop ≤ m.leadShort lt side || leastGallop ≤ next.leadLong lt side)
  | .back =>
    let next := m.passLong lt side
    if next.isOver then next
    else (next.passShort lt side).paced
      (leastGallop ≤ m.leadLong lt side || leastGallop ≤ next.leadShort lt side)

/-- The next elements are taken. -/
def step (m : Merging α) : Merging α :=
  match m.pace with
  | .single ofShort ofLong => m.single lt ofShort ofLong
  | .gallop => m.round lt side

end

/-! ## Until one run is left -/

/-- The number of elements that have not been taken yet. -/
def remaining (m : Merging α) : Nat := m.short.length + m.long.length

variable {lt : α → α → Bool} {side : Side} {m : Merging α} {count : Nat}

theorem isOver_eq_false_iff : m.isOver = false ↔ 2 ≤ m.short.length ∧ 1 ≤ m.long.length := by
  rw [isOver, Bool.or_eq_false_iff, ← Bool.not_eq_true, ← Bool.not_eq_true, List.isEmpty_iff,
    List.isEmpty_iff, ← List.length_eq_zero_iff, ← List.length_eq_zero_iff, List.length_tail]
  omega

@[simp] theorem takeShort_zero (m : Merging α) : m.takeShort 0 = m := rfl

@[simp] theorem takeLong_zero (m : Merging α) : m.takeLong 0 = m := rfl

@[simp] theorem short_takeShort : (m.takeShort count).short = m.short.drop count := rfl

@[simp] theorem long_takeShort : (m.takeShort count).long = m.long := rfl

@[simp] theorem short_takeLong : (m.takeLong count).short = m.short := rfl

@[simp] theorem long_takeLong : (m.takeLong count).long = m.long.drop count := rfl

@[simp] theorem remaining_takeShort :
    (m.takeShort count).remaining = m.short.length - count + m.long.length := by
  rw [remaining, short_takeShort, long_takeShort, List.length_drop]

@[simp] theorem remaining_takeLong :
    (m.takeLong count).remaining = m.short.length + (m.long.length - count) := by
  rw [remaining, short_takeLong, long_takeLong, List.length_drop]

theorem remaining_paced (many : Bool) (m : Merging α) :
    (m.paced many).remaining = m.remaining := by
  unfold paced remaining
  split
  · rfl
  · split <;> rfl

theorem remaining_single_lt (h : m.isOver = false) (ofShort ofLong : Nat) :
    (m.single lt ofShort ofLong).remaining < m.remaining := by
  obtain ⟨hshort, hlong⟩ := isOver_eq_false_iff.mp h
  unfold single
  split
  · show (m.takeLong 1).remaining < m.remaining
    rw [remaining_takeLong, remaining]
    omega
  · show (m.takeShort 1).remaining < m.remaining
    rw [remaining_takeShort, remaining]
    omega

theorem remaining_passShort_lt (h : m.isOver = false) :
    (m.passShort lt side).remaining < m.remaining := by
  obtain ⟨hshort, hlong⟩ := isOver_eq_false_iff.mp h
  unfold passShort
  dsimp only
  split
  · rename_i hover
    -- nothing is over unless something has been taken
    have hcount : m.leadShort lt side ≠ 0 := by
      intro hzero
      rw [hzero, takeShort_zero, h] at hover
      cases hover
    rw [remaining_takeShort, remaining]
    omega
  · rw [remaining_takeLong, short_takeShort, long_takeShort, List.length_drop, remaining]
    omega

theorem remaining_passLong_lt (h : m.isOver = false) :
    (m.passLong lt side).remaining < m.remaining := by
  obtain ⟨hshort, hlong⟩ := isOver_eq_false_iff.mp h
  unfold passLong
  dsimp only
  split
  · rename_i hover
    have hcount : m.leadLong lt side ≠ 0 := by
      intro hzero
      rw [hzero, takeLong_zero, h] at hover
      cases hover
    rw [remaining_takeLong, remaining]
    omega
  · rw [remaining_takeShort, short_takeLong, long_takeLong, List.length_drop, remaining]
    omega

theorem remaining_step_lt (h : m.isOver = false) :
    (m.step lt side).remaining < m.remaining := by
  unfold step
  split
  · exact remaining_single_lt h _ _
  · unfold round
    cases side with
    | front =>
      dsimp only
      split
      · exact remaining_passShort_lt h
      · rename_i hopen
        rw [remaining_paced]
        exact Nat.lt_trans (remaining_passLong_lt (eq_false_of_ne_true hopen))
          (remaining_passShort_lt h)
    | back =>
      dsimp only
      split
      · exact remaining_passLong_lt h
      · rename_i hopen
        rw [remaining_paced]
        exact Nat.lt_trans (remaining_passShort_lt (eq_false_of_ne_true hopen))
          (remaining_passLong_lt h)

/-- Elements are taken until only one run is left. -/
def run (lt : α → α → Bool) (side : Side) (m : Merging α) : Merging α :=
  if m.isOver then m else run lt side (m.step lt side)
termination_by m.remaining
decreasing_by exact remaining_step_lt (eq_false_of_ne_true ‹_›)

end Merging

/-! ## Neighbouring runs -/

/-- Two runs as one, merged from the end of the shorter one, and the threshold for the next two. -/
def joinRuns (lt : α → α → Bool) (threshold : Nat) (left right : List α) : List α × Nat :=
  if left.length ≤ right.length then
    let m := (Merging.start threshold left right).run lt .front
    (m.result, m.threshold)
  else
    let m := (Merging.start threshold right.reverse left.reverse).run (fun a b => lt b a) .back
    (m.result.reverse, m.threshold)

/-- Two neighbouring runs as one. What stands in its place already, at the beginning of the left run
    and at the end of the right one, is left there. -/
def mergeRuns (lt : α → α → Bool) (threshold : Nat) (left right : List α) : List α × Nat :=
  let before := Side.front.lead (fun a => right.head?.all fun b => !lt b a) left
  let after := Side.back.lead (fun b => left.getLast?.all fun a => !lt b a) right.reverse
  let left' := left.drop before
  let right' := right.take (right.length - after)
  if left'.isEmpty || right'.isEmpty then (left ++ right, threshold)
  else
    let (merged, threshold) := joinRuns lt threshold left' right'
    (left.take before ++ merged ++ right.drop (right.length - after), threshold)

end EventCalendar.RunSort
