/-
  EventCalendar.Proofs.RunSort.Search

  What a search finds.  Nothing is asked of the elements that go left: they need
  not all stand before those that do not.  A search still ends at a place where
  one that goes left has a neighbour that does not.
-/

import EventCalendar.RunSort.Search

namespace EventCalendar.RunSort

variable {α : Type} {left : Nat → Bool} {count : Nat}

/-! ## Places -/

/-- Of `count` elements the one before a place goes left, and the one after it does not. -/
structure IsPlace (left : Nat → Bool) (count place : Nat) : Prop where
  le : place ≤ count
  before : place = 0 ∨ left (place - 1) = true
  after : place = count ∨ left place = false

/-- Halving keeps an element that goes left before what is looked at, and one that does not after
    it. -/
theorem isPlace_bisect {low size : Nat} (hle : low + size ≤ count)
    (hbefore : low = 0 ∨ left (low - 1) = true)
    (hafter : low + size = count ∨ left (low + size) = false) :
    IsPlace left count (bisect left low size) := by
  fun_induction bisect left low size with
  | case1 low => exact ⟨hle, hbefore, hafter⟩
  | case2 low size hsize hleft ih =>
    have hend : low + size / 2 + 1 + (size - size / 2 - 1) = low + size := by omega
    exact ih (by omega) (.inr hleft) (by rwa [hend])
  | case3 low size hsize hleft ih =>
    exact ih (by omega) hbefore (.inr (eq_false_of_ne_true hleft))

/-- The last step that is taken and the next one, which is not taken if it is within the limit. -/
theorem widen_spec (taken : Nat → Bool) {limit last next : Nat} (hlast : taken last = true)
    (hnext : last < next) (hlimit : last < limit) :
    ∃ last' next', widen taken limit last next = (last', next') ∧ last' < next' ∧
      next' ≤ limit ∧ taken last' = true ∧ (next' = limit ∨ taken next' = false) := by
  fun_induction widen taken limit last next with
  | case1 last next htaken ih => exact ih htaken.2 (by omega) htaken.1
  | case2 last next htaken =>
    refine ⟨last, min next limit, rfl, by omega, by omega, hlast, ?_⟩
    rcases Nat.lt_or_ge next limit with hlt | hge
    · rw [Nat.min_eq_left (Nat.le_of_lt hlt)]
      exact .inr (eq_false_of_ne_true fun h => htaken ⟨hlt, h⟩)
    · exact .inl (Nat.min_eq_right hge)

theorem isPlace_gallop {start : Nat} (hstart : start < count) :
    IsPlace left count (gallop left count start) := by
  unfold gallop
  cases hleft : left start with
  | true =>
    -- the last step to the right still leads to one that goes left
    have hzero : left (start + 0) = true := hleft
    obtain ⟨last, next, hwiden, hlt, hle, hlast, hnext⟩ :=
      widen_spec (fun d => left (start + d)) hzero Nat.one_pos (show 0 < count - start by omega)
    have hend : start + last + 1 + (next - last - 1) = start + next := by omega
    rw [if_pos rfl, hwiden]
    refine isPlace_bisect (by omega) (.inr hlast) ?_
    rw [hend]
    exact hnext.imp (fun h => by omega) id
  | false =>
    -- to the left the steps are taken as long as they lead to one that does not
    have hzero : (!left (start - 0)) = true := by rw [Nat.sub_zero, hleft]; rfl
    obtain ⟨last, next, hwiden, hlt, hle, hlast, hnext⟩ :=
      widen_spec (fun d => !left (start - d)) hzero Nat.one_pos (Nat.succ_pos start)
    have hend : start + 1 - next + (next - last - 1) = start - last := by omega
    rw [if_neg Bool.false_ne_true, hwiden]
    refine isPlace_bisect (by omega) ?_ (.inr ?_)
    · refine hnext.imp (fun h => by omega) fun h => ?_
      rw [show start + 1 - next - 1 = start - next by omega]
      simpa using h
    · rw [hend]
      simpa using hlast

/-! ## Runs -/

variable {first : α → Bool} {run : List α}

/-- A run is cut at a place into a beginning with an element at its end that goes first, and a rest
    that begins with one that does not. -/
theorem IsPlace.cut {place : Nat}
    (h : IsPlace (fun i => run[i]?.any first) run.length place) :
    (∀ a ∈ (run.take place).getLast?, first a = true) ∧
      ∀ a ∈ (run.drop place).head?, first a = false := by
  constructor
  · intro a ha
    rw [List.getLast?_take] at ha
    split at ha
    · cases ha
    · rename_i hplace
      have hbefore := h.before.resolve_left hplace
      have hle := h.le
      have hlast : run[place - 1]? = some run[place - 1] := List.getElem?_eq_getElem (by omega)
      rw [hlast, Option.some_or, Option.mem_some] at ha
      rw [hlast, ha] at hbefore
      exact hbefore
  · intro a ha
    rw [List.head?_drop] at ha
    rcases h.after with hplace | hafter
    · rw [hplace, List.getElem?_eq_none (Nat.le_refl _)] at ha
      cases ha
    · rw [Option.mem_def.mp ha] at hafter
      simpa using hafter

/-- A place among elements that are counted from the end is one among them as they stand. -/
theorem IsPlace.reverse {place : Nat}
    (h : IsPlace (fun i => !left (count - 1 - i)) count place) :
    IsPlace left count (count - place) where
  le := Nat.sub_le count place
  before := by
    rcases h.after with hplace | hafter
    · exact .inl (by omega)
    · rw [show count - place - 1 = count - 1 - place by omega]
      exact .inr (by simpa using hafter)
  after := by
    have hle := h.le
    rcases Nat.eq_zero_or_pos place with rfl | hpos
    · exact .inl rfl
    · have hbefore := h.before.resolve_left (Nat.ne_of_gt hpos)
      rw [show count - 1 - (place - 1) = count - place by omega] at hbefore
      exact .inr (by simpa using hbefore)

/-- From either side a run is cut into what goes first and the rest. -/
theorem lead_cut (side : Side) (first : α → Bool) (run : List α) :
    (∀ a ∈ (run.take (side.lead first run)).getLast?, first a = true) ∧
      ∀ a ∈ (run.drop (side.lead first run)).head?, first a = false := by
  rcases Nat.eq_zero_or_pos run.length with hrun | hrun
  · rw [List.length_eq_zero_iff.mp hrun]
    simp
  · cases side with
    | front => exact (isPlace_gallop hrun).cut
    | back => exact (isPlace_gallop (Nat.sub_lt hrun Nat.one_pos)).reverse.cut

end EventCalendar.RunSort
