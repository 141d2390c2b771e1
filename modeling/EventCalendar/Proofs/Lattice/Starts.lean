/-
  EventCalendar.Proofs.Lattice.Starts

  The starts of a series as one list.  Every step leads to a later day, so that
  the starts from any start on end with the calendar; the list holds what the
  steps give one after the other, however many are asked for.
-/

import EventCalendar.Lattice
import EventCalendar.Proofs.Outcome
import EventCalendar.Proofs.Time.Months

namespace EventCalendar

open EventCalendar.Time

/-! ## One step -/

theorem daysToWorkday_pos (m : Moment) : 1 ≤ daysToWorkday m := by
  unfold daysToWorkday
  split
  · decide
  · split <;> decide

/-- The next listed weekday is the first of the next seven days, or the seventh. -/
theorem daysToListed_pos (weekdays : List Nat) (m : Moment) : 1 ≤ daysToListed weekdays m := by
  unfold daysToListed
  cases h : [1, 2, 3, 4, 5, 6, 7].find? fun days =>
      weekdays.contains (calendarWeekdayAfter m days) with
  | none => decide
  | some days =>
    have hmem := List.mem_of_find?_eq_some h
    simp only [List.mem_cons, List.not_mem_nil, or_false] at hmem
    simp only [Option.getD_some]
    omega

theorem lt_of_mem_weekdayOffsets {monthStart : Moment} {weekday : Int} {offset : Nat}
    (h : offset ∈ weekdayOffsets monthStart weekday) :
    offset < monthLength monthStart.date.year monthStart.date.month - monthStart.date.day + 1 := by
  simp only [weekdayOffsets, List.mem_filter, List.mem_range] at h
  exact h.1

/-- The day with a weekday is one of the month's days that are left. -/
theorem nthWeekday_spec {monthStart m : Moment} {weekday ordinal : Int}
    (h : nthWeekday monthStart weekday ordinal = .ok m) :
    ∃ offset ∈ weekdayOffsets monthStart weekday, dayAt monthStart offset = .ok m := by
  unfold nthWeekday at h
  dsimp only at h
  split at h
  · rename_i offset hoffset
    unfold nthOffset? at hoffset
    split at hoffset
    · cases hoffset
    · exact ⟨offset, List.mem_of_getElem? hoffset, h⟩
  · obtain ⟨-, -, h⟩ := bind_eq_ok_iff.mp h
    split at h
    · rename_i offset hlast
      exact ⟨offset, List.mem_of_getLast? hlast, h⟩
    · cases h

/-- The search for a weekday stays in the month, at its time of day. -/
theorem monthIndex_nthWeekday {monthStart m : Moment} {weekday ordinal : Int}
    (hlater : monthStart.later = false) (h : nthWeekday monthStart weekday ordinal = .ok m) :
    m.monthIndex = monthStart.monthIndex ∧ m.Alike monthStart ∧ m.later = false := by
  obtain ⟨offset, hmem, hreach⟩ := nthWeekday_spec h
  have hoffset := lt_of_mem_weekdayOffsets hmem
  unfold dayAt at hreach
  split at hreach
  · cases hreach
    exact ⟨rfl, .refl _, hlater⟩
  -- the offset is less than the days that are left in the month
  · obtain ⟨hday, halike⟩ := Moment.plusDays_dayNumber hreach
    refine ⟨?_, halike, (Moment.plusDays_eq_ok_iff.mp hreach).2.1⟩
    apply Moment.monthIndex_eq monthStart.monthIndex_bounds.1
    · have := monthStart.firstDay_le_dayNumber
      omega
    · have hnumber := monthStart.date.number_eq
      have hlength := monthStart.date.day_le
      have hpos := monthStart.date.day_pos
      rw [Moment.date_number] at hnumber
      rw [firstDay_succ monthStart.monthIndex_bounds.1]
      simp only [Moment.monthIndex, Date.monthIndex_div, Date.monthIndex_mod] at hnumber ⊢
      omega

namespace Pattern

/-- A step by months leads that many months on, to the same time of day. -/
theorem inMonths_spec {p : Pattern} {cursor next : Moment} {months : Int}
    (h : p.inMonths cursor months = .ok next) :
    (next.monthIndex : Int) = cursor.monthIndex + months ∧ next.Alike cursor ∧
      next.later = false := by
  have hplain {day : Nat} {m : Moment} (hm : cursor.plusMonths months day = .ok m) :
      (m.monthIndex : Int) = cursor.monthIndex + months ∧ m.Alike cursor ∧ m.later = false := by
    rcases Nat.eq_zero_or_pos day with rfl | hday
    · rw [Moment.plusMonths_zero] at hm
      have := (Moment.plusMonths_eq_ok_iff cursor.date.day_pos).mp hm
      exact ⟨this.1, this.2.2⟩
    · have := (Moment.plusMonths_eq_ok_iff hday).mp hm
      exact ⟨this.1, this.2.2⟩
  unfold inMonths at h
  split at h
  -- a weekday is searched from the first day of the month on
  · obtain ⟨monthStart, hstart, hnth⟩ := bind_eq_ok_iff.mp h
    obtain ⟨hindex, halike, hlater⟩ := hplain hstart
    obtain ⟨hindex', halike', hlater'⟩ := monthIndex_nthWeekday hlater hnth
    exact ⟨by omega, halike'.trans halike, hlater'⟩
  · exact hplain h

/-- A step leads to a later day, to the same time of day. -/
theorem step_spec {p : Pattern} {cursor next : Moment} (h : p.step cursor = .ok next) :
    cursor.wall.dayNumber < next.wall.dayNumber ∧ next.Alike cursor ∧ next.later = false := by
  have hdays {days : Nat} (hpos : 1 ≤ days) (hd : cursor.plusDays days = .ok next) :
      cursor.wall.dayNumber < next.wall.dayNumber ∧ next.Alike cursor ∧ next.later = false := by
    obtain ⟨hday, halike⟩ := Moment.plusDays_dayNumber hd
    exact ⟨by omega, halike, (Moment.plusDays_eq_ok_iff.mp hd).2.1⟩
  have hmonths {count : Nat} (hpos : 1 ≤ count) (hm : p.inMonths cursor count = .ok next) :
      cursor.wall.dayNumber < next.wall.dayNumber ∧ next.Alike cursor ∧ next.later = false := by
    obtain ⟨hindex, halike, hlater⟩ := inMonths_spec hm
    exact ⟨Moment.dayNumber_lt_of_monthIndex_lt (by omega), halike, hlater⟩
  unfold step at h
  split at h
  · exact hdays (by decide) h
  · exact hdays (daysToWorkday_pos cursor) h
  · exact hdays (by decide) h
  · exact hdays (by decide) h
  · exact hdays (daysToListed_pos _ _) h
  · exact hmonths (by decide) h
  · exact hmonths (by decide) h
  · exact hmonths (by decide) h

/-! ## All steps -/

/-- The starts from a start on, to the end of the calendar. -/
def startsFrom (p : Pattern) (cursor : Moment) : List Moment :=
  cursor :: (p.steps dayCount cursor).1

/-- There are no more steps than days that are left, so that it makes no difference how many more
    are asked for. -/
theorem steps_fst_eq (p : Pattern) (count count' : Nat) {cursor : Moment}
    (h : dayCount ≤ count + cursor.wall.dayNumber)
    (h' : dayCount ≤ count' + cursor.wall.dayNumber) :
    (p.steps count cursor).1 = (p.steps count' cursor).1 := by
  have hlt := cursor.wall.dayNumber_lt
  -- each step takes at least one of the days that are left, so neither count runs out
  induction count generalizing count' cursor with
  | zero => omega
  | succ count ih =>
    cases count' with
    | zero => omega
    | succ count' =>
      unfold steps
      cases hstep : p.step cursor with
      | error e => rfl
      | ok next =>
        have hday := (step_spec hstep).1
        simp only
        rw [ih count' (by omega) (by omega) next.wall.dayNumber_lt]

/-- The starts are a start and those from the next one on. -/
theorem startsFrom_of_step_ok {p : Pattern} {cursor next : Moment}
    (h : p.step cursor = .ok next) : p.startsFrom cursor = cursor :: p.startsFrom next := by
  have hday := (step_spec h).1
  have hcount : p.steps dayCount cursor = p.steps (dayCount - 1 + 1) cursor := rfl
  simp only [startsFrom, hcount, steps, h]
  rw [p.steps_fst_eq _ dayCount (by omega) (by omega)]

theorem startsFrom_of_step_error {p : Pattern} {cursor : Moment} {e : CalendarError}
    (h : p.step cursor = .error e) : p.startsFrom cursor = [cursor] := by
  have hcount : p.steps dayCount cursor = p.steps (dayCount - 1 + 1) cursor := rfl
  simp only [startsFrom, hcount, steps, h]

/-- What holds of the last start, and of a start if it holds of the next one, holds of all. -/
theorem startsFrom_induction {p : Pattern} {motive : Moment → Prop}
    (last : ∀ cursor e, p.step cursor = .error e → motive cursor)
    (step : ∀ cursor next, p.step cursor = .ok next → motive next → motive cursor)
    (cursor : Moment) : motive cursor := by
  obtain ⟨left, hleft⟩ : ∃ left, left + cursor.wall.dayNumber = dayCount :=
    ⟨dayCount - cursor.wall.dayNumber, Nat.sub_add_cancel (Nat.le_of_lt cursor.wall.dayNumber_lt)⟩
  -- by induction on the days that are left
  induction left using Nat.strongRecOn generalizing cursor with
  | ind left ih =>
    cases hstep : p.step cursor with
    | error e => exact last cursor e hstep
    | ok next =>
      have hday := (step_spec hstep).1
      have hlt := next.wall.dayNumber_lt
      exact step cursor next hstep
        (ih (dayCount - next.wall.dayNumber) (by omega) next (by omega))

theorem cursor_mem_startsFrom (p : Pattern) (cursor : Moment) : cursor ∈ p.startsFrom cursor :=
  List.mem_cons_self

/-- Steps give the starts in order, as many as are asked for. -/
theorem cons_steps_eq_take (p : Pattern) (count : Nat) (cursor : Moment) :
    cursor :: (p.steps count cursor).1 = (p.startsFrom cursor).take (count + 1) := by
  induction count generalizing cursor with
  | zero => simp [steps, startsFrom]
  | succ count ih =>
    cases hstep : p.step cursor with
    | error e => simp [steps, hstep, startsFrom_of_step_error hstep]
    | ok next => simp [steps, hstep, startsFrom_of_step_ok hstep, ← ih next]

/-- What grows with each step by a unit has grown by `n` units at the `n`-th start. -/
theorem add_mul_le_of_getElem? {p : Pattern} {f : Moment → Nat} {u : Nat}
    (hstep : ∀ cursor next, p.step cursor = .ok next → f cursor + u ≤ f next)
    {cursor m : Moment} {n : Nat} (h : (p.startsFrom cursor)[n]? = some m) :
    f cursor + u * n ≤ f m := by
  induction n generalizing cursor with
  | zero =>
    simp only [startsFrom, List.getElem?_cons_zero, Option.some.injEq] at h
    subst h
    omega
  | succ n ih =>
    cases hnext : p.step cursor with
    | error e =>
      rw [startsFrom_of_step_error hnext] at h
      simp at h
    | ok next =>
      rw [startsFrom_of_step_ok hnext, List.getElem?_cons_succ] at h
      have hunit := hstep cursor next hnext
      have hrest := ih h
      rw [Nat.mul_succ]
      omega

/-- What grows with each step is less at the start than at any later one. -/
theorem le_of_mem_startsFrom {p : Pattern} {f : Moment → Nat}
    (hstep : ∀ cursor next, p.step cursor = .ok next → f cursor ≤ f next)
    {cursor m : Moment} (h : m ∈ p.startsFrom cursor) : f cursor ≤ f m := by
  obtain ⟨n, hn⟩ := List.getElem?_of_mem h
  have hle := add_mul_le_of_getElem? (f := f) (u := 0) (by simpa using hstep) hn
  omega

/-- What grows with each step by a unit puts the starts in order, a unit apart. -/
theorem startsFrom_pairwise {p : Pattern} {f : Moment → Nat} {u : Nat}
    (hstep : ∀ cursor next, p.step cursor = .ok next → f cursor + u ≤ f next) (cursor : Moment) :
    (p.startsFrom cursor).Pairwise fun a b => f a + u ≤ f b := by
  induction cursor using p.startsFrom_induction with
  | last cursor e h =>
    rw [startsFrom_of_step_error h]
    exact List.pairwise_singleton _ _
  | step cursor next h ih =>
    rw [startsFrom_of_step_ok h, List.pairwise_cons]
    refine ⟨fun m hm => ?_, ih⟩
    have hunit := hstep cursor next h
    have hle := le_of_mem_startsFrom (f := f) (fun c c' hc => by have := hstep c c' hc; omega) hm
    omega

/-- The starts lie on different days, in order. -/
theorem startsFrom_ascending (p : Pattern) (cursor : Moment) :
    (p.startsFrom cursor).Pairwise fun a b => a.wall.dayNumber < b.wall.dayNumber :=
  startsFrom_pairwise (f := fun m => m.wall.dayNumber) (u := 1) (fun _ _ h => (step_spec h).1)
    cursor

/-- All starts show the time of day of the first one, and all others the earlier reading of a
    repeated hour. -/
theorem alike_of_mem_startsFrom {p : Pattern} {cursor m : Moment} (h : m ∈ p.startsFrom cursor) :
    m.Alike cursor ∧ (m = cursor ∨ m.later = false) := by
  induction cursor using p.startsFrom_induction with
  | last cursor e hstep =>
    rw [startsFrom_of_step_error hstep, List.mem_singleton] at h
    subst h
    exact ⟨.refl _, .inl rfl⟩
  | step cursor next hstep ih =>
    rw [startsFrom_of_step_ok hstep, List.mem_cons] at h
    obtain ⟨-, hnext, hlater⟩ := step_spec hstep
    rcases h with rfl | h
    · exact ⟨.refl _, .inl rfl⟩
    · obtain ⟨halike, hm⟩ := ih h
      refine ⟨halike.trans hnext, .inr ?_⟩
      rcases hm with rfl | hm
      · exact hlater
      · exact hm

/-- From one of the starts on they are the starts from there, and those before lie on earlier
    days. -/
theorem startsFrom_eq_append {p : Pattern} {cursor m : Moment} (h : m ∈ p.startsFrom cursor) :
    ∃ before, p.startsFrom cursor = before ++ p.startsFrom m ∧
      ∀ a ∈ before, a ∈ p.startsFrom cursor ∧ a.wall.dayNumber < m.wall.dayNumber := by
  have hsplit : ∃ before, p.startsFrom cursor = before ++ p.startsFrom m := by
    induction cursor using p.startsFrom_induction with
    | last cursor e hstep =>
      rw [startsFrom_of_step_error hstep, List.mem_singleton] at h
      subst h
      exact ⟨[], rfl⟩
    | step cursor next hstep ih =>
      rw [startsFrom_of_step_ok hstep, List.mem_cons] at h
      rcases h with rfl | h
      · exact ⟨[], by rw [startsFrom_of_step_ok hstep, List.nil_append]⟩
      · obtain ⟨before, hbefore⟩ := ih h
        exact ⟨cursor :: before, by rw [startsFrom_of_step_ok hstep, hbefore, List.cons_append]⟩
  obtain ⟨before, hbefore⟩ := hsplit
  refine ⟨before, hbefore, fun a ha => ⟨?_, ?_⟩⟩
  · rw [hbefore]
    exact List.mem_append_left _ ha
  · have hascending := p.startsFrom_ascending cursor
    rw [hbefore, List.pairwise_append] at hascending
    exact hascending.2.2 a ha m (p.cursor_mem_startsFrom m)

end Pattern

/-! ## The starts of a series -/

namespace Series

theorem zone_start (s : Series) : s.start.zone = s.anchorStart.zone := by
  unfold start
  split <;> rfl

theorem later_start (s : Series) : s.start.later = s.anchorStart.later := by
  unfold start
  split <;> rfl

/-- All starts of a series, to the end of the calendar. -/
def allStarts (s : Series) : List Moment :=
  match s.firstStart with
  | .ok first => s.pattern.startsFrom first
  | .error _ => []

theorem allStarts_of_firstStart {s : Series} {first : Moment} (h : s.firstStart = .ok first) :
    s.allStarts = s.pattern.startsFrom first := by
  simp only [allStarts, h]

/-- The first start is the anchor, or the one after it. -/
theorem firstStart_eq_or (s : Series) :
    s.firstStart = .ok s.start ∨ s.firstStart = s.pattern.step s.start := by
  unfold firstStart
  exact (Decidable.em _).imp (fun h => if_pos h) (fun h => if_neg h)

theorem allStarts_ascending (s : Series) :
    s.allStarts.Pairwise fun a b => a.wall.dayNumber < b.wall.dayNumber := by
  unfold allStarts
  split
  · exact s.pattern.startsFrom_ascending _
  · exact .nil

/-- All starts of a series show the time of day of its anchor. -/
theorem alike_of_mem_allStarts {s : Series} {m : Moment} (h : m ∈ s.allStarts) :
    m.Alike s.start := by
  cases hfirst : s.firstStart with
  | error e => simp [allStarts, hfirst] at h
  | ok first =>
    rw [allStarts_of_firstStart hfirst] at h
    refine (Pattern.alike_of_mem_startsFrom h).1.trans ?_
    rcases s.firstStart_eq_or with hstart | hstep
    · rw [hfirst, Except.ok.injEq] at hstart
      rw [hstart]
      exact .refl _
    · exact (Pattern.step_spec (hstep.symm.trans hfirst)).2.1

/-- The starts that a series gives one after the other are those of the whole list, as many as
    are asked for. -/
theorem starts_fst_eq_take (s : Series) (count : Nat) :
    (s.starts count).1 = s.allStarts.take count := by
  cases count with
  | zero => simp [starts]
  | succ count =>
    unfold starts
    cases h : s.firstStart with
    | error e => simp [allStarts, h]
    | ok first =>
      rw [allStarts_of_firstStart h]
      exact s.pattern.cons_steps_eq_take count first

end Series

end EventCalendar
