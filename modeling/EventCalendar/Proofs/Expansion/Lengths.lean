/-
  EventCalendar.Proofs.Expansion.Lengths

  The length that all occurrences of a series have.  The fields of a series are
  checked so that its first occurrence does not end before it starts.  The check
  holds two instants against each other, the length of an all-day event counts
  the days between two dates: where these are read on the clocks of two zones,
  the end may lie on the earlier date.
-/

import EventCalendar.Proofs.Lattice.Starts

namespace EventCalendar

open EventCalendar.Time

namespace Series

variable {s : Series} {duration : Int}

/-! ## Starts and ends -/

/-- A given end of an all-day event is not on an earlier date than its start, by their own
    clocks. -/
def DatesInOrder (s : Series) : Prop :=
  s.allDay = true → ∀ finish ∈ s.anchorEnd, s.anchorStart.date.number ≤ finish.date.number

/-- The end that is guessed for an event with a time of day is in the calendar. -/
def GuessesEnd (s : Series) : Prop :=
  s.allDay = false → s.anchorEnd = none →
    s.anchorStart.wall.micros + Moment.defaultDuration < calendarMicros

theorem dayNumber_start (s : Series) : s.start.wall.dayNumber = s.anchorStart.wall.dayNumber := by
  unfold start
  split
  · simp only [Moment.midnight, Wall.midnight, Wall.dayNumber_on, Wall.date_number]
  · rfl

theorem start_eq_anchorStart (h : s.allDay = false) : s.start = s.anchorStart := by
  simp [start, h]

/-! ## Lengths -/

/-- Every series has a length, but where the guessed end lies behind the calendar. -/
theorem exists_duration_iff (s : Series) :
    (∃ duration, s.duration = .ok duration) ↔ s.GuessesEnd := by
  have hfinish : (∃ duration, s.duration = .ok duration) ↔ ∃ finish, s.finish = .ok finish := by
    unfold duration
    refine exists_bind_eq_ok_iff fun finish _ => ?_
    split <;> exact ⟨_, rfl⟩
  rw [hfinish, Series.finish, GuessesEnd]
  cases hend : s.anchorEnd with
  | some finish => simp
  | none =>
    cases hday : s.allDay with
    | true => simp [Moment.guessEnd]
    | false =>
      have hpos : 0 ≤ s.anchorStart.wall.micros + Moment.defaultDuration := by
        simp only [Moment.defaultDuration, microsPerMinute]
        omega
      simp only [Moment.guessEnd, Bool.false_eq_true, if_false, Moment.exists_plus_eq_ok_iff,
        start_eq_anchorStart hday, hpos, true_and, true_imp_iff]

/-- A length is negative only for dates that are not in order. -/
theorem nonneg_iff_datesInOrder (h : s.duration = .ok duration) :
    0 ≤ duration ↔ s.DatesInOrder := by
  unfold Series.duration at h
  obtain ⟨finish, hfinish, h⟩ := bind_eq_ok_iff.mp h
  unfold Series.finish at hfinish
  unfold DatesInOrder
  cases hday : s.allDay with
  | true =>
    rw [hday, if_pos rfl] at h
    cases h
    -- the sign of a number of days is that of the time they take
    have hsign : 0 ≤ ((finish.wall.dayNumber : Int) - s.start.wall.dayNumber) * microsPerDay ↔
        s.anchorStart.wall.dayNumber ≤ finish.wall.dayNumber := by
      rw [dayNumber_start, microsPerDay]
      omega
    rw [hsign]
    cases hend : s.anchorEnd with
    | some given =>
      rw [hend, Except.ok.injEq] at hfinish
      subst hfinish
      simp [Moment.date_number]
    | none =>
      rw [hend, Moment.guessEnd, hday, if_pos rfl, Except.ok.injEq] at hfinish
      rw [← hfinish, dayNumber_start]
      simp
  | false =>
    rw [hday, if_neg Bool.false_ne_true] at h
    cases h
    refine iff_of_true ?_ fun hday' => Bool.noConfusion hday'
    cases hend : s.anchorEnd with
    | some given =>
      rw [hend, Except.ok.injEq] at hfinish
      subst hfinish
      have hends := s.ends
      rw [SeriesFields.endsBeforeStart, hend, Option.any_some, Moment.before,
        decide_eq_false_iff_not] at hends
      rw [start_eq_anchorStart hday]
      omega
    | none =>
      rw [hend, Moment.guessEnd, hday, if_neg Bool.false_ne_true] at hfinish
      obtain ⟨hmicros, -, hzone⟩ := Moment.plus_eq_ok_iff.mp hfinish
      rw [Moment.since_of_zone_eq hzone, hmicros, Moment.defaultDuration, microsPerMinute]
      omega

/-- Dates of one zone are in order. -/
theorem datesInOrder_of_zone_eq (h : ∀ finish ∈ s.anchorEnd, finish.zone = s.anchorStart.zone) :
    s.DatesInOrder := by
  intro _ finish hfinish
  have hends := s.ends
  rw [Option.mem_def] at hfinish
  rw [SeriesFields.endsBeforeStart, hfinish, Option.any_some, Moment.before,
    Moment.since_of_zone_eq (h finish hfinish), decide_eq_false_iff_not] at hends
  rw [Moment.date_number, Moment.date_number]
  exact Nat.div_le_div_right (by omega)

/-- In one zone no occurrence ends before it starts. -/
theorem duration_nonneg {zone : Zone} (hzone : ∀ m ∈ s.moments, m.zone = zone)
    (h : s.duration = .ok duration) : 0 ≤ duration := by
  refine (nonneg_iff_datesInOrder h).mpr (datesInOrder_of_zone_eq fun finish hfinish => ?_)
  rw [hzone finish (by simp_all [SeriesFields.moments]), hzone _ List.mem_cons_self]

end Series

end EventCalendar
