/-
  EventCalendar.Proofs.Time.EpochKey

  Keys of date-times.  A key is rounded twice on its way, but over the whole
  calendar the roundings add up to less than the millisecond that is dropped in
  the end, so that date-times of different days never share a key.
-/

import EventCalendar.Proofs.Number.Rounding
import EventCalendar.Proofs.Time.Distance
import EventCalendar.Time.EpochKey

namespace EventCalendar.Time

open EventCalendar.Number

/-- The thousandfold of a number of moderate size is as near as 53 bits allow. -/
theorem thousandfold_spec (negative : Bool) {mantissa : Nat} {exponent : Int}
    (hsize : Binary64.value mantissa exponent < 2 ^ 80) :
    ∃ mantissa' exponent', thousandfold negative mantissa exponent =
        .finite negative mantissa' exponent' ∧
      |Binary64.value mantissa' exponent' - 1000 * Binary64.value mantissa exponent| ≤
        1000 * Binary64.value mantissa exponent / 2 ^ 53 + 1 / 2 ^ 60 := by
  obtain ⟨hden, hvalue⟩ := Binary64.magnitude_spec mantissa exponent
  have hproduct : (((Binary64.magnitude mantissa exponent).1 * 1000 : Nat) : ℚ) /
      (Binary64.magnitude mantissa exponent).2 = 1000 * Binary64.value mantissa exponent := by
    rw [← hvalue]
    push_cast
    ring
  obtain ⟨mantissa', exponent', hratio, herror⟩ := Binary64.ofRatio_spec negative
    ((Binary64.magnitude mantissa exponent).1 * 1000) hden (by rw [hproduct]; linarith)
  rw [hproduct] at herror
  exact ⟨mantissa', exponent', hratio, herror⟩

/-- The milliseconds are less than two away from the microseconds. -/
theorem millisOfMicros_spec {micros : Int} (h : micros.natAbs < 2 ^ 59) :
    1000 * millisOfMicros micros < micros + 2000 ∧
      micros < 1000 * millisOfMicros micros + 2000 := by
  have hsize : (micros.natAbs : ℚ) < 2 ^ 59 := by exact_mod_cast h
  obtain ⟨m, e, hseconds, herror⟩ := Binary64.ofRatio_spec (micros < 0) micros.natAbs
    (show 0 < 1000000 by decide) (by push_cast; rw [div_lt_iff₀ (by norm_num)]; linarith)
  rw [abs_le] at herror
  push_cast at herror
  -- the seconds are off by less than a part in 2^53, and so are their thousandfold
  have hvalue : Binary64.value m e < 2 ^ 80 := by linarith
  obtain ⟨m', e', hmillis, herror'⟩ := thousandfold_spec (decide (micros < 0)) hvalue
  rw [abs_le] at herror'
  obtain ⟨whole, htruncate, hle, hlt⟩ := Binary64.truncate_spec (decide (micros < 0)) m' e'
  have hkey : millisOfMicros micros =
      if decide (micros < 0) = true then -(whole : Int) else whole := by
    unfold millisOfMicros
    rw [hseconds]
    dsimp only
    rw [hmillis]
    exact htruncate
  have hlow : (1000 * whole : ℚ) < micros.natAbs + 2000 := by linarith
  have hhigh : (micros.natAbs : ℚ) < 1000 * whole + 2000 := by linarith
  have hlow : 1000 * whole < micros.natAbs + 2000 := by exact_mod_cast hlow
  have hhigh : micros.natAbs < 1000 * whole + 2000 := by exact_mod_cast hhigh
  rw [hkey]
  split <;> rename_i hsign <;> rw [decide_eq_true_eq] at hsign <;> omega

namespace Moment

variable {a b : Moment}

theorem epochKey_bounds (m : Moment) :
    1000 * m.epochKey < m.instant - epochMicros + 2000 ∧
      m.instant - epochMicros < 1000 * m.epochKey + 2000 := by
  have hcalendar := m.wall.inCalendar
  have hoffset := m.zone.natAbs_offset_lt m.wall m.later
  have hsize : (m.instant - epochMicros).natAbs < 2 ^ 59 := by
    simp only [calendarMicros] at hcalendar
    simp only [instant, offset, epochMicros, microsPerMinute, microsPerDay]
    omega
  unfold epochKey
  rw [instant_zoned]
  exact millisOfMicros_spec hsize

/-- Date-times at one time of day have different keys on different days. -/
theorem epochKey_ne_of_dayNumber_lt (halike : b.Alike a)
    (hlt : a.wall.dayNumber < b.wall.dayNumber) : a.epochKey ≠ b.epochKey := by
  have hgap := halike.symm.micros_add_le (show _ + 1 ≤ _ from hlt)
  have hinstants := instant_sub_le halike.1.symm
  have ha := a.epochKey_bounds
  have hb := b.epochKey_bounds
  simp only [microsPerHour, microsPerDay] at *
  omega

end Moment

end EventCalendar.Time
