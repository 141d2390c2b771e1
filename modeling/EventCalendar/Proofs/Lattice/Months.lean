/-
  EventCalendar.Proofs.Lattice.Months

  The kinds whose steps count months.  A start is found from the month it lies
  in, whatever way leads there: the starts are those that lie some whole periods
  after the first one.
-/

import EventCalendar.Proofs.Lattice.Rules

namespace EventCalendar

open EventCalendar.Time

/-! ## Weekdays of a month -/

theorem mem_weekdayOffsets_iff {monthStart : Moment} {weekday : Int} {offset : Nat} :
    offset ∈ weekdayOffsets monthStart weekday ↔
      offset < monthLength monthStart.date.year monthStart.date.month - monthStart.date.day + 1 ∧
        ((monthStart.weekday + offset) % 7 : Nat) = weekday := by
  simp [weekdayOffsets]

/-- If one month has a weekday, all have. -/
theorem weekdayOffsets_ne_nil {a b : Moment} {weekday : Int} {offset : Nat}
    (hb : b.date.day = 1) (h : offset ∈ weekdayOffsets a weekday) :
    weekdayOffsets b weekday ≠ [] := by
  have hweekday := (mem_weekdayOffsets_iff.mp h).2
  have hlength := monthLength_ge b.date.year b.date.month
  refine List.ne_nil_of_mem (a := (weekday.toNat + 7 - b.weekday % 7) % 7)
    (mem_weekdayOffsets_iff.mpr ⟨by omega, by omega⟩)

/-- All days of a month are in the calendar. -/
theorem exists_dayAt_eq_ok {monthStart : Moment} {offset : Nat} (hday : monthStart.date.day = 1)
    (h : offset < monthLength monthStart.date.year monthStart.date.month) :
    ∃ m, dayAt monthStart offset = .ok m := by
  have hnumber := monthStart.dayNumber_eq
  unfold dayAt
  split
  · exact ⟨monthStart, rfl⟩
  · obtain ⟨d, hmonth, hd⟩ := Date.exists_monthIndex_eq monthStart.monthIndex_bounds.1
      monthStart.monthIndex_bounds.2 (show 1 ≤ offset + 1 by omega)
      (by rwa [Moment.monthIndex, Date.monthIndex_div, Date.monthIndex_mod])
    have hlt := d.number_lt
    rw [d.number_eq, hd, hmonth] at hlt
    exact Moment.exists_plusDays_eq_ok_iff.mpr ⟨by omega, by omega⟩

/-- The first day of the next month is in the calendar, if there is a next month. -/
theorem exists_plusDays_month_iff {monthStart : Moment} (hday : monthStart.date.day = 1) :
    (∃ m, monthStart.plusDays (monthLength monthStart.date.year monthStart.date.month -
        monthStart.date.day + 1 : Nat) = .ok m) ↔ monthStart.monthIndex + 1 < 120000 := by
  have hnumber := monthStart.dayNumber_eq
  have hbounds := monthStart.monthIndex_bounds
  have hsucc := firstDay_succ hbounds.1
  have hlength := monthLength_pos monthStart.date.year monthStart.date.month
  rw [Moment.monthIndex, Date.monthIndex_div, Date.monthIndex_mod, ← Moment.monthIndex] at hsucc
  rw [Moment.exists_plusDays_eq_ok_iff]
  constructor
  · intro h
    by_contra hlast
    have hend : firstDay 120000 = dayCount := by decide
    rw [show monthStart.monthIndex + 1 = 120000 by omega] at hsucc
    omega
  · intro h
    have hmore := firstDay_add_le (show 12 ≤ monthStart.monthIndex + 1 by omega) 1
    have hend : firstDay (monthStart.monthIndex + 1 + 1) ≤ dayCount :=
      firstDay_mono (by omega) (show monthStart.monthIndex + 1 + 1 ≤ 120000 by omega)
    omega

/-- The search for a weekday that there is succeeds if the calendar has another month. -/
theorem exists_nthWeekday_eq_ok {monthStart : Moment} {weekday : Int} (ordinal : Int)
    (hday : monthStart.date.day = 1) (hnext : monthStart.monthIndex + 1 < 120000)
    (hweekday : weekdayOffsets monthStart weekday ≠ []) :
    ∃ m, nthWeekday monthStart weekday ordinal = .ok m := by
  have hreach {offset : Nat} (h : offset ∈ weekdayOffsets monthStart weekday) :
      ∃ m, dayAt monthStart offset = .ok m := by
    have hlt := (mem_weekdayOffsets_iff.mp h).1
    rw [hday, Nat.sub_add_cancel (monthLength_pos _ _)] at hlt
    exact exists_dayAt_eq_ok hday hlt
  unfold nthWeekday
  dsimp only
  split
  · rename_i offset hoffset
    unfold nthOffset? at hoffset
    split at hoffset
    · cases hoffset
    · exact hreach (List.mem_of_getElem? hoffset)
  · obtain ⟨ahead, hahead⟩ := (exists_plusDays_month_iff hday).mpr hnext
    rw [hahead, ok_bind, List.getLast?_eq_some_getLast hweekday]
    exact hreach (List.getLast_mem hweekday)

namespace Pattern

variable {p : Pattern} {a b cursor m : Moment}

/-! ## Steps by months -/

/-- The months that a step counts. -/
def stepMonths (p : Pattern) : Nat :=
  match p.kind with
  | .monthly | .monthlySpecific => 1
  | .yearly => 12
  | .daily | .workdays | .weekly | .biweekly | .customWeekly => 0

theorem step_eq_inMonths (hkind : p.kind.countsDays = false) (cursor : Moment) :
    p.step cursor = p.inMonths cursor p.stepMonths := by
  unfold step stepMonths
  cases h : p.kind <;> simp [h, Kind.countsDays] at hkind ⊢

theorem stepMonths_pos (hkind : p.kind.countsDays = false) : 1 ≤ p.stepMonths := by
  unfold stepMonths
  cases h : p.kind <;> simp [h, Kind.countsDays] at hkind ⊢

/-- Where a step leads depends on the month, the time of day and the zone alone. -/
theorem inMonths_congr {i j : Int} (hday : 1 ≤ p.anchorDay)
    (hindex : a.monthIndex + i = b.monthIndex + j) (halike : a.Alike b)
    (h : p.inMonths a i = .ok m) : p.inMonths b j = .ok m := by
  unfold inMonths at h ⊢
  split at h
  · obtain ⟨monthStart, hstart, hnth⟩ := bind_eq_ok_iff.mp h
    exact bind_eq_ok_iff.mpr
      ⟨monthStart, Moment.plusMonths_congr (Nat.le_refl 1) hindex halike hstart, hnth⟩
  · exact Moment.plusMonths_congr hday hindex halike h

/-- If a month has a start, the months before it have one. -/
theorem exists_inMonths_eq_ok {i j : Int} (hday : 1 ≤ p.anchorDay)
    (hlow : 12 ≤ cursor.monthIndex + i) (hle : i ≤ j) (h : p.inMonths cursor j = .ok m) :
    ∃ m, p.inMonths cursor i = .ok m := by
  rcases Int.lt_or_eq_of_le hle with hlt | rfl
  · have hindex := (inMonths_spec h).1
    have hhigh := m.monthIndex_bounds.2
    unfold inMonths at h ⊢
    split at h
    · obtain ⟨monthStart, hstart, hnth⟩ := bind_eq_ok_iff.mp h
      obtain ⟨offset, hoffset, -⟩ := nthWeekday_spec hnth
      obtain ⟨monthStart', hstart'⟩ := (Moment.exists_plusMonths_eq_ok_iff (m := cursor)
        (Nat.le_refl 1)).mpr ⟨hlow, show cursor.monthIndex + i < 120000 by omega⟩
      obtain ⟨hindex', hday', -⟩ := (Moment.plusMonths_eq_ok_iff (Nat.le_refl 1)).mp hstart'
      have hlength := monthLength_ge monthStart'.date.year monthStart'.date.month
      have hfirst : monthStart'.date.day = 1 := by omega
      obtain ⟨m', hm'⟩ := exists_nthWeekday_eq_ok p.ordinal hfirst (by omega)
        (weekdayOffsets_ne_nil hfirst hoffset)
      exact ⟨m', bind_eq_ok_iff.mpr ⟨monthStart', hstart', hm'⟩⟩
    · exact (Moment.exists_plusMonths_eq_ok_iff hday).mpr ⟨hlow, by omega⟩
  · exact ⟨m, h⟩

theorem monthIndex_step {next : Moment} (hkind : p.kind.countsDays = false)
    (h : p.step cursor = .ok next) : cursor.monthIndex + p.stepMonths = next.monthIndex := by
  rw [step_eq_inMonths hkind] at h
  have := (inMonths_spec h).1
  omega

/-- The starts after the first one are those that whole periods lead to. -/
theorem getElem?_startsFrom_succ_eq_some_iff (hkind : p.kind.countsDays = false)
    (hday : 1 ≤ p.anchorDay) {n : Nat} :
    (p.startsFrom cursor)[n + 1]? = some m ↔
      p.inMonths cursor (p.stepMonths * (n + 1) : Nat) = .ok m := by
  induction n generalizing cursor with
  | zero =>
    rw [Nat.zero_add, Nat.mul_one, ← step_eq_inMonths hkind]
    cases hstep : p.step cursor with
    | error e => simp [startsFrom_of_step_error hstep]
    | ok next =>
      rw [startsFrom_of_step_ok hstep]
      simp [startsFrom]
  | succ n ih =>
    cases hstep : p.step cursor with
    | error e =>
      simp only [startsFrom_of_step_error hstep, List.getElem?_cons_succ, List.getElem?_nil,
        reduceCtorEq, false_iff]
      intro h
      -- if all these periods led somewhere, so would the first one
      rw [step_eq_inMonths hkind] at hstep
      have hlow := cursor.monthIndex_bounds.1
      have hmul := Nat.mul_le_mul_left p.stepMonths (show 1 ≤ n + 1 + 1 by omega)
      rw [Nat.mul_one] at hmul
      have hreach := exists_inMonths_eq_ok hday (by omega)
        (show (p.stepMonths : Int) ≤ (p.stepMonths * (n + 1 + 1) : Nat) by omega) h
      exact not_exists_eq_ok hstep hreach
    | ok next =>
      rw [startsFrom_of_step_ok hstep, List.getElem?_cons_succ, ih]
      rw [step_eq_inMonths hkind] at hstep
      obtain ⟨hindex, halike, -⟩ := inMonths_spec hstep
      -- from the next start it is one period less to the same month
      have hsum : (next.monthIndex : Int) + (p.stepMonths * (n + 1) : Nat) =
          cursor.monthIndex + (p.stepMonths * (n + 1 + 1) : Nat) := by
        rw [Nat.mul_succ p.stepMonths (n + 1)]
        omega
      exact ⟨inMonths_congr hday hsum halike, inMonths_congr hday hsum.symm halike.symm⟩

end Pattern

end EventCalendar
