/-
  EventCalendar.Proofs.Time.Months

  Months counted through the years.  A step by months leads to the month that
  many places on, to the wanted day or the last day of that month, and depends
  on nothing of the date but its month.
-/

import EventCalendar.Proofs.Time.Distance

namespace EventCalendar.Time

/-! ## The months of the calendar -/

theorem monthLength_ge (year month : Nat) : 28 ≤ monthLength year month := by
  unfold monthLength
  split <;> (try split) <;> omega

/-- The number of the first day of a month, months being counted from the year 0. -/
def firstDay (index : Nat) : Nat :=
  daysBeforeYear (index / 12) + daysBeforeMonth (index / 12) (index % 12 + 1)

theorem firstDay_succ {index : Nat} (h : 12 ≤ index) :
    firstDay (index + 1) = firstDay index + monthLength (index / 12) (index % 12 + 1) := by
  have hmonth := daysBeforeMonth_succ (index / 12) (index % 12 + 1) (by omega)
  by_cases hlast : index % 12 = 11
  · have hyear : (index + 1) / 12 = index / 12 + 1 := by omega
    have hfirst : (index + 1) % 12 = 0 := by omega
    have hlength := daysBeforeYear_succ (index / 12) (by omega)
    have hzero : daysBeforeMonth (index / 12 + 1) (0 + 1) = 0 := rfl
    rw [hlast] at hmonth
    simp only [firstDay, hyear, hfirst, hlast, hlength, hzero, hmonth]
    omega
  · have hyear : (index + 1) / 12 = index / 12 := by omega
    have hnext : (index + 1) % 12 = index % 12 + 1 := by omega
    simp only [firstDay, hyear, hnext, hmonth]
    omega

/-- Every month has four weeks. -/
theorem firstDay_add_le {index : Nat} (h : 12 ≤ index) (count : Nat) :
    firstDay index + 28 * count ≤ firstDay (index + count) := by
  induction count with
  | zero => simp
  | succ count ih =>
    have hlength := monthLength_ge ((index + count) / 12) ((index + count) % 12 + 1)
    rw [← Nat.add_assoc, firstDay_succ (by omega)]
    omega

theorem firstDay_mono {a b : Nat} (ha : 12 ≤ a) (h : a ≤ b) : firstDay a ≤ firstDay b := by
  have hle := firstDay_add_le ha (b - a)
  rw [Nat.add_sub_cancel' h] at hle
  omega

namespace Date

theorem of?_eq_some_iff {year month day : Nat} {d : Date} :
    of? year month day = some d ↔ d.year = year ∧ d.month = month ∧ d.day = day := by
  unfold of?
  constructor
  · intro h
    split at h
    · simp only [Option.some.injEq] at h
      subst h
      exact ⟨rfl, rfl, rfl⟩
    · cases h
  · rintro ⟨rfl, rfl, rfl⟩
    rw [dif_pos ⟨⟨d.year_pos, d.year_le⟩, ⟨d.month_pos, d.month_le⟩, d.day_pos, d.day_le⟩]

/-- The place of a date's month among all months. -/
def monthIndex (d : Date) : Nat := d.year * 12 + (d.month - 1)

theorem monthIndex_div (d : Date) : d.monthIndex / 12 = d.year := by
  have := d.month_pos
  have := d.month_le
  simp only [monthIndex]
  omega

theorem monthIndex_mod (d : Date) : d.monthIndex % 12 + 1 = d.month := by
  have := d.month_pos
  have := d.month_le
  simp only [monthIndex]
  omega

/-- Dates with one place among all months lie in one month. -/
theorem month_of_monthIndex_eq {a b : Date} (h : a.monthIndex = b.monthIndex) :
    a.year = b.year ∧ a.month = b.month := by
  rw [← a.monthIndex_div, ← a.monthIndex_mod, h, b.monthIndex_div, b.monthIndex_mod]
  exact ⟨rfl, rfl⟩

/-- The months of the calendar. -/
theorem monthIndex_bounds (d : Date) : 12 ≤ d.monthIndex ∧ d.monthIndex < 120000 := by
  have hyear := d.year_pos
  have hlast := d.year_le
  have hmonth := d.month_le
  simp only [monthIndex, lastYear] at *
  omega

theorem number_eq (d : Date) : d.number = firstDay d.monthIndex + (d.day - 1) := by
  simp only [number, firstDay, monthIndex_div, monthIndex_mod]

theorem firstDay_le_number (d : Date) : firstDay d.monthIndex ≤ d.number := by
  rw [number_eq]
  omega

theorem number_lt_firstDay_succ (d : Date) : d.number < firstDay (d.monthIndex + 1) := by
  have hpos := d.day_pos
  have hle := d.day_le
  rw [firstDay_succ d.monthIndex_bounds.1, number_eq, monthIndex_div, monthIndex_mod]
  omega

/-- Every month of the calendar has each of its days. -/
theorem exists_monthIndex_eq {index day : Nat} (hlow : 12 ≤ index) (hhigh : index < 120000)
    (hpos : 1 ≤ day) (hle : day ≤ monthLength (index / 12) (index % 12 + 1)) :
    ∃ d : Date, d.monthIndex = index ∧ d.day = day := by
  refine ⟨⟨index / 12, index % 12 + 1, day, by omega, ?_, by omega, by omega, hpos, hle⟩, ?_, rfl⟩
  · simp only [lastYear]
    omega
  · simp only [monthIndex]
    omega

end Date

@[simp] theorem Wall.date_on (d : Date) (time : Nat) (h : time < microsPerDay) :
    (Wall.on d time h).date = d := by
  apply Date.number_inj
  rw [Wall.date_number, Wall.dayNumber_on]

namespace Moment

/-- The place of a date-time's month among all months. -/
def monthIndex (m : Moment) : Nat := m.date.monthIndex

theorem date_number (m : Moment) : m.date.number = m.wall.dayNumber := m.wall.date_number

theorem monthIndex_bounds (m : Moment) : 12 ≤ m.monthIndex ∧ m.monthIndex < 120000 :=
  m.date.monthIndex_bounds

theorem dayNumber_eq (m : Moment) :
    m.wall.dayNumber = firstDay m.monthIndex + (m.date.day - 1) := by
  rw [← date_number, Date.number_eq, monthIndex]

theorem firstDay_le_dayNumber (m : Moment) : firstDay m.monthIndex ≤ m.wall.dayNumber := by
  rw [← date_number]
  exact m.date.firstDay_le_number

theorem dayNumber_lt_firstDay_succ (m : Moment) :
    m.wall.dayNumber < firstDay (m.monthIndex + 1) := by
  rw [← date_number]
  exact m.date.number_lt_firstDay_succ

/-- Date-times some months apart are at least as far apart as the whole months between them. -/
theorem dayNumber_add_le {a b : Moment} {count : Nat}
    (h : a.monthIndex + 1 + count ≤ b.monthIndex) :
    a.wall.dayNumber + 28 * count < b.wall.dayNumber := by
  have ha := a.dayNumber_lt_firstDay_succ
  have hb := b.firstDay_le_dayNumber
  have hlow := a.monthIndex_bounds.1
  have hcount := firstDay_add_le (show 12 ≤ a.monthIndex + 1 by omega) count
  have hmono := firstDay_mono (show 12 ≤ a.monthIndex + 1 + count by omega) h
  omega

theorem dayNumber_lt_of_monthIndex_lt {a b : Moment} (h : a.monthIndex < b.monthIndex) :
    a.wall.dayNumber < b.wall.dayNumber :=
  dayNumber_add_le (show a.monthIndex + 1 + 0 ≤ b.monthIndex from h)

/-- A day between the first of a month and that of the next one lies in the month. -/
theorem monthIndex_eq {m : Moment} {index : Nat} (hindex : 12 ≤ index)
    (hlow : firstDay index ≤ m.wall.dayNumber) (hhigh : m.wall.dayNumber < firstDay (index + 1)) :
    m.monthIndex = index := by
  have hfirst := m.firstDay_le_dayNumber
  have hnext := m.dayNumber_lt_firstDay_succ
  have hbounds := m.monthIndex_bounds
  rcases Nat.lt_trichotomy m.monthIndex index with hlt | heq | hgt
  · have := firstDay_mono (by omega) (show m.monthIndex + 1 ≤ index from hlt)
    omega
  · exact heq
  · have := firstDay_mono (by omega) (show index + 1 ≤ m.monthIndex from hgt)
    omega

/-- Date-times on one day and at one time of day are equal if they choose the same reading. -/
theorem Alike.eq {a b : Moment} (h : Alike a b) (hday : a.wall.dayNumber = b.wall.dayNumber)
    (hlater : a.later = b.later) : a = b := by
  refine ext_micros ?_ hlater h.1
  rw [micros_eq a, micros_eq b, hday, h.2]

/-! ## Steps by months -/

theorem plusMonths_zero (m : Moment) (months : Int) :
    m.plusMonths months 0 = m.plusMonths months m.date.day := by
  have hday := m.date.day_pos
  simp only [plusMonths, if_true, show m.date.day ≠ 0 by omega, if_false]

theorem plusMonths_eq_ok_iff {m m' : Moment} {months : Int} {day : Nat} (hday : 1 ≤ day) :
    m.plusMonths months day = .ok m' ↔
      (m'.monthIndex : Int) = m.monthIndex + months ∧
        m'.date.day = min (monthLength m'.date.year m'.date.month) day ∧
        Alike m' m ∧ m'.later = false := by
  have hnonzero : day ≠ 0 := by omega
  have hplace : (m.date.year * 12 + (m.date.month - 1) : Nat) = m.monthIndex := rfl
  unfold plusMonths
  simp only [if_neg hnonzero, hplace]
  generalize (m.monthIndex : Int) + months = index
  simp only [Int.fdiv_eq_ediv_of_nonneg index (show (0 : Int) ≤ 12 by decide),
    Int.fmod_eq_emod_of_nonneg index (show (0 : Int) ≤ 12 by decide)]
  constructor
  · intro h
    split at h
    · rename_i d hd
      obtain ⟨hyear, hmonth, hdd⟩ := Date.of?_eq_some_iff.mp hd
      have hdate : m'.date = d := by
        cases h
        exact Wall.date_on _ _ m.wall.timeOfDay_lt
      have hpos := d.year_pos
      refine ⟨?_, ?_, ?_, ?_⟩
      · simp only [monthIndex, hdate, Date.monthIndex]
        omega
      · rw [hdate, hdd, hyear, hmonth]
      · cases h
        exact ⟨rfl, Wall.timeOfDay_on _ _ m.wall.timeOfDay_lt⟩
      · cases h
        rfl
    · split at h <;> cases h
  · rintro ⟨hindex, hd, halike, hlater⟩
    have hyear := m'.date.monthIndex_div
    have hmonth := m'.date.monthIndex_mod
    simp only [monthIndex] at hindex
    have hyear' : (index / 12).toNat = m'.date.year := by omega
    have hmonth' : (index % 12).toNat + 1 = m'.date.month := by omega
    rw [hyear', hmonth', Date.of?_eq_some_iff.mpr ⟨rfl, rfl, hd⟩]
    simp only [Except.ok.injEq]
    symm
    apply Alike.eq
    · exact halike.trans ⟨rfl, (Wall.timeOfDay_on _ _ m.wall.timeOfDay_lt).symm⟩
    · rw [← date_number]
      exact (Wall.dayNumber_on _ _ m.wall.timeOfDay_lt).symm
    · exact hlater

/-- A step by months succeeds if it stays in the calendar. -/
theorem exists_plusMonths_eq_ok_iff {m : Moment} {months : Int} {day : Nat} (hday : 1 ≤ day) :
    (∃ m', m.plusMonths months day = .ok m') ↔
      12 ≤ m.monthIndex + months ∧ m.monthIndex + months < 120000 := by
  constructor
  · rintro ⟨m', h⟩
    have hindex := ((plusMonths_eq_ok_iff hday).mp h).1
    have hbounds := m'.monthIndex_bounds
    omega
  · rintro ⟨hlow, hhigh⟩
    obtain ⟨index, hindex⟩ : ∃ index : Nat, (index : Int) = m.monthIndex + months :=
      ⟨(m.monthIndex + months).toNat, by omega⟩
    have hlength := monthLength_ge (index / 12) (index % 12 + 1)
    obtain ⟨d, hmonth, hd⟩ := Date.exists_monthIndex_eq (by omega)
      (show index < 120000 by omega)
      (show 1 ≤ min (monthLength (index / 12) (index % 12 + 1)) day by omega) (by omega)
    have hdate : (m.wall.withDate d).date = d := Wall.date_on _ _ m.wall.timeOfDay_lt
    refine ⟨{ m with wall := m.wall.withDate d, later := false },
      (plusMonths_eq_ok_iff hday).mpr ⟨?_, ?_, ⟨rfl, ?_⟩, rfl⟩⟩
    · simp only [monthIndex, date, hdate, hmonth]
      exact hindex
    · simp only [date, hdate]
      rw [hd, ← d.monthIndex_div, ← d.monthIndex_mod, hmonth]
    · exact Wall.timeOfDay_on _ _ m.wall.timeOfDay_lt

/-- A step by months depends on the month it leads to, the time of day and the zone alone. -/
theorem plusMonths_congr {a b m : Moment} {i j : Int} {day : Nat} (hday : 1 ≤ day)
    (hindex : a.monthIndex + i = b.monthIndex + j) (halike : Alike a b)
    (h : a.plusMonths i day = .ok m) : b.plusMonths j day = .ok m := by
  rw [plusMonths_eq_ok_iff hday] at h ⊢
  exact ⟨h.1.trans hindex, h.2.1, h.2.2.1.trans halike, h.2.2.2⟩

end Moment

end EventCalendar.Time
