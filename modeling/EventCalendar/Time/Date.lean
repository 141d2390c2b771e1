/-
  EventCalendar.Time.Date

  Dates of the proleptic Gregorian calendar from the year 1 to the year 9999,
  and their numbering: day 0 is 1 January of the year 1, a Monday.  Numbering
  and naming a day undo each other.
-/

namespace EventCalendar.Time

/-! ## Years and months -/

/-- A year with a 29 February. -/
def isLeap (year : Nat) : Bool :=
  year % 4 == 0 && (year % 100 != 0 || year % 400 == 0)

/-- The last year of the calendar. -/
def lastYear : Nat := 9999

/-- The number of days of a month. -/
def monthLength (year month : Nat) : Nat :=
  match month with
  | 2 => if isLeap year then 29 else 28
  | 4 | 6 | 9 | 11 => 30
  | _ => 31

/-- The number of days before 1 January of a year. -/
def daysBeforeYear (year : Nat) : Nat :=
  365 * (year - 1) + (year - 1) / 4 - (year - 1) / 100 + (year - 1) / 400

/-- The number of days of a year before the first of a month. -/
def daysBeforeMonth (year : Nat) : (month : Nat) → Nat
  | 0 | 1 => 0
  | month + 1 => daysBeforeMonth year month + monthLength year month

/-- The number of days of the calendar. -/
def dayCount : Nat := 3652059

theorem monthLength_pos (year month : Nat) : 1 ≤ monthLength year month := by
  unfold monthLength
  split <;> (try split) <;> omega

theorem monthLength_le (year month : Nat) : monthLength year month ≤ 31 := by
  unfold monthLength
  split <;> (try split) <;> omega

/-- The twelve months of a year. -/
theorem daysBeforeMonth_thirteen (year : Nat) :
    daysBeforeMonth year 13 = if isLeap year then 366 else 365 := by
  cases h : isLeap year <;> simp [daysBeforeMonth, monthLength, h]

/-- The year after a year starts when the twelve months are over. -/
theorem daysBeforeYear_succ (year : Nat) (h : 1 ≤ year) :
    daysBeforeYear (year + 1) = daysBeforeYear year + daysBeforeMonth year 13 := by
  obtain ⟨y, rfl⟩ : ∃ y, year = y + 1 := ⟨year - 1, by omega⟩
  have h₄ : (y + 1) / 4 = y / 4 + if (y + 1) % 4 = 0 then 1 else 0 := by split <;> omega
  have h₁ : (y + 1) / 100 = y / 100 + if (y + 1) % 100 = 0 then 1 else 0 := by split <;> omega
  have h₀ : (y + 1) / 400 = y / 400 + if (y + 1) % 400 = 0 then 1 else 0 := by split <;> omega
  have hle : y / 100 ≤ y / 4 := by omega
  have hd₁ : (y + 1) % 100 = 0 → (y + 1) % 4 = 0 := by omega
  have hd₀ : (y + 1) % 400 = 0 → (y + 1) % 100 = 0 := by omega
  have hl : isLeap (y + 1) = true ↔
      (y + 1) % 4 = 0 ∧ ((y + 1) % 100 ≠ 0 ∨ (y + 1) % 400 = 0) := by
    simp [isLeap]
  rw [daysBeforeMonth_thirteen]
  simp only [daysBeforeYear, Nat.add_sub_cancel, h₄, h₁, h₀, hl]
  generalize (y + 1) % 4 = a at *
  generalize (y + 1) % 100 = b at *
  generalize (y + 1) % 400 = c at *
  generalize y / 4 = d at *
  generalize y / 100 = e at *
  generalize y / 400 = f at *
  by_cases ha : a = 0 <;> by_cases hb : b = 0 <;> by_cases hc : c = 0 <;>
    simp_all <;> omega

theorem daysBeforeYear_mono {a b : Nat} (h : a ≤ b) : daysBeforeYear a ≤ daysBeforeYear b := by
  induction b with
  | zero =>
    have : a = 0 := by omega
    subst this
    exact Nat.le_refl _
  | succ b ih =>
    by_cases hb : a = b + 1
    · subst hb
      exact Nat.le_refl _
    · have h₁ := ih (by omega)
      rcases Nat.eq_zero_or_pos b with rfl | hpos
      · exact Nat.le_trans h₁ (by decide)
      · rw [daysBeforeYear_succ b hpos]
        omega

/-! ## Dates -/

/-- A day of the calendar by its name. -/
structure Date where
  year : Nat
  month : Nat
  day : Nat
  year_pos : 1 ≤ year
  year_le : year ≤ lastYear
  month_pos : 1 ≤ month
  month_le : month ≤ 12
  day_pos : 1 ≤ day
  day_le : day ≤ monthLength year month
  deriving DecidableEq, Repr

namespace Date

/-- The date with these three numbers, if there is one. -/
def of? (year month day : Nat) : Option Date :=
  if h : (1 ≤ year ∧ year ≤ lastYear) ∧ (1 ≤ month ∧ month ≤ 12) ∧
      (1 ≤ day ∧ day ≤ monthLength year month) then
    some ⟨year, month, day, h.1.1, h.1.2, h.2.1.1, h.2.1.2, h.2.2.1, h.2.2.2⟩
  else none

/-- The place of a day in the calendar. -/
def number (d : Date) : Nat :=
  daysBeforeYear d.year + daysBeforeMonth d.year d.month + (d.day - 1)

end Date

/-! ## Naming a day -/

/-- The year of a day, from the mean length of a year, put right by one where it fails. -/
def yearOfDay (n : Nat) : Nat :=
  let year := 400 * n / 146097 + 1
  if n < daysBeforeYear year then year - 1
  else if daysBeforeYear (year + 1) ≤ n then year + 1
  else year

/-- The last month up to `month` that starts by day `n` of the year. -/
def monthOfDay (year n : Nat) : (month : Nat) → Nat
  | 0 => 1
  | month + 1 => if daysBeforeMonth year (month + 1) ≤ n then month + 1 else monthOfDay year n month

/-- The mean length of a year leads to the year of a day, the one before or the one after. -/
theorem daysBeforeYear_estimate (n : Nat) :
    daysBeforeYear (400 * n / 146097) ≤ n ∧ n < daysBeforeYear (400 * n / 146097 + 1 + 1 + 1) := by
  generalize hp : 400 * n / 146097 = p
  have h₁ : 146097 * p ≤ 400 * n := by omega
  have h₂ : 400 * n < 146097 * (p + 1) := by omega
  clear hp
  simp only [daysBeforeYear, Nat.add_sub_cancel]
  constructor <;> omega

theorem daysBeforeYear_yearOfDay (n : Nat) : daysBeforeYear (yearOfDay n) ≤ n := by
  have h := daysBeforeYear_estimate n
  unfold yearOfDay
  dsimp only
  split
  · rw [Nat.add_sub_cancel]
    exact h.1
  · split <;> omega

theorem yearOfDay_pos (n : Nat) : 1 ≤ yearOfDay n := by
  unfold yearOfDay
  dsimp only
  split
  · rename_i hn
    rw [Nat.add_sub_cancel]
    rcases Nat.eq_zero_or_pos (400 * n / 146097) with h | h
    · rw [h] at hn
      simp [daysBeforeYear] at hn
    · exact h
  · split <;> omega

theorem lt_daysBeforeYear_yearOfDay (n : Nat) : n < daysBeforeYear (yearOfDay n + 1) := by
  have h := daysBeforeYear_estimate n
  unfold yearOfDay
  dsimp only
  split
  · rw [Nat.add_sub_cancel]
    assumption
  · split
    · exact h.2
    · omega

theorem yearOfDay_le {n : Nat} (h : n < dayCount) : yearOfDay n ≤ lastYear := by
  rcases Nat.lt_or_ge lastYear (yearOfDay n) with hy | hy
  · have h₁ := daysBeforeYear_yearOfDay n
    have h₂ := daysBeforeYear_mono (show 10000 ≤ yearOfDay n from hy)
    have h₃ : daysBeforeYear 10000 = dayCount := by decide
    omega
  · exact hy

theorem monthOfDay_pos (year n month : Nat) : 1 ≤ monthOfDay year n month := by
  induction month with
  | zero => exact Nat.le_refl 1
  | succ month ih =>
    unfold monthOfDay
    split <;> omega

theorem monthOfDay_le (year n month : Nat) (h : 1 ≤ month) : monthOfDay year n month ≤ month := by
  induction month with
  | zero => omega
  | succ month ih =>
    unfold monthOfDay
    split
    · omega
    · cases month with
      | zero => exact Nat.le_refl 1
      | succ month => exact Nat.le_succ_of_le (ih (by omega))

theorem daysBeforeMonth_monthOfDay (year n month : Nat) :
    daysBeforeMonth year (monthOfDay year n month) ≤ n := by
  induction month with
  | zero => simp [monthOfDay, daysBeforeMonth]
  | succ month ih =>
    unfold monthOfDay
    split <;> assumption

theorem lt_daysBeforeMonth_monthOfDay (year n month : Nat)
    (h : n < daysBeforeMonth year (month + 1)) :
    n < daysBeforeMonth year (monthOfDay year n month + 1) := by
  induction month with
  | zero => simp [daysBeforeMonth] at h
  | succ month ih =>
    unfold monthOfDay
    split
    · exact h
    · rename_i hn
      exact ih (by omega)

theorem daysBeforeMonth_succ (year month : Nat) (h : 1 ≤ month) :
    daysBeforeMonth year (month + 1) = daysBeforeMonth year month + monthLength year month := by
  cases month with
  | zero => omega
  | succ month => rfl

namespace Date

/-- The day at a place in the calendar. -/
def ofNumber (n : Nat) (h : n < dayCount) : Date :=
  let year := yearOfDay n
  let rest := n - daysBeforeYear year
  let month := monthOfDay year rest 12
  have hrest : n - daysBeforeYear (yearOfDay n) < daysBeforeMonth (yearOfDay n) 13 := by
    have h₁ := daysBeforeYear_yearOfDay n
    have h₂ := lt_daysBeforeYear_yearOfDay n
    rw [daysBeforeYear_succ _ (yearOfDay_pos n)] at h₂
    omega
  have hmonth : 1 ≤ month := monthOfDay_pos year rest 12
  { year, month
    day := rest - daysBeforeMonth year month + 1
    year_pos := yearOfDay_pos n
    year_le := yearOfDay_le h
    month_pos := hmonth
    month_le := monthOfDay_le year rest 12 (by decide)
    day_pos := by omega
    day_le := by
      have h₁ : daysBeforeMonth year month ≤ rest := daysBeforeMonth_monthOfDay year rest 12
      have h₂ := lt_daysBeforeMonth_monthOfDay year rest 12 hrest
      rw [daysBeforeMonth_succ _ _ hmonth] at h₂
      show rest - daysBeforeMonth year month + 1 ≤ monthLength year month
      have h₃ : rest < daysBeforeMonth year month + monthLength year month := h₂
      omega }

theorem number_ofNumber (n : Nat) (h : n < dayCount) : (ofNumber n h).number = n := by
  have h₁ := daysBeforeYear_yearOfDay n
  have h₂ := daysBeforeMonth_monthOfDay (yearOfDay n) (n - daysBeforeYear (yearOfDay n)) 12
  simp only [ofNumber, number]
  omega

end Date

/-! ## Order -/

theorem daysBeforeMonth_mono (year : Nat) {m k : Nat} (h : m ≤ k) :
    daysBeforeMonth year m ≤ daysBeforeMonth year k := by
  induction k with
  | zero =>
    have : m = 0 := by omega
    subst this
    exact Nat.le_refl _
  | succ k ih =>
    by_cases hk : m = k + 1
    · subst hk
      exact Nat.le_refl _
    · have := ih (by omega)
      cases k with
      | zero => simpa [daysBeforeMonth] using this
      | succ k =>
        rw [daysBeforeMonth_succ _ _ (by omega)]
        omega

namespace Date

/-- A day lies before the first of the next month. -/
theorem number_lt_month (d : Date) :
    d.number < daysBeforeYear d.year + daysBeforeMonth d.year (d.month + 1) := by
  rw [daysBeforeMonth_succ _ _ d.month_pos]
  have := d.day_pos
  have := d.day_le
  simp only [number]
  omega

/-- A day lies before the first of the next year. -/
theorem number_lt_year (d : Date) : d.number < daysBeforeYear (d.year + 1) := by
  rw [daysBeforeYear_succ _ d.year_pos]
  have h₁ := d.number_lt_month
  have h₂ := daysBeforeMonth_mono d.year (show d.month + 1 ≤ 13 from by have := d.month_le; omega)
  omega

theorem number_lt (d : Date) : d.number < dayCount := by
  have h₁ := d.number_lt_year
  have h₂ := daysBeforeYear_mono (show d.year + 1 ≤ 10000 from by have := d.year_le; simp [lastYear] at this; omega)
  have h₃ : daysBeforeYear 10000 = dayCount := by decide
  omega

/-- An earlier year means an earlier day. -/
theorem number_lt_of_year_lt {a b : Date} (h : a.year < b.year) : a.number < b.number := by
  have h₁ := a.number_lt_year
  have h₂ := daysBeforeYear_mono (show a.year + 1 ≤ b.year from h)
  simp only [number] at *
  omega

/-- In one year, an earlier month means an earlier day. -/
theorem number_lt_of_month_lt {a b : Date} (hy : a.year = b.year) (h : a.month < b.month) :
    a.number < b.number := by
  have h₁ := a.number_lt_month
  have h₂ := daysBeforeMonth_mono b.year (show a.month + 1 ≤ b.month from h)
  rw [hy] at h₁
  simp only [number] at *
  omega

/-- Different dates have different numbers. -/
theorem number_inj {a b : Date} (h : a.number = b.number) : a = b := by
  have hy : a.year = b.year := by
    rcases Nat.lt_trichotomy a.year b.year with hlt | heq | hgt
    · have := number_lt_of_year_lt hlt
      omega
    · exact heq
    · have := number_lt_of_year_lt hgt
      omega
  have hm : a.month = b.month := by
    rcases Nat.lt_trichotomy a.month b.month with hlt | heq | hgt
    · have := number_lt_of_month_lt hy hlt
      omega
    · exact heq
    · have := number_lt_of_month_lt hy.symm hgt
      omega
  have hd : a.day = b.day := by
    have h₁ := a.day_pos
    have h₂ := b.day_pos
    simp only [number, hy, hm] at h
    omega
  cases a
  cases b
  simp only at hy hm hd
  subst hy hm hd
  rfl

theorem ofNumber_number (d : Date) : ofNumber d.number d.number_lt = d :=
  number_inj (number_ofNumber _ _)

/-- The day of the week, 0 for Monday to 6 for Sunday. -/
def weekday (d : Date) : Nat := d.number % 7

/-- Which of the days of the month with its weekday a day is, counted from 1. -/
def weekdayOrdinal (d : Date) : Nat := (d.day - 1) / 7 + 1

end Date

end EventCalendar.Time
