/-
  EventCalendar.Proofs.Lattice.MonthDays

  The dates on which series of months and years have their starts: every month,
  or every year in the month of the anchor, has one.  It is on the day of the
  anchor, or on the last day of a month that is too short, and what the months
  before it were like makes no difference.
-/

import EventCalendar.Proofs.Lattice.Months

namespace EventCalendar

open EventCalendar.Time

namespace Series

variable {s : Series} {k : Nat} {m : Moment} {d : Date}

/-! ## Months -/

/-- The month that lies `k` periods after that of the anchor, by its year and its number: `k` years
    for a yearly series, `k` months for the others. -/
def monthAfter (s : Series) (k : Nat) : Nat × Nat :=
  let anchor := s.start.date
  match s.kind with
  | .yearly => (anchor.year + k, anchor.month)
  | _ => (anchor.year + (anchor.month - 1 + k) / 12, (anchor.month - 1 + k) % 12 + 1)

/-- A date-time lies in the month `k` periods after that of the anchor, in the zone of the anchor
    and at its time of day. -/
structure InMonthAfter (s : Series) (k : Nat) (m : Moment) : Prop where
  month : (m.date.year, m.date.month) = s.monthAfter k
  zone : m.zone = s.start.zone
  time : m.wall.timeOfDay = s.start.wall.timeOfDay

theorem stepMonths_pattern (hkind : s.kind.countsDays = false) :
    s.pattern.stepMonths = if s.kind = .yearly then 12 else 1 := by
  unfold Pattern.stepMonths pattern
  cases h : s.kind <;> simp [h, Kind.countsDays] at hkind ⊢

/-- Counted through the years, the months lie the steps of the series apart. -/
theorem monthAfter_index (hkind : s.kind.countsDays = false) (k : Nat) :
    (s.monthAfter k).1 * 12 + ((s.monthAfter k).2 - 1) =
      s.start.monthIndex + s.pattern.stepMonths * k := by
  have hmonth := s.start.date.month_pos
  rw [stepMonths_pattern hkind]
  unfold monthAfter Moment.monthIndex Date.monthIndex
  cases s.kind <;> simp <;> omega

theorem monthAfter_bounds (s : Series) (k : Nat) :
    1 ≤ (s.monthAfter k).2 ∧ (s.monthAfter k).2 ≤ 12 := by
  have hpos := s.start.date.month_pos
  have hle := s.start.date.month_le
  unfold monthAfter
  cases s.kind <;> simp <;> omega

/-- The months that lie in the calendar. -/
theorem monthAfter_le_lastYear (hkind : s.kind.countsDays = false) (k : Nat) :
    (s.monthAfter k).1 ≤ lastYear ↔ s.start.monthIndex + s.pattern.stepMonths * k < 120000 := by
  have hindex := s.monthAfter_index hkind k
  have hbounds := s.monthAfter_bounds k
  simp only [lastYear]
  omega

theorem eq_monthAfter_iff (hkind : s.kind.countsDays = false) :
    (d.year, d.month) = s.monthAfter k ↔
      d.monthIndex = s.start.monthIndex + s.pattern.stepMonths * k := by
  have hindex := s.monthAfter_index hkind k
  have hbounds := s.monthAfter_bounds k
  have hpos := d.month_pos
  have hle := d.month_le
  rw [← hindex, Prod.ext_iff, Date.monthIndex]
  dsimp only
  omega

theorem inMonthAfter_iff (hkind : s.kind.countsDays = false) :
    s.InMonthAfter k m ↔
      m.monthIndex = s.start.monthIndex + s.pattern.stepMonths * k ∧ m.Alike s.start := by
  rw [Moment.monthIndex, ← eq_monthAfter_iff hkind]
  exact ⟨fun h => ⟨h.month, h.zone, h.time⟩, fun h => ⟨h.1, h.2.1, h.2.2⟩⟩

/-! ## Starts -/

theorem firstStart_of_countsMonths (hkind : s.kind.countsDays = false) :
    s.firstStart = .ok s.start := by
  unfold firstStart
  cases h : s.kind <;> simp [h, Kind.countsDays] at hkind ⊢

/-- The anchor comes first, and after it what whole periods from the anchor lead to. -/
theorem getElem?_allStarts_eq_some_iff (hkind : s.kind.countsDays = false) :
    s.allStarts[k]? = some m ↔ k = 0 ∧ m = s.start ∨
      0 < k ∧ s.pattern.inMonths s.start (s.pattern.stepMonths * k : Nat) = .ok m := by
  rw [allStarts_of_firstStart (firstStart_of_countsMonths hkind)]
  cases k with
  | zero => simp [Pattern.startsFrom, eq_comm]
  | succ k =>
    rw [Pattern.getElem?_startsFrom_succ_eq_some_iff hkind s.start.date.day_pos]
    simp

/-- The starts lie in the months after that of the anchor, one after the other. -/
theorem inMonthAfter_of_getElem? (hkind : s.kind.countsDays = false)
    (h : s.allStarts[k]? = some m) : s.InMonthAfter k m := by
  rw [inMonthAfter_iff hkind]
  rcases (getElem?_allStarts_eq_some_iff hkind).mp h with ⟨rfl, rfl⟩ | ⟨-, hreach⟩
  · exact ⟨rfl, .refl _⟩
  · obtain ⟨hindex, halike, -⟩ := Pattern.inMonths_spec hreach
    exact ⟨by omega, halike⟩

/-- No month has two starts. -/
theorem eq_of_monthIndex_eq (hkind : s.kind.countsDays = false) {m' : Moment}
    (hm : m ∈ s.allStarts) (hm' : m' ∈ s.allStarts) (hsame : m.monthIndex = m'.monthIndex) :
    m = m' := by
  obtain ⟨k, hk⟩ := List.getElem?_of_mem hm
  obtain ⟨k', hk'⟩ := List.getElem?_of_mem hm'
  have hindex := ((inMonthAfter_iff hkind).mp (inMonthAfter_of_getElem? hkind hk)).1
  have hindex' := ((inMonthAfter_iff hkind).mp (inMonthAfter_of_getElem? hkind hk')).1
  have hsteps : s.pattern.stepMonths * k = s.pattern.stepMonths * k' := by omega
  obtain rfl : k = k' := Nat.eq_of_mul_eq_mul_left (Pattern.stepMonths_pos hkind) hsteps
  rw [hk, Option.some.injEq] at hk'
  exact hk'

/-! ## Days of the month -/

theorem inMonths_of_dayOfMonth (hkind : s.kind = .monthly ∨ s.kind = .yearly) (months : Int) :
    s.pattern.inMonths s.start months = s.start.plusMonths months s.start.date.day := by
  unfold Pattern.inMonths pattern
  rcases hkind with h | h <;> simp [h]

theorem countsDays_of_dayOfMonth (hkind : s.kind = .monthly ∨ s.kind = .yearly) :
    s.kind.countsDays = false := by
  rcases hkind with h | h <;> rw [h] <;> rfl

/-- Every start is on the day of the anchor, if its month is so long. -/
theorem day_of_getElem? (hkind : s.kind = .monthly ∨ s.kind = .yearly)
    (h : s.allStarts[k]? = some m) :
    m.date.day = min s.start.date.day (monthLength m.date.year m.date.month) := by
  rcases (getElem?_allStarts_eq_some_iff (countsDays_of_dayOfMonth hkind)).mp h with
    ⟨-, rfl⟩ | ⟨-, hreach⟩
  · exact (Nat.min_eq_left s.start.date.day_le).symm
  · rw [inMonths_of_dayOfMonth hkind, Moment.plusMonths_eq_ok_iff s.start.date.day_pos] at hreach
    rw [Nat.min_comm]
    exact hreach.2.1

/-- There are starts up to the end of the calendar. -/
theorem exists_getElem?_of_dayOfMonth (hkind : s.kind = .monthly ∨ s.kind = .yearly) :
    (∃ m, s.allStarts[k]? = some m) ↔ (s.monthAfter k).1 ≤ lastYear := by
  have hmonths := countsDays_of_dayOfMonth hkind
  simp only [monthAfter_le_lastYear hmonths, getElem?_allStarts_eq_some_iff hmonths,
    inMonths_of_dayOfMonth hkind]
  have hbounds := s.start.monthIndex_bounds
  rcases Nat.eq_zero_or_pos k with rfl | hpos
  · simpa using hbounds.2
  · have hreach : (∃ m, s.start.plusMonths (s.pattern.stepMonths * k : Nat) s.start.date.day =
        .ok m) ↔ _ := Moment.exists_plusMonths_eq_ok_iff s.start.date.day_pos
    simp only [Nat.ne_of_gt hpos, false_and, hpos, true_and, false_or, hreach]
    omega

/-- A monthly series has one start in every month from that of its anchor on, a yearly one in every
    year, in the month of its anchor.  The `k`-th start, counted from the anchor as the one with
    the number 0, lies `k` months or years after the month of the anchor, on the day of the anchor
    or the last day of a shorter month; it keeps the zone and the time of day of the anchor. -/
theorem starts_exact_of_dayOfMonth (hkind : s.kind = .monthly ∨ s.kind = .yearly) :
    (∀ count, (s.starts count).1 = s.allStarts.take count) ∧
    (∀ k, (∃ m, s.allStarts[k]? = some m) ↔ (s.monthAfter k).1 ≤ lastYear) ∧
    (∀ k m, s.allStarts[k]? = some m → s.InMonthAfter k m ∧
      m.date.day = min s.start.date.day (monthLength m.date.year m.date.month)) ∧
    ∀ d : Date, s.start.date.monthIndex ≤ d.monthIndex →
      (s.kind = .yearly → d.month = s.start.date.month) →
      ∃! m, m ∈ s.allStarts ∧ m.date.year = d.year ∧ m.date.month = d.month := by
  have hmonths := countsDays_of_dayOfMonth hkind
  refine ⟨s.starts_fst_eq_take, fun k => exists_getElem?_of_dayOfMonth hkind,
    fun k m hm => ⟨inMonthAfter_of_getElem? hmonths hm, day_of_getElem? hkind hm⟩, ?_⟩
  intro d hle hyearly
  -- the month of the date lies whole periods after that of the anchor
  obtain ⟨k, hk⟩ : ∃ k, (d.year, d.month) = s.monthAfter k := by
    simp only [eq_monthAfter_iff hmonths, stepMonths_pattern hmonths]
    rcases hkind with h | h
    · exact ⟨d.monthIndex - s.start.date.monthIndex, by simp [h, Moment.monthIndex]; omega⟩
    · have hsame := hyearly h
      refine ⟨d.year - s.start.date.year, ?_⟩
      simp only [Moment.monthIndex, Date.monthIndex, h, if_true] at hle ⊢
      omega
  obtain ⟨m, hm⟩ := (exists_getElem?_of_dayOfMonth hkind).mpr
    (show (s.monthAfter k).1 ≤ lastYear by rw [← hk]; exact d.year_le)
  have hmonth := (inMonthAfter_of_getElem? hmonths hm).month
  rw [← hk, Prod.mk.injEq] at hmonth
  refine ⟨m, ⟨List.mem_of_getElem? hm, hmonth⟩, ?_⟩
  rintro m' ⟨hm', hyear', hmonth'⟩
  refine eq_of_monthIndex_eq hmonths hm' (List.mem_of_getElem? hm) ?_
  simp only [Moment.monthIndex, Date.monthIndex, hyear', hmonth', hmonth.1, hmonth.2]

/-- The last day of every month at nine in universal time, from 31 January 2024 on. -/
def monthEnds : Series where
  seriesId := "month ends"
  title := none
  description := none
  anchorStart := .inJanuary 31 9
  anchorEnd := none
  allDay := false
  kind := .monthly
  weekdays := .empty
  firstInstance := none
  lastInstance := none
  zones := by decide
  ends := rfl
  bounds := rfl
  listed := rfl

/-- A series from the 31st on has a start in every month, on its last day or the 31st. -/
theorem starts_monthEnds_exact :
    let s := monthEnds
    (s.kind = .monthly ∨ s.kind = .yearly) ∧
    (∀ count, (s.starts count).1 = s.allStarts.take count) ∧
    (∀ k, (∃ m, s.allStarts[k]? = some m) ↔ (s.monthAfter k).1 ≤ lastYear) ∧
    (∀ k m, s.allStarts[k]? = some m → s.InMonthAfter k m ∧
      m.date.day = min s.start.date.day (monthLength m.date.year m.date.month)) ∧
    ∀ d : Date, s.start.date.monthIndex ≤ d.monthIndex →
      (s.kind = .yearly → d.month = s.start.date.month) →
      ∃! m, m ∈ s.allStarts ∧ m.date.year = d.year ∧ m.date.month = d.month :=
  ⟨.inl rfl, starts_exact_of_dayOfMonth (.inl rfl)⟩

/-- The short February does not move the start in March. -/
example : (monthEnds.starts 3).1.map (fun m => (m.date.year, m.date.month, m.date.day)) =
    [(2024, 1, 31), (2024, 2, 29), (2024, 3, 31)] := by
  decide

end Series

end EventCalendar
