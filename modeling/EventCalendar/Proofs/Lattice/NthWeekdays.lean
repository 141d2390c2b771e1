/-
  EventCalendar.Proofs.Lattice.NthWeekdays

  The dates on which series of a weekday of the month have their starts: in
  every month the day that has as many days with its weekday up to it as the
  anchor has, or the last one with that weekday.  Only in the last month of the
  calendar it has to be there, as the search for it goes past the month.
-/

import EventCalendar.Proofs.Lattice.MonthDays

namespace EventCalendar

open EventCalendar.Time

/-! ## Counting -/

/-- An element of a filtered range stands in the place that the elements before it leave it. -/
theorem getElem?_filter_range_eq_some_iff {p : Nat → Bool} {n i o : Nat} :
    ((List.range n).filter p)[i]? = some o ↔
      o < n ∧ p o = true ∧ (List.range o).countP p = i := by
  induction n with
  | zero => simp
  | succ n ih =>
    have hlength : ((List.range n).filter p).length = (List.range n).countP p :=
      List.countP_eq_length_filter.symm
    rw [List.range_succ, List.filter_append]
    rcases Nat.lt_or_ge i ((List.range n).countP p) with hlt | hge
    · rw [List.getElem?_append_left (by omega), ih]
      have hne : (List.range o).countP p = i → o ≠ n := by
        rintro rfl rfl
        omega
      grind
    -- the shorter range has no such place, so that the element is the last one
    · have hnone : ((List.range n).filter p)[i]? = none := List.getElem?_eq_none (by omega)
      rw [hnone] at ih
      rw [List.getElem?_append_right (by omega), hlength]
      cases hp : p n <;> grind

/-- The days of a stretch that have a weekday come once a week. -/
theorem countP_weekday_range (first n : Nat) {weekday : Nat} (h : weekday < 7) :
    (List.range n).countP (fun offset => (first + offset) % 7 == weekday) =
      (n + 6 - (weekday + 7 - first % 7) % 7) / 7 := by
  induction n with
  | zero =>
    rw [List.range_zero, List.countP_nil]
    omega
  | succ n ih =>
    rw [List.range_succ, List.countP_append, ih, List.countP_singleton]
    split
    · rename_i hday
      rw [beq_iff_eq] at hday
      omega
    · rename_i hday
      rw [beq_iff_eq] at hday
      omega

namespace Time.Date

/-- The number of days of a month, up to a day, that have a weekday. -/
def weekdayCount (year month weekday day : Nat) : Nat :=
  (List.range' 1 day).countP fun n => (of? year month n).any (·.weekday == weekday)

theorem weekdayCount_eq_countP_range (d : Date) (weekday : Nat) {day : Nat}
    (h : day ≤ monthLength d.year d.month) :
    weekdayCount d.year d.month weekday day =
      (List.range day).countP fun offset => (firstDay d.monthIndex + offset) % 7 == weekday := by
  rw [weekdayCount, List.range'_eq_map_range, List.countP_map]
  refine List.countP_congr fun offset hoffset => ?_
  rw [List.mem_range] at hoffset
  obtain ⟨d', hmonth, hday⟩ := exists_monthIndex_eq d.monthIndex_bounds.1 d.monthIndex_bounds.2
    (show 1 ≤ 1 + offset by omega)
    (show 1 + offset ≤ monthLength (d.monthIndex / 12) (d.monthIndex % 12 + 1) by
      rw [d.monthIndex_div, d.monthIndex_mod]; omega)
  obtain ⟨hyear, hname⟩ := month_of_monthIndex_eq hmonth
  simp only [Function.comp_apply, of?_eq_some_iff.mpr ⟨hyear, hname, hday⟩, Option.any_some,
    Date.weekday, number_eq, hmonth, hday, Nat.add_sub_cancel_left]

/-- The ordinal of a day in its month is the number of days with its weekday up to it. -/
theorem weekdayOrdinal_eq (d : Date) :
    d.weekdayOrdinal = weekdayCount d.year d.month d.weekday d.day := by
  have hpos := d.day_pos
  have hnumber := d.number_eq
  rw [weekdayCount_eq_countP_range d _ d.day_le,
    countP_weekday_range _ _ (show d.weekday < 7 from Nat.mod_lt _ (by decide)), weekdayOrdinal,
    weekday]
  omega

theorem weekdayCount_mono (year month weekday : Nat) {day day' : Nat} (h : day ≤ day') :
    weekdayCount year month weekday day ≤ weekdayCount year month weekday day' :=
  (List.range'_sublist_right.mpr h).countP_le

/-- The number of days of a month that have a weekday. -/
def weekdayTotal (year month weekday : Nat) : Nat :=
  weekdayCount year month weekday (monthLength year month)

/-- Every month has each weekday four times. -/
theorem four_le_weekdayTotal (d : Date) {weekday : Nat} (h : weekday < 7) :
    4 ≤ weekdayTotal d.year d.month weekday := by
  have hlength := monthLength_ge d.year d.month
  rw [weekdayTotal, weekdayCount_eq_countP_range d _ (Nat.le_refl _), countP_weekday_range _ _ h]
  omega

/-- A day has a weekday, and is the one with a place among the days of its month that have it, or
    the last one if there are fewer. -/
def IsNthWeekday (d : Date) (weekday ordinal : Nat) : Prop :=
  d.weekday = weekday ∧
    weekdayCount d.year d.month weekday d.day = min ordinal (weekdayTotal d.year d.month weekday)

/-- A day has its own place. -/
theorem isNthWeekday_self (d : Date) :
    d.IsNthWeekday d.weekday (weekdayCount d.year d.month d.weekday d.day) :=
  ⟨rfl, (Nat.min_eq_left (weekdayCount_mono _ _ _ d.day_le)).symm⟩

end Time.Date

/-- A month is followed by another one, but the last month of the calendar. -/
theorem Time.Moment.monthIndex_succ_lt_iff (m : Moment) :
    m.monthIndex + 1 < 120000 ↔ ¬ (m.date.year = lastYear ∧ m.date.month = 12) := by
  have hbounds := m.monthIndex_bounds
  have hle := m.date.month_le
  simp only [monthIndex, Date.monthIndex, lastYear] at hbounds ⊢
  omega

/-! ## The search in a month -/

section

variable {monthStart m : Moment} {weekday ordinal : Nat}

/-- The search begins with the first day of the month that a step by months leads to. -/
theorem plusMonths_one_spec {cursor : Moment} {months : Int}
    (h : cursor.plusMonths months 1 = .ok monthStart) :
    (monthStart.monthIndex : Int) = cursor.monthIndex + months ∧ monthStart.date.day = 1 ∧
      monthStart.later = false := by
  obtain ⟨hindex, hday, -, hlater⟩ := (Moment.plusMonths_eq_ok_iff (Nat.le_refl 1)).mp h
  have hlength := monthLength_pos monthStart.date.year monthStart.date.month
  exact ⟨hindex, by omega, hlater⟩

theorem weekdayOffsets_eq_filter_range (hday : monthStart.date.day = 1) (weekday : Nat) :
    weekdayOffsets monthStart weekday =
      (List.range (monthLength monthStart.date.year monthStart.date.month)).filter
        fun offset => (firstDay monthStart.monthIndex + offset) % 7 == weekday := by
  have hnumber := monthStart.dayNumber_eq
  unfold weekdayOffsets
  dsimp only
  rw [hday, Nat.sub_add_cancel (monthLength_pos _ _)]
  refine List.filter_congr fun offset _ => ?_
  rw [Bool.eq_iff_iff, decide_eq_true_eq, beq_iff_eq, Moment.weekday, hnumber, hday]
  omega

theorem length_weekdayOffsets (hday : monthStart.date.day = 1) (weekday : Nat) :
    (weekdayOffsets monthStart weekday).length =
      Date.weekdayTotal monthStart.date.year monthStart.date.month weekday := by
  rw [weekdayOffsets_eq_filter_range hday, ← List.countP_eq_length_filter, Date.weekdayTotal,
    Date.weekdayCount_eq_countP_range _ _ (Nat.le_refl _), Moment.monthIndex]

/-- The place of a day in the search is the number of days of the month that have come before. -/
theorem getElem?_weekdayOffsets_iff {d : Date} {i : Nat} (hday : monthStart.date.day = 1)
    (hmonth : d.monthIndex = monthStart.monthIndex) :
    (weekdayOffsets monthStart weekday)[i]? = some (d.day - 1) ↔
      d.weekday = weekday ∧ Date.weekdayCount d.year d.month weekday d.day = i + 1 := by
  have hpos := d.day_pos
  have hle := d.day_le
  obtain ⟨hyear, hname⟩ := Date.month_of_monthIndex_eq hmonth
  have hcount := d.weekdayCount_eq_countP_range weekday hle
  -- the day itself is the last one that the number counts
  rw [← Nat.sub_add_cancel hpos, List.range_succ, List.countP_append, List.countP_singleton,
    Nat.sub_add_cancel hpos] at hcount
  rw [weekdayOffsets_eq_filter_range hday, getElem?_filter_range_eq_some_iff, hcount, ← hyear,
    ← hname, Date.weekday, d.number_eq, hmonth]
  grind

theorem dayAt_eq_ok_iff {offset : Nat} (hlater : monthStart.later = false) :
    dayAt monthStart offset = .ok m ↔
      m.wall.dayNumber = monthStart.wall.dayNumber + offset ∧ m.Alike monthStart ∧
        m.later = false := by
  unfold dayAt
  split
  · rename_i hzero
    constructor
    · intro h
      cases h
      exact ⟨by omega, .refl _, hlater⟩
    · rintro ⟨hnumber, halike, hm⟩
      rw [halike.eq (by omega) (hm.trans hlater.symm)]
  · constructor
    · intro h
      obtain ⟨hnumber, halike⟩ := Moment.plusDays_dayNumber h
      exact ⟨by omega, halike, (Moment.plusDays_eq_ok_iff.mp h).2.1⟩
    · rintro ⟨hnumber, halike, hm⟩
      have hmicros := halike.micros_sub
      rw [show (m.wall.dayNumber : Int) - monthStart.wall.dayNumber = offset by omega] at hmicros
      exact Moment.plusDays_eq_ok_iff.mpr ⟨by omega, hm, halike.1⟩

/-- The search takes the wanted place, or the last one; to learn that there are too few it has to
    reach the day after the month. -/
theorem nthWeekday_eq_ok_iff_getElem? (hday : monthStart.date.day = 1) (hpos : 1 ≤ ordinal)
    (hweekday : weekday < 7) :
    nthWeekday monthStart weekday ordinal = .ok m ↔
      (∃ offset, (weekdayOffsets monthStart weekday)[min ordinal
          (Date.weekdayTotal monthStart.date.year monthStart.date.month weekday) - 1]? =
            some offset ∧
        dayAt monthStart offset = .ok m) ∧
      (Date.weekdayTotal monthStart.date.year monthStart.date.month weekday < ordinal →
        monthStart.monthIndex + 1 < 120000) := by
  have htotal := monthStart.date.four_le_weekdayTotal hweekday
  rw [← length_weekdayOffsets hday] at htotal ⊢
  have hne : weekdayOffsets monthStart weekday ≠ [] := List.length_pos_iff.mp (by omega)
  rw [← exists_plusDays_month_iff hday]
  unfold nthWeekday nthOffset?
  dsimp only
  rw [if_neg (show ¬ (ordinal : Int) ≤ 0 by omega), Int.toNat_natCast]
  rcases Nat.lt_or_ge (weekdayOffsets monthStart weekday).length ordinal with hlt | hge
  · rw [List.getElem?_eq_none (show _ ≤ ordinal - 1 by omega),
      Nat.min_eq_right (Nat.le_of_lt hlt), ← List.getLast?_eq_getElem?,
      List.getLast?_eq_some_getLast hne]
    dsimp only
    rw [bind_eq_ok_iff]
    grind
  · rw [Nat.min_eq_left hge, List.getElem?_eq_getElem (show ordinal - 1 < _ by omega)]
    grind

/-- The search finds the day of the month that has the weekday and the wanted place, or the last
    one.  It fails only if there are too few and no other month comes. -/
theorem nthWeekday_eq_ok_iff (hday : monthStart.date.day = 1) (hlater : monthStart.later = false)
    (hpos : 1 ≤ ordinal) (hweekday : weekday < 7) :
    nthWeekday monthStart weekday ordinal = .ok m ↔
      (m.monthIndex = monthStart.monthIndex ∧ m.Alike monthStart ∧ m.later = false) ∧
      m.date.IsNthWeekday weekday ordinal ∧
      (Date.weekdayTotal monthStart.date.year monthStart.date.month weekday < ordinal →
        monthStart.monthIndex + 1 < 120000) := by
  have htotal := monthStart.date.four_le_weekdayTotal hweekday
  have hiff := nthWeekday_eq_ok_iff_getElem? (m := m) hday hpos hweekday
  -- a day of the month is as far from the first one as its number says
  have hplace (hmonth : m.monthIndex = monthStart.monthIndex) :
      m.wall.dayNumber = monthStart.wall.dayNumber + (m.date.day - 1) := by
    rw [m.dayNumber_eq, monthStart.dayNumber_eq, hday, Nat.sub_self, Nat.add_zero, hmonth]
  constructor
  · intro h
    obtain ⟨hmonth, halike, hm⟩ := monthIndex_nthWeekday hlater h
    obtain ⟨⟨offset, hget, hreach⟩, hnext⟩ := hiff.mp h
    have hoffset := ((dayAt_eq_ok_iff hlater).mp hreach).1
    rw [hplace hmonth, Nat.add_left_cancel_iff] at hoffset
    obtain ⟨hyear, hname⟩ := Date.month_of_monthIndex_eq hmonth
    rw [← hoffset, getElem?_weekdayOffsets_iff hday hmonth] at hget
    refine ⟨⟨hmonth, halike, hm⟩, ⟨hget.1, ?_⟩, hnext⟩
    rw [hget.2, hyear, hname]
    omega
  · rintro ⟨⟨hmonth, halike, hm⟩, ⟨hfalls, hcount⟩, hnext⟩
    obtain ⟨hyear, hname⟩ := Date.month_of_monthIndex_eq hmonth
    rw [hyear, hname] at hcount
    refine hiff.mpr ⟨⟨m.date.day - 1, (getElem?_weekdayOffsets_iff hday hmonth).mpr ⟨hfalls, ?_⟩,
      (dayAt_eq_ok_iff hlater).mpr ⟨hplace hmonth, halike, hm⟩⟩, hnext⟩
    rw [hyear, hname, hcount]
    omega

/-- The search succeeds if there are as many days as wanted, or another month comes. -/
theorem exists_nthWeekday_iff (hday : monthStart.date.day = 1)
    (hpos : 1 ≤ ordinal) (hweekday : weekday < 7) :
    (∃ m, nthWeekday monthStart weekday ordinal = .ok m) ↔
      (Date.weekdayTotal monthStart.date.year monthStart.date.month weekday < ordinal →
        monthStart.monthIndex + 1 < 120000) := by
  have htotal := monthStart.date.four_le_weekdayTotal hweekday
  have hlength := length_weekdayOffsets hday weekday
  simp only [nthWeekday_eq_ok_iff_getElem? hday hpos hweekday, exists_and_right]
  refine and_iff_right ?_
  obtain ⟨offset, hget⟩ : ∃ offset, (weekdayOffsets monthStart weekday)[min ordinal
      (Date.weekdayTotal monthStart.date.year monthStart.date.month weekday) - 1]? = some offset :=
    ⟨_, List.getElem?_eq_getElem (by omega)⟩
  have hoffset := (mem_weekdayOffsets_iff.mp (List.mem_of_getElem? hget)).1
  rw [hday, Nat.sub_add_cancel (monthLength_pos _ _)] at hoffset
  obtain ⟨m, hreach⟩ := exists_dayAt_eq_ok hday hoffset
  exact ⟨m, offset, hget, hreach⟩

end

namespace Series

variable {s : Series} {k : Nat} {m : Moment}

/-! ## Starts -/

/-- Which of the days of its month with its weekday the anchor is. -/
def anchorPlace (s : Series) : Nat :=
  Date.weekdayCount s.start.date.year s.start.date.month s.start.date.weekday s.start.date.day

theorem anchorPlace_pos (s : Series) : 1 ≤ s.anchorPlace := by
  rw [anchorPlace, ← Date.weekdayOrdinal_eq, Date.weekdayOrdinal]
  omega

/-- A series of a weekday of the month searches from the first day of the month. -/
theorem inMonths_of_monthlySpecific (hkind : s.kind = .monthlySpecific) (months : Int) :
    s.pattern.inMonths s.start months = (do
      nthWeekday (← s.start.plusMonths months 1) s.start.date.weekday s.anchorPlace) := by
  unfold Pattern.inMonths
  simp only [pattern, hkind, anchorPlace, Date.weekdayOrdinal_eq, Date.weekday, Moment.date_number,
    Moment.weekday]

/-- After the anchor a month of the calendar has a start; the last one only if it has so many days
    with the weekday. -/
theorem exists_inMonths_of_monthlySpecific (hkind : s.kind = .monthlySpecific) :
    (∃ m, s.pattern.inMonths s.start (s.pattern.stepMonths * k : Nat) = .ok m) ↔
      (s.monthAfter k).1 ≤ lastYear ∧ (s.monthAfter k = (lastYear, 12) →
        s.anchorPlace ≤ Date.weekdayTotal lastYear 12 s.start.date.weekday) := by
  have hmonths : s.kind.countsDays = false := by rw [hkind]; rfl
  have hweekday : s.start.date.weekday < 7 := Nat.mod_lt _ (by decide)
  have hlow := s.start.monthIndex_bounds.1
  have hreach : (∃ m, s.start.plusMonths (s.pattern.stepMonths * k : Nat) 1 = .ok m) ↔ _ :=
    Moment.exists_plusMonths_eq_ok_iff (Nat.le_refl 1)
  rw [monthAfter_le_lastYear hmonths, inMonths_of_monthlySpecific hkind]
  by_cases hin : s.start.monthIndex + s.pattern.stepMonths * k < 120000
  · obtain ⟨monthStart, hstart⟩ := hreach.mpr (by omega)
    obtain ⟨hindex, hday, -⟩ := plusMonths_one_spec hstart
    have hmonth : (monthStart.date.year, monthStart.date.month) = s.monthAfter k :=
      (eq_monthAfter_iff hmonths).mpr (by rw [← Moment.monthIndex]; omega)
    rw [hstart, ok_bind, exists_nthWeekday_iff hday s.anchorPlace_pos hweekday,
      and_iff_right hin, ← hmonth, Prod.mk.injEq, Moment.monthIndex_succ_lt_iff]
    constructor
    · rintro h ⟨hyear, hname⟩
      rw [hyear, hname] at h
      exact Nat.not_lt.mp fun hlt => h hlt ⟨rfl, rfl⟩
    · rintro h hlt ⟨hyear, hname⟩
      rw [hyear, hname] at hlt
      exact Nat.not_lt.mpr (h ⟨hyear, hname⟩) hlt
  · refine iff_of_false ?_ fun h => hin h.1
    rintro ⟨m, hm⟩
    obtain ⟨monthStart, hstart, -⟩ := bind_eq_ok_iff.mp hm
    have := hreach.mp ⟨monthStart, hstart⟩
    omega

/-- There are starts up to the end of the calendar; in its last month only if the month has so many
    days with the weekday, as that of the anchor has. -/
theorem exists_getElem?_of_monthlySpecific (hkind : s.kind = .monthlySpecific) :
    (∃ m, s.allStarts[k]? = some m) ↔ (s.monthAfter k).1 ≤ lastYear ∧
      (s.monthAfter k = (lastYear, 12) →
        s.anchorPlace ≤ Date.weekdayTotal lastYear 12 s.start.date.weekday) := by
  have hmonths : s.kind.countsDays = false := by rw [hkind]; rfl
  simp only [getElem?_allStarts_eq_some_iff hmonths]
  rcases Nat.eq_zero_or_pos k with rfl | hpos
  · have hanchor : (s.start.date.year, s.start.date.month) = s.monthAfter 0 :=
      (eq_monthAfter_iff hmonths).mpr rfl
    refine iff_of_true ⟨s.start, .inl ⟨rfl, rfl⟩⟩ ⟨?_, ?_⟩
    · rw [← hanchor]
      exact s.start.date.year_le
    · rw [← hanchor, Prod.mk.injEq]
      rintro ⟨hyear, hmonth⟩
      rw [anchorPlace, Date.weekdayTotal, ← hyear, ← hmonth]
      exact Date.weekdayCount_mono _ _ _ s.start.date.day_le
  · rw [← exists_inMonths_of_monthlySpecific hkind]
    simp only [Nat.ne_of_gt hpos, false_and, hpos, true_and, false_or]

/-- A series of a weekday of the month starts with its anchor and has one start in every month
    after that: the day that has the weekday of the anchor and its place among the days with it, or
    the last one of a month that has fewer.  It keeps the zone and the time of day of the anchor,
    and a month with fewer of the days does not change the place for later months.  Only a December
    of the year 9999 with fewer of the days has no start. -/
theorem starts_exact_of_monthlySpecific (hkind : s.kind = .monthlySpecific) :
    (∀ count, (s.starts count).1 = s.allStarts.take count) ∧
    s.allStarts[0]? = some s.start ∧
    (∀ k, (∃ m, s.allStarts[k]? = some m) ↔ (s.monthAfter k).1 ≤ lastYear ∧
      (s.monthAfter k = (lastYear, 12) →
        s.anchorPlace ≤ Date.weekdayTotal lastYear 12 s.start.date.weekday)) ∧
    ∀ k m, s.allStarts[k]? = some m → s.InMonthAfter k m ∧
      m.date.IsNthWeekday s.start.date.weekday s.anchorPlace := by
  have hmonths : s.kind.countsDays = false := by rw [hkind]; rfl
  have hweekday : s.start.date.weekday < 7 := Nat.mod_lt _ (by decide)
  refine ⟨s.starts_fst_eq_take, ?_, fun k => exists_getElem?_of_monthlySpecific hkind,
    fun k m hm => ⟨inMonthAfter_of_getElem? hmonths hm, ?_⟩⟩
  · rw [getElem?_allStarts_eq_some_iff hmonths]
    exact .inl ⟨rfl, rfl⟩
  · rcases (getElem?_allStarts_eq_some_iff hmonths).mp hm with ⟨-, rfl⟩ | ⟨-, hreach⟩
    · exact s.start.date.isNthWeekday_self
    · rw [inMonths_of_monthlySpecific hkind] at hreach
      obtain ⟨monthStart, hstart, hsearch⟩ := bind_eq_ok_iff.mp hreach
      obtain ⟨-, hday, hlater⟩ := plusMonths_one_spec hstart
      exact ((nthWeekday_eq_ok_iff hday hlater s.anchorPlace_pos hweekday).mp hsearch).2.1

/-- The Mondays that have the place of a Monday among the Mondays of its month, at nine in universal
    time. -/
def mondayOfMonth (day : Nat) (h : day < dayCount) : Series where
  seriesId := "monday of the month"
  title := none
  description := none
  anchorStart := .onTheHour day 9 ⟨h, by decide⟩
  anchorEnd := none
  allDay := false
  kind := .monthlySpecific
  weekdays := .empty
  firstInstance := none
  lastInstance := none
  zones := by simp [SeriesFields.moments, Moment.onTheHour, Moment.isZoned, Zone.utc]
  ends := rfl
  bounds := rfl
  listed := rfl

/-- The fifth Mondays from 29 January 2024 on, or the last ones. -/
def fifthMondays : Series := mondayOfMonth 738913 (by decide)

/-- The fifth Mondays from 29 November 9999 on, or the last ones. -/
def finalFifthMondays : Series := mondayOfMonth 3652026 (by decide)

theorem starts_fifthMondays_exact :
    let s := fifthMondays
    s.kind = .monthlySpecific ∧
    (∀ count, (s.starts count).1 = s.allStarts.take count) ∧
    s.allStarts[0]? = some s.start ∧
    (∀ k, (∃ m, s.allStarts[k]? = some m) ↔ (s.monthAfter k).1 ≤ lastYear ∧
      (s.monthAfter k = (lastYear, 12) →
        s.anchorPlace ≤ Date.weekdayTotal lastYear 12 s.start.date.weekday)) ∧
    ∀ k m, s.allStarts[k]? = some m → s.InMonthAfter k m ∧
      m.date.IsNthWeekday s.start.date.weekday s.anchorPlace :=
  ⟨rfl, starts_exact_of_monthlySpecific rfl⟩

/-- February and March have four Mondays, April has five again. -/
example : (fifthMondays.starts 4).1.map (fun m => (m.date.year, m.date.month, m.date.day)) =
    [(2024, 1, 29), (2024, 2, 26), (2024, 3, 25), (2024, 4, 29)] := by
  decide

/-- The series from the fifth Monday of November 9999 on ends with it, although the month after it
    is in the calendar and has a last Monday. -/
theorem starts_finalFifthMondays_end_early :
    let s := finalFifthMondays
    s.kind = .monthlySpecific ∧ s.monthAfter 1 = (lastYear, 12) ∧
    (∃ d : Date, (d.year, d.month, d.day) = (lastYear, 12, 27) ∧
      d.IsNthWeekday s.start.date.weekday s.anchorPlace) ∧
    s.starts 2 = ([s.start], some .outOfRange) ∧ s.allStarts[1]? = none := by
  refine ⟨rfl, by decide, ?_, by decide, ?_⟩
  · exact ⟨⟨lastYear, 12, 27, by decide, by decide, by decide, by decide, by decide, by decide⟩,
      rfl, by decide, by decide⟩
  · rw [Option.eq_none_iff_forall_ne_some]
    intro m hm
    have hplace := ((exists_getElem?_of_monthlySpecific rfl).mp ⟨m, hm⟩).2 (by decide)
    exact absurd hplace (by decide)

end Series

end EventCalendar
