/-
  EventCalendar.Proofs.Lattice.Landing

  Where a jump lands, seen from its target.  A jump lands on a start of the
  series, at the cursor or after it.  It does not pass its target as long as the
  months and years of the two are those of one zone; on the calendars of two
  zones a start of an earlier month can still lie after the target.
-/

import EventCalendar.Proofs.Expansion.Periods
import EventCalendar.Proofs.Lattice.MonthDays
import EventCalendar.Proofs.Time.InStep

namespace EventCalendar

open EventCalendar.Time

namespace Pattern

variable {p : Pattern} {cursor target landing m : Moment}

/-! ## Periods of the calendar -/

/-- The period of the calendar in which a kind has one start: the month or the year.  The kinds
    that count days do not go by the calendar. -/
def period (p : Pattern) (m : Moment) : Nat :=
  match p.kind with
  | .monthly | .monthlySpecific => m.monthIndex
  | .yearly => m.date.year
  | .daily | .workdays | .weekly | .biweekly | .customWeekly => 0

theorem period_of_countsDays (hkind : p.kind.countsDays = true) (m : Moment) : p.period m = 0 := by
  unfold period
  cases h : p.kind <;> simp [h, Kind.countsDays] at hkind ⊢

/-- What lies in an earlier period lies in an earlier month. -/
theorem monthIndex_lt_of_period_lt (h : p.period m < p.period target) :
    m.monthIndex < target.monthIndex := by
  have hm := m.date.month_le
  have htarget := target.date.month_pos
  unfold period at h
  cases hkind : p.kind <;> simp only [hkind, Moment.monthIndex, Date.monthIndex] at h ⊢ <;> omega

/-- Each start lies one period after the start before it. -/
theorem period_of_getElem? (hkind : p.kind.countsDays = false) (hday : 1 ≤ p.anchorDay) {n : Nat}
    (h : (p.startsFrom cursor)[n]? = some m) : p.period m = p.period cursor + n := by
  cases n with
  | zero =>
    rw [startsFrom, List.getElem?_cons_zero, Option.some.injEq] at h
    rw [h, Nat.add_zero]
  | succ n =>
    have hindex :=
      (inMonths_spec ((getElem?_startsFrom_succ_eq_some_iff hkind hday).mp h)).1
    have hyear := m.date.monthIndex_div
    have hyear' := cursor.date.monthIndex_div
    unfold period
    cases hsort : p.kind <;>
      simp only [hsort, Kind.countsDays, reduceCtorEq, stepMonths, Moment.monthIndex]
        at hkind hindex ⊢ <;> omega

/-- A jump over months lands in the period before that of its target, unless it stays where it
    is. -/
theorem period_of_jump (hkind : p.kind.countsDays = false) (hahead : target.upTo cursor = false)
    (h : p.jump cursor target = .ok landing) :
    landing = cursor ∧ p.period target ≤ p.period landing + 1 ∨
      p.period landing + 1 = p.period target := by
  unfold jump at h
  split at h
  · cases h
  rw [if_neg (by simp [hahead])] at h
  unfold period
  cases hsort : p.kind <;> simp only [hsort, Kind.countsDays, reduceCtorEq] at hkind h ⊢
  case yearly =>
    split at h
    · have hindex := (inMonths_spec h).1
      have hyear := landing.date.monthIndex_div
      have hyear' := cursor.date.monthIndex_div
      simp only [Moment.monthIndex] at hindex
      exact .inr (by omega)
    · cases h
      exact .inl ⟨rfl, by omega⟩
  all_goals
    rw [monthsBetween_eq] at h
    split at h
    · have hindex := (inMonths_spec h).1
      exact .inr (by omega)
    · cases h
      exact .inl ⟨rfl, by omega⟩

end Pattern

namespace Series

variable {s : Series} {cursor target landing m : Moment}

/-! ## Starts that seem earlier than they are -/

/-- A start after a cursor that the calendar puts before a target, as its month or year comes
    first, although it lies after the target. -/
structure SeemsEarlier (s : Series) (cursor target m : Moment) : Prop where
  start : m ∈ s.allStarts
  ahead : cursor.wall.dayNumber < m.wall.dayNumber
  period : s.pattern.period m < s.pattern.period target
  late : target.before m = true

/-- A start seems earlier only on the calendar of another zone, and by less than the clocks of two
    zones can be apart. -/
theorem SeemsEarlier.zone_ne (h : s.SeemsEarlier cursor target m) :
    m.zone ≠ target.zone ∧ m.since target < 2 * microsPerDay := by
  have hdays := Moment.dayNumber_lt_of_monthIndex_lt (Pattern.monthIndex_lt_of_period_lt h.period)
  have hmicros := Moment.micros_add_lt (show m.wall.dayNumber + 1 ≤ _ from hdays)
  have hlate := h.late
  rw [Moment.before, decide_eq_true_eq] at hlate
  constructor
  · intro hzone
    rw [Moment.since_of_zone_eq hzone.symm] at hlate
    omega
  · have hbounds := (Moment.since_bounds m target).2
    omega

/-! ## Landing -/

/-- The starts from a cursor on are what a jump leaves out and the starts from its landing on. -/
theorem startsFrom_of_jump (hkind : s.kind ≠ .customWeekly) (hcursor : cursor ∈ s.allStarts)
    (h : s.pattern.jump cursor target = .ok landing) :
    ∃ before, s.pattern.startsFrom cursor = before ++ s.pattern.startsFrom landing ∧
      ∀ m ∈ before, 4 * microsPerHour < target.since m :=
  Pattern.jump_spec hkind s.start.date.day_pos
    (fun hcount => ((mem_allStarts_iff hcount).mp hcursor).2.1) h

theorem allStarts_eq_append (hcursor : cursor ∈ s.allStarts) :
    ∃ passed, s.allStarts = passed ++ s.pattern.startsFrom cursor ∧
      ∀ m ∈ passed, m.wall.dayNumber < cursor.wall.dayNumber := by
  cases hfirst : s.firstStart with
  | error e => simp [allStarts, hfirst] at hcursor
  | ok first =>
    rw [allStarts_of_firstStart hfirst] at hcursor ⊢
    obtain ⟨passed, hsplit, hpassed⟩ := Pattern.startsFrom_eq_append hcursor
    exact ⟨passed, hsplit, fun m hm => (hpassed m hm).2⟩

/-- Where steps count days a jump does not pass its target. -/
theorem upTo_of_jump_days (hkind : s.kind ≠ .customWeekly) (hcount : s.kind.countsDays = true)
    (hcursor : cursor ∈ s.allStarts) (hahead : target.upTo cursor = false)
    (h : s.pattern.jump cursor target = .ok landing) : landing.upTo target = true := by
  obtain ⟨count, hreach, hfar, -⟩ := Pattern.jump_of_countsDays
    ((mem_allStarts_iff hcount).mp hcursor).2.1 hkind hahead h
  rw [Moment.upTo_eq_not_before, Bool.not_eq_true', Moment.before, decide_eq_false_iff_not]
  rcases hreach with ⟨-, rfl⟩ | ⟨hpos, hreach⟩
  · rw [Moment.upTo, decide_eq_false_iff_not] at hahead
    omega
  · -- one more period fits into the wait, and the clock is put forward by less
    have hmicros := (Moment.plusDays_eq_ok_iff.mp hreach).1
    have hzone := (Moment.plusDays_eq_ok_iff.mp hreach).2.2
    have hsince := Moment.since_sub_since_le hzone.symm target
    have hperiod : 1 * microsPerDay ≤ s.pattern.jumpDays * microsPerDay :=
      Nat.mul_le_mul_right _ s.pattern.jumpDays_bounds.1
    rw [Int.natCast_mul, Int.mul_assoc, ← Int.natCast_mul s.pattern.jumpDays] at hmicros
    have hfar := hfar hpos
    rw [Int.add_mul] at hfar
    simp only [microsPerHour, microsPerDay] at *
    omega

/-- A jump passes its target only if some start seems earlier than the target. -/
theorem upTo_of_jump_iff (hkind : s.kind ≠ .customWeekly) (hcursor : cursor ∈ s.allStarts)
    (h : s.pattern.jump cursor target = .ok landing) (hbefore : cursor.before target = true) :
    landing.upTo target = true ↔ ¬ ∃ m, s.SeemsEarlier cursor target m := by
  have hahead : target.upTo cursor = false := by
    rw [Moment.upTo_eq_not_before, hbefore]
    rfl
  cases hcount : s.kind.countsDays with
  | true =>
    refine iff_of_true (upTo_of_jump_days hkind hcount hcursor hahead h) ?_
    rintro ⟨m, hm⟩
    have hperiod := hm.period
    rw [Pattern.period_of_countsDays hcount, Pattern.period_of_countsDays hcount] at hperiod
    omega
  | false =>
    obtain ⟨before, hsplit, hleft⟩ := startsFrom_of_jump hkind hcursor h
    obtain ⟨passed, hall, hpassed⟩ := allStarts_eq_append hcursor
    have hperiod := Pattern.period_of_jump hcount hahead h
    constructor
    · rintro hupTo ⟨m, hm⟩
      have hlate := hm.late
      have hahead := hm.ahead
      have hmem := hm.start
      rw [hall, hsplit, List.mem_append, List.mem_append] at hmem
      rcases hmem with hgone | hgone | hrest
      · have := hpassed m hgone
        omega
      · -- what is left out lies before the target
        have hfar := hleft m hgone
        rw [Moment.before, decide_eq_true_eq] at hlate
        omega
      · obtain ⟨n, hn⟩ := List.getElem?_of_mem hrest
        have hlies := Pattern.period_of_getElem? hcount s.start.date.day_pos hn
        have hearlier := hm.period
        cases n with
        | zero =>
          rw [Pattern.startsFrom, List.getElem?_cons_zero, Option.some.injEq] at hn
          rw [Moment.upTo_eq_not_before, hn, hlate] at hupTo
          cases hupTo
        | succ n => omega
    · intro hnone
      by_contra hpast
      have hlate : target.before landing = true := by
        simpa [Moment.upTo_eq_not_before] using hpast
      have hmoved : landing ≠ cursor := by
        rintro rfl
        rw [Moment.upTo, decide_eq_false_iff_not] at hahead
        rw [Moment.before, decide_eq_true_eq] at hlate
        omega
      -- the landing itself seems earlier
      have hlanding : landing ∈ s.pattern.startsFrom cursor :=
        hsplit ▸ List.mem_append_right _ (s.pattern.cursor_mem_startsFrom landing)
      have hascending := s.pattern.startsFrom_ascending cursor
      rw [Pattern.startsFrom, List.pairwise_cons] at hascending
      have hnext := (List.mem_cons.mp hlanding).resolve_left hmoved
      have hearlier := hperiod.resolve_left fun hstay => hmoved hstay.1
      exact hnone ⟨landing, hall ▸ List.mem_append_right _ hlanding,
        hascending.1 landing hnext, by omega, hlate⟩

/-- A jump lands on a start of the series, on the cursor or one after it.  From a cursor before its
    target it passes the target exactly if a start seems earlier than the target, which can only be
    on the calendars of two zones; then it is off by less than two days. -/
theorem jump_lands_on_start (hkind : s.kind ≠ .customWeekly) (hcursor : cursor ∈ s.allStarts)
    (h : s.pattern.jump cursor target = .ok landing) :
    (∃ i j : Nat, i ≤ j ∧ s.allStarts[i]? = some cursor ∧ s.allStarts[j]? = some landing) ∧
    (cursor.before target = true →
      (landing.upTo target = true ↔ ¬ ∃ m, s.SeemsEarlier cursor target m)) ∧
    ∀ m, s.SeemsEarlier cursor target m →
      m.zone ≠ target.zone ∧ m.since target < 2 * microsPerDay := by
  refine ⟨?_, upTo_of_jump_iff hkind hcursor h, fun m hm => hm.zone_ne⟩
  obtain ⟨before, hsplit, -⟩ := startsFrom_of_jump hkind hcursor h
  obtain ⟨passed, hall, -⟩ := allStarts_eq_append hcursor
  refine ⟨passed.length, (passed ++ before).length, by simp, ?_, ?_⟩
  · rw [hall, List.getElem?_append_right (Nat.le_refl _), Nat.sub_self]
    rfl
  · rw [hall, hsplit, ← List.append_assoc, List.getElem?_append_right (Nat.le_refl _), Nat.sub_self]
    rfl

/-- The last day of every month at eight in the evening on the Pacific coast, from 31 January 2024
    on. -/
def monthEndEvenings : Series where
  seriesId := "month end evenings"
  title := none
  description := none
  anchorStart := { Moment.inJanuary 31 20 with zone := .fixed (-480) }
  anchorEnd := none
  allDay := false
  kind := .monthly
  weekdays := .empty
  firstInstance := none
  lastInstance := none
  zones := by decide
  ends := rfl
  bounds := rfl
  listed := rfl

theorem start_mem_monthEndEvenings : monthEndEvenings.start ∈ monthEndEvenings.allStarts := by
  rw [allStarts_of_firstStart (firstStart_of_countsMonths rfl)]
  exact Pattern.cursor_mem_startsFrom _ _

/-- Towards midnight of 15 March in Tokyo a jump leads to the evening of 29 February. -/
theorem jump_monthEndEvenings_lands :
    let s := monthEndEvenings
    let target : Moment := { Moment.inMarch 15 0 with zone := .fixed 540 }
    ∃ landing, s.kind ≠ .customWeekly ∧ s.start ∈ s.allStarts ∧
      s.pattern.jump s.start target = .ok landing ∧ landing.upTo target = true ∧
      (∃ i j : Nat, i ≤ j ∧ s.allStarts[i]? = some s.start ∧ s.allStarts[j]? = some landing) ∧
      (s.start.before target = true →
        (landing.upTo target = true ↔ ¬ ∃ m, s.SeemsEarlier s.start target m)) ∧
      ∀ m, s.SeemsEarlier s.start target m →
        m.zone ≠ target.zone ∧ m.since target < 2 * microsPerDay :=
  ⟨_, by decide, start_mem_monthEndEvenings, rfl, by decide,
    jump_lands_on_start (by decide) start_mem_monthEndEvenings rfl⟩

/-- Towards midnight of 1 March in Tokyo, when it is still the morning of 29 February on the
    Pacific coast, a jump leads to the evening of that day. -/
theorem jump_monthEndEvenings_passes_target :
    let s := monthEndEvenings
    let target : Moment := { Moment.inMarch 1 0 with zone := .fixed 540 }
    s.kind ≠ .customWeekly ∧ s.start ∈ s.allStarts ∧ s.start.before target = true ∧
      ∃ landing, s.pattern.jump s.start target = .ok landing ∧ landing.upTo target = false :=
  ⟨by decide, start_mem_monthEndEvenings, by decide, _, rfl, by decide⟩

end Series

end EventCalendar
