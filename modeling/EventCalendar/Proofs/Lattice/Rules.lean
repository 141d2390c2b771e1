/-
  EventCalendar.Proofs.Lattice.Rules

  The kinds whose steps count days.  Their starts are the days of the calendar
  that keep the rule of the kind, and no others: a step leads to the next such
  day.
-/

import EventCalendar.Proofs.Lattice.Starts

namespace EventCalendar

open EventCalendar.Time

/-! ## Rules -/

/-- The steps of the kind count days, and not months. -/
def Kind.countsDays : Kind → Bool
  | .daily | .workdays | .weekly | .biweekly | .customWeekly => true
  | .monthly | .monthlySpecific | .yearly => false

/-- The rule for the days of the starts, where steps count days. -/
def Pattern.fits (p : Pattern) (anchor day : Nat) : Bool :=
  match p.kind with
  | .daily => true
  | .workdays => !isWeekend (day % 7)
  | .weekly => day % 7 == anchor % 7
  | .biweekly => day % 14 == anchor % 14
  | .customWeekly => p.weekdays.contains ((day % 7 + 1) % 7 + 1)
  | .monthly | .monthlySpecific | .yearly => false

/-- The days that a step counts. -/
def Pattern.stepDays (p : Pattern) (cursor : Moment) : Nat :=
  match p.kind with
  | .daily => 1
  | .workdays => daysToWorkday cursor
  | .weekly => 7
  | .biweekly => 14
  | .customWeekly => daysToListed p.weekdays cursor
  | .monthly | .monthlySpecific | .yearly => 0

/-- The next listed weekday comes as soon as any day with a listed weekday. -/
theorem daysToListed_spec (weekdays : List Nat) (m : Moment) {days : Nat} (hpos : 1 ≤ days)
    (h : weekdays.contains (calendarWeekdayAfter m days) = true) :
    daysToListed weekdays m ≤ days ∧
      weekdays.contains (calendarWeekdayAfter m (daysToListed weekdays m)) = true := by
  -- some day of the next seven has the weekday
  obtain ⟨near, hnear, hle, hsame⟩ : ∃ near, (1 ≤ near ∧ near ≤ 7) ∧ near ≤ days ∧
      calendarWeekdayAfter m near = calendarWeekdayAfter m days := by
    refine ⟨(days - 1) % 7 + 1, by omega, by omega, ?_⟩
    simp only [calendarWeekdayAfter]
    omega
  have hweek : [1, 2, 3, 4, 5, 6, 7] = List.range' 1 7 := rfl
  unfold daysToListed
  rw [hweek]
  cases hfind : (List.range' 1 7).find? fun days =>
      weekdays.contains (calendarWeekdayAfter m days) with
  | none =>
    rw [List.find?_eq_none] at hfind
    refine absurd (hsame ▸ h) (hfind near ?_)
    rw [List.mem_range'_1]
    omega
  | some found =>
    obtain ⟨hfound, hmem, hbefore⟩ := List.find?_range'_eq_some.mp hfind
    refine ⟨?_, hfound⟩
    rcases Nat.lt_or_ge near found with hlt | hge
    · have := hbefore near hnear.1 hlt
      rw [hsame, h] at this
      cases this
    · simp only [Option.getD_some]
      omega

namespace Pattern

variable {p : Pattern} {anchor : Nat} {cursor m : Moment}

theorem step_eq_plusDays (hkind : p.kind.countsDays = true) (cursor : Moment) :
    p.step cursor = cursor.plusDays (p.stepDays cursor) := by
  unfold step stepDays
  cases h : p.kind <;> simp [h, Kind.countsDays] at hkind ⊢

/-- The rule comes back every other week. -/
theorem fits_add_fortnight (p : Pattern) (anchor day : Nat) :
    p.fits anchor (day + 14) = p.fits anchor day := by
  unfold fits
  split <;> simp [Nat.add_mod]

/-- A step leads to a day that keeps the rule, and to none after another such day. Where the days
    are counted from the anchor they have to be so from the start that the step leaves. -/
theorem fits_stepDays {day : Nat}
    (hcursor : p.fits anchor cursor.wall.dayNumber = true ∨
      p.kind = .workdays ∨ p.kind = .customWeekly)
    (hfits : p.fits anchor day = true) (hlt : cursor.wall.dayNumber < day) :
    cursor.wall.dayNumber + p.stepDays cursor ≤ day ∧
      p.fits anchor (cursor.wall.dayNumber + p.stepDays cursor) = true := by
  unfold fits at hcursor hfits ⊢
  unfold stepDays
  cases hkind : p.kind with
  | daily => exact ⟨by simp only; omega, rfl⟩
  -- only Friday and Saturday lead over days without a start
  | workdays =>
    simp only [hkind, isWeekend, daysToWorkday, Moment.weekday, Bool.not_eq_true',
      Bool.or_eq_false_iff, beq_eq_false_iff_ne, ne_eq, beq_iff_eq] at hfits ⊢
    split
    · omega
    · split <;> omega
  | weekly =>
    simp only [hkind, beq_iff_eq, reduceCtorEq, or_false] at hcursor hfits ⊢
    omega
  | biweekly =>
    simp only [hkind, beq_iff_eq, reduceCtorEq, or_false] at hcursor hfits ⊢
    omega
  | customWeekly =>
    simp only [hkind] at hfits ⊢
    have hweekday (days : Nat) : calendarWeekdayAfter cursor days =
        ((cursor.wall.dayNumber + days) % 7 + 1) % 7 + 1 := by
      simp only [calendarWeekdayAfter, Moment.weekday]
      omega
    have hday : cursor.wall.dayNumber + (day - cursor.wall.dayNumber) = day :=
      Nat.add_sub_cancel' (Nat.le_of_lt hlt)
    have hreach := daysToListed_spec p.weekdays cursor
      (show 1 ≤ day - cursor.wall.dayNumber by omega) (by rwa [hweekday, hday])
    rw [hweekday] at hreach
    exact ⟨by omega, hreach.2⟩
  | monthly => simp [hkind] at hfits
  | monthlySpecific => simp [hkind] at hfits
  | yearly => simp [hkind] at hfits

theorem countsDays_of_fits {day : Nat} (h : p.fits anchor day = true) :
    p.kind.countsDays = true := by
  unfold fits at h
  cases hkind : p.kind <;> simp [hkind, Kind.countsDays] at h ⊢

/-- The day after a step keeps the rule, and no day in between does. -/
theorem fits_step {next : Moment}
    (hcursor : p.fits anchor cursor.wall.dayNumber = true) (h : p.step cursor = .ok next) :
    p.fits anchor next.wall.dayNumber = true ∧
      ∀ day, cursor.wall.dayNumber < day → p.fits anchor day = true →
        next.wall.dayNumber ≤ day := by
  rw [step_eq_plusDays (countsDays_of_fits hcursor)] at h
  have hday := (Moment.plusDays_dayNumber h).1
  have hday : next.wall.dayNumber = cursor.wall.dayNumber + p.stepDays cursor := by omega
  rw [hday]
  -- there is a day to step to, since the rule comes back
  have hlater := (fits_add_fortnight p anchor cursor.wall.dayNumber).trans hcursor
  exact ⟨(fits_stepDays (.inl hcursor) hlater (by omega)).2,
    fun day hlt hfits => (fits_stepDays (.inl hcursor) hfits hlt).1⟩

/-- As long as a day that keeps the rule is ahead, a step succeeds. -/
theorem exists_step_eq_ok (hkind : p.kind.countsDays = true)
    (hle : cursor.wall.dayNumber + p.stepDays cursor ≤ m.wall.dayNumber) :
    ∃ next, p.step cursor = .ok next := by
  rw [step_eq_plusDays hkind]
  have hlt := m.wall.dayNumber_lt
  exact Moment.exists_plusDays_eq_ok_iff.mpr ⟨by omega, by omega⟩

/-- The starts from a start on are the days from there on that keep the rule. -/
theorem mem_startsFrom_iff (hcursor : p.fits anchor cursor.wall.dayNumber = true) :
    m ∈ p.startsFrom cursor ↔
      m.Alike cursor ∧ p.fits anchor m.wall.dayNumber = true ∧
        (m = cursor ∨ cursor.wall.dayNumber < m.wall.dayNumber ∧ m.later = false) := by
  have hkind := countsDays_of_fits hcursor
  induction cursor using p.startsFrom_induction with
  | last cursor e hstep =>
    rw [startsFrom_of_step_error hstep, List.mem_singleton]
    constructor
    · rintro rfl
      exact ⟨.refl _, hcursor, .inl rfl⟩
    · rintro ⟨-, hfits, h | ⟨hlt, -⟩⟩
      · exact h
      -- the step would have reached that day
      · have hreach := exists_step_eq_ok (m := m) hkind (fits_stepDays (.inl hcursor) hfits hlt).1
        exact absurd hreach (not_exists_eq_ok hstep)
  | step cursor next hstep ih =>
    obtain ⟨hnext, hbetween⟩ := fits_step hcursor hstep
    obtain ⟨hday, halike, hlater⟩ := step_spec hstep
    rw [startsFrom_of_step_ok hstep, List.mem_cons]
    refine (or_congr_right (ih hnext)).trans ?_
    constructor
    · rintro (rfl | ⟨hm, hfits, rfl | ⟨hlt, hmlater⟩⟩)
      · exact ⟨.refl _, hcursor, .inl rfl⟩
      · exact ⟨halike, hfits, .inr ⟨hday, hlater⟩⟩
      · exact ⟨hm.trans halike, hfits, .inr ⟨by omega, hmlater⟩⟩
    · rintro ⟨hm, hfits, rfl | ⟨hlt, hmlater⟩⟩
      · exact .inl rfl
      · refine .inr ⟨hm.trans halike.symm, hfits, ?_⟩
        rcases Nat.lt_or_ge next.wall.dayNumber m.wall.dayNumber with h | h
        · exact .inr ⟨h, hmlater⟩
        · have heq := Nat.le_antisymm h (hbetween _ hlt hfits)
          exact .inl ((hm.trans halike.symm).eq heq (hmlater.trans hlater.symm))

end Pattern

/-! ## Series -/

namespace Series

/-- The rule for the days of a series, where its steps count days. -/
def fits (s : Series) (day : Nat) : Bool := s.pattern.fits s.start.wall.dayNumber day

theorem firstStart_of_fits {s : Series} (h : s.fits s.start.wall.dayNumber = true) :
    s.firstStart = .ok s.start := by
  unfold firstStart
  unfold fits Pattern.fits at h
  simp only [pattern] at h
  cases hkind : s.kind <;> simp_all [Moment.calendarWeekday, Moment.weekday]

/-- Where the anchor does not keep the rule, working days or listed weekdays are meant, and the
    first start is that after it. -/
theorem firstStart_of_not_fits {s : Series} (hkind : s.kind.countsDays = true)
    (h : s.fits s.start.wall.dayNumber = false) :
    s.firstStart = s.pattern.step s.start ∧
      (s.pattern.kind = .workdays ∨ s.pattern.kind = .customWeekly) := by
  unfold firstStart
  unfold fits Pattern.fits at h
  simp only [pattern] at h ⊢
  cases hs : s.kind <;>
    simp_all [Moment.calendarWeekday, Moment.weekday, Kind.countsDays]

/-- A working day, or a day with a listed weekday, is always ahead. -/
theorem exists_fits_gt {s : Series} (hsort : s.pattern.kind = .workdays ∨
    s.pattern.kind = .customWeekly) (day : Nat) : ∃ later, day < later ∧ s.fits later = true := by
  unfold fits Pattern.fits
  rcases hsort with hkind | hkind
  · -- the next Monday
    refine ⟨day + 7 - day % 7, by omega, ?_⟩
    have hmonday : (day + 7 - day % 7) % 7 = 0 := by omega
    simp [hkind, hmonday, isWeekend]
  · obtain ⟨weekday, hmem⟩ : ∃ weekday, weekday ∈ s.weekdays.days := by
      have hlisted := s.listed
      have hs : s.kind = .customWeekly := hkind
      simp only [SeriesFields.lacksWeekdays, hs, beq_self_eq_true, Bool.true_and,
        List.isEmpty_eq_false_iff] at hlisted
      exact List.exists_mem_of_ne_nil _ hlisted
    have hweek := s.weekdays.inWeek weekday hmem
    refine ⟨day + 7 - day % 7 + (weekday + 5) % 7, by omega, ?_⟩
    have hday : ((day + 7 - day % 7 + (weekday + 5) % 7) % 7 + 1) % 7 + 1 = weekday := by omega
    simp only [hkind, hday, List.contains_iff_mem]
    exact hmem

/-- The starts of a series are the days from the anchor on that keep the rule. -/
theorem mem_allStarts_iff {s : Series} {m : Moment} (hkind : s.kind.countsDays = true) :
    m ∈ s.allStarts ↔
      m.Alike s.start ∧ s.fits m.wall.dayNumber = true ∧
        (m = s.start ∨ s.start.wall.dayNumber < m.wall.dayNumber ∧ m.later = false) := by
  by_cases hstart : s.fits s.start.wall.dayNumber = true
  · rw [allStarts_of_firstStart (firstStart_of_fits hstart)]
    exact Pattern.mem_startsFrom_iff hstart
  -- the anchor is no start; the first one is the next day that keeps the rule
  obtain ⟨hfirst, hsort⟩ := firstStart_of_not_fits hkind (eq_false_of_ne_true hstart)
  have hgap {day : Nat} (hlt : s.start.wall.dayNumber < day) (hfits : s.fits day = true) :=
    Pattern.fits_stepDays (.inr hsort) hfits hlt
  cases hstep : s.pattern.step s.start with
  | error e =>
    simp only [allStarts, hfirst, hstep, List.not_mem_nil, false_iff]
    rintro ⟨-, hfits, rfl | ⟨hlt, -⟩⟩
    · exact hstart hfits
    · have hreach := Pattern.exists_step_eq_ok hkind (hgap hlt hfits).1
      exact not_exists_eq_ok hstep hreach
  | ok first =>
    obtain ⟨hday, halike, hlater⟩ := Pattern.step_spec hstep
    have hfirstDay : first.wall.dayNumber =
        s.start.wall.dayNumber + s.pattern.stepDays s.start := by
      rw [Pattern.step_eq_plusDays hkind] at hstep
      have := (Moment.plusDays_dayNumber hstep).1
      omega
    have hfirstFits : s.fits first.wall.dayNumber = true := by
      obtain ⟨later, hlt, hfits⟩ := exists_fits_gt hsort s.start.wall.dayNumber
      rw [hfirstDay]
      exact (hgap hlt hfits).2
    rw [allStarts_of_firstStart (hfirst.trans hstep), Pattern.mem_startsFrom_iff hfirstFits]
    constructor
    · rintro ⟨hm, hfits, rfl | ⟨hlt, hmlater⟩⟩
      · exact ⟨hm.trans halike, hfits, .inr ⟨hday, hlater⟩⟩
      · exact ⟨hm.trans halike, hfits, .inr ⟨by omega, hmlater⟩⟩
    · rintro ⟨hm, hfits, rfl | ⟨hlt, hmlater⟩⟩
      · exact absurd hfits hstart
      · have hle := (hgap hlt hfits).1
        refine ⟨hm.trans halike.symm, hfits, ?_⟩
        rcases Nat.lt_or_ge first.wall.dayNumber m.wall.dayNumber with h | h
        · exact .inr ⟨h, hmlater⟩
        · exact .inl ((hm.trans halike.symm).eq (by omega) (hmlater.trans hlater.symm))

end Series

end EventCalendar
