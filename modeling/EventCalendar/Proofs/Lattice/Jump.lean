/-
  EventCalendar.Proofs.Lattice.Jump

  Jumps over whole periods.  A jump lands on a start; the starts that it leaves
  out lie well before its target, and twenty steps lead beyond the target.
  Both hold by more than the clocks of two zones can differ from their walls.
-/

import EventCalendar.Proofs.Lattice.Months

namespace EventCalendar

open EventCalendar.Time

namespace Pattern

variable {p : Pattern} {cursor target landing m : Moment}

/-! ## Landing -/

/-- A jump over days lands on a start if it lands on a day that keeps the rule. -/
theorem mem_startsFrom_of_plusDays {anchor days : Nat}
    (hcursor : p.fits anchor cursor.wall.dayNumber = true) (hpos : 0 < days)
    (hrule : p.fits anchor (cursor.wall.dayNumber + days) = true)
    (h : cursor.plusDays days = .ok landing) : landing ∈ p.startsFrom cursor := by
  obtain ⟨hday, halike⟩ := Moment.plusDays_dayNumber h
  have hday : landing.wall.dayNumber = cursor.wall.dayNumber + days := by omega
  rw [mem_startsFrom_iff hcursor, hday]
  exact ⟨halike, hrule, .inr ⟨by omega, (Moment.plusDays_eq_ok_iff.mp h).2.1⟩⟩

/-- A jump over whole periods of months lands on a start. -/
theorem mem_startsFrom_of_inMonths {periods : Nat} (hkind : p.kind.countsDays = false)
    (hday : 1 ≤ p.anchorDay) (hpos : 0 < periods)
    (h : p.inMonths cursor (p.stepMonths * periods : Nat) = .ok landing) :
    landing ∈ p.startsFrom cursor := by
  obtain ⟨n, rfl⟩ : ∃ n, periods = n + 1 := ⟨periods - 1, by omega⟩
  exact List.mem_of_getElem? ((getElem?_startsFrom_succ_eq_some_iff hkind hday).mpr h)

/-! ## Jumps over days -/

/-- The days that a jump goes over at a time, where steps count days. -/
def jumpDays (p : Pattern) : Nat :=
  match p.kind with
  | .workdays => 7
  | kind => kind.periodDays?.getD 1

theorem jumpDays_bounds (p : Pattern) : 1 ≤ p.jumpDays ∧ p.jumpDays ≤ 14 := by
  unfold jumpDays
  cases p.kind <;> simp [Kind.periodDays?]

/-- The rule of a kind comes back with the days of a jump. -/
theorem fits_add_jumpDays (hkind : p.kind ≠ .customWeekly) (anchor day count : Nat) :
    p.fits anchor (day + count * p.jumpDays) = p.fits anchor day := by
  unfold fits jumpDays
  cases h : p.kind <;> simp [h, Kind.periodDays?, Nat.add_mod] at hkind ⊢

/-- A jump goes over one period less than fit into the wait, if that leaves any. -/
theorem fdiv_sub_one_bounds {wait : Int} {period : Nat} (hpos : 0 < period) (hwait : 0 < wait) :
    ∃ count : Nat, (count : Int) = max 0 (wait.fdiv period - 1) ∧
      (0 < count → (count + 1) * (period : Int) ≤ wait) ∧ wait < (count + 2) * (period : Int) := by
  rw [Int.fdiv_eq_ediv_of_nonneg wait (by omega)]
  have hle := Int.ediv_mul_le wait (show (period : Int) ≠ 0 by omega)
  have hlt := Int.lt_ediv_add_one_mul_self wait (show (0 : Int) < period by omega)
  have hnonneg := Int.ediv_nonneg (show 0 ≤ wait by omega) (show (0 : Int) ≤ period by omega)
  obtain ⟨whole, hwhole⟩ : ∃ whole : Nat, wait / period = whole :=
    ⟨(wait / period).toNat, by omega⟩
  rw [hwhole] at hle hlt ⊢
  -- of the periods that fit in whole, the jump leaves one
  rcases whole with _ | count
  · refine ⟨0, by omega, by omega, ?_⟩
    omega
  · refine ⟨count, by omega, fun _ => ?_, ?_⟩
    · rwa [Int.natCast_succ] at hle
    · rw [Int.natCast_succ, Int.add_assoc] at hlt
      exact hlt

/-- A jump over days leads to a start some periods of the jump ahead, so many that one more period
    fits into the wait, but not two more. -/
theorem jump_of_countsDays {anchor : Nat} (hcursor : p.fits anchor cursor.wall.dayNumber = true)
    (hkind : p.kind ≠ .customWeekly) (hahead : target.upTo cursor = false)
    (h : p.jump cursor target = .ok landing) :
    ∃ count : Nat, (count = 0 ∧ landing = cursor ∨
        0 < count ∧ cursor.plusDays (count * p.jumpDays : Nat) = .ok landing) ∧
      (0 < count →
        (count + 1) * ((p.jumpDays * microsPerDay : Nat) : Int) ≤ target.since cursor) ∧
      target.since cursor < (count + 2) * ((p.jumpDays * microsPerDay : Nat) : Int) := by
  have hwait : 0 < target.since cursor := by
    simp only [Moment.upTo, decide_eq_false_iff_not] at hahead
    omega
  have hcount := countsDays_of_fits hcursor
  obtain ⟨count, hmax, hbounds⟩ := fdiv_sub_one_bounds
    (show 0 < p.jumpDays * microsPerDay from Nat.mul_pos p.jumpDays_bounds.1 (by decide)) hwait
  refine ⟨count, ?_, hbounds⟩
  have hreach : (if 0 < (target.since cursor).fdiv (p.jumpDays * microsPerDay) - 1 then
      cursor.plusDays (((target.since cursor).fdiv (p.jumpDays * microsPerDay) - 1) * p.jumpDays)
      else .ok cursor) = .ok landing := by
    unfold jump at h
    split at h
    · cases h
    · rw [if_neg (by simp [hahead])] at h
      unfold jumpDays
      cases hsort : p.kind <;> simp_all [Kind.countsDays, Kind.periodDays?]
  rw [Int.natCast_mul] at hmax
  split at hreach
  · rename_i hpos
    refine .inr ⟨by omega, ?_⟩
    rwa [Int.natCast_mul, hmax, Int.max_eq_right (Int.le_of_lt hpos)]
  · cases hreach
    exact .inl ⟨by omega, rfl⟩

/-! ## Jumps over months -/

theorem monthsBetween_eq (a b : Moment) :
    monthsBetween a b = (b.monthIndex : Int) - a.monthIndex := by
  have ha := a.date.month_pos
  have hb := b.date.month_pos
  simp only [monthsBetween, Moment.monthIndex, Date.monthIndex]
  omega

/-- A jump over months leads to a start in an earlier month than that of the target, but less than
    two periods before it. -/
theorem jump_of_not_countsDays (hkind : p.kind.countsDays = false)
    (hahead : target.upTo cursor = false) (h : p.jump cursor target = .ok landing) :
    ∃ count : Nat, (count = 0 ∧ landing = cursor ∨
        0 < count ∧ p.inMonths cursor (p.stepMonths * count : Nat) = .ok landing ∧
          landing.monthIndex < target.monthIndex) ∧
      target.monthIndex < landing.monthIndex + 2 * p.stepMonths := by
  have hcursor := cursor.date.month_pos
  have hcursor' := cursor.date.month_le
  have htarget := target.date.month_pos
  have htarget' := target.date.month_le
  have hsteps : p.stepMonths = 1 ∨ p.stepMonths = 12 := by
    unfold stepMonths
    cases hsort : p.kind <;> simp [hsort, Kind.countsDays] at hkind ⊢
  obtain ⟨periods, hreach, hlow, hhigh⟩ : ∃ periods : Int,
      (if 0 < periods then p.inMonths cursor (p.stepMonths * periods) else .ok cursor) =
        .ok landing ∧
      cursor.monthIndex + p.stepMonths * periods < target.monthIndex ∧
      target.monthIndex < cursor.monthIndex + p.stepMonths * (periods + 2) := by
    unfold jump at h
    split at h
    · cases h
    rw [if_neg (by simp [hahead])] at h
    cases hsort : p.kind <;> simp only [hsort, Kind.countsDays, reduceCtorEq] at hkind h
    case yearly =>
      have htwelve : p.stepMonths = 12 := by simp only [stepMonths, hsort]
      rw [htwelve]
      refine ⟨_, h, ?_⟩
      simp only [Moment.monthIndex, Date.monthIndex]
      omega
    all_goals
      have hone : p.stepMonths = 1 := by simp only [stepMonths, hsort]
      rw [monthsBetween_eq] at h
      rw [hone]
      exact ⟨target.monthIndex - cursor.monthIndex - 1, by simpa using h, by omega, by omega⟩
  split at hreach
  · rename_i hpos
    obtain ⟨count, rfl⟩ : ∃ count : Nat, periods = count := ⟨periods.toNat, by omega⟩
    have hindex := (inMonths_spec hreach).1
    rw [Int.mul_add] at hhigh
    exact ⟨count, .inr ⟨by omega, by rwa [Int.natCast_mul], by omega⟩, by omega⟩
  · cases hreach
    refine ⟨0, .inl ⟨rfl, rfl⟩, ?_⟩
    rcases hsteps with hsteps | hsteps <;> rw [hsteps] at hhigh ⊢ <;> omega

/-! ## Where a jump leads -/

theorem jump_of_upTo (hahead : target.upTo cursor = true) (h : p.jump cursor target = .ok landing) :
    landing = cursor := by
  unfold jump at h
  split at h
  · cases h
  · cases h
    rfl

/-- The starts that a jump to a start leaves out come before it, at least as far as one step
    leads. -/
private theorem left_out {unit : Moment → Nat} {u : Nat}
    (hstep : ∀ cursor next, p.step cursor = .ok next → unit cursor + u ≤ unit next)
    {before : List Moment} (hsplit : p.startsFrom cursor = before ++ p.startsFrom landing)
    (hm : m ∈ before) : unit m + u ≤ unit landing := by
  have hpairwise := startsFrom_pairwise hstep cursor
  rw [hsplit, List.pairwise_append] at hpairwise
  exact hpairwise.2.2 m hm landing (p.cursor_mem_startsFrom landing)

/-- A jump lands on a start, and leaves out only starts more than four hours before its target. -/
theorem jump_spec {anchor : Nat} (hkind : p.kind ≠ .customWeekly) (hday : 1 ≤ p.anchorDay)
    (hcursor : p.kind.countsDays = true → p.fits anchor cursor.wall.dayNumber = true)
    (h : p.jump cursor target = .ok landing) :
    ∃ before, p.startsFrom cursor = before ++ p.startsFrom landing ∧
      ∀ m ∈ before, 4 * microsPerHour < target.since m := by
  by_cases hahead : target.upTo cursor = true
  · rw [jump_of_upTo hahead h]
    exact ⟨[], rfl, by simp⟩
  have hahead := eq_false_of_ne_true hahead
  cases hcount : p.kind.countsDays with
  | true =>
    obtain ⟨count, ⟨-, rfl⟩ | ⟨hpos, hreach⟩, hfar, -⟩ :=
      jump_of_countsDays (hcursor hcount) hkind hahead h
    · exact ⟨[], rfl, by simp⟩
    have hlanding : landing ∈ p.startsFrom cursor :=
      mem_startsFrom_of_plusDays (hcursor hcount) (Nat.mul_pos hpos p.jumpDays_bounds.1)
        ((fits_add_jumpDays hkind anchor _ count).trans (hcursor hcount)) hreach
    obtain ⟨before, hsplit, hbefore⟩ := startsFrom_eq_append hlanding
    refine ⟨before, hsplit, fun m hm => ?_⟩
    -- a day before the landing, which itself lies a period before the target
    obtain ⟨hmem, hlt⟩ := hbefore m hm
    have hm := (alike_of_mem_startsFrom hmem).1
    have hl := (alike_of_mem_startsFrom hlanding).1
    have hgap := (hm.trans hl.symm).micros_add_le (show _ + 1 ≤ _ from hlt)
    have hsince := Moment.since_sub_since_le hm.1.symm target
    have hmicros := (Moment.plusDays_eq_ok_iff.mp hreach).1
    have hperiod : 1 * microsPerDay ≤ p.jumpDays * microsPerDay :=
      Nat.mul_le_mul_right _ p.jumpDays_bounds.1
    rw [Int.natCast_mul, Int.mul_assoc, ← Int.natCast_mul p.jumpDays] at hmicros
    rw [Int.add_mul] at hfar
    have hfar := hfar hpos
    simp only [microsPerHour, microsPerDay] at *
    omega
  | false =>
    obtain ⟨count, ⟨-, rfl⟩ | ⟨hpos, hreach, htarget⟩, -⟩ :=
      jump_of_not_countsDays hcount hahead h
    · exact ⟨[], rfl, by simp⟩
    have hlanding := mem_startsFrom_of_inMonths hcount hday hpos hreach
    obtain ⟨before, hsplit, hbefore⟩ := startsFrom_eq_append hlanding
    refine ⟨before, hsplit, fun m hm => ?_⟩
    -- a month before the landing, so that a whole month lies between it and the target
    have hindex : m.monthIndex + p.stepMonths ≤ landing.monthIndex :=
      left_out (fun _ _ hstep => Nat.le_of_eq (monthIndex_step hcount hstep)) hsplit hm
    have hpos := stepMonths_pos hcount
    have hdays := Moment.dayNumber_add_le
      (show m.monthIndex + 1 + 1 ≤ target.monthIndex by omega)
    have hmicros := Moment.micros_add_lt (Nat.le_of_lt hdays)
    have hsince := (Moment.since_bounds target m).1
    simp only [microsPerHour, microsPerDay] at *
    omega

/-- Twenty steps over days lead further than two jumps: the steps of a kind are as long as its
    jumps, or the jumps go over no more than a week. -/
theorem exists_unit_of_countsDays (hcount : p.kind.countsDays = true)
    (hkind : p.kind ≠ .customWeekly) :
    ∃ u, (∀ cursor next, p.step cursor = .ok next →
        cursor.wall.dayNumber + u ≤ next.wall.dayNumber) ∧ 2 * p.jumpDays + 1 ≤ u * 20 := by
  by_cases hwork : p.kind = .workdays
  · refine ⟨1, fun cursor next hstep => (step_spec hstep).1, ?_⟩
    simp only [jumpDays, hwork]
    decide
  · have hpos := p.jumpDays_bounds.1
    refine ⟨p.jumpDays, fun cursor next hstep => ?_, by omega⟩
    have hsame : p.stepDays cursor = p.jumpDays := by
      unfold stepDays jumpDays
      cases hsort : p.kind <;> simp_all [Kind.countsDays, Kind.periodDays?]
    rw [step_eq_plusDays hcount, hsame] at hstep
    have hday := (Moment.plusDays_dayNumber hstep).1
    omega

/-- Twenty steps from where a jump lands lead beyond the target by more than four hours. -/
theorem since_lt_of_jump {anchor : Nat} (hkind : p.kind ≠ .customWeekly)
    (hcursor : p.kind.countsDays = true → p.fits anchor cursor.wall.dayNumber = true)
    (h : p.jump cursor target = .ok landing) (hm : (p.startsFrom landing)[20]? = some m) :
    target.since m + 4 * microsPerHour < 0 := by
  have hmem := (alike_of_mem_startsFrom (List.mem_of_getElem? hm)).1
  by_cases hahead : target.upTo cursor = true
  · obtain rfl := jump_of_upTo hahead h
    have hdays := add_mul_le_of_getElem? (f := fun m => m.wall.dayNumber) (u := 1)
      (fun _ _ hstep => (step_spec hstep).1) hm
    have hmicros := hmem.symm.micros_add_le hdays
    have hsince := Moment.since_sub_since_le hmem.1 target
    simp only [Moment.upTo, decide_eq_true_eq] at hahead
    simp only [microsPerHour, microsPerDay] at *
    omega
  have hahead := eq_false_of_ne_true hahead
  cases hcount : p.kind.countsDays with
  | true =>
    obtain ⟨count, hreach, -, hnear⟩ := jump_of_countsDays (hcursor hcount) hkind hahead h
    have hmicros : landing.wall.micros =
        cursor.wall.micros + count * (p.jumpDays * microsPerDay) ∧ landing.Alike cursor := by
      rcases hreach with ⟨rfl, rfl⟩ | ⟨-, hreach⟩
      · exact ⟨by omega, .refl _⟩
      · have hplus := (Moment.plusDays_eq_ok_iff.mp hreach).1
        rw [← Int.natCast_mul, Nat.mul_assoc] at hplus
        exact ⟨by omega, (Moment.plusDays_dayNumber hreach).2⟩
    -- the jump is short of the target by less than two periods
    obtain ⟨u, hunit, hreaches⟩ := exists_unit_of_countsDays hcount hkind
    have hdays := add_mul_le_of_getElem? hunit hm
    have hgap := hmem.symm.micros_add_le hdays
    have hsince := Moment.since_sub_since_le (hmem.trans hmicros.2).1 target
    rw [Int.add_mul, ← Int.natCast_mul] at hnear
    simp only [microsPerHour, microsPerDay] at *
    omega
  | false =>
    obtain ⟨count, -, hnear⟩ := jump_of_not_countsDays hcount hahead h
    have hindex := add_mul_le_of_getElem?
      (fun _ _ hstep => Nat.le_of_eq (monthIndex_step hcount hstep)) hm
    have hpos := stepMonths_pos hcount
    have hdays := Moment.dayNumber_add_le
      (show target.monthIndex + 1 + 17 ≤ m.monthIndex by omega)
    have hmicros := Moment.micros_add_lt (Nat.le_of_lt hdays)
    have hsince := (Moment.since_bounds target m).2
    simp only [microsPerHour, microsPerDay] at *
    omega

/-! ## Jumps that stay in the calendar -/

/-- A jump over days stops a period short of its target, so that it stays in the calendar if no
    more than a day is missing for the target to do so. -/
theorem exists_jump_days {days : Nat} (hpos : 1 ≤ days) (hwait : 0 < target.since cursor)
    (hreach : target.since cursor ≤ (m.wall.micros : Int) - cursor.wall.micros + microsPerDay) :
    ∃ landing, (if 0 < (target.since cursor).fdiv (days * microsPerDay) - 1 then
      cursor.plusDays (((target.since cursor).fdiv (days * microsPerDay) - 1) * days)
      else .ok cursor) = .ok landing := by
  obtain ⟨count, hmax, hbounds, -⟩ := fdiv_sub_one_bounds
    (show 0 < days * microsPerDay from Nat.mul_pos hpos (by decide)) hwait
  rw [Int.natCast_mul] at hmax hbounds
  split
  · rename_i hcount
    have hperiods : (target.since cursor).fdiv (days * microsPerDay) - 1 = count := by omega
    have hle := hbounds (by omega)
    have hcalendar := m.wall.inCalendar
    rw [Int.add_mul] at hle
    rw [hperiods]
    refine Moment.exists_plus_eq_ok_iff.mpr ?_
    rw [Int.mul_assoc]
    have hnonneg : (0 : Int) ≤ count * (days * microsPerDay) :=
      Int.mul_nonneg (by omega) (Int.mul_nonneg (by omega) (by omega))
    have hday : (1 : Int) * microsPerDay ≤ days * microsPerDay :=
      Int.mul_le_mul_of_nonneg_right (by omega) (by omega)
    omega
  · exact ⟨cursor, rfl⟩

/-- A jump over months leads somewhere if there is a start in its month or a later one. -/
theorem exists_jump_months {months : Int} (hkind : p.kind.countsDays = false)
    (hday : 1 ≤ p.anchorDay) (hm : m ∈ p.startsFrom cursor)
    (hle : cursor.monthIndex + months ≤ m.monthIndex) :
    ∃ landing, (if 0 < months then p.inMonths cursor months else .ok cursor) = .ok landing := by
  split
  · rename_i hpos
    obtain ⟨n, hn⟩ := List.getElem?_of_mem hm
    cases n with
    | zero =>
      rw [startsFrom, List.getElem?_cons_zero, Option.some.injEq] at hn
      subst hn
      omega
    | succ n =>
      have hreach := (getElem?_startsFrom_succ_eq_some_iff hkind hday).mp hn
      have hindex := (inMonths_spec hreach).1
      have hlow := cursor.monthIndex_bounds.1
      exact exists_inMonths_eq_ok hday (by omega) (by omega) hreach
  · exact ⟨cursor, rfl⟩

/-- Whatever the zones, a jump leads somewhere if its target lies no more than four hours after one
    of the starts. -/
theorem exists_jump_eq_ok (hkind : p.kind ≠ .customWeekly) (hday : 1 ≤ p.anchorDay)
    (hcomparable : cursor.comparable target = true) (hm : m ∈ p.startsFrom cursor)
    (hnear : target.since m ≤ 4 * microsPerHour) :
    ∃ landing, p.jump cursor target = .ok landing := by
  unfold jump
  rw [hcomparable]
  cases hahead : target.upTo cursor with
  | true => exact ⟨cursor, rfl⟩
  | false =>
    have hwait : 0 < target.since cursor := by
      rw [Moment.upTo, decide_eq_false_iff_not] at hahead
      omega
    have hreach : target.since cursor ≤
        (m.wall.micros : Int) - cursor.wall.micros + microsPerDay := by
      have hsince := Moment.since_sub_since_le (alike_of_mem_startsFrom hm).1.1.symm target
      simp only [microsPerHour, microsPerDay] at *
      omega
    -- on the calendars of two zones the target can lie in the month after that of the start
    have hindex : target.monthIndex ≤ m.monthIndex + 1 := by
      rw [← Nat.not_lt]
      intro hlt
      have hdays := Moment.dayNumber_add_le (show m.monthIndex + 1 + 1 ≤ target.monthIndex from hlt)
      have hmicros := Moment.micros_add_lt (Nat.le_of_lt hdays)
      have hsince := (Moment.since_bounds target m).1
      simp only [microsPerHour, microsPerDay] at *
      omega
    have hmonths := monthsBetween_eq cursor target
    cases hsort : p.kind with
    | daily => exact exists_jump_days (Nat.le_refl 1) hwait hreach
    | workdays => exact exists_jump_days (show 1 ≤ 7 by decide) hwait hreach
    | weekly => exact exists_jump_days (show 1 ≤ 7 by decide) hwait hreach
    | biweekly => exact exists_jump_days (show 1 ≤ 14 by decide) hwait hreach
    | customWeekly => exact absurd hsort hkind
    | monthly =>
      exact exists_jump_months (by rw [hsort]; rfl) hday hm (by omega)
    | monthlySpecific =>
      exact exists_jump_months (by rw [hsort]; rfl) hday hm (by omega)
    | yearly =>
      have htarget := target.date.month_pos
      have hcursor := cursor.date.month_le
      simp only [Moment.monthIndex, Date.monthIndex] at hindex
      have hyears : cursor.monthIndex + 12 * ((target.date.year : Int) - cursor.date.year - 1) ≤
          m.monthIndex := by
        simp only [Moment.monthIndex, Date.monthIndex]
        omega
      obtain ⟨landing, hlanding⟩ := exists_jump_months (by rw [hsort]; rfl) hday hm hyears
      refine ⟨landing, ?_⟩
      show (if 0 < (target.date.year : Int) - cursor.date.year - 1 then _ else _) = _
      rw [← hlanding]
      split <;> rename_i hpos
      · rw [if_pos (by omega)]
      · rw [if_neg (by omega)]

end Pattern

end EventCalendar
