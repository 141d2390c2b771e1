/-
  EventCalendar.Proofs.Time.InStep

  Wall clocks and instants.  Date-times of one zone are held against each other
  by their readings, those of two zones by their instants.  Two date-times are
  in step if they stand in the order of their instants in any case; those of one
  zone fall out of step only where its clock is put forward or back between
  them.
-/

import EventCalendar.Proofs.Time.FixedClocks

namespace EventCalendar.Time.Moment

variable {a b : Moment} {rank : Moment → Int}

/-- Date-times that count as one do not come one before the other. -/
theorem not_before_of_same (h : a.same b = true) : a.before b = false := by
  rw [before, decide_eq_false_iff_not]
  unfold same at h
  split at h
  · rename_i hzone
    rw [since_of_zone_eq hzone, of_decide_eq_true h]
    omega
  · rename_i hzone
    simp only [Bool.and_eq_true, beq_iff_eq] at h
    rw [since_of_zone_ne hzone, h.2]
    omega

theorem upTo_total (a b : Moment) : (a.upTo b || b.upTo a) = true := by
  rw [upTo_eq_not_before, Bool.or_eq_true, Bool.not_eq_true', before, decide_eq_false_iff_not,
    upTo, decide_eq_true_eq]
  omega

/-- Two date-times stand in the order of their ranks. -/
def OrderedBy (rank : Moment → Int) (a b : Moment) : Prop :=
  (a.upTo b = true ↔ rank a ≤ rank b) ∧ (b.upTo a = true ↔ rank b ≤ rank a)

/-- Two date-times stand in the order of their instants. -/
def InStep (a b : Moment) : Prop := OrderedBy instant a b

instance (a b : Moment) : Decidable (OrderedBy rank a b) := inferInstanceAs (Decidable (_ ∧ _))

instance (a b : Moment) : Decidable (InStep a b) := inferInstanceAs (Decidable (_ ∧ _))

theorem OrderedBy.symm (h : OrderedBy rank a b) : OrderedBy rank b a := ⟨h.2, h.1⟩

theorem InStep.symm (h : InStep a b) : InStep b a := OrderedBy.symm h

theorem OrderedBy.before_iff (h : OrderedBy rank a b) : a.before b = true ↔ rank a < rank b := by
  have hupTo := h.2
  rw [upTo_eq_not_before, Bool.not_eq_true'] at hupTo
  rw [← Bool.not_eq_false, hupTo]
  omega

/-- Date-times of one zone stand in the order of their readings. -/
theorem orderedBy_micros (h : a.zone = b.zone) : OrderedBy (fun m => m.wall.micros) a b := by
  simp only [OrderedBy, upTo, since_of_zone_eq h, since_of_zone_eq h.symm, decide_eq_true_eq]
  omega

/-- Date-times of two zones are in step, as nothing but their instants is looked at. -/
theorem inStep_of_zone_ne (h : a.zone ≠ b.zone) : InStep a b := by
  have h' : b.zone ≠ a.zone := fun hzone => h hzone.symm
  simp only [InStep, OrderedBy, upTo, since_of_zone_ne h, since_of_zone_ne h', decide_eq_true_eq]
  omega

/-- On a clock that is never put forward or back all date-times are in step. -/
theorem inStep_of_isFixed (h : a.zone.isFixed = true) : InStep a b := by
  by_cases hzone : a.zone = b.zone
  · have hsub := instant_sub_of_zone_eq h hzone
    simp only [InStep, OrderedBy, upTo, since_of_zone_eq hzone, since_of_zone_eq hzone.symm,
      decide_eq_true_eq]
    omega
  · exact inStep_of_zone_ne hzone

/-- Date-times without a zone are in step as those in universal time. -/
theorem inStep_zoned : InStep a.zoned b.zoned ↔ InStep a b := by
  simp only [InStep, OrderedBy, upTo, since_zoned, instant_zoned]

/-! ## Instants the other way round -/

/-- Two readings of one clock stand the other way round as instants: at the second one the clock is
    further ahead than at the first, and by more than it shows between them. -/
def Reversed (a b : Moment) : Prop :=
  a.zone = b.zone ∧
    (b.wall.micros : Int) - a.wall.micros < (b.offset - a.offset) * microsPerMinute

/-- Date-times of one zone stand in the order of their readings, others in that of their instants. -/
theorem upTo_eq_true_iff : a.upTo b = true ↔
    if a.zone = b.zone then a.wall.micros ≤ b.wall.micros else a.instant ≤ b.instant := by
  by_cases h : a.zone = b.zone
  · rw [if_pos h, upTo, since_of_zone_eq h, decide_eq_true_eq]
    omega
  · rw [if_neg h, upTo, since_of_zone_ne h, decide_eq_true_eq]
    omega

/-- Of two date-times in order the second is the earlier instant only if it is read on the same
    clock, which is put forward or back between them. -/
theorem instant_lt_iff_reversed (h : a.upTo b = true) :
    b.instant < a.instant ↔ a.Reversed b := by
  by_cases hzone : a.zone = b.zone
  · simp only [Reversed, hzone, true_and, instant, Int.sub_mul]
    omega
  · rw [upTo_eq_true_iff, if_neg hzone] at h
    simp only [Reversed, hzone, false_and, iff_false]
    omega

/-! ## One instant in two zones -/

section

variable {m t t' : Moment}

theorem InStep.before_congr (h : InStep m t) (h' : InStep m t') (heq : t.instant = t'.instant) :
    m.before t = m.before t' := by
  rw [Bool.eq_iff_iff, OrderedBy.before_iff h, OrderedBy.before_iff h', heq]

theorem InStep.upTo_congr (h : InStep m t) (h' : InStep m t') (heq : t.instant = t'.instant) :
    m.upTo t = m.upTo t' := by
  rw [Bool.eq_iff_iff, h.1, h'.1, heq]

end

/-! ## The beginning and the end of summer time -/

theorem march_inCalendar (day minute : Nat) :
    (738944 + day % 32) * microsPerDay + minute % 1440 * microsPerMinute < calendarMicros := by
  simp only [microsPerDay, microsPerMinute, calendarMicros]
  omega

/-- A minute of a day in March 2024 in Berlin, for days up to 31. On the last of them the clock is
    put forward from two to three. -/
def inMarch (day minute : Nat) : Moment where
  wall.micros := (738944 + day % 32) * microsPerDay + minute % 1440 * microsPerMinute
  wall.inCalendar := march_inCalendar day minute
  later := false
  zone := .region .berlin

theorem hour_inCalendar (day hour : Nat) : 739158 + day % 32 < dayCount ∧ hour % 24 < 24 := by
  simp only [dayCount]
  omega

theorem minute_inCalendar (minute : Nat) :
    739185 * microsPerDay + minute % 1440 * microsPerMinute < calendarMicros := by
  simp only [microsPerDay, microsPerMinute, calendarMicros]
  omega

/-- A full hour of a day in October 2024 in universal time, for days up to 31 and hours up to 23. -/
def inOctober (day hour : Nat) : Moment :=
  onTheHour (739158 + day % 32) (hour % 24) (hour_inCalendar day hour)

/-- A minute of 27 October 2024 in Berlin, where the clock is put back from three to two. -/
def inBerlin (minute : Nat) (later : Bool) : Moment where
  wall.micros := 739185 * microsPerDay + minute % 1440 * microsPerMinute
  wall.inCalendar := minute_inCalendar minute
  later := later
  zone := .region .berlin

end EventCalendar.Time.Moment
