/-
  EventCalendar.Proofs.Lattice.Days

  The dates on which series of days and weeks have their starts.  They are the
  dates from the anchor on that keep the rule of the kind, each of them once and
  in order.  In between the clock may be put forward and back: the starts keep
  their time of day, and still follow one another.
-/

import EventCalendar.Proofs.Lattice.Rules
import EventCalendar.Proofs.Time.InStep

namespace EventCalendar

open EventCalendar.Time

/-! ## Clocks -/

namespace Time.Moment

/-- The instant of a date-time by a clock, which says by how many microseconds a reading is ahead
    of universal time. -/
def instantBy (clock : Wall → (later : Bool) → Int) (m : Moment) : Int :=
  m.wall.micros - clock m.wall m.later

/-- A clock is never put forward or back by more than two hours. -/
def VariesByTwoHours (clock : Wall → (later : Bool) → Int) : Prop :=
  ∀ w w' later later', clock w later - clock w' later' ≤ 2 * microsPerHour

/-- The clock of a zone. -/
def clockOf (zone : Zone) (w : Wall) (later : Bool) : Int := zone.offset w later * microsPerMinute

theorem variesByTwoHours_clockOf (zone : Zone) : VariesByTwoHours (clockOf zone) := by
  intro w w' later later'
  have hoffset := zone.offset_sub_offset_le w w' later later'
  simp only [clockOf, microsPerMinute, microsPerHour]
  omega

theorem instantBy_clockOf (m : Moment) : m.instantBy (clockOf m.zone) = m.instant := rfl

/-- What shows the same time of day on a later day comes at a later instant. -/
theorem instantBy_lt {clock : Wall → (later : Bool) → Int} (hclock : VariesByTwoHours clock)
    {a b : Moment} (halike : a.Alike b) (hlt : a.wall.dayNumber < b.wall.dayNumber) :
    a.instantBy clock < b.instantBy clock := by
  have hgap := halike.micros_add_le (show a.wall.dayNumber + 1 ≤ _ from hlt)
  have hoffset := hclock b.wall a.wall b.later a.later
  simp only [microsPerDay] at hgap
  simp only [microsPerHour] at hoffset
  simp only [instantBy]
  omega

end Time.Moment

namespace Series

variable {s : Series}

/-! ## Dates -/

/-- A series of days or weeks has a start on a date: it is not before the anchor, and keeps the rule
    of the kind. -/
def fallsOn (s : Series) (d : Date) : Prop :=
  s.start.date.number ≤ d.number ∧
    match s.kind with
    | .daily => 1 ∣ d.number - s.start.date.number
    | .weekly => 7 ∣ d.number - s.start.date.number
    | .biweekly => 14 ∣ d.number - s.start.date.number
    -- Monday to Friday
    | .workdays => d.weekday ≤ 4
    -- listed weekdays count from Sunday, which is 1
    | .customWeekly => (d.weekday + 1) % 7 + 1 ∈ s.weekdays.days
    | .monthly | .monthlySpecific | .yearly => False

theorem fits_iff_fallsOn {d : Date} (hle : s.start.date.number ≤ d.number) :
    s.fits d.number = true ↔ s.fallsOn d := by
  unfold fits fallsOn Pattern.fits
  rw [and_iff_right hle]
  rw [Moment.date_number] at hle ⊢
  simp only [pattern]
  cases s.kind with
  | daily => simp
  | weekly =>
    simp only [beq_iff_eq]
    omega
  | biweekly =>
    simp only [beq_iff_eq]
    omega
  | workdays =>
    have hweek : d.number % 7 < 7 := Nat.mod_lt _ (by decide)
    simp only [isWeekend, Date.weekday, Bool.not_eq_true', Bool.or_eq_false_iff,
      beq_eq_false_iff_ne]
    omega
  | customWeekly => exact List.contains_iff_mem
  | monthly => exact Bool.false_eq_true.to_iff
  | monthlySpecific => exact Bool.false_eq_true.to_iff
  | yearly => exact Bool.false_eq_true.to_iff

/-- The starts of a series lie on exactly the dates that the rule of its kind gives. -/
theorem exists_mem_allStarts_iff (hkind : s.kind.countsDays = true) (d : Date) :
    (∃ m ∈ s.allStarts, m.date = d) ↔ s.fallsOn d := by
  constructor
  · rintro ⟨m, hm, rfl⟩
    obtain ⟨-, hfits, hday⟩ := (mem_allStarts_iff hkind).mp hm
    rw [← Moment.date_number] at hfits
    refine (fits_iff_fallsOn ?_).mp hfits
    rw [Moment.date_number, Moment.date_number]
    rcases hday with rfl | ⟨hlt, -⟩
    · exact Nat.le_refl _
    · exact Nat.le_of_lt hlt
  · intro hd
    have hfits := (fits_iff_fallsOn hd.1).mpr hd
    rcases Nat.lt_or_eq_of_le hd.1 with hlt | heq
    -- the anchor's time of day on that date
    · let m : Moment := ⟨s.start.wall.withDate d, false, s.start.zone⟩
      have hnumber : m.wall.dayNumber = d.number :=
        Wall.dayNumber_on d _ s.start.wall.timeOfDay_lt
      have htime : m.wall.timeOfDay = s.start.wall.timeOfDay :=
        Wall.timeOfDay_on d _ s.start.wall.timeOfDay_lt
      refine ⟨m, (mem_allStarts_iff hkind).mpr ⟨⟨rfl, htime⟩, ?_, .inr ⟨?_, rfl⟩⟩,
        Wall.date_on d _ s.start.wall.timeOfDay_lt⟩
      · rw [hnumber]
        exact hfits
      · rwa [hnumber, ← Moment.date_number]
    · have hsame : s.start.date = d := Date.number_inj heq
      rw [← hsame, Moment.date_number] at hfits
      exact ⟨s.start, (mem_allStarts_iff hkind).mpr ⟨.refl _, hfits, .inl rfl⟩, hsame⟩

/-! ## Starts -/

/-- The starts that a series of days or weeks gives one after the other lie on exactly the dates
    from its anchor on that keep its rule, up to the end of the calendar.  They follow one another
    by date and by instant, also on clocks that are put forward and back by two hours, and keep the
    zone and the time of day of the anchor. -/
theorem starts_exact_of_countsDays (hkind : s.kind.countsDays = true) :
    (∀ count, (s.starts count).1 = s.allStarts.take count) ∧
    (∀ d : Date, (∃ m ∈ s.allStarts, m.date = d) ↔ s.fallsOn d) ∧
    (s.allStarts.Pairwise fun a b => a.date.number < b.date.number ∧ a.instant < b.instant ∧
      ∀ clock, Moment.VariesByTwoHours clock → a.instantBy clock < b.instantBy clock) ∧
    ∀ m ∈ s.allStarts, m.zone = s.start.zone ∧ m.wall.timeOfDay = s.start.wall.timeOfDay := by
  refine ⟨s.starts_fst_eq_take, exists_mem_allStarts_iff hkind, ?_, fun m hm =>
    alike_of_mem_allStarts hm⟩
  refine s.allStarts_ascending.imp_of_mem ?_
  intro a b ha hb hlt
  have halike : a.Alike b := (alike_of_mem_allStarts ha).trans (alike_of_mem_allStarts hb).symm
  refine ⟨?_, ?_, fun clock hclock => Moment.instantBy_lt hclock halike hlt⟩
  · rwa [Moment.date_number, Moment.date_number]
  · have hown := Moment.instantBy_lt (Moment.variesByTwoHours_clockOf a.zone) halike hlt
    rwa [Moment.instantBy_clockOf, halike.1, Moment.instantBy_clockOf] at hown

/-- Sundays and Tuesdays at half past two in Berlin, from the second time on that the clock shows
    this on Sunday, 27 October 2024. -/
def sundaysAndTuesdays : Series where
  seriesId := "sundays and tuesdays"
  title := none
  description := none
  anchorStart := .inBerlin 150 true
  anchorEnd := none
  allDay := false
  kind := .customWeekly
  weekdays := .ofList [1, 3]
  firstInstance := none
  lastInstance := none
  zones := by decide
  ends := by decide
  bounds := by decide
  listed := by decide

/-- The Sundays and Tuesdays from that Sunday on are those that have a start. -/
theorem starts_sundaysAndTuesdays_exact :
    let s := sundaysAndTuesdays
    s.kind.countsDays = true ∧
    (∀ count, (s.starts count).1 = s.allStarts.take count) ∧
    (∀ d : Date, (∃ m ∈ s.allStarts, m.date = d) ↔ s.fallsOn d) ∧
    (s.allStarts.Pairwise fun a b => a.date.number < b.date.number ∧ a.instant < b.instant ∧
      ∀ clock, Moment.VariesByTwoHours clock → a.instantBy clock < b.instantBy clock) ∧
    ∀ m ∈ s.allStarts, m.zone = s.start.zone ∧ m.wall.timeOfDay = s.start.wall.timeOfDay :=
  ⟨rfl, starts_exact_of_countsDays rfl⟩

/-- They start with that Sunday and the Tuesday after it. -/
example : (sundaysAndTuesdays.starts 2).1.map (fun m => (m.date.year, m.date.month, m.date.day)) =
    [(2024, 10, 27), (2024, 10, 29)] := by
  decide

end Series

end EventCalendar
