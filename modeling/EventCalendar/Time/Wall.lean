/-
  EventCalendar.Time.Wall

  The reading of a clock on the wall, to the microsecond, without a zone.  A
  reading is counted from midnight of the first day of the calendar and lies
  before the end of its last day.
-/

import EventCalendar.Time.Date

namespace EventCalendar.Time

/-! ## Durations in microseconds -/

/-- One minute. -/
def microsPerMinute : Nat := 60000000

/-- One day. -/
def microsPerDay : Nat := 86400000000

/-- All days of the calendar. -/
def calendarMicros : Nat := 315537897600000000

theorem calendarMicros_eq : calendarMicros = dayCount * microsPerDay := rfl

/-! ## Readings -/

/-- A wall-clock reading: the microseconds since the calendar began. -/
structure Wall where
  micros : Nat
  inCalendar : micros < calendarMicros
  deriving DecidableEq, Repr

namespace Wall

theorem ext_micros {a b : Wall} (h : a.micros = b.micros) : a = b := by
  cases a
  cases b
  subst h
  rfl

/-- The reading a number of microseconds after the calendar began, if there is one. -/
def ofMicros? (n : Int) : Option Wall :=
  if h : 0 ≤ n ∧ n < calendarMicros then some ⟨n.toNat, by omega⟩ else none

/-- The reading a duration later, if the calendar reaches that far. -/
def plus? (w : Wall) (duration : Int) : Option Wall :=
  ofMicros? (w.micros + duration)

/-- The number of the reading's day. -/
def dayNumber (w : Wall) : Nat := w.micros / microsPerDay

theorem dayNumber_lt (w : Wall) : w.dayNumber < dayCount :=
  Nat.div_lt_of_lt_mul (by rw [Nat.mul_comm]; exact w.inCalendar)

/-- The reading's day. -/
def date (w : Wall) : Date := Date.ofNumber w.dayNumber w.dayNumber_lt

/-- The microseconds since midnight. -/
def timeOfDay (w : Wall) : Nat := w.micros % microsPerDay

theorem timeOfDay_lt (w : Wall) : w.timeOfDay < microsPerDay :=
  Nat.mod_lt _ (by decide)

/-- A time of day on a day. -/
def on (d : Date) (time : Nat) (h : time < microsPerDay) : Wall where
  micros := d.number * microsPerDay + time
  inCalendar := by
    have h₁ := d.number_lt
    have h₂ : (d.number + 1) * microsPerDay ≤ dayCount * microsPerDay :=
      Nat.mul_le_mul_right _ h₁
    rw [Nat.succ_mul] at h₂
    rw [calendarMicros_eq]
    omega

/-- A time of day in hours, minutes and seconds on a day, if the clock shows it. -/
def onClock? (d : Date) (hour minute second : Nat) : Option Wall :=
  if h : hour < 24 ∧ minute < 60 ∧ second < 60 then
    some (on d (((hour * 60 + minute) * 60 + second) * 1000000) (by simp only [microsPerDay]; omega))
  else none

/-- The same time of day on another day. -/
def withDate (w : Wall) (d : Date) : Wall := on d w.timeOfDay w.timeOfDay_lt

/-- Midnight of the same day. -/
def midnight (w : Wall) : Wall := on w.date 0 (by decide)

@[simp] theorem micros_on (d : Date) (time : Nat) (h : time < microsPerDay) :
    (on d time h).micros = d.number * microsPerDay + time := rfl

@[simp] theorem dayNumber_on (d : Date) (time : Nat) (h : time < microsPerDay) :
    (on d time h).dayNumber = d.number := by
  simp only [dayNumber, micros_on]
  rw [Nat.mul_comm, Nat.mul_add_div (by decide), Nat.div_eq_of_lt h, Nat.add_zero]

@[simp] theorem timeOfDay_on (d : Date) (time : Nat) (h : time < microsPerDay) :
    (on d time h).timeOfDay = time := by
  simp only [timeOfDay, micros_on]
  rw [Nat.mul_comm, Nat.mul_add_mod, Nat.mod_eq_of_lt h]

@[simp] theorem date_number (w : Wall) : w.date.number = w.dayNumber :=
  Date.number_ofNumber _ _

/-- A reading is its day and its time of day. -/
theorem on_date_timeOfDay (w : Wall) : on w.date w.timeOfDay w.timeOfDay_lt = w := by
  apply ext_micros
  simp only [micros_on, date_number, dayNumber, timeOfDay]
  rw [Nat.mul_comm]
  exact Nat.div_add_mod _ _

end Wall

/-! ## Text -/

/-- A number with zeros in front, up to a width. -/
def padded (width n : Nat) : String :=
  let digits := n.repr
  String.ofList (List.replicate (width - digits.length) '0') ++ digits

/-- A day as year, month and day. -/
def Date.text (d : Date) : String :=
  padded 4 d.year ++ "-" ++ padded 2 d.month ++ "-" ++ padded 2 d.day

/-- A time of day as hours, minutes and seconds, with the microseconds if there are any. -/
def clockText (time : Nat) : String :=
  let seconds := time / 1000000
  let micros := time % 1000000
  padded 2 (seconds / 3600) ++ ":" ++ padded 2 (seconds / 60 % 60) ++ ":" ++
    padded 2 (seconds % 60) ++ if micros = 0 then "" else "." ++ padded 6 micros

end EventCalendar.Time
