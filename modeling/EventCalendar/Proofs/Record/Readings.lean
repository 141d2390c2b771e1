/-
  EventCalendar.Proofs.Record.Readings

  An interpretation goes in two steps.  The texts of a record are read first,
  which fails only in ways that are reported for the record; then its dates are
  reckoned, which fails only where they lead out of the calendar.
-/

import EventCalendar.Proofs.Outcome
import EventCalendar.Proofs.Record.Rule
import EventCalendar.Proofs.Time.Months
import EventCalendar.Record.Interpretation

namespace EventCalendar

open EventCalendar.Text EventCalendar.Time

/-! ## Reading -/

/-- What the texts of a record say. -/
structure Readings where
  start : Moment
  finish : Moment
  allDay : Bool
  zoneName : String
  /-- The tag of the recurrence, and its end where the rule gives one that can be read. -/
  recurrence : Option (String × Option Moment)
  deriving DecidableEq

namespace Interpreter

variable (i : Interpreter)

/-- A property that is not blank. -/
def given (property : Option String) (missing : RecordError) : Except RecordError String :=
  match property with
  | none => .error missing
  | some s => if isBlankText s then .error missing else .ok s

/-- The moment that the token of a property names. -/
def dateOf (property token : String) (zone : Option String) : Except RecordError Moment :=
  (i.reader.read token zone).outcome.mapError (.malformed property token)

/-- The end that a rule gives, if it can be read. -/
def endingOf (rule : RecurrenceRule) : Option Moment :=
  match DateToken.Reader.givenName rule.ending with
  | none => none
  | some token => (i.reader.read token none).outcome.toOption

/-- The recurrence that a rule gives, if it can be read and is kept. -/
def recurrenceOf (rule : Option String) : Option (String × Option Moment) :=
  match rule.filter (!isBlankText ·) with
  | none => none
  | some text =>
    match RecurrenceRule.ofText text with
    | .error _ => none
    | .ok rule => if rule.tag = "" then none else some (rule.tag, i.endingOf rule)

/-- The readings of a record. -/
def readings (r : RawRecord) : Except RecordError Readings := do
  let rawStart ← given r.start .noStart
  let rawFinish ← given r.finish .noFinish
  let (inner, value) := DateToken.splitZone (trim rawStart)
  let zone := DateToken.Reader.firstName r.startZone inner
  let allDay := DateToken.isDay value
  let start ← i.dateOf "DTSTART" rawStart zone
  let finish ← i.dateOf "DTEND" rawFinish (DateToken.Reader.firstName r.finishZone zone)
  let zoneName ← (i.zoneName value zone allDay).outcome
  return { start, finish, allDay, zoneName, recurrence := i.recurrenceOf r.rule }

end Interpreter

/-! ## Reckoning -/

namespace Readings

variable (x : Readings)

/-- The start that counts: midnight for a record without times of day. -/
def first : Moment := if x.allDay then x.start.midnight else x.start

/-- The end that counts. -/
def last : Except CalendarError Moment :=
  if x.allDay then do
    let finish ← x.finish.midnight.plusDays (-1)
    return if finish.before x.first then x.first else finish
  else if x.finish.before x.first then x.first.guessEnd false
  else .ok x.finish

end Readings

namespace Interpreter

variable (i : Interpreter)

/-- The end of a recurrence: the one given, or the horizon. -/
def recursUntil (start : Moment) (ending : Option Moment) : Except CalendarError Moment :=
  match ending with
  | some ending => .ok ending
  | none => i.horizon start

/-- The dates of a record with the recurrence that its rule gives. -/
def withRecurrence (dates : RecordDates) (recurrence : Option (String × Option Moment)) :
    Except CalendarError RecordDates :=
  match recurrence with
  | none => .ok dates
  | some (tag, ending) => do
    return { dates with
      isRecurrent := true, frequency := tag, firstInstance := some dates.start
      recurrenceEnd := some (← i.recursUntil dates.start ending) }

/-- The dates that readings lead to. -/
def dates (x : Readings) : Except CalendarError RecordDates := do
  i.withRecurrence (.once x.first (← x.last) x.allDay x.zoneName) x.recurrence

/-! ## The two steps -/

theorem outcome_present (property : Option String) (missing : RecordError) :
    (present property missing).outcome = (given property missing).mapError .record := by
  cases property with
  | none => rfl
  | some s =>
    simp only [present, given]
    split <;> rfl

theorem outcome_readDate (property token : String) (zone : Option String) :
    (i.readDate property token zone).outcome =
      (i.dateOf property token zone).mapError .record := by
  unfold readDate dateOf
  rw [Traced.outcome_mapError]
  cases (i.reader.read token zone).outcome <;> rfl

/-- The name of a zone can always be told. -/
theorem exists_outcome_zoneName (value : String) (zone : Option String) (allDay : Bool) :
    ∃ name, ∀ ε : Type, (i.zoneName (ε := ε) value zone allDay).outcome = .ok name := by
  unfold zoneName
  split
  · exact ⟨_, fun _ => rfl⟩
  · split
    · exact ⟨_, fun _ => rfl⟩
    · split
      · exact ⟨_, fun _ => rfl⟩
      · exact ⟨_, fun _ => rfl⟩

private theorem outcome_span_of_allDay (rawStart rawFinish : String) (start finish : Moment) :
    (span rawStart rawFinish true start finish).outcome =
      (finish.midnight.plusDays (-1)).mapError .calendar >>= fun finish =>
        .ok (start.midnight, if finish.before start.midnight then start.midnight else finish) := by
  unfold span
  rw [if_pos rfl, Traced.outcome_bind]
  rfl

private theorem outcome_span_of_timed (rawStart rawFinish : String) (start finish : Moment) :
    (span rawStart rawFinish false start finish).outcome =
      (if finish.before start then start.guessEnd false else .ok finish).mapError .calendar >>=
        fun finish => .ok (start, finish) := by
  unfold span
  rw [if_neg Bool.false_ne_true]
  split
  · rw [Traced.outcome_bind, Traced.outcome_note, ok_bind, Traced.outcome_bind]
    generalize start.guessEnd false = finish
    rfl
  · rfl

theorem outcome_span (rawStart rawFinish : String) (x : Readings) :
    (span rawStart rawFinish x.allDay x.start x.finish).outcome =
      x.last.mapError .calendar >>= fun last => .ok (x.first, last) := by
  unfold Readings.last Readings.first
  cases x.allDay with
  | true =>
    refine (outcome_span_of_allDay rawStart rawFinish x.start x.finish).trans ?_
    generalize x.finish.midnight.plusDays (-1) = finish
    cases finish <;> rfl
  | false =>
    simp only [Bool.false_eq_true, if_false]
    exact outcome_span_of_timed rawStart rawFinish x.start x.finish

theorem outcome_recurrenceEnd (rule : RecurrenceRule) (start : Moment) :
    (i.recurrenceEnd rule start).outcome =
      (i.recursUntil start (i.endingOf rule)).mapError .calendar := by
  unfold recurrenceEnd endingOf
  cases DateToken.Reader.givenName rule.ending with
  | none => rfl
  | some token =>
    simp only [Traced.outcome_bind, Traced.outcome_attempt, ok_bind]
    cases (i.reader.read token none).outcome <;> rfl

/-- A rule adds the recurrence that it gives to the dates of a record. -/
theorem outcome_recur (rule : Option String) (dates : RecordDates) :
    (i.recur rule dates).outcome =
      (i.withRecurrence dates (i.recurrenceOf rule)).mapError .calendar := by
  unfold recur recurrenceOf
  cases rule.filter (!isBlankText ·) with
  | none => rfl
  | some text =>
    simp only
    cases RecurrenceRule.ofText text with
    | error e => rfl
    | ok rule =>
      simp only
      split
      · rfl
      · rw [Traced.outcome_bind, outcome_recurrenceEnd, withRecurrence, mapError_bind]
        rfl

private theorem outcome_reckoning (rawStart rawFinish : String) (rule : Option String)
    {zoneName : Traced InterpretationError String} {x : Readings}
    (hname : zoneName.outcome = .ok x.zoneName) (hrule : i.recurrenceOf rule = x.recurrence) :
    (do
      let both ← span rawStart rawFinish x.allDay x.start x.finish
      let zoneName ← zoneName
      i.recur rule (.once both.1 both.2 x.allDay zoneName)).outcome =
        (i.dates x).mapError .calendar := by
  rw [Traced.outcome_bind, outcome_span, dates, mapError_bind]
  cases x.last with
  | error e => rfl
  | ok last =>
    simp only [mapError_ok, ok_bind]
    rw [Traced.outcome_bind, hname, ok_bind, outcome_recur, hrule]

/-- An interpretation reads the texts and then reckons the dates. -/
theorem outcome_interpret (r : RawRecord) :
    (i.interpret r).outcome =
      (i.readings r).mapError .record >>= fun x => (i.dates x).mapError .calendar := by
  unfold interpret readings
  rw [Traced.outcome_bind, outcome_present]
  cases given r.start .noStart with
  | error e => rfl
  | ok rawStart =>
    simp only [mapError_ok, ok_bind]
    rw [Traced.outcome_bind, outcome_present]
    cases given r.finish .noFinish with
    | error e => rfl
    | ok rawFinish =>
      simp only [mapError_ok, ok_bind]
      obtain ⟨inner, value⟩ := DateToken.splitZone (trim rawStart)
      simp only
      rw [Traced.outcome_bind, outcome_readDate]
      cases i.dateOf "DTSTART" rawStart (DateToken.Reader.firstName r.startZone inner) with
      | error e => rfl
      | ok start =>
        simp only [mapError_ok, ok_bind]
        rw [Traced.outcome_bind, outcome_readDate]
        generalize DateToken.Reader.firstName r.finishZone _ = finishZone
        cases i.dateOf "DTEND" rawFinish finishZone with
        | error e => rfl
        | ok finish =>
          -- the name of the zone can be told before the dates are reckoned
          obtain ⟨name, hname⟩ := i.exists_outcome_zoneName value
            (DateToken.Reader.firstName r.startZone inner) (DateToken.isDay value)
          rw [hname]
          simp only [pure_eq_ok, mapError_ok, ok_bind]
          have hreckoning := i.outcome_reckoning rawStart rawFinish r.rule
            (x := ⟨start, finish, DateToken.isDay value, name, i.recurrenceOf r.rule⟩)
            (hname InterpretationError) rfl
          simp only at hreckoning
          exact hreckoning

end Interpreter

/-! ## Leaving the calendar -/

namespace Readings

/-- The day before the given end of an all-day record is not in the calendar. -/
def endsBeforeCalendar (x : Readings) : Prop :=
  x.allDay = true ∧ x.finish.wall.dayNumber = 0

/-- The end has to be guessed, and the calendar is over by then. -/
def guessesBeyondCalendar (x : Readings) : Prop :=
  x.allDay = false ∧ x.finish.before x.start = true ∧
    calendarMicros ≤ x.start.wall.micros + Moment.defaultDuration

/-- The record recurs up to a horizon, which is not in the calendar. -/
def recursBeyondCalendar (x : Readings) (horizonYears : Int) : Prop :=
  (∃ tag, x.recurrence = some (tag, none)) ∧
    ¬ ∃ u, x.first.toUniversal = .ok u ∧ u.date.year + horizonYears ≤ lastYear

/-- The dates of a record lead out of the calendar. -/
def leavesCalendar (x : Readings) (horizonYears : Int) : Prop :=
  x.endsBeforeCalendar ∨ x.guessesBeyondCalendar ∨ x.recursBeyondCalendar horizonYears

variable {x : Readings}

theorem first_of_timed (h : x.allDay = false) : x.first = x.start := by
  rw [first, h]
  rfl

private theorem guessEnd_timed (m : Moment) :
    m.guessEnd false = m.plus Moment.defaultDuration :=
  if_neg Bool.false_ne_true

/-- The end exists if it is in the calendar, given or guessed. -/
theorem exists_last_eq_ok_iff :
    (∃ last, x.last = .ok last) ↔ ¬ x.endsBeforeCalendar ∧ ¬ x.guessesBeyondCalendar := by
  unfold endsBeforeCalendar guessesBeyondCalendar
  cases hday : x.allDay with
  | true =>
    have hmidnight : x.finish.midnight.wall.dayNumber = x.finish.wall.dayNumber := by
      simp [Moment.midnight, Wall.midnight]
    have hlt := x.finish.wall.dayNumber_lt
    rw [last, if_pos hday]
    refine (exists_bind_eq_ok_iff fun finish _ => ⟨_, pure_eq_ok _⟩).trans ?_
    rw [Moment.exists_plusDays_eq_ok_iff, hmidnight]
    simp only [true_and, Bool.true_eq_false, false_and, not_false_eq_true, and_true]
    omega
  | false =>
    have hlow := x.start.wall.micros.zero_le
    rw [last, hday, first_of_timed hday]
    simp only [Bool.false_eq_true, if_false, false_and, not_false_eq_true, true_and]
    by_cases hbefore : x.finish.before x.start = true
    · rw [if_pos hbefore, guessEnd_timed, Moment.exists_plus_eq_ok_iff]
      simp only [hbefore, true_and, Moment.defaultDuration, microsPerMinute]
      omega
    · rw [if_neg hbefore]
      simp [hbefore]

/-- The end does not come before the start. -/
theorem last_not_before {last : Moment} (h : x.last = .ok last) :
    last.before x.first = false := by
  unfold Readings.last at h
  split at h
  · obtain ⟨finish, -, h⟩ := bind_eq_ok_iff.mp h
    rw [pure_eq_ok, Except.ok.injEq] at h
    rw [← h]
    split
    · simp [Moment.before]
    · rename_i hbefore
      exact eq_false_of_ne_true hbefore
  · split at h
    · -- a guessed end is half an hour after the start on one clock
      rw [guessEnd_timed] at h
      obtain ⟨hmicros, -, hzone⟩ := Moment.plus_eq_ok_iff.mp h
      have hpositive : 0 ≤ Moment.defaultDuration := by decide
      rw [Moment.before, Moment.since_of_zone_eq hzone, hmicros]
      exact decide_eq_false (by omega)
    · rename_i hbefore
      cases h
      exact eq_false_of_ne_true hbefore

end Readings

/-! ## The horizon -/

namespace Interpreter

variable {i : Interpreter}

private theorem monthIndex_midnight (m : Moment) :
    Moment.monthIndex ⟨m.wall.midnight, false, .utc⟩ = m.date.monthIndex := by
  simp only [Moment.monthIndex, Moment.date, Wall.midnight, Wall.date_on]

/-- The horizon exists if its year is in the calendar. -/
theorem exists_horizon_eq_ok_iff (hyears : 1 ≤ i.horizonYears) (start : Moment) :
    (∃ m, i.horizon start = .ok m) ↔
      ∃ u, start.toUniversal = .ok u ∧ u.date.year + i.horizonYears ≤ lastYear := by
  have hmonths (u : Moment) :
      (∃ m, Moment.plusMonths ⟨u.wall.midnight, false, .utc⟩ (12 * i.horizonYears) 0 = .ok m) ↔
        u.date.year + i.horizonYears ≤ lastYear := by
    have hlow := u.date.month_pos
    have hhigh := u.date.month_le
    rw [Moment.plusMonths_zero, Moment.exists_plusMonths_eq_ok_iff (Date.day_pos _),
      monthIndex_midnight, Date.monthIndex]
    simp only [lastYear]
    omega
  unfold horizon
  constructor
  · rintro ⟨m, h⟩
    obtain ⟨u, hu, h⟩ := bind_eq_ok_iff.mp h
    exact ⟨u, hu, (hmonths u).mp ⟨m, h⟩⟩
  · rintro ⟨u, hu, hyear⟩
    obtain ⟨m, h⟩ := (hmonths u).mpr hyear
    exact ⟨m, bind_eq_ok_iff.mpr ⟨u, hu, h⟩⟩

/-- The horizon does not come before the start. -/
theorem horizon_not_before {start m : Moment} (hyears : 1 ≤ i.horizonYears)
    (h : i.horizon start = .ok m) : m.before start = false := by
  obtain ⟨u, hu, h⟩ := bind_eq_ok_iff.mp h
  obtain ⟨-, hinstant⟩ := Moment.toUniversal_eq_ok hu
  rw [Moment.plusMonths_zero, Moment.plusMonths_eq_ok_iff (Date.day_pos _)] at h
  obtain ⟨hindex, -, ⟨hzone, -⟩, -⟩ := h
  rw [monthIndex_midnight] at hindex
  -- the horizon lies in a later month than the start does in universal time
  have hday : u.wall.dayNumber < m.wall.dayNumber :=
    Moment.dayNumber_lt_of_monthIndex_lt (by rw [Moment.monthIndex]; omega)
  rw [Moment.before, Moment.since_of_zone_eq_utc hzone, ← hinstant]
  simp only [Wall.dayNumber, microsPerDay] at hday
  simp only [decide_eq_false_iff_not]
  omega

/-- The dates of a record exist if they do not lead out of the calendar. -/
theorem exists_dates_eq_ok_iff (hyears : 1 ≤ i.horizonYears) (x : Readings) :
    (∃ d, i.dates x = .ok d) ↔ ¬ x.leavesCalendar i.horizonYears := by
  have hrecurrence (last : Moment) :
      (∃ d, i.withRecurrence (.once x.first last x.allDay x.zoneName) x.recurrence = .ok d) ↔
        ¬ x.recursBeyondCalendar i.horizonYears := by
    unfold Readings.recursBeyondCalendar
    -- only a recurrence without an end of its own needs the horizon
    rcases x.recurrence with - | ⟨tag, - | ending⟩
    · simp [withRecurrence]
    · refine (exists_bind_eq_ok_iff fun ending _ => ⟨_, pure_eq_ok _⟩).trans ?_
      refine (exists_horizon_eq_ok_iff hyears x.first).trans ?_
      simp
    · simp [withRecurrence, recursUntil]
  unfold Readings.leavesCalendar
  rw [not_or, not_or, ← and_assoc, ← Readings.exists_last_eq_ok_iff]
  constructor
  · rintro ⟨d, h⟩
    obtain ⟨last, hlast, h⟩ := bind_eq_ok_iff.mp h
    exact ⟨⟨last, hlast⟩, (hrecurrence last).mp ⟨d, h⟩⟩
  · rintro ⟨⟨last, hlast⟩, hrecurs⟩
    obtain ⟨d, h⟩ := (hrecurrence last).mpr hrecurs
    exact ⟨d, bind_eq_ok_iff.mpr ⟨last, hlast, h⟩⟩

/-! ## One way to fail -/

/-- An interpretation gives dates or says what is wrong with the record, whatever the texts of the
    record, if and only if the dates that the texts name do not lead out of the calendar. -/
theorem interpret_ok_or_reported_iff (hyears : 1 ≤ i.horizonYears) (r : RawRecord) :
    ((∃ d, (i.interpret r).outcome = .ok d) ∨
      ∃ cause, (i.interpret r).outcome = .error (.record cause)) ↔
    ∀ x, i.readings r = .ok x → ¬ x.leavesCalendar i.horizonYears := by
  rw [outcome_interpret]
  cases hread : i.readings r with
  | error cause =>
    refine iff_of_true (.inr ⟨cause, rfl⟩) ?_
    intro x hx
    cases hx
  | ok x =>
    simp only [mapError_ok, ok_bind, Except.ok.injEq, forall_eq']
    rw [← exists_dates_eq_ok_iff hyears]
    cases i.dates x with
    | ok d => exact iff_of_true (.inl ⟨d, rfl⟩) ⟨d, rfl⟩
    -- once the texts are read, nothing but the calendar can fail
    | error cause => exact iff_of_false (by rintro (⟨d, h⟩ | ⟨reported, h⟩) <;> cases h) (by simp)

/-- The interpreter for universal time, with rules going on for five years. -/
def universal : Interpreter := ⟨.withZone none, defaultHorizon⟩

/-- An hour of every day from the first of January of a year on. -/
def everyMorningFrom (year : String) : RawRecord :=
  ⟨some (year ++ "0101T090000Z"), some (year ++ "0101T100000Z"), some "FREQ=DAILY", none, none⟩

/-- The horizon of the year 9994 is the last year of the calendar. -/
theorem interpret_everyMorningFrom_9994 :
    1 ≤ universal.horizonYears ∧
      ((∃ d, (universal.interpret (everyMorningFrom "9994")).outcome = .ok d) ∨
        ∃ cause, (universal.interpret (everyMorningFrom "9994")).outcome =
          .error (.record cause)) := by
  have hread : universal.readings (everyMorningFrom "9994") =
      .ok
        { start := .onTheHour 3649868 9 (by decide), finish := .onTheHour 3649868 10 (by decide)
          allDay := false, zoneName := "UTC", recurrence := some ("daily", none) } := by
    decide +kernel
  refine ⟨by decide, (interpret_ok_or_reported_iff (by decide) _).mpr ?_⟩
  intro x hx
  rw [hread, Except.ok.injEq] at hx
  subst hx
  rintro (⟨hday, -⟩ | ⟨-, hbefore, -⟩ | ⟨-, hbeyond⟩)
  · cases hday
  · exact absurd hbefore (by decide)
  · exact hbeyond ⟨.onTheHour 3649868 9 (by decide), rfl, by decide⟩

/-- The horizon of the year after is not in the calendar, and the interpretation fails in a way that
    is no fault of the record. -/
theorem interpret_everyMorningFrom_9995 :
    1 ≤ universal.horizonYears ∧
      ¬ ((∃ d, (universal.interpret (everyMorningFrom "9995")).outcome = .ok d) ∨
        ∃ cause, (universal.interpret (everyMorningFrom "9995")).outcome =
          .error (.record cause)) := by
  have hfails : (universal.interpret (everyMorningFrom "9995")).outcome =
      .error (.calendar (.yearOutOfRange 10000)) := by decide +kernel
  refine ⟨by decide, ?_⟩
  rw [hfails]
  rintro (⟨d, h⟩ | ⟨cause, h⟩) <;> cases h

end Interpreter

end EventCalendar
