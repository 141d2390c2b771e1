/-
  EventCalendar.Proofs.Record.Event

  The events of single records.  A record that is read gives an event, unless
  its dates lead out of the calendar or its rule ends before the record starts.
-/

import EventCalendar.Proofs.Record.Readings
import EventCalendar.Record.Event

namespace EventCalendar

open EventCalendar.Time

/-! ## Fields that fit together -/

namespace SeriesFields

theorem before_zoned (a b : Moment) : a.zoned.before b.zoned = a.before b := by
  rw [Moment.before, Moment.since_zoned, Moment.before]

theorem endsBeforeStart_zoned (f : SeriesFields) : f.zoned.endsBeforeStart = f.endsBeforeStart := by
  simp only [endsBeforeStart, zoned, Option.any_map, before_zoned]

theorem lastBeforeFirst_zoned (f : SeriesFields) : f.zoned.lastBeforeFirst = f.lastBeforeFirst := by
  simp only [lastBeforeFirst, zoned, Option.any_map, before_zoned]

end SeriesFields

/-- Fields make a series if they fit together. -/
theorem Series.exists_ofFields_eq_ok_iff {f : SeriesFields} :
    (∃ s, Series.ofFields f = .ok s) ↔
      f.endsBeforeStart = false ∧ f.lastBeforeFirst = false ∧ f.lacksWeekdays = false := by
  have hlisted : f.zoned.lacksWeekdays = f.lacksWeekdays := rfl
  unfold Series.ofFields
  simp only [SeriesFields.endsBeforeStart_zoned, SeriesFields.lastBeforeFirst_zoned, hlisted]
  split
  · simp [*]
  · split
    · simp [*]
    · split <;> simp [*]

/-! ## The series of dates -/

theorem SeriesForm.checkKind_tag (kind : Kind) : checkKind (.given kind.tag) = .ok kind := by
  simp only [checkKind, Entry.required, Kind.ofTag?_tag]

namespace RecordDates

variable {d : RecordDates} {kind : Kind}

/-- The fields of the series of dates. -/
def seriesFields (d : RecordDates) (kind : Kind) (uid title description : String) : SeriesFields :=
  { seriesId := uid, title := some title, description := some description
    anchorStart := d.start, anchorEnd := some d.finish, allDay := d.allDay, kind
    weekdays := .empty, firstInstance := d.firstInstance, lastInstance := d.recurrenceEnd }

/-- Dates that recur in a known way give the series of their fields. -/
theorem series_of_kind (hrecurs : d.isRecurrent = true)
    (hkind : Kind.ofTag? d.frequency = some kind) (uid title description : String) :
    d.series ⟨uid, some title, some description, .absent⟩ =
      (Series.ofFields (d.seriesFields kind uid title description)).mapError fun cause =>
        .refused (.inconsistent cause) := by
  have hnonempty : d.frequency ≠ "" := by
    intro hempty
    rw [hempty] at hkind
    cases hkind
  unfold series seriesFields
  rw [if_neg (by simp [hrecurs, hnonempty]), hkind]
  simp only [SeriesForm.series, SeriesForm.checkKind_tag, SeriesForm.checkWeekdays,
    Entry.orDefault, Entry.required, mapError_ok, ok_bind]
  cases Series.ofFields _ <;> rfl

/-- An event has a series, or is kept without one, unless a known recurrence makes none. -/
theorem exists_knownSeries_eq_ok_iff (d : RecordDates) (uid title description : String) :
    (∃ s, (d.knownSeries uid title description).outcome = .ok s) ↔
      ∀ kind, d.isRecurrent = true → Kind.ofTag? d.frequency = some kind →
        ∃ s, Series.ofFields (d.seriesFields kind uid title description) = .ok s := by
  unfold knownSeries
  cases hrecurs : d.isRecurrent with
  | false =>
    exact ⟨fun _ _ h => absurd h Bool.false_ne_true, fun _ => ⟨none, rfl⟩⟩
  | true =>
    rw [if_neg (by decide)]
    cases hkind : Kind.ofTag? d.frequency with
    | none =>
      refine ⟨fun _ kind _ h => absurd h (Option.some_ne_none kind).symm, fun _ => ⟨none, ?_⟩⟩
      unfold series
      rw [hkind]
      by_cases hempty : d.frequency = ""
      · rw [if_pos (by simp [hempty])]
        rfl
      · rw [if_neg (by simp [hempty, hrecurs])]
        rfl
    | some kind =>
      rw [series_of_kind hrecurs hkind]
      simp only [Option.some.injEq, forall_const, forall_eq']
      cases Series.ofFields (d.seriesFields kind uid title description) with
      | ok s => exact ⟨fun _ => ⟨s, rfl⟩, fun _ => ⟨some s, rfl⟩⟩
      | error cause =>
        constructor
        · rintro ⟨s, h⟩
          cases h
        · rintro ⟨s, h⟩
          cases h

theorem eq_refused_of_knownSeries {uid title description : String} {e : EventError}
    (h : (d.knownSeries uid title description).outcome = .error e) :
    ∃ cause, e = .refused cause := by
  unfold knownSeries at h
  split at h
  · cases h
  · split at h
    · cases h
    · cases h
      exact ⟨_, rfl⟩
    · cases h

end RecordDates

/-! ## Breaking off -/

/-- The record recurs in a known way, and its rule ends before the record starts. -/
def Readings.endsBeforeFirst (x : Readings) : Prop :=
  ∃ tag ending, x.recurrence = some (tag, some ending) ∧ (Kind.ofTag? tag).isSome = true ∧
    ending.before x.first = true

namespace Interpreter

variable {i : Interpreter} {r : RawRecord} {x : Readings} {d : RecordDates}

/-- The recurrence that is read is the one that the rule of the record gives. -/
theorem recurrence_of_readings (h : i.readings r = .ok x) :
    x.recurrence = i.recurrenceOf r.rule := by
  unfold readings at h
  obtain ⟨rawStart, -, h⟩ := bind_eq_ok_iff.mp h
  obtain ⟨rawFinish, -, h⟩ := bind_eq_ok_iff.mp h
  obtain ⟨start, -, h⟩ := bind_eq_ok_iff.mp h
  obtain ⟨finish, -, h⟩ := bind_eq_ok_iff.mp h
  obtain ⟨zoneName, -, h⟩ := bind_eq_ok_iff.mp h
  cases h
  rfl

theorem exists_rule_of_readings (h : i.readings r = .ok x) {tag : String}
    {ending : Option Moment} (hrecurrence : x.recurrence = some (tag, ending)) :
    ∃ rule : RecurrenceRule, tag = rule.tag ∧ ending = i.endingOf rule := by
  have hof := (recurrence_of_readings h).symm.trans hrecurrence
  unfold recurrenceOf at hof
  split at hof
  · cases hof
  · split at hof
    · cases hof
    · rename_i rule _
      split at hof
      · cases hof
      · cases hof
        exact ⟨rule, rfl, rfl⟩

/-- The dates of a record that is read give a series, or are kept without one, unless the rule ends
    before the record starts. -/
theorem exists_knownSeries_iff_not_endsBeforeFirst (hyears : 1 ≤ i.horizonYears)
    (hread : i.readings r = .ok x) (hdates : i.dates x = .ok d) (uid title description : String) :
    (∃ s, (d.knownSeries uid title description).outcome = .ok s) ↔ ¬ x.endsBeforeFirst := by
  rw [RecordDates.exists_knownSeries_eq_ok_iff]
  obtain ⟨last, hlast, hdates⟩ := bind_eq_ok_iff.mp hdates
  have hend := Readings.last_not_before hlast
  unfold Readings.endsBeforeFirst
  rcases hrecurrence : x.recurrence with - | ⟨tag, ending⟩
  · rw [hrecurrence] at hdates
    cases hdates
    simp [RecordDates.once]
  · rw [hrecurrence] at hdates
    obtain ⟨bound, hbound, hdates⟩ := bind_eq_ok_iff.mp hdates
    cases hdates
    obtain ⟨rule, htag, -⟩ := exists_rule_of_readings hread hrecurrence
    have hfits (kind : Kind) (hkind : Kind.ofTag? tag = some kind) :
        (∃ s, Series.ofFields (RecordDates.seriesFields
          { RecordDates.once x.first last x.allDay x.zoneName with
            isRecurrent := true, frequency := tag, firstInstance := some x.first
            recurrenceEnd := some bound } kind uid title description) = .ok s) ↔
          bound.before x.first = false := by
      have hlisted : kind ≠ .customWeekly := by
        rintro rfl
        rw [htag] at hkind
        exact rule.ofTag?_tag_ne hkind
      rw [Series.exists_ofFields_eq_ok_iff]
      simp [RecordDates.seriesFields, RecordDates.once, SeriesFields.endsBeforeStart,
        SeriesFields.lastBeforeFirst, SeriesFields.lacksWeekdays, hend, hlisted]
    cases ending with
    -- the horizon is never before the start, only an end that the rule gives can be
    | none =>
      have hnot := horizon_not_before hyears hbound
      refine iff_of_true (fun kind _ hkind => (hfits kind hkind).mpr hnot) ?_
      rintro ⟨_, _, heq, -⟩
      cases heq
    | some ending =>
      cases hbound
      constructor
      · rintro hseries ⟨_, _, heq, hknown, hbefore⟩
        cases heq
        obtain ⟨kind, hkind⟩ := Option.isSome_iff_exists.mp hknown
        rw [(hfits kind hkind).mp (hseries kind rfl hkind)] at hbefore
        cases hbefore
      · intro hnot kind _ hkind
        refine (hfits kind hkind).mpr (eq_false_of_ne_true fun hbefore => ?_)
        refine hnot ⟨tag, bound, rfl, ?_, hbefore⟩
        rw [hkind]
        rfl

/-- A component is read, and yet its dates cannot be used: they lead out of the calendar, or its
    rule ends before it starts. -/
def breaksOff (i : Interpreter) (c : Ics.Component) : Prop :=
  ∃ x, i.readings (.ofComponent c) = .ok x ∧
    (x.leavesCalendar i.horizonYears ∨ x.endsBeforeFirst)

end Interpreter

namespace ImportedEvent

variable {i : Interpreter}

theorem outcome_ofComponent (i : Interpreter) (uid : String) (c : Ics.Component) :
    (ofComponent i uid c).outcome =
      (i.interpret (.ofComponent c)).outcome.mapError .interpretation >>= fun dates =>
        (dates.knownSeries uid c.title c.description).outcome >>= fun series =>
          .ok { uid, title := c.title, description := c.description, dates, series } := by
  unfold ofComponent
  simp only [Traced.outcome_bind, Traced.outcome_noteAll, Traced.outcome_mapError, ok_bind]
  rfl

/-- A component gives an event with its identifier, or is not read for a reason to report, or
    breaks off with another one. -/
theorem ofComponent_cases (hyears : 1 ≤ i.horizonYears) (uid : String) (c : Ics.Component) :
    (¬ i.breaksOff c ∧ ∃ event, (ofComponent i uid c).outcome = .ok event ∧ event.uid = uid) ∨
    (¬ i.breaksOff c ∧ ∃ cause,
      (ofComponent i uid c).outcome = .error (.interpretation (.record cause))) ∨
    (i.breaksOff c ∧ ∃ cause, (ofComponent i uid c).outcome = .error cause ∧
      ∀ reported, cause ≠ .interpretation (.record reported)) := by
  rw [outcome_ofComponent, Interpreter.outcome_interpret]
  cases hread : i.readings (.ofComponent c) with
  | error cause =>
    refine .inr (.inl ⟨?_, cause, rfl⟩)
    rintro ⟨x, hx, -⟩
    rw [hread] at hx
    cases hx
  | ok x =>
    have hbreaks : i.breaksOff c ↔ x.leavesCalendar i.horizonYears ∨ x.endsBeforeFirst := by
      simp [Interpreter.breaksOff, hread]
    rw [hbreaks, mapError_ok, ok_bind]
    cases hdates : i.dates x with
    | error cause =>
      have hleaves : x.leavesCalendar i.horizonYears :=
        Classical.byContradiction fun hstays =>
          not_exists_eq_ok hdates ((Interpreter.exists_dates_eq_ok_iff hyears x).mpr hstays)
      exact .inr (.inr ⟨.inl hleaves, .interpretation (.calendar cause), rfl,
        fun _ h => by cases h⟩)
    | ok d =>
      have hstays := (Interpreter.exists_dates_eq_ok_iff hyears x).mp ⟨d, hdates⟩
      have hsettled := Interpreter.exists_knownSeries_iff_not_endsBeforeFirst hyears hread hdates
        uid c.title c.description
      cases hseries : (d.knownSeries uid c.title c.description).outcome with
      | ok s =>
        refine .inl ⟨not_or.mpr ⟨hstays, hsettled.mp ⟨s, hseries⟩⟩, ?_⟩
        simp only [mapError_ok, ok_bind, hseries]
        exact ⟨_, rfl, rfl⟩
      | error cause =>
        have hends : x.endsBeforeFirst :=
          Classical.byContradiction fun hnot => not_exists_eq_ok hseries (hsettled.mpr hnot)
        obtain ⟨refusal, rfl⟩ := RecordDates.eq_refused_of_knownSeries hseries
        refine .inr (.inr ⟨.inr hends, .refused refusal, ?_, fun _ h => by cases h⟩)
        simp only [mapError_ok, ok_bind, hseries]
        rfl

end ImportedEvent

end EventCalendar
