/-
  EventCalendar.Proofs.Record.WholeDays

  Records of whole days, from their tokens to the events that are shown.  Such a
  record names the day after its last one.  Its dates keep the last day instead,
  a series keeps how many days lie between the first and the last, and an event
  names the day after its last one again.
-/

import EventCalendar.Proofs.DateToken
import EventCalendar.Proofs.Materialization.AllDay
import EventCalendar.Proofs.Record.Event

namespace EventCalendar

open EventCalendar.Text EventCalendar.Time

/-! ## Midnights -/

theorem Time.Date.micros_midnightIn (d : Date) (zone : Zone) :
    (d.midnightIn zone).wall.micros = d.number * microsPerDay :=
  Nat.add_zero _

namespace Time.Moment

/-- Whole days after a midnight there is another midnight. -/
theorem plusDays_midnightIn_eq_ok_iff {d : Date} {zone : Zone} {days : Int} {m : Moment} :
    (d.midnightIn zone).plusDays days = .ok m ↔
      ∃ d' : Date, (d'.number : Int) = d.number + days ∧ m = d'.midnightIn zone := by
  rw [plusDays_eq_ok_iff, Date.micros_midnightIn]
  constructor
  · rintro ⟨hsum, hlater, hzone⟩
    refine ⟨m.date, ?_, ext_micros ?_ hlater hzone⟩
    · rw [Moment.date, Wall.date_number, Wall.dayNumber]
      simp only [microsPerDay] at hsum ⊢
      omega
    · rw [Date.micros_midnightIn, Moment.date, Wall.date_number, Wall.dayNumber]
      simp only [microsPerDay] at hsum ⊢
      omega
  · rintro ⟨d', hnumber, rfl⟩
    refine ⟨?_, rfl, rfl⟩
    rw [Date.micros_midnightIn]
    simp only [microsPerDay]
    omega

/-- Days after days are so many days in all. -/
theorem plusDays_plusDays {a b c : Moment} {days days' : Int} (hb : a.plusDays days = .ok b)
    (hc : b.plusDays days' = .ok c) : a.plusDays (days + days') = .ok c := by
  rw [plusDays_eq_ok_iff] at hb hc ⊢
  refine ⟨?_, hc.2.1, hc.2.2.trans hb.2.2⟩
  rw [hc.1, hb.1, Int.add_mul, Int.add_assoc]

theorem before_midnightIn (a b : Date) (zone : Zone) :
    (a.midnightIn zone).before (b.midnightIn zone) = decide (a.number < b.number) := by
  have hzone : (a.midnightIn zone).zone = (b.midnightIn zone).zone := rfl
  rw [before, since_of_zone_eq hzone, Date.micros_midnightIn, Date.micros_midnightIn]
  apply decide_eq_decide.mpr
  simp only [microsPerDay]
  omega

theorem midnight_midnightIn (d : Date) (zone : Zone) :
    (d.midnightIn zone).midnight = d.midnightIn zone := by
  unfold midnight Wall.midnight Date.midnightIn
  rw [Wall.date_on]

end Time.Moment

/-! ## Dates -/

/-- The dates are the days from a first to a last one. -/
structure RecordDates.AreDays (dates : RecordDates) (first last : Date) (zone : Zone) : Prop where
  start : dates.start = first.midnightIn zone
  finish : dates.finish = last.midnightIn zone
  allDay : dates.allDay = true
  /-- No rule lists weekdays. -/
  kind : dates.isRecurrent = true → Kind.ofTag? dates.frequency ≠ some .customWeekly

namespace Interpreter

variable {i : Interpreter} {r : RawRecord} {x : Readings} {dates : RecordDates}
  {rawStart rawFinish : String} {first after : Date}

/-- Tokens that name days are read as the midnights of these days. -/
theorem readings_of_namesDay (hrawStart : r.start = some rawStart)
    (hrawFinish : r.finish = some rawFinish) (hstart : DateToken.NamesDay rawStart first)
    (hfinish : DateToken.NamesDay rawFinish after) (h : i.readings r = .ok x) :
    x.start = first.midnightIn i.reader.zone ∧ x.finish = after.midnightIn i.reader.zone ∧
      x.allDay = true := by
  have hgiven {raw token : String} {missing : RecordError}
      (h : given (some raw) missing = .ok token) : token = raw := by
    simp only [given] at h
    split at h
    · cases h
    · cases h
      rfl
  unfold readings at h
  rw [hrawStart, hrawFinish] at h
  obtain ⟨token, htoken, h⟩ := bind_eq_ok_iff.mp h
  cases hgiven htoken
  obtain ⟨token', htoken', h⟩ := bind_eq_ok_iff.mp h
  cases hgiven htoken'
  -- a zone in front of the start has no say in days
  have hday := hstart.isDay
  generalize DateToken.splitZone (trim rawStart) = parts at h hday
  obtain ⟨start, hreadStart, h⟩ := bind_eq_ok_iff.mp h
  obtain ⟨finish, hreadFinish, h⟩ := bind_eq_ok_iff.mp h
  obtain ⟨zoneName, -, h⟩ := bind_eq_ok_iff.mp h
  cases h
  rw [dateOf, mapError_eq_ok_iff] at hreadStart hreadFinish
  exact ⟨DateToken.Reader.read_of_namesDay hstart hreadStart,
    DateToken.Reader.read_of_namesDay hfinish hreadFinish, by simpa only using hday⟩

/-- Dates have the start and the end of the readings, and the tag of their rule. -/
theorem dates_spec (h : i.dates x = .ok dates) :
    dates.start = x.first ∧ x.last = .ok dates.finish ∧ dates.allDay = x.allDay ∧
      (dates.isRecurrent = true → ∃ ending, x.recurrence = some (dates.frequency, ending)) := by
  obtain ⟨last, hlast, h⟩ := bind_eq_ok_iff.mp h
  unfold withRecurrence at h
  split at h
  · cases h
    exact ⟨rfl, hlast, rfl, fun h => absurd h Bool.false_ne_true⟩
  · rename_i tag ending hrecurrence
    obtain ⟨bound, -, h⟩ := bind_eq_ok_iff.mp h
    cases h
    exact ⟨rfl, hlast, rfl, fun _ => ⟨ending, hrecurrence⟩⟩

/-- The last day is the day before the given one, but not before the first. -/
theorem exists_last_of_days (hstart : x.start = first.midnightIn i.reader.zone)
    (hfinish : x.finish = after.midnightIn i.reader.zone) (hallDay : x.allDay = true) {m : Moment}
    (h : x.last = .ok m) :
    ∃ last : Date, m = last.midnightIn i.reader.zone ∧
      last.number = max first.number (after.number - 1) := by
  have hfirst : x.first = first.midnightIn i.reader.zone := by
    rw [Readings.first, if_pos hallDay, hstart, Moment.midnight_midnightIn]
  rw [Readings.last, if_pos hallDay, hfirst, hfinish, Moment.midnight_midnightIn] at h
  obtain ⟨finish, hbefore, h⟩ := bind_eq_ok_iff.mp h
  obtain ⟨last, hlast, rfl⟩ := Moment.plusDays_midnightIn_eq_ok_iff.mp hbefore
  rw [Moment.before_midnightIn] at h
  -- a record that does not end after its first day has that day
  by_cases hearly : last.number < first.number
  · rw [if_pos (decide_eq_true hearly)] at h
    cases h
    exact ⟨first, rfl, by omega⟩
  · rw [if_neg (by simpa using hearly)] at h
    cases h
    exact ⟨last, rfl, by omega⟩

/-- The dates of a record that names days are the days from its first one to the day before the one
    that it names as its end. -/
theorem areDays_of_interpret (hrawStart : r.start = some rawStart)
    (hrawFinish : r.finish = some rawFinish) (hstart : DateToken.NamesDay rawStart first)
    (hfinish : DateToken.NamesDay rawFinish after) (h : (i.interpret r).outcome = .ok dates) :
    ∃ last : Date, dates.AreDays first last i.reader.zone ∧
      last.number = max first.number (after.number - 1) := by
  rw [outcome_interpret] at h
  obtain ⟨x, hread, h⟩ := bind_eq_ok_iff.mp h
  rw [mapError_eq_ok_iff] at hread h
  obtain ⟨hs, hf, hallDay⟩ := readings_of_namesDay hrawStart hrawFinish hstart hfinish hread
  obtain ⟨hfirst, hlast, hday, hrecurs⟩ := dates_spec h
  obtain ⟨last, hlast, hnumber⟩ := exists_last_of_days hs hf hallDay hlast
  refine ⟨last, ⟨?_, hlast, hday.trans hallDay, ?_⟩, hnumber⟩
  · rw [hfirst, Readings.first, if_pos hallDay, hs, Moment.midnight_midnightIn]
  · intro hrecurrent
    obtain ⟨ending, hrecurrence⟩ := hrecurs hrecurrent
    obtain ⟨rule, htag, -⟩ := exists_rule_of_readings hread hrecurrence
    rw [htag]
    exact rule.ofTag?_tag_ne

end Interpreter

/-! ## Series -/

/-- A series of events that last for some days each. -/
structure Series.LastsDays (s : Series) (days : Nat) : Prop where
  allDay : s.allDay = true
  /-- From the midnight of the first day to that of the last. -/
  duration : s.duration = .ok (((days : Int) - 1) * microsPerDay)
  kind : s.kind ≠ .customWeekly

/-- Fields that make a series are its own, in zones. -/
theorem Series.eq_zoned_of_ofFields {f : SeriesFields} {s : Series}
    (h : Series.ofFields f = .ok s) : s.toSeriesFields = f.zoned := by
  unfold Series.ofFields at h
  simp only at h
  split at h
  · cases h
  · split at h
    · cases h
    · split at h
      · cases h
      · cases h
        rfl

namespace RecordDates

variable {dates : RecordDates} {details : SeriesDetails} {s : Series}

/-- The fields of the series of dates are theirs: the kind, the start, the end and whether these are
    days. -/
theorem exists_ofFields_of_series (h : dates.series details = .ok s) :
    ∃ fields : SeriesFields, Series.ofFields fields = .ok s ∧ dates.isRecurrent = true ∧
      Kind.ofTag? dates.frequency = some fields.kind ∧ fields.anchorStart = dates.start ∧
      fields.anchorEnd = some dates.finish ∧ fields.allDay = dates.allDay := by
  unfold series at h
  split at h
  · cases h
  · rename_i hrecurs
    simp only [Bool.or_eq_true, Bool.not_eq_true', not_or, Bool.not_eq_false] at hrecurs
    split at h
    · cases h
    · rename_i kind hkind
      rw [mapError_eq_ok_iff] at h
      simp only [SeriesForm.series, SeriesForm.checkKind_tag, Entry.orDefault,
        Entry.required] at h
      obtain ⟨weekdays, -, h⟩ := bind_eq_ok_iff.mp h
      cases weekdays with
      | error fault => cases h
      | ok weekdays =>
        simp only at h
        rw [mapError_eq_ok_iff] at h
        exact ⟨_, h, hrecurs.1, hkind, rfl, rfl, rfl⟩

/-- A series of dates that are days lasts as many of them as there are from the first to the
    last. -/
theorem AreDays.lastsDays {first last : Date} {zone : Zone} (hdays : dates.AreDays first last zone)
    (hle : first.number ≤ last.number) (h : dates.series details = .ok s) :
    s.LastsDays (last.number + 1 - first.number) := by
  obtain ⟨fields, hfields, hrecurrent, hkind, hstart, hfinish, hallDay⟩ :=
    exists_ofFields_of_series h
  -- the days that date-times show stay the same when they are put in a zone
  have hzoned := Series.eq_zoned_of_ofFields hfields
  have hday : s.allDay = true := by
    rw [hzoned]
    exact hallDay.trans hdays.allDay
  have hfirst : s.start.wall.dayNumber = first.number := by
    rw [Series.start, if_pos hday, hzoned]
    simp [SeriesFields.zoned, hstart, hdays.start, Moment.midnight, Wall.midnight,
      Date.midnightIn]
  have hlast : s.finish = .ok (last.midnightIn zone).zoned := by
    rw [Series.finish, hzoned]
    simp [SeriesFields.zoned, hfinish, hdays.finish]
  refine ⟨hday, ?_, ?_⟩
  · have hnumber : (last.midnightIn zone).zoned.wall.dayNumber = last.number := by
      rw [Moment.wall_zoned]
      exact Wall.dayNumber_on last 0 microsPerDay_pos
    rw [Series.duration, hlast, ok_bind, if_pos hday, hfirst, hnumber, pure_eq_ok]
    congr 2
    omega
  · intro hcustom
    apply hdays.kind hrecurrent
    rw [hkind, ← hcustom, hzoned]
    rfl

end RecordDates

/-! ## Events -/

namespace Series

variable {s : Series} {w : Window} {cap : Int} {days : Nat}

/-- The occurrences of a series in a window start with starts of the series, and last as long as all
    of them. -/
theorem exists_start_of_mem_expand {e : Expansion} {o : Occurrence}
    (hkind : s.kind ≠ .customWeekly) (h : s.expand w cap = .ok e) (ho : o ∈ e.occurrences) :
    ∃ start ∈ s.allStarts, ∃ duration, s.duration = .ok duration ∧
      Occurrence.startingAt duration start = .ok o := by
  cases hwindow : (w.clip s).isEmpty with
  | true =>
    simp only [expand, expandWithin, hwindow, if_true, Except.ok.injEq] at h
    rw [← h] at ho
    cases ho
  | false =>
    obtain ⟨duration, hduration, hlisted, -⟩ := expand_eq_shown_starts hkind hwindow h
    obtain ⟨start, hstart, hplain⟩ := (mem_of_mapM_eq_ok hlisted).mp ho
    exact ⟨start, (List.mem_filter.mp (List.mem_of_mem_take hstart)).1, duration, hduration,
      hplain⟩

theorem timeOfDay_start (hallDay : s.allDay = true) : s.start.wall.timeOfDay = 0 := by
  rw [start, if_pos hallDay]
  exact Wall.timeOfDay_on _ 0 microsPerDay_pos

/-- The events of a series of days start at midnight, and end so many days later. -/
theorem LastsDays.of_mem_instances {m : Materialization} {event : EventInstance}
    (hdays : s.LastsDays days)
    (h : (Materialization.ofRequests [⟨s, [], .none⟩] w cap).outcome = .ok m)
    (hevent : event ∈ m.instances) :
    event.start.zone = s.start.zone ∧ event.start.wall.timeOfDay = 0 ∧
      event.start.plusDays days = .ok event.exclusiveFinish := by
  obtain ⟨e, instances, hexpand, hinstances, hshown, -⟩ :=
    Materialization.ofRequests_of_no_exceptions h
  rw [hshown, EventInstance.mem_sorted] at hevent
  obtain ⟨o, ho, hevent⟩ := (mem_of_mapM_eq_ok hinstances).mp hevent
  obtain ⟨start, hstart, duration, hduration, hplain⟩ :=
    exists_start_of_mem_expand hdays.kind hexpand ho
  obtain ⟨finish, hfinish, hplain⟩ := bind_eq_ok_iff.mp hplain
  cases hplain
  obtain ⟨after, hafter, rfl⟩ := Materialization.ofOccurrence_eq_ok_iff.mp hevent
  have halike := alike_of_mem_allStarts hstart
  refine ⟨halike.1, halike.2.trans (timeOfDay_start hdays.allDay), ?_⟩
  rw [hdays.duration] at hduration
  cases hduration
  rw [exclusiveEnd, if_pos hdays.allDay] at hafter
  -- the last day is one day less away than the day after it
  have hsum := Moment.plusDays_plusDays hfinish hafter
  rwa [Int.sub_add_cancel] at hsum

end Series

namespace Interpreter

variable {i : Interpreter} {r : RawRecord} {dates : RecordDates} {rawStart rawFinish : String}
  {first after : Date}

/-- A record that names its first day and the day after its last one keeps both.  Its end, seen as
    the moment after it, is midnight of the day that the record names, or of the day after its first
    one where the record does not name a later day, if the calendar has such a day.  All events of
    its series start at midnight of the clock of the series, and last as many days by the calendar
    as there are between the two, and at least one. -/
theorem interpret_keeps_days (hrawStart : r.start = some rawStart)
    (hrawFinish : r.finish = some rawFinish) (hstart : DateToken.NamesDay rawStart first)
    (hfinish : DateToken.NamesDay rawFinish after) (h : (i.interpret r).outcome = .ok dates) :
    dates.allDay = true ∧
    (first.number < after.number →
      exclusiveEnd dates.finish true = .ok (after.midnightIn i.reader.zone)) ∧
    (after.number ≤ first.number →
      (∀ next : Date, next.number = first.number + 1 →
        exclusiveEnd dates.finish true = .ok (next.midnightIn i.reader.zone)) ∧
      (first.number + 1 = dayCount → ¬ ∃ m, exclusiveEnd dates.finish true = .ok m)) ∧
    ∀ details s, dates.series details = .ok s →
      ∀ w cap m, (Materialization.ofRequests [⟨s, [], .none⟩] w cap).outcome = .ok m →
        ∀ event ∈ m.instances, event.start.zone = s.start.zone ∧
          event.start.wall.timeOfDay = 0 ∧
          event.start.plusDays (max 1 (after.number - first.number)) =
            .ok event.exclusiveFinish := by
  obtain ⟨last, hdays, hlast⟩ := areDays_of_interpret hrawStart hrawFinish hstart hfinish h
  have hend (m : Moment) : exclusiveEnd dates.finish true = .ok m ↔
      ∃ next : Date, (next.number : Int) = last.number + 1 ∧ m = next.midnightIn i.reader.zone := by
    rw [exclusiveEnd, if_pos rfl, hdays.finish]
    exact Moment.plusDays_midnightIn_eq_ok_iff
  refine ⟨hdays.allDay, ?_, ?_, ?_⟩
  · intro hlt
    exact (hend _).mpr ⟨after, by omega, rfl⟩
  · intro hle
    refine ⟨fun next hnext => (hend _).mpr ⟨next, by omega, rfl⟩, ?_⟩
    rintro hover ⟨m, hm⟩
    obtain ⟨next, hnext, -⟩ := (hend m).mp hm
    have hinside := next.number_lt
    omega
  · intro details s hseries w cap m hm event hevent
    have hlasts := (hdays.lastsDays (by omega) hseries).of_mem_instances hm hevent
    have hcount : ((last.number + 1 - first.number : Nat) : Int) =
        max 1 ((after.number : Int) - first.number) := by
      omega
    rwa [hcount] at hlasts

/-- The interpreter for the clock of Berlin. -/
def ofBerlin : Interpreter := ⟨.withZone (some "Europe/Berlin"), defaultHorizon⟩

/-- Saturday and Sunday of every week, from the weekend on which the clock is put back. -/
def weekends : RawRecord := ⟨some "20241026", some "20241028", some "FREQ=WEEKLY", none, none⟩

/-- A day of October 2024. -/
def october (day : Nat) (h : 1 ≤ day ∧ day ≤ 31) : Date :=
  ⟨2024, 10, day, by decide, by decide, by decide, by decide, h.1, h.2⟩

theorem namesDay_october : DateToken.NamesDay "20241026" (october 26 (by decide)) ∧
    DateToken.NamesDay "20241028" (october 28 (by decide)) :=
  ⟨⟨[2, 0, 2, 4], [1, 0], [2, 6], by decide +kernel, rfl, rfl, rfl, rfl, rfl, rfl⟩,
    ⟨[2, 0, 2, 4], [1, 0], [2, 8], by decide +kernel, rfl, rfl, rfl, rfl, rfl, rfl⟩⟩

/-- From Sunday on a window shows the first of these weekends. -/
theorem exists_event_of_weekends :
    let sunday := (october 27 (by decide)).midnightIn ofBerlin.reader.zone
    ∃ dates s m, (ofBerlin.interpret weekends).outcome = .ok dates ∧
      dates.series .none = .ok s ∧
      (Materialization.ofRequests [⟨s, [], .none⟩] ⟨sunday, sunday⟩ 10).outcome = .ok m ∧
      m.instances.length = 1 := by
  intro sunday
  have hrun : ((ofBerlin.interpret weekends).outcome.toOption.bind fun dates =>
      (dates.series .none).toOption.bind fun s =>
        (Materialization.add ⟨sunday, sunday⟩ 10 .empty ⟨s, [], .none⟩).outcome.toOption.map
          (·.instances.length)) = some 1 := by
    decide +kernel
  obtain ⟨dates, hdates, hrun⟩ := Option.bind_eq_some_iff.mp hrun
  obtain ⟨s, hs, hrun⟩ := Option.bind_eq_some_iff.mp hrun
  obtain ⟨all, hall, hlength⟩ := Option.map_eq_some_iff.mp hrun
  have hm := Materialization.outcome_ofRequests_singleton ⟨s, [], .none⟩ ⟨sunday, sunday⟩ 10
  rw [toOption_eq_some_iff.mp hall, ok_bind] at hm
  exact ⟨dates, s, _, toOption_eq_some_iff.mp hdates, toOption_eq_some_iff.mp hs, hm,
    (EventInstance.sorted_perm _).length_eq.trans hlength⟩

/-- The weekend ends with the midnight of Monday. -/
theorem interpret_weekends_keeps_days :
    let saturday := october 26 (by decide)
    let monday := october 28 (by decide)
    ∃ dates s w m event, weekends.start = some "20241026" ∧ weekends.finish = some "20241028" ∧
      DateToken.NamesDay "20241026" saturday ∧ DateToken.NamesDay "20241028" monday ∧
      (ofBerlin.interpret weekends).outcome = .ok dates ∧ dates.series .none = .ok s ∧
      (Materialization.ofRequests [⟨s, [], .none⟩] w 10).outcome = .ok m ∧ event ∈ m.instances ∧
      exclusiveEnd dates.finish true = .ok (monday.midnightIn ofBerlin.reader.zone) ∧
      event.start.zone = s.start.zone ∧ event.start.wall.timeOfDay = 0 ∧
      event.start.plusDays 2 = .ok event.exclusiveFinish := by
  intro saturday monday
  obtain ⟨dates, s, m, hdates, hs, hm, hlength⟩ := exists_event_of_weekends
  obtain ⟨event, hevent⟩ := List.exists_mem_of_length_pos (by omega : 0 < m.instances.length)
  obtain ⟨hsaturday, hmonday⟩ := namesDay_october
  obtain ⟨-, hlater, -, hevents⟩ := interpret_keeps_days rfl rfl hsaturday hmonday hdates
  exact ⟨dates, s, _, m, event, rfl, rfl, hsaturday, hmonday, hdates, hs, hm, hevent,
    hlater (by decide), hevents .none s hs _ 10 m hm event hevent⟩

/-- The last date of the calendar. -/
def lastDate : Date :=
  ⟨9999, 12, 31, by decide, by decide, by decide, by decide, by decide, by decide⟩

/-- The last day of the calendar is read, and there is no day after it to end at. -/
theorem interpret_lastDate_without_end :
    let r : RawRecord := ⟨some "99991231", some "99991231", none, none, none⟩
    ∃ dates, DateToken.NamesDay "99991231" lastDate ∧ (universal.interpret r).outcome = .ok dates ∧
      ¬ lastDate.number < lastDate.number ∧ ¬ ∃ m, exclusiveEnd dates.finish true = .ok m := by
  intro r
  have hends : ∃ dates, (universal.interpret r).outcome = .ok dates ∧
      exclusiveEnd dates.finish true = .error .outOfRange := by
    refine map_eq_ok_iff.mp ?_
    decide +kernel
  obtain ⟨dates, hdates, hend⟩ := hends
  refine ⟨dates, ⟨[9, 9, 9, 9], [1, 2], [3, 1], ?_, rfl, rfl, rfl, rfl, rfl, rfl⟩, hdates,
    Nat.lt_irrefl _, not_exists_eq_ok hend⟩
  decide +kernel

end Interpreter

end EventCalendar
