/-
  EventCalendar.Proofs.Materialization.AllDay

  Series without exceptions, and the days of all-day events.  An all-day event
  lasts to the end of its last day, but a window that starts within that day
  does not show it.
-/

import EventCalendar.Proofs.Expansion.Periods
import EventCalendar.Proofs.Materialization.Sorting

namespace EventCalendar

open EventCalendar.Time

/-! ## No exceptions -/

theorem Overlay.applyFrom_empty (s : Option Series) (raw : List Occurrence) :
    (Overlay.applyFrom [] s .empty raw).outcome = .ok ⟨raw, .empty, 0⟩ := by
  induction raw with
  | nil => rfl
  | cons o raw ih =>
    have hfind : (OrderedMap.empty : Modifications.Index).find? o.key = none := rfl
    have herase : (OrderedMap.empty : Modifications.Index).erase o.key = .empty := rfl
    simp [Overlay.applyFrom, hfind, herase, ih]

/-- Without exceptions the occurrences stay as they are. -/
theorem Overlay.apply_none (raw : List Occurrence) (s : Option Series) :
    (Overlay.apply raw [] .none s).outcome = .ok ⟨raw, []⟩ := by
  have hkeys : deletionKeys [] = [] := rfl
  have hindex : Modifications.none.index = .empty := rfl
  simp [Overlay.apply, hkeys, hindex, Overlay.applyFrom_empty]
  rfl

namespace Materialization

variable {s : Series} {w : Window} {cap : Int} {m m' : Materialization}

/-- A series without exceptions adds the events of its occurrences. -/
theorem outcome_add_of_no_exceptions (w : Window) (cap : Int) (m : Materialization) (s : Series) :
    (add w cap m ⟨s, [], .none⟩).outcome = s.expand w cap >>= fun e =>
      e.occurrences.mapM (EventInstance.ofOccurrence s) >>= fun instances =>
        .ok { instances := m.instances ++ instances
              unmatched := m.unmatched
              truncatedSeries :=
                if e.truncated then m.truncatedSeries ++ [s.seriesId] else m.truncatedSeries } := by
  have hdistinct : ExceptionKey.distinct [] = [] := rfl
  simp only [add, Series.expandNoting, Series.expand, Traced.outcome_bind,
    Traced.outcome_ofExcept, Traced.outcome_noteAll, Traced.outcome_pure, hdistinct,
    Overlay.apply_none, ok_bind]
  cases s.expandWithin w cap skipBudget <;> rfl

theorem outcome_ofRequests_singleton (r : SeriesRequest) (w : Window) (cap : Int) :
    (ofRequests [r] w cap).outcome = (add w cap .empty r).outcome >>= fun all =>
      .ok { all with instances := EventInstance.sorted all.instances } := by
  simp only [ofRequests, List.foldlM_cons, List.foldlM_nil, Traced.outcome_bind,
    Traced.outcome_note, Traced.outcome_pure, ok_bind]
  cases (add w cap .empty r).outcome <;> rfl

/-- One series without exceptions shows the events of its occurrences, in order. -/
theorem ofRequests_of_no_exceptions
    (h : (ofRequests [⟨s, [], .none⟩] w cap).outcome = .ok m) :
    ∃ e instances, s.expand w cap = .ok e ∧
      e.occurrences.mapM (EventInstance.ofOccurrence s) = .ok instances ∧
      m.instances = EventInstance.sorted instances ∧
      m.truncatedSeries = if e.truncated then [s.seriesId] else [] := by
  rw [outcome_ofRequests_singleton, outcome_add_of_no_exceptions] at h
  obtain ⟨all, hadd, h⟩ := bind_eq_ok_iff.mp h
  obtain ⟨e, he, hadd⟩ := bind_eq_ok_iff.mp hadd
  obtain ⟨instances, hinstances, hadd⟩ := bind_eq_ok_iff.mp hadd
  cases hadd
  cases h
  exact ⟨e, instances, he, hinstances, rfl, rfl⟩

theorem ofOccurrence_eq_ok_iff {start finish : Moment} {i : EventInstance} :
    EventInstance.ofOccurrence s (.plain start finish) = .ok i ↔
      ∃ after, exclusiveEnd finish s.allDay = .ok after ∧
        i = ⟨s.seriesId, start, finish, after, start, s.allDay, true, false, s.title,
          s.description⟩ := by
  unfold EventInstance.ofOccurrence
  rw [bind_eq_ok_iff]
  constructor
  · rintro ⟨after, hafter, h⟩
    cases h
    exact ⟨after, hafter, rfl⟩
  · rintro ⟨after, hafter, rfl⟩
    exact ⟨after, hafter, rfl⟩

/-! ## Days of all-day events -/

theorem clip_of_unbounded (hfirst : s.firstInstance = none) (hlast : s.lastInstance = none)
    (first : Moment) (last : Option Moment) :
    (Window.of first last).clip s = Window.of first last := by
  have hzoned (t : Moment) : t.zoned.zoned = t.zoned := Moment.zoned_of_zone_ne t.zone_zoned_ne
  simp only [Window.clip, Window.of, hfirst, hlast, hzoned]

/-- Unless there are too many, the events of a series without bounds are those of the starts that
    the window shows. -/
theorem mem_instances_iff {first : Moment} {last : Option Moment} {i : EventInstance}
    (hkind : s.kind ≠ .customWeekly) (hfirst : s.firstInstance = none)
    (hlast : s.lastInstance = none)
    (h : (ofRequests [⟨s, [], .none⟩] (Window.of first last) cap).outcome = .ok m)
    (hcomplete : m.truncatedSeries = []) :
    i ∈ m.instances ↔ (Window.of first last).isEmpty = false ∧
      ∃ duration start finish, s.duration = .ok duration ∧ start ∈ s.allStarts ∧
        (Window.of first last).shows duration start = true ∧ start.plus duration = .ok finish ∧
        EventInstance.ofOccurrence s (.plain start finish) = .ok i := by
  obtain ⟨e, instances, hexpand, hinstances, hshown, htruncated⟩ := ofRequests_of_no_exceptions h
  have hclip := clip_of_unbounded hfirst hlast first last
  have hall : e.truncated = false := by
    rw [hcomplete] at htruncated
    cases he : e.truncated with
    | false => rfl
    | true => simp [he] at htruncated
  rw [hshown, EventInstance.mem_sorted, mem_of_mapM_eq_ok hinstances]
  cases hwindow : (Window.of first last).isEmpty with
  | true =>
    have hnone : e.occurrences = [] := by
      simp only [Series.expand, Series.expandWithin, hclip, hwindow, if_true,
        Except.ok.injEq] at hexpand
      rw [← hexpand]
    simp [hnone]
  | false =>
    rw [Series.expand_eq_listPeriods hkind (by rw [hclip, hwindow]), hclip] at hexpand
    obtain ⟨duration, hduration, hlisted, hmore⟩ :=
      Series.listPeriods_spec hkind (by decide) hexpand
    have hroom : (s.allStarts.filter ((Window.of first last).shows duration)).length ≤
        cap.toNat := by
      rw [hall] at hmore
      simpa using hmore
    rw [List.take_of_length_le hroom] at hlisted
    constructor
    · rintro ⟨o, ho, hi⟩
      obtain ⟨start, hstart, hplain⟩ := (mem_of_mapM_eq_ok hlisted).mp ho
      obtain ⟨hmem, hshows⟩ := List.mem_filter.mp hstart
      obtain ⟨finish, hfinish, hplain⟩ := bind_eq_ok_iff.mp hplain
      cases hplain
      exact ⟨rfl, duration, start, finish, hduration, hmem, hshows, hfinish, hi⟩
    · rintro ⟨-, duration', start, finish, hduration', hmem, hshows, hfinish, hi⟩
      rw [hduration, Except.ok.injEq] at hduration'
      subst hduration'
      refine ⟨.plain start finish, (mem_of_mapM_eq_ok hlisted).mpr
        ⟨start, List.mem_filter.mpr ⟨hmem, hshows⟩, ?_⟩, hi⟩
      rw [Occurrence.startingAt, hfinish, ok_bind, pure_eq_ok]

/-- All-day events of one Monday after the other, from 1 January 2024 on. -/
def allDayMondays : Series where
  seriesId := "all-day mondays"
  title := none
  description := none
  anchorStart := .onTheHour 738885 0 (by decide)
  anchorEnd := none
  allDay := true
  kind := .weekly
  weekdays := .empty
  firstInstance := none
  lastInstance := none
  zones := by decide
  ends := by decide
  bounds := by decide
  listed := by decide

/-- An all-day event whose days meet a window is shown, if the window does not start after the
    midnight that its last day begins with. -/
theorem allDay_shown_iff {first : Moment} {last : Option Moment} {duration : Int}
    {start finish after : Moment} (hallDay : s.allDay = true) (hkind : s.kind ≠ .customWeekly)
    (hfirst : s.firstInstance = none) (hlast : s.lastInstance = none)
    (hzone : first.zone = s.start.zone) (hzone' : ∀ t ∈ last, t.zone = s.start.zone)
    (h : (ofRequests [⟨s, [], .none⟩] (Window.of first last) cap).outcome = .ok m)
    (hcomplete : m.truncatedSeries = []) (hduration : s.duration = .ok duration)
    (hstart : start ∈ s.allStarts) (hfinish : start.plus duration = .ok finish)
    (hafter : finish.plusDays 1 = .ok after) :
    (∃ i ∈ m.instances, i.start = start ∧ i.finish = finish ∧ i.exclusiveFinish = after) ↔
      (start.upTo (last.getD first) = true ∧ first.before after = true) ∧
        first.upTo (last.getD first) = true ∧ first.upTo finish = true := by
  have hzoned : s.start.zone ≠ .floating := by
    rw [Series.zone_start]
    simpa [Moment.isZoned] using s.zones s.anchorStart List.mem_cons_self
  have hlastZone : (last.getD first).zone = s.start.zone := by
    cases last with
    | none => exact hzone
    | some t => exact hzone' t rfl
  have hwindow : Window.of first last = ⟨first, last.getD first⟩ := by
    rw [Window.of, Moment.zoned_of_zone_ne (by rwa [hzone]),
      Moment.zoned_of_zone_ne (by rwa [hlastZone])]
  have hshows : (Window.of first last).shows duration start = true ↔
      first.upTo finish = true ∧ start.upTo (last.getD first) = true := by
    rw [hwindow, Window.shows, Moment.endsBefore_of_plus hfinish, ← Moment.upTo_eq_not_before,
      Bool.and_eq_true]
  have hempty : (Window.of first last).isEmpty = false ↔ first.upTo (last.getD first) = true := by
    rw [hwindow, Window.isEmpty, Moment.upTo_eq_not_before, Bool.not_eq_true']
  -- who comes by the midnight of the last day comes before that day is over
  have hmeets : first.upTo finish = true → first.before after = true := by
    intro hupTo
    obtain ⟨-, -, hfinishZone⟩ := Moment.plus_eq_ok_iff.mp hfinish
    obtain ⟨hmicros, -, hafterZone⟩ := Moment.plusDays_eq_ok_iff.mp hafter
    have hsame : first.zone = finish.zone := by
      rw [hfinishZone, (Series.alike_of_mem_allStarts hstart).1, hzone]
    simp only [Moment.upTo, Moment.before, decide_eq_true_eq] at hupTo ⊢
    rw [Moment.since_of_zone_eq hsame] at hupTo
    rw [Moment.since_of_zone_eq (hsame.trans hafterZone.symm)]
    simp only [microsPerDay] at hmicros
    omega
  have hinstance : EventInstance.ofOccurrence s (.plain start finish) =
      .ok ⟨s.seriesId, start, finish, after, start, s.allDay, true, false, s.title,
        s.description⟩ :=
    ofOccurrence_eq_ok_iff.mpr ⟨after, by simpa [exclusiveEnd, hallDay] using hafter, rfl⟩
  constructor
  · rintro ⟨i, hi, hi', -⟩
    obtain ⟨hnonempty, duration', start', finish', hlength, -, hshown, hfinish', hocc⟩ :=
      (mem_instances_iff hkind hfirst hlast h hcomplete).mp hi
    obtain ⟨after', -, rfl⟩ := ofOccurrence_eq_ok_iff.mp hocc
    rw [hduration, Except.ok.injEq] at hlength
    simp only at hi'
    subst hlength hi'
    obtain ⟨hopen, hup⟩ := hshows.mp hshown
    exact ⟨⟨hup, hmeets hopen⟩, hempty.mp hnonempty, hopen⟩
  · rintro ⟨⟨hup, -⟩, hnonempty, hopen⟩
    exact ⟨_, (mem_instances_iff hkind hfirst hlast h hcomplete).mpr ⟨hempty.mpr hnonempty,
      duration, start, finish, hduration, hstart, hshows.mpr ⟨hopen, hup⟩, hfinish, hinstance⟩,
      rfl, rfl, rfl⟩

/-- At midnight of a Monday its event is shown. -/
theorem allDayMondays_shown_at_midnight :
    let monday : Moment := .onTheHour 738892 0 (by decide)
    let tuesday : Moment := .onTheHour 738893 0 (by decide)
    ∃ m, (ofRequests [⟨allDayMondays, [], .none⟩] (Window.of monday none) 2).outcome = .ok m ∧
      ((∃ i ∈ m.instances, i.start = monday ∧ i.finish = monday ∧ i.exclusiveFinish = tuesday) ↔
        (monday.upTo monday = true ∧ monday.before tuesday = true) ∧
          monday.upTo monday = true ∧ monday.upTo monday = true) := by
  have hexpand : allDayMondays.expand (Window.of (.onTheHour 738892 0 (by decide)) none) 2 =
      .ok ⟨"all-day mondays", [.plain (.onTheHour 738892 0 (by decide))
        (.onTheHour 738892 0 (by decide))], .complete⟩ := rfl
  intro monday tuesday
  have hfinish : monday.plus 0 = .ok monday := Moment.plus_eq_ok_iff.mpr (by decide)
  have hafter : monday.plusDays 1 = .ok tuesday := Moment.plusDays_eq_ok_iff.mpr (by decide)
  have hinstance : EventInstance.ofOccurrence allDayMondays (.plain monday monday) = .ok _ :=
    ofOccurrence_eq_ok_iff.mpr ⟨tuesday, (if_pos rfl).trans hafter, rfl⟩
  have h : (ofRequests [⟨allDayMondays, [], .none⟩] (Window.of monday none) 2).outcome =
      .ok ⟨[⟨"all-day mondays", monday, monday, tuesday, monday, true, true, false, none, none⟩],
        .empty, []⟩ := by
    rw [outcome_ofRequests_singleton, outcome_add_of_no_exceptions, hexpand, ok_bind,
      List.mapM_cons, hinstance]
    exact congrArg (fun l => Except.ok (Materialization.mk l .empty []))
      (EventInstance.sorted_singleton _)
  have hduration : allDayMondays.duration = .ok 0 := rfl
  have hstart : monday ∈ allDayMondays.allStarts :=
    (Series.mem_allStarts_iff (by decide)).mpr ⟨by decide, by decide, by decide⟩
  have hallDay : allDayMondays.allDay = true := rfl
  have hkind : allDayMondays.kind ≠ .customWeekly := by decide
  have hfirst : allDayMondays.firstInstance = none := rfl
  have hlast : allDayMondays.lastInstance = none := rfl
  have hzone : monday.zone = allDayMondays.start.zone := rfl
  have hshown := allDay_shown_iff hallDay hkind hfirst hlast hzone (by simp) h rfl hduration
    hstart hfinish hafter
  rw [Option.getD_none] at hshown
  exact ⟨_, h, hshown⟩

/-- The all-day event of 1 January is not shown at noon of that day. -/
theorem allDayMondays_not_shown_at_noon :
    let noon : Moment := .onTheHour 738885 12 (by decide)
    let midnight : Moment := .onTheHour 738886 0 (by decide)
    allDayMondays.allDay = true ∧ allDayMondays.start ∈ allDayMondays.allStarts ∧
      allDayMondays.duration = .ok 0 ∧ allDayMondays.start.plusDays 1 = .ok midnight ∧
      allDayMondays.start.upTo noon = true ∧ noon.before midnight = true ∧
      (ofRequests [⟨allDayMondays, [], .none⟩] (Window.of noon none) 1000).outcome =
        .ok ⟨[], .empty, []⟩ := by
  have hfirst : allDayMondays.firstStart = .ok allDayMondays.start := rfl
  refine ⟨rfl, ?_, rfl, Moment.plusDays_eq_ok_iff.mpr (by decide), rfl, rfl, ?_⟩
  · rw [Series.allStarts_of_firstStart hfirst]
    exact Pattern.cursor_mem_startsFrom _ _
  · have hexpand : allDayMondays.expand (Window.of (.onTheHour 738885 12 (by decide)) none) 1000 =
        .ok ⟨"all-day mondays", [], .complete⟩ := rfl
    rw [outcome_ofRequests_singleton, outcome_add_of_no_exceptions, hexpand]
    exact congrArg (fun l => Except.ok (Materialization.mk l .empty [])) EventInstance.sorted_nil

end Materialization

end EventCalendar
