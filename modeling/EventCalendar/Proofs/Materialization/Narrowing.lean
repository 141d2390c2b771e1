/-
  EventCalendar.Proofs.Materialization.Narrowing

  One request shown in a window and in a narrower one.  Exceptions are laid over
  each occurrence by itself, so that the narrower window has those events whose
  occurrences it shows where the series has them, wherever they have been moved.
-/

import EventCalendar.Proofs.Expansion.Windows
import EventCalendar.Proofs.Materialization.Shares
import EventCalendar.Proofs.Materialization.Sorting
import EventCalendar.Proofs.Time.EpochKey

namespace EventCalendar

open EventCalendar.Time

/-! ## Starts in two windows -/

/-- An event overlaps a window. -/
def Window.meets (w : Window) (i : EventInstance) : Bool :=
  w.first.upTo i.finish && i.start.upTo w.last

/-- A window lies inside another one, on the clock that both are read on. -/
structure Window.Inside (w wide : Window) : Prop where
  zone : w.first.zone = wide.first.zone ∧ w.last.zone = wide.first.zone ∧
    wide.last.zone = wide.first.zone
  first : wide.first.upTo w.first = true
  last : w.last.upTo wide.last = true

/-- A window lies within another one: inside it on their clock and, unless that is the clock of the
    series, by the instants as well. -/
structure Window.Within (w wide : Window) (s : Series) : Prop extends w.Inside wide where
  instants : wide.first.zone = s.anchorStart.zone ∨
    wide.first.instant ≤ w.first.instant ∧ w.last.instant ≤ wide.last.instant

namespace Series

variable {s : Series} {w wide : Window} {m start finish : Moment} {cap cap' : Int}
  {e e' : Expansion} {o : Occurrence}

/-- The occurrence at a start. -/
def occurrenceAt (s : Series) (start : Moment) : Except CalendarError Occurrence :=
  s.duration >>= fun duration => Occurrence.startingAt duration start

/-- A window shows the occurrence at a start. -/
def showsStart (s : Series) (w : Window) (start : Moment) : Bool :=
  !w.isEmpty && s.duration.toOption.any (w.shows · start)

theorem occurrenceAt_eq_ok_iff : s.occurrenceAt start = .ok o ↔
    ∃ duration finish, s.duration = .ok duration ∧ start.plus duration = .ok finish ∧
      o = .plain start finish := by
  simp only [occurrenceAt, bind_eq_ok_iff, Occurrence.startingAt_eq_ok_iff]
  constructor
  · rintro ⟨duration, hduration, finish, hfinish, ho⟩
    exact ⟨duration, finish, hduration, hfinish, ho⟩
  · rintro ⟨duration, finish, hduration, hfinish, ho⟩
    exact ⟨duration, hduration, finish, hfinish, ho⟩

/-- A window shows an occurrence if it is open and the occurrence overlaps it. -/
theorem showsStart_of_occurrenceAt (h : s.occurrenceAt start = .ok o) :
    s.showsStart w start = (!w.isEmpty && (w.first.upTo o.finish && o.start.upTo w.last)) := by
  obtain ⟨duration, finish, hduration, hfinish, rfl⟩ := occurrenceAt_eq_ok_iff.mp h
  have hshows : w.shows duration start = (w.first.upTo finish && start.upTo w.last) := by
    rw [Window.shows, Moment.endsBefore_of_plus hfinish, Moment.before_eq_not_upTo,
      Bool.not_not]
  rw [showsStart, hduration]
  exact congrArg (!w.isEmpty && ·) hshows

/-! ## Occurrences in two windows -/

section

variable (hwithin : w.Within wide s)

include hwithin

theorem isEmpty_of_within (h : w.isEmpty = false) : wide.isEmpty = false := by
  obtain ⟨hfirst, hlast, hwide⟩ := hwithin.zone
  have hfirstLe := hwithin.first
  have hlastLe := hwithin.last
  rw [Moment.upTo, Moment.since_of_zone_eq hfirst.symm, decide_eq_true_eq] at hfirstLe
  rw [Moment.upTo, Moment.since_of_zone_eq (hlast.trans hwide.symm), decide_eq_true_eq] at hlastLe
  rw [Window.isEmpty, Moment.before, Moment.since_of_zone_eq (hlast.trans hfirst.symm),
    decide_eq_false_iff_not] at h
  rw [Window.isEmpty, Moment.before, Moment.since_of_zone_eq hwide, decide_eq_false_iff_not]
  omega

/-- Also on the scale on which the windows are held against the series, one lies within the
    other. -/
theorem rank_of_within : s.rank wide.first wide.first ≤ s.rank wide.first w.first ∧
    s.rank wide.first w.last ≤ s.rank wide.first wide.last := by
  obtain ⟨hfirst, hlast, hwide⟩ := hwithin.zone
  have hfirstLe := hwithin.first
  have hlastLe := hwithin.last
  rw [Moment.upTo, Moment.since_of_zone_eq hfirst.symm, decide_eq_true_eq] at hfirstLe
  rw [Moment.upTo, Moment.since_of_zone_eq (hlast.trans hwide.symm), decide_eq_true_eq] at hlastLe
  unfold rank
  split
  · omega
  · rename_i hzone
    exact hwithin.instants.resolve_left hzone

/-- What a window shows a wider one shows as well. -/
theorem showsStart_of_within (hkind : s.kind ≠ .customWeekly) (hmem : start ∈ s.allStarts)
    (h : s.showsStart w start = true) : s.showsStart wide start = true := by
  obtain ⟨hfirst, hlast, hwide⟩ := hwithin.zone
  obtain ⟨hfirstRank, hlastRank⟩ := rank_of_within hwithin
  have hvisits := visits_of_mem_allStarts hkind hmem
  have hstart : s.Passes start := .start hvisits
  unfold showsStart at h ⊢
  cases hduration : s.duration with
  | error error => simp [hduration, Except.toOption] at h
  | ok duration =>
    rw [hduration, Bool.and_eq_true, Bool.not_eq_true'] at h
    obtain ⟨hopen, hshows⟩ := h
    obtain ⟨hends, hlistedBy⟩ := Bool.and_eq_true_iff.mp
      (show w.shows duration start = true from hshows)
    rw [isEmpty_of_within hwithin hopen]
    rw [(hstart.orderedBy_rank hlast).1] at hlistedBy
    have hlistedBy' : start.upTo wide.last = true :=
      (hstart.orderedBy_rank hwide).1.mpr (hlistedBy.trans hlastRank)
    -- an occurrence that ends beyond the calendar ends before no window
    have hends' : start.endsBefore duration wide.first = false := by
      cases hplus : start.plus duration with
      | error error => simp [Moment.endsBefore, hplus, Except.toOption]
      | ok finish =>
        have hfinish : s.Passes finish := .finish hvisits hduration hplus
        rw [Moment.endsBefore_of_plus hplus, Bool.not_eq_true', ← Bool.not_eq_true,
          (hfinish.orderedBy_rank hfirst).before_iff] at hends
        rw [Moment.endsBefore_of_plus hplus, ← Bool.not_eq_true,
          (hfinish.orderedBy_rank rfl).before_iff]
        omega
    simp [Except.toOption, Window.shows, hends', hlistedBy']

end

theorem clip_of_unbounded (hfirst : s.firstInstance = none) (hlast : s.lastInstance = none)
    (w : Window) : w.clip s = ⟨w.first.zoned, w.last.zoned⟩ := by
  rw [Window.clip, hfirst, hlast]

/-- In a window without zones the starts are shown that it shows in universal time. -/
theorem shows_zoned (hmem : start ∈ s.allStarts) (w : Window) (duration : Int) :
    Window.shows ⟨w.first.zoned, w.last.zoned⟩ duration start = w.shows duration start := by
  have hzone := (alike_of_mem_allStarts hmem).1.trans s.zone_start
  have hends : start.endsBefore duration w.first.zoned = start.endsBefore duration w.first := by
    cases hplus : start.plus duration with
    | error error => simp only [Moment.endsBefore, hplus, Except.toOption, Option.any_none]
    | ok finish =>
      have hfinish := (Moment.plus_eq_ok_iff.mp hplus).2.2.trans hzone
      simp only [Moment.endsBefore_of_plus hplus, Moment.before,
        s.since_zoned_of_zone_eq hfinish]
  simp only [Window.shows, hends, Moment.upTo, s.since_zoned_of_zone_eq hzone]

/-- If none are missing, the occurrences in a window are those of all starts that it shows. -/
theorem mapM_shown_of_expand (hkind : s.kind ≠ .customWeekly) (hfirst : s.firstInstance = none)
    (hlast : s.lastInstance = none) (h : s.expand w cap = .ok e) (hcomplete : e.truncated = false) :
    (s.allStarts.filter (s.showsStart w)).mapM s.occurrenceAt = .ok e.occurrences := by
  have hempty : (w.clip s).isEmpty = w.isEmpty := by
    rw [clip_of_unbounded hfirst hlast, Window.isEmpty, Window.isEmpty, Moment.before,
      Moment.before, Moment.since_zoned]
  cases hopen : w.isEmpty with
  | true =>
    rw [expand_of_isEmpty (hempty.trans hopen), Except.ok.injEq] at h
    subst h
    have hnone : s.showsStart w = fun _ => false := by
      funext start
      rw [showsStart, hopen]
      rfl
    rw [hnone, List.filter_false]
    rfl
  | false =>
    rw [expand_eq_listPeriods hkind (hempty.trans hopen)] at h
    obtain ⟨duration, hduration⟩ := exists_duration_of_listPeriods h
    obtain ⟨hlisted, -⟩ := mapM_shown_of_listPeriods hkind (by decide) hduration h hcomplete
    have hat : s.occurrenceAt = Occurrence.startingAt duration := by
      funext start
      rw [occurrenceAt, hduration, ok_bind]
    have hshown : s.allStarts.filter (s.showsStart w) =
        s.allStarts.filter ((w.clip s).shows duration) := by
      apply List.filter_congr
      intro m hm
      rw [showsStart, hopen, hduration, clip_of_unbounded hfirst hlast, shows_zoned hm]
      rfl
    rw [hat, hshown]
    exact hlisted

/-- A window has those occurrences of a wider one that it shows. -/
theorem expand_of_within (hkind : s.kind ≠ .customWeekly) (hfirst : s.firstInstance = none)
    (hlast : s.lastInstance = none) (hwithin : w.Within wide s) (h : s.expand w cap = .ok e)
    (hcomplete : e.truncated = false) (h' : s.expand wide cap' = .ok e')
    (hcomplete' : e'.truncated = false) :
    e.occurrences = e'.occurrences.filter (fun o => s.showsStart w o.originalStart) := by
  -- both are listed start by start, so that it is enough to compare the starts
  have hshown := mapM_shown_of_expand hkind hfirst hlast h hcomplete
  have hshown' := mapM_shown_of_expand hkind hfirst hlast h' hcomplete'
  have hfilter : s.allStarts.filter (s.showsStart w) =
      (s.allStarts.filter (s.showsStart wide)).filter (s.showsStart w) := by
    rw [List.filter_filter]
    apply List.filter_congr
    intro m hm
    cases hnarrow : s.showsStart w m with
    | false => rfl
    | true =>
      rw [showsStart_of_within hwithin hkind hm hnarrow]
      rfl
  have hsame : ∀ start ∈ s.allStarts.filter (s.showsStart wide), ∀ o,
      s.occurrenceAt start = .ok o → s.showsStart w o.originalStart = s.showsStart w start := by
    intro start _ o ho
    obtain ⟨duration, finish, -, -, rfl⟩ := occurrenceAt_eq_ok_iff.mp ho
    rfl
  rw [hfilter, mapM_filter_eq_ok hsame hshown', Except.ok.injEq] at hshown
  exact hshown.symm

/-- No two occurrences of an expansion have the same key. -/
theorem nodup_keys_of_expand (hkind : s.kind ≠ .customWeekly) (h : s.expand w cap = .ok e) :
    (e.occurrences.map Occurrence.key).Nodup := by
  cases hcut : (w.clip s).isEmpty with
  | true =>
    rw [expand_of_isEmpty hcut, Except.ok.injEq] at h
    subst h
    exact List.nodup_nil
  | false =>
    rw [expand_eq_listPeriods hkind hcut] at h
    obtain ⟨duration, -, hlisted, -⟩ := listPeriods_spec hkind (by decide) h
    have hsublist : ((s.allStarts.filter ((w.clip s).shows duration)).take cap.toNat).Sublist
        s.allStarts :=
      (List.take_sublist _ _).trans List.filter_sublist
    -- one occurrence starts a day at the least after the one before
    have hascending := s.allStarts_ascending.imp_of_mem fun ha hb hlt =>
      Moment.epochKey_ne_of_dayNumber_lt
        ((alike_of_mem_allStarts hb).trans (alike_of_mem_allStarts ha).symm) hlt
    rw [map_eq_of_mapM_eq_ok (k := Moment.epochKey) ?_ hlisted, List.Nodup, List.pairwise_map]
    · exact hascending.sublist hsublist
    · intro start _ o ho
      obtain ⟨finish, -, rfl⟩ := Occurrence.startingAt_eq_ok_iff.mp ho
      rfl

end Series

/-! ## Events in two windows -/

/-- The event that a request makes of an occurrence. -/
def SeriesRequest.event (r : SeriesRequest) (o : Occurrence) : Except CalendarError EventInstance :=
  o.adjust (r.modifications.index.find? o.key) (some r.series) >>=
    EventInstance.ofOccurrence r.series

/-- A window shows the occurrence that an event was made of, where the series has it. -/
def Series.showsOriginal (s : Series) (w : Window) (i : EventInstance) : Bool :=
  s.showsStart w i.originalStart

namespace SeriesRequest

variable {r : SeriesRequest} {w wide : Window} {cap cap' : Int} {x x' : Share} {o : Occurrence}
  {i : EventInstance}

theorem event_eq_ok_iff : r.event o = .ok i ↔ ∃ o' after,
    o.adjust (r.modifications.index.find? o.key) (some r.series) = .ok o' ∧
      exclusiveEnd o'.finish r.series.allDay = .ok after ∧
      i = ⟨r.series.seriesId, o'.start, o'.finish, after, o'.originalStart, r.series.allDay, true,
        o'.state == .modified, o'.title.or r.series.title,
        o'.description.or r.series.description⟩ := by
  simp only [event, EventInstance.ofOccurrence, bind_eq_ok_iff, pure_eq_ok, Except.ok.injEq,
    eq_comm (b := i)]
  constructor
  · rintro ⟨o', ho', after, hafter, hi⟩
    exact ⟨o', after, ho', hafter, hi⟩
  · rintro ⟨o', after, ho', hafter, hi⟩
    exact ⟨o', ho', after, hafter, hi⟩

/-- An event remembers where the series has its occurrence. -/
theorem originalStart_of_event (h : r.event o = .ok i) : i.originalStart = o.originalStart := by
  obtain ⟨o', after, ho', -, rfl⟩ := event_eq_ok_iff.mp h
  exact Occurrence.originalStart_of_adjust ho'

/-- An event that is not modified takes place when its occurrence does. -/
theorem of_event_of_not_isModified (h : r.event o = .ok i) (hplain : i.isModified = false) :
    i.start = o.start ∧ i.finish = o.finish := by
  obtain ⟨o', after, ho', -, rfl⟩ := event_eq_ok_iff.mp h
  cases hfind : r.modifications.index.find? o.key with
  | none =>
    rw [hfind] at ho'
    cases ho'
    exact ⟨rfl, rfl⟩
  | some m =>
    rw [hfind] at ho'
    rw [Occurrence.state_of_merge ho'] at hplain
    cases hplain

/-- The events of a request are those of the occurrences that are not deleted. -/
theorem instances_of_share (hkind : r.series.kind ≠ .customWeekly) (h : r.share w cap = .ok x) :
    ∃ e, r.series.expand w cap = .ok e ∧ x.truncated = e.truncated ∧
      (e.occurrences.filter
        (·.key ∉ deletionKeys (ExceptionKey.distinct r.deletions))).mapM r.event =
          .ok x.instances := by
  obtain ⟨e, overlay, instances, he, hoverlay, hinstances, rfl⟩ := share_eq_ok_iff.mp h
  obtain ⟨p, hp, rfl⟩ := Overlay.apply_eq_ok_iff.mp hoverlay
  -- no other occurrence takes the modification under the key of one
  have hkept := Overlay.kept_applyFrom_of_nodup
    (deletionKeys (ExceptionKey.distinct r.deletions)) (some r.series) r.modifications.index
    (Series.nodup_keys_of_expand hkind he)
  rw [hp, ok_bind] at hkept
  exact ⟨e, he, rfl, mapM_bind_eq_ok hkept.symm hinstances⟩

theorem seriesId_eq_of_share (h : r.share w cap = .ok x) :
    ∀ a ∈ x.instances, ∀ b ∈ x.instances, a.seriesId = b.seriesId := by
  intro a ha b hb
  rw [seriesId_of_mem_instances h a ha, seriesId_of_mem_instances h b hb]

/-- A window shows an event that is not modified if it is open and the event overlaps it. -/
theorem showsOriginal_of_not_isModified (hkind : r.series.kind ≠ .customWeekly)
    (hfirst : r.series.firstInstance = none) (hlast : r.series.lastInstance = none)
    (h : r.share wide cap = .ok x) (hcomplete : x.truncated = false) (hi : i ∈ x.instances)
    (hplain : i.isModified = false) (w : Window) :
    r.series.showsOriginal w i = (!w.isEmpty && w.meets i) := by
  obtain ⟨e, he, htruncated, hevents⟩ := instances_of_share hkind h
  obtain ⟨o, ho, hevent⟩ := (mem_of_mapM_eq_ok hevents).mp hi
  obtain ⟨start, -, hat⟩ := (mem_of_mapM_eq_ok (Series.mapM_shown_of_expand hkind hfirst hlast he
    (htruncated.symm.trans hcomplete))).mp (List.mem_filter.mp ho).1
  have hstart : o.originalStart = start := by
    obtain ⟨duration, finish, -, -, rfl⟩ := Series.occurrenceAt_eq_ok_iff.mp hat
    rfl
  obtain ⟨hstarts, hends⟩ := of_event_of_not_isModified hevent hplain
  rw [Series.showsOriginal, originalStart_of_event hevent, hstart,
    Series.showsStart_of_occurrenceAt hat, Window.meets, hstarts, hends]

/-- In a window a request has those events that it has in a wider one and that the window shows. -/
theorem instances_of_within (hkind : r.series.kind ≠ .customWeekly)
    (hfirst : r.series.firstInstance = none) (hlast : r.series.lastInstance = none)
    (hwithin : w.Within wide r.series) (h : r.share w cap = .ok x) (hcomplete : x.truncated = false)
    (h' : r.share wide cap' = .ok x') (hcomplete' : x'.truncated = false) :
    x.instances = x'.instances.filter (r.series.showsOriginal w) := by
  obtain ⟨e, he, htruncated, hevents⟩ := instances_of_share hkind h
  obtain ⟨e', he', htruncated', hevents'⟩ := instances_of_share hkind h'
  -- what is deleted does not depend on the window, and what is shown not on the exceptions
  rw [Series.expand_of_within hkind hfirst hlast hwithin he (htruncated.symm.trans hcomplete) he'
    (htruncated'.symm.trans hcomplete'), List.filter_comm,
    mapM_filter_eq_ok (Q := r.series.showsOriginal w) ?_ hevents', Except.ok.injEq] at hevents
  · exact hevents.symm
  · intro o _ i hi
    rw [Series.showsOriginal, originalStart_of_event hi]

end SeriesRequest

/-! ## Events in order -/

namespace EventInstance

variable {a b : EventInstance} {events : List EventInstance}

/-- The starts of some events stand in one order: no three of them, of different zones, stand in a
    circle. -/
def Orderable (events : List EventInstance) : Prop :=
  ∀ a ∈ events, ∀ b ∈ events, ∀ c ∈ events,
    a.start.upTo b.start = true → b.start.upTo c.start = true → a.start.upTo c.start = true

/-- Starts that are held against each other on one scale stand in one order. -/
theorem orderable_of_orderedBy {rank : Moment → Int}
    (h : ∀ a ∈ events, ∀ b ∈ events, a.start.OrderedBy rank b.start) : Orderable events := by
  intro a ha b hb c hc hab hbc
  rw [(h a ha b hb).1] at hab
  rw [(h b hb c hc).1] at hbc
  exact (h a ha c hc).1.mpr (hab.trans hbc)

/-- It makes no difference whether some events of a series are left out before or after sorting. -/
theorem filter_sorted (hone : ∀ a ∈ events, ∀ b ∈ events, a.seriesId = b.seriesId)
    (horder : Orderable events) (P : EventInstance → Bool) :
    (sorted events).filter P = sorted (events.filter P) := by
  have hupTo {a b : EventInstance} (ha : a ∈ events) (hb : b ∈ events) :
      b.before a = false ↔ a.start.upTo b.start = true := by
    rw [← not_before_of_seriesId_eq (hone a ha b hb), Bool.not_eq_true']
  refine RunSort.filter_sort asymmetric_before (fun a ha b hb c hc hab hbc => ?_) P
  rw [hupTo ha hb] at hab
  rw [hupTo hb hc] at hbc
  exact (hupTo ha hc).mpr (horder a ha b hb c hc hab hbc)

end EventInstance

/-- Of three elements the middle one is put first if it comes before the first one. -/
theorem RunSort.sort_three {α : Type} {lt : α → α → Bool} {a b c : α} (hba : lt b a = true)
    (hcb : lt c b = false) (hca : lt c a = false) : sort lt [a, b, c] = [b, a, c] := by
  simp [sort, leastLength, nextRun, naturalRun, goingOn, insert, bisect, gather, Stack.merged,
    Stack.runs, mergeAll, hba, hcb, hca]

/-- Of four elements the last two are put first if both come before the first one. -/
theorem RunSort.sort_circle {α : Type} {lt : α → α → Bool} {a b c d : α} (hba : lt b a = false)
    (hcb : lt c b = true) (hca : lt c a = true) (hda : lt d a = true) (hdc : lt d c = false) :
    sort lt [a, b, c, d] = [c, d, a, b] := by
  simp [sort, leastLength, nextRun, naturalRun, goingOn, insert, bisect, gather, Stack.merged,
    Stack.runs, mergeAll, hba, hcb, hca, hda, hdc]

namespace Materialization

variable {r : SeriesRequest} {w wide : Window} {cap cap' : Int} {m m' : Materialization}

/-- A run of one request has the events of its share in order. -/
theorem exists_share_of_ofRequests (h : (ofRequests [r] w cap).outcome = .ok m)
    (hcomplete : m.truncatedSeries = []) : ∃ x, r.share w cap = .ok x ∧ x.truncated = false ∧
      m.instances = EventInstance.sorted x.instances := by
  obtain ⟨shares, hshares, rfl⟩ := ofRequests_eq_ok_iff.mp h
  obtain ⟨x, hx, rfl⟩ := mapM_singleton_eq_ok_iff.mp hshares
  refine ⟨x, hx, ?_, ?_⟩
  · rw [truncatedSeries_foldl_join] at hcomplete
    cases htruncated : x.truncated with
    | false => rfl
    | true => simp [htruncated] at hcomplete
  · rw [instances_foldl_join, List.flatMap_singleton]
    rfl

/-- A request shows in a window those events that it shows in a wider one and whose occurrences
    the window shows where the series has them; of events that are not modified, those that
    overlap it.  They stand in the same order if the starts stand in one order at all. -/
theorem ofRequests_within (hkind : r.series.kind ≠ .customWeekly)
    (hfirst : r.series.firstInstance = none) (hlast : r.series.lastInstance = none)
    (hwithin : w.Within wide r.series) (h : (ofRequests [r] w cap).outcome = .ok m)
    (hcomplete : m.truncatedSeries = []) (h' : (ofRequests [r] wide cap').outcome = .ok m')
    (hcomplete' : m'.truncatedSeries = []) :
    m.instances.Perm (m'.instances.filter (r.series.showsOriginal w)) ∧
    (EventInstance.Orderable m'.instances →
      m.instances = m'.instances.filter (r.series.showsOriginal w)) ∧
    ∀ i ∈ m'.instances, i.isModified = false →
      r.series.showsOriginal w i = (!w.isEmpty && w.meets i) := by
  obtain ⟨x, hx, htruncated, hinstances⟩ := exists_share_of_ofRequests h hcomplete
  obtain ⟨x', hx', htruncated', hinstances'⟩ := exists_share_of_ofRequests h' hcomplete'
  have hfilter := SeriesRequest.instances_of_within hkind hfirst hlast hwithin hx htruncated hx'
    htruncated'
  have hperm := EventInstance.sorted_perm x'.instances
  rw [hinstances, hinstances', hfilter]
  refine ⟨?_, ?_, ?_⟩
  · exact (EventInstance.sorted_perm _).trans (hperm.filter _).symm
  · intro horder
    rw [EventInstance.filter_sorted (SeriesRequest.seriesId_eq_of_share hx')]
    intro a ha b hb c hc
    exact horder a (hperm.mem_iff.mpr ha) b (hperm.mem_iff.mpr hb) c (hperm.mem_iff.mpr hc)
  · intro i hi hplain
    exact SeriesRequest.showsOriginal_of_not_isModified hkind hfirst hlast hx' htruncated'
      (hperm.mem_iff.mp hi) hplain w

/-- Where the events of a share start, and whether some may be missing. -/
def startsOfShare (x : Share) : List Moment × Bool := (x.instances.map (·.start), x.truncated)

/-- What a run of one request shows are the events of its share, in order. -/
theorem exists_ofRequests_of_share {starts : List Moment}
    (h : (r.share w cap).map startsOfShare = .ok (starts, false)) :
    ∃ m events, (ofRequests [r] w cap).outcome = .ok m ∧ m.truncatedSeries = [] ∧
      m.instances = EventInstance.sorted events ∧ events.map (·.start) = starts ∧
      ∀ a ∈ events, ∀ b ∈ events, a.seriesId = b.seriesId := by
  obtain ⟨x, hx, hstarts⟩ := map_eq_ok_iff.mp h
  rw [startsOfShare, Prod.mk.injEq] at hstarts
  refine ⟨_, x.instances, ofRequests_eq_ok_iff.mpr
    ⟨[x], mapM_singleton_eq_ok_iff.mpr ⟨x, hx, rfl⟩, rfl⟩, ?_, ?_, hstarts.1,
    SeriesRequest.seriesId_eq_of_share hx⟩
  · rw [truncatedSeries_foldl_join]
    simp [hstarts.2, empty]
  · rw [instances_foldl_join, List.flatMap_singleton]
    rfl

/-- What a run of one request shows starts where the events of its share start. -/
theorem exists_ofRequests_perm {starts : List Moment}
    (h : (r.share w cap).map startsOfShare = .ok (starts, false)) :
    ∃ m, (ofRequests [r] w cap).outcome = .ok m ∧ m.truncatedSeries = [] ∧
      (m.instances.map (·.start)).Perm starts := by
  obtain ⟨m, events, hm, hcomplete, hsorted, hstarts, -⟩ := exists_ofRequests_of_share h
  refine ⟨m, hm, hcomplete, ?_⟩
  rw [hsorted, ← hstarts]
  exact (EventInstance.sorted_perm events).map _

/-- The first Monday is left out, and the second one moves to a Saturday. -/
def saturdayInstead : SeriesRequest where
  series := mondays
  deletions := [.moment (.inJanuary 1 9)]
  modifications := .listed [⟨.inJanuary 8 9, some (.inJanuary 20 10), none, none, none⟩]

/-- The first four weeks of January 2024. -/
def fourWeeks : Window := ⟨.inJanuary 1 0, .inJanuary 29 0⟩

/-- In the first two weeks the event is shown that moves out of them. -/
theorem ofRequests_saturdayInstead_within :
    let w := fortnight 738885 (by decide)
    ∃ m m', (ofRequests [saturdayInstead] w 10).outcome = .ok m ∧
      (ofRequests [saturdayInstead] fourWeeks 10).outcome = .ok m' ∧ m'.instances.length = 3 ∧
      m.instances.map (·.start) = [.inJanuary 20 10] ∧
      m.instances = m'.instances.filter (saturdayInstead.series.showsOriginal w) := by
  intro w
  have hshare : (saturdayInstead.share w 10).map startsOfShare =
      .ok ([.inJanuary 20 10], false) := by decide +kernel
  have hshare' : (saturdayInstead.share fourWeeks 10).map startsOfShare =
      .ok ([.inJanuary 20 10, .inJanuary 15 9, .inJanuary 22 9], false) := by decide +kernel
  obtain ⟨m, hm, hcomplete, hstarts⟩ := exists_ofRequests_perm hshare
  obtain ⟨m', hm', hcomplete', hstarts'⟩ := exists_ofRequests_perm hshare'
  have hlength : m'.instances.length = 3 := by
    rw [← List.length_map (·.start), hstarts'.length_eq]
    rfl
  have hwithin : w.Within fourWeeks saturdayInstead.series :=
    ⟨⟨by decide, by decide, by decide⟩, .inl rfl⟩
  -- all of them start in universal time, which has them in one order
  have hfixed : ∀ i ∈ m'.instances, i.start.zone.isFixed = true := by
    intro i hi
    have hstart := List.mem_map_of_mem (f := fun i : EventInstance => i.start) hi
    rw [hstarts'.mem_iff] at hstart
    simp only [List.mem_cons, List.not_mem_nil, or_false] at hstart
    rcases hstart with hstart | hstart | hstart <;> rw [hstart] <;> rfl
  obtain ⟨-, hfilter, -⟩ := ofRequests_within (by decide) rfl rfl hwithin hm hcomplete hm'
    hcomplete'
  have horder : EventInstance.Orderable m'.instances :=
    EventInstance.orderable_of_orderedBy fun a ha _ _ => Moment.inStep_of_isFixed (hfixed a ha)
  exact ⟨m, m', hm, hm', hlength, List.perm_singleton.mp hstarts, hfilter horder⟩

/-- The first hour of every day in universal time, from the day on on which the clock is put back in
    Berlin. -/
def firstHours : Series where
  seriesId := "first hours"
  title := none
  description := none
  anchorStart := .inOctober 27 0
  anchorEnd := some (.inOctober 27 1)
  allDay := false
  kind := .daily
  weekdays := .empty
  firstInstance := none
  lastInstance := none
  zones := by decide
  ends := by decide
  bounds := by decide
  listed := by decide

section

variable {events : List EventInstance} {a b c d : Moment}
  (hone : ∀ a ∈ events, ∀ b ∈ events, a.seriesId = b.seriesId)

include hone

/-- Of three starts the middle one is put first if it comes before the first one. -/
theorem map_start_sorted_three (hstarts : events.map (·.start) = [a, b, c])
    (hab : a.upTo b = false) (hbc : b.upTo c = true) (hac : a.upTo c = true) :
    (EventInstance.sorted events).map (·.start) = [b, a, c] := by
  obtain ⟨x, l₁, rfl, rfl, h₁⟩ := List.map_eq_cons_iff.mp hstarts
  obtain ⟨y, l₂, rfl, rfl, h₂⟩ := List.map_eq_cons_iff.mp h₁
  obtain ⟨z, l₃, rfl, rfl, h₃⟩ := List.map_eq_cons_iff.mp h₂
  obtain rfl := List.map_eq_nil_iff.mp h₃
  rw [← EventInstance.not_before_of_seriesId_eq (hone _ (by simp) _ (by simp))] at hab hbc hac
  rw [EventInstance.sorted, RunSort.sort_three (by simpa using hab) (by simpa using hbc)
    (by simpa using hac)]
  rfl

/-- Of four starts the last two are put first if both come before the first one. -/
theorem map_start_sorted_circle (hstarts : events.map (·.start) = [a, b, c, d])
    (hab : a.upTo b = true) (hbc : b.upTo c = false) (hac : a.upTo c = false)
    (had : a.upTo d = false) (hcd : c.upTo d = true) :
    (EventInstance.sorted events).map (·.start) = [c, d, a, b] := by
  obtain ⟨x, l₁, rfl, rfl, h₁⟩ := List.map_eq_cons_iff.mp hstarts
  obtain ⟨y, l₂, rfl, rfl, h₂⟩ := List.map_eq_cons_iff.mp h₁
  obtain ⟨z, l₃, rfl, rfl, h₃⟩ := List.map_eq_cons_iff.mp h₂
  obtain ⟨u, l₄, rfl, rfl, h₄⟩ := List.map_eq_cons_iff.mp h₃
  obtain rfl := List.map_eq_nil_iff.mp h₄
  rw [← EventInstance.not_before_of_seriesId_eq (hone _ (by simp) _ (by simp))]
    at hab hbc hac had hcd
  rw [EventInstance.sorted, RunSort.sort_circle (by simpa using hab) (by simpa using hbc)
    (by simpa using hac) (by simpa using had) (by simpa using hcd)]
  rfl

end

/-- Four days in a row, all moved to the first of them, and three of them to starts that stand in a
    circle: two that Berlin's clock has the other way round, and one of another zone between
    them. -/
def circle : SeriesRequest where
  series := firstHours
  deletions := []
  modifications := .listed [
    ⟨.inOctober 27 0, some (.inBerlin 130 true), none, none, none⟩,
    ⟨.inOctober 28 0, some (.inBerlin 155 false), none, none, none⟩,
    ⟨.inOctober 29 0, some (.inBerlin 125 false), none, none, none⟩,
    ⟨.inOctober 30 0, some (.inOctober 27 1), none, none, none⟩]

/-- Not all that a window shows overlaps it: a modification may have moved it away.  A window can
    lie inside another one on their clock, and still begin earlier.  And where starts stand in a
    circle, their order depends on what else is shown. -/
theorem ofRequests_inside_ne_overlapping :
    (let r := saturdayInstead
     let w := fortnight 738885 (by decide)
     r.series.kind ≠ .customWeekly ∧ r.series.firstInstance = none ∧
      r.series.lastInstance = none ∧ w.Inside fourWeeks ∧
      ∃ m m', (ofRequests [r] w 10).outcome = .ok m ∧ m.truncatedSeries = [] ∧
        (ofRequests [r] fourWeeks 10).outcome = .ok m' ∧ m'.truncatedSeries = [] ∧
        m.instances ≠ m'.instances.filter w.meets) ∧
    (let r : SeriesRequest := ⟨firstHours, [], .none⟩
     let w : Window := ⟨.inBerlin 150 false, .inBerlin 720 false⟩
     let wide : Window := ⟨.inBerlin 150 true, .inBerlin 720 false⟩
     r.series.kind ≠ .customWeekly ∧ r.series.firstInstance = none ∧
      r.series.lastInstance = none ∧ w.Inside wide ∧
      ∃ m m', (ofRequests [r] w 10).outcome = .ok m ∧ m.truncatedSeries = [] ∧
        (ofRequests [r] wide 10).outcome = .ok m' ∧ m'.truncatedSeries = [] ∧
        m.instances ≠ m'.instances.filter w.meets) ∧
    (let r := circle
     let w : Window := ⟨.inOctober 28 0, .inOctober 30 12⟩
     let wide : Window := ⟨.inOctober 27 0, .inOctober 30 12⟩
     r.series.kind ≠ .customWeekly ∧ r.series.firstInstance = none ∧
      r.series.lastInstance = none ∧ w.Inside wide ∧
      ∃ m m', (ofRequests [r] w 10).outcome = .ok m ∧ m.truncatedSeries = [] ∧
        (ofRequests [r] wide 10).outcome = .ok m' ∧ m'.truncatedSeries = [] ∧
        ∀ shown, m.instances ≠ m'.instances.filter shown) := by
  refine ⟨⟨by decide, rfl, rfl, ⟨by decide, by decide, by decide⟩, ?_⟩,
    ⟨by decide, rfl, rfl, ⟨by decide, by decide, by decide⟩, ?_⟩,
    by decide, rfl, rfl, ⟨by decide, by decide, by decide⟩, ?_⟩
  · have hshare : (saturdayInstead.share (fortnight 738885 (by decide)) 10).map startsOfShare =
        .ok ([.inJanuary 20 10], false) := by decide +kernel
    have hshare' : (saturdayInstead.share fourWeeks 10).map startsOfShare =
        .ok ([.inJanuary 20 10, .inJanuary 15 9, .inJanuary 22 9], false) := by decide +kernel
    obtain ⟨m, hm, hcomplete, hstarts⟩ := exists_ofRequests_perm hshare
    obtain ⟨m', hm', hcomplete', -⟩ := exists_ofRequests_perm hshare'
    refine ⟨m, m', hm, hcomplete, hm', hcomplete', ?_⟩
    intro hsame
    -- the event that has moved starts after the first two weeks
    rw [hsame] at hstarts
    obtain ⟨i, hi, hstart⟩ := List.mem_map.mp (hstarts.mem_iff.mpr (List.mem_singleton_self _))
    have hlast := (Bool.and_eq_true_iff.mp (List.mem_filter.mp hi).2).2
    rw [hstart] at hlast
    exact absurd hlast (by decide)
  · have hshare : (SeriesRequest.share ⟨firstHours, [], .none⟩
        ⟨.inBerlin 150 false, .inBerlin 720 false⟩ 10).map startsOfShare =
          .ok ([.inOctober 27 0], false) := by decide +kernel
    have hshare' : (SeriesRequest.share ⟨firstHours, [], .none⟩
        ⟨.inBerlin 150 true, .inBerlin 720 false⟩ 10).map startsOfShare = .ok ([], false) := by
      decide +kernel
    obtain ⟨m, hm, hcomplete, hstarts⟩ := exists_ofRequests_perm hshare
    obtain ⟨m', hm', hcomplete', hstarts'⟩ := exists_ofRequests_perm hshare'
    refine ⟨m, m', hm, hcomplete, hm', hcomplete', ?_⟩
    intro hsame
    rw [hsame, List.map_eq_nil_iff.mp (List.perm_nil.mp hstarts')] at hstarts
    exact absurd hstarts.length_eq (by decide)
  · have hshare : (circle.share ⟨.inOctober 28 0, .inOctober 30 12⟩ 10).map startsOfShare =
        .ok ([.inBerlin 155 false, .inBerlin 125 false, .inOctober 27 1], false) := by
      decide +kernel
    have hshare' : (circle.share ⟨.inOctober 27 0, .inOctober 30 12⟩ 10).map startsOfShare =
        .ok ([.inBerlin 130 true, .inBerlin 155 false, .inBerlin 125 false, .inOctober 27 1],
          false) := by
      decide +kernel
    obtain ⟨m, events, hm, hcomplete, hsorted, hevents, hone⟩ := exists_ofRequests_of_share hshare
    obtain ⟨m', events', hm', hcomplete', hsorted', hevents', hone'⟩ :=
      exists_ofRequests_of_share hshare'
    have hstarts := map_start_sorted_three hone hevents (by decide) (by decide) (by decide)
    have hstarts' := map_start_sorted_circle hone' hevents' (by decide) (by decide) (by decide)
      (by decide) (by decide)
    rw [← hsorted] at hstarts
    rw [← hsorted'] at hstarts'
    refine ⟨m, m', hm, hcomplete, hm', hcomplete', ?_⟩
    intro shown hsame
    have hsublist : (m.instances.map (·.start)).Sublist (m'.instances.map (·.start)) := by
      rw [hsame]
      exact List.filter_sublist.map _
    rw [hstarts, hstarts'] at hsublist
    exact absurd hsublist (by decide)

end Materialization

end EventCalendar
