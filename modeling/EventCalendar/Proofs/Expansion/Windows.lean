/-
  EventCalendar.Proofs.Expansion.Windows

  One series in two windows.  What an expansion holds against the ends of its
  window is said once: the date-times that it comes by, and the ends of the
  occurrences there.  Period by period, a narrower window lists what is left of
  the list for a wider one.
-/

import EventCalendar.Proofs.Expansion.Periods
import EventCalendar.Proofs.Time.InStep

namespace EventCalendar

open EventCalendar.Time

/-! ## What is held against a window -/

/-- An expansion comes by a date-time: period by period by the starts, week by week by the Sundays
    and the listed days from the week of the anchor on. -/
def Series.Visits (s : Series) (m : Moment) : Prop :=
  if s.kind = .customWeekly then
    m.Alike s.start ∧ m.later = false ∧ s.start.wall.dayNumber < m.wall.dayNumber + 7 ∧
      (m.calendarWeekday = 1 ∨ m.calendarWeekday ∈ s.weekdays.days)
  else m ∈ s.allStarts

/-- A date-time that an expansion comes by, or the end of an occurrence there. -/
inductive Series.Passes (s : Series) : Moment → Prop
  | start {m : Moment} (h : s.Visits m) : s.Passes m
  | finish {m finish : Moment} {duration : Int} (h : s.Visits m)
      (hduration : s.duration = .ok duration) (hfinish : m.plus duration = .ok finish) :
      s.Passes finish

/-- The ends of a window are in step with each other and with all that they are held against. -/
structure Window.InStepWith (w : Window) (s : Series) : Prop where
  ends : w.first.InStep w.last
  passed : ∀ m, s.Passes m → m.InStep w.first ∧ m.InStep w.last

/-- The scale on which a bound is held against the date-times of a series: readings in the zone of
    the series, instants in any other. -/
def Series.rank (s : Series) (bound m : Moment) : Int :=
  if bound.zone = s.anchorStart.zone then m.wall.micros else m.instant

theorem Occurrence.startingAt_eq_ok_iff {duration : Int} {start : Moment} {o : Occurrence} :
    Occurrence.startingAt duration start = .ok o ↔
      ∃ finish, start.plus duration = .ok finish ∧ o = .plain start finish := by
  simp only [startingAt, bind_eq_ok_iff, pure_eq_ok, Except.ok.injEq, eq_comm (b := o)]

/-- If no occurrences are missing, there were not more of them than the cap allows. -/
theorem Expansion.more_eq_false {seriesId : String} {occurrences : List Occurrence} {more : Bool}
    (h : Expansion.truncated ⟨seriesId, occurrences, if more then .capped else .complete⟩ = false) :
    more = false := by
  cases more with
  | false => rfl
  | true => cases h

namespace Series

variable {s : Series} {duration : Int} {w w' : Window} {m start finish bound : Moment}

theorem Visits.alike (h : s.Visits m) : m.Alike s.start := by
  unfold Visits at h
  split at h
  · exact h.1
  · exact alike_of_mem_allStarts h

theorem visits_of_mem_allStarts (hkind : s.kind ≠ .customWeekly) (h : m ∈ s.allStarts) :
    s.Visits m := by
  rw [Visits, if_neg hkind]
  exact h

theorem Passes.zone (h : s.Passes m) : m.zone = s.anchorStart.zone := by
  cases h with
  | start h => exact h.alike.1.trans s.zone_start
  | finish h _ hfinish =>
    rw [(Moment.plus_eq_ok_iff.mp hfinish).2.2]
    exact h.alike.1.trans s.zone_start

theorem zoned_of_zone_eq (s : Series) (h : m.zone = s.anchorStart.zone) : m.zoned = m := by
  have hzoned := s.zones s.anchorStart List.mem_cons_self
  rw [Moment.isZoned, bne_iff_ne, ← h] at hzoned
  exact Moment.zoned_of_zone_ne hzoned

theorem since_zoned_of_zone_eq (s : Series) (h : m.zone = s.anchorStart.zone) (t : Moment) :
    m.since t.zoned = m.since t := by
  have hzoned := Moment.since_zoned m t
  rwa [s.zoned_of_zone_eq h] at hzoned

theorem rank_of_zone_eq (h : bound.zone = s.anchorStart.zone) :
    s.rank bound = fun m => (m.wall.micros : Int) := by
  funext m
  rw [rank, if_pos h]

theorem rank_of_zone_ne (h : bound.zone ≠ s.anchorStart.zone) : s.rank bound = Moment.instant := by
  funext m
  rw [rank, if_neg h]

/-- What an expansion passes is held against the date-times of a zone on the scale of that zone. -/
theorem Passes.orderedBy_rank {t : Moment} (h : s.Passes m) (ht : t.zone = bound.zone) :
    m.OrderedBy (s.rank bound) t := by
  by_cases hzone : bound.zone = s.anchorStart.zone
  · rw [rank_of_zone_eq hzone]
    exact Moment.orderedBy_micros (h.zone.trans (ht.trans hzone).symm)
  · rw [rank_of_zone_ne hzone]
    exact Moment.inStep_of_zone_ne fun hm => hzone (ht.symm.trans (hm.symm.trans h.zone))

/-- In the zone of the series, or in step with it, a window and a bound are held against the
    occurrences on one scale. -/
theorem orderedBy_rank (hfirst : w.first.zone = s.anchorStart.zone)
    (hlast : w.last.zone = s.anchorStart.zone)
    (hbound : bound.zone = s.anchorStart.zone ∨ w.InStepWith s) :
    w.first.OrderedBy (s.rank bound) w.last ∧ bound.OrderedBy (s.rank bound) w.first ∧
      bound.OrderedBy (s.rank bound) w.last ∧
      ∀ m, s.Passes m → m.OrderedBy (s.rank bound) bound ∧
        m.OrderedBy (s.rank bound) w.first ∧ m.OrderedBy (s.rank bound) w.last := by
  by_cases hzone : bound.zone = s.anchorStart.zone
  · -- all of them are readings of one zone
    rw [rank_of_zone_eq hzone]
    refine ⟨Moment.orderedBy_micros (hfirst.trans hlast.symm),
      Moment.orderedBy_micros (hzone.trans hfirst.symm),
      Moment.orderedBy_micros (hzone.trans hlast.symm), ?_⟩
    intro m hm
    exact ⟨Moment.orderedBy_micros (hm.zone.trans hzone.symm),
      Moment.orderedBy_micros (hm.zone.trans hfirst.symm),
      Moment.orderedBy_micros (hm.zone.trans hlast.symm)⟩
  · have hstep := hbound.resolve_left hzone
    rw [rank_of_zone_ne hzone]
    refine ⟨hstep.ends, Moment.inStep_of_zone_ne fun h => hzone (h.trans hfirst),
      Moment.inStep_of_zone_ne fun h => hzone (h.trans hlast), ?_⟩
    intro m hm
    exact ⟨Moment.inStep_of_zone_ne fun h => hzone (h.symm.trans hm.zone), hstep.passed m hm⟩

/-! ## A night in Berlin -/

/-- Ten minutes every night from 2:35 on, from the night on in which the clock is put back. -/
def nightly : Series where
  seriesId := "nightly"
  title := none
  description := none
  anchorStart := .inBerlin 155 false
  anchorEnd := some (.inBerlin 165 false)
  allDay := false
  kind := .daily
  weekdays := .empty
  firstInstance := none
  lastInstance := none
  zones := by decide
  ends := by decide
  bounds := by decide
  listed := by decide

/-! ## Empty windows -/

variable {cap budget : Int} {e e' : Expansion}

theorem expand_of_isEmpty (h : (w.clip s).isEmpty = true) :
    s.expand w cap = .ok ⟨s.seriesId, [], .emptyWindow⟩ := by
  simp [expand, expandWithin, h]

theorem isEmpty_clip_of_mem (h : s.expand w cap = .ok e) {o : Occurrence}
    (ho : o ∈ e.occurrences) : (w.clip s).isEmpty = false := by
  rw [← Bool.not_eq_true]
  intro hnothing
  rw [expand_of_isEmpty hnothing, Except.ok.injEq] at h
  subst h
  cases ho

/-! ## Period by period -/

/-- A list is made in two parts: the window is entered, and the starts are listed from there. -/
theorem listPeriods_cases (hkind : s.kind ≠ .customWeekly) (hbudget : 20 ≤ budget)
    (h : s.listPeriods w cap budget = .ok e) : ∃ duration start occurrences more,
      s.duration = .ok duration ∧ s.enter duration w.first budget.toNat = .ok (some start) ∧
      s.pattern.list duration w.last cap.toNat start = .ok (occurrences, more) ∧
      e = ⟨s.seriesId, occurrences, if more then .capped else .complete⟩ := by
  unfold listPeriods at h
  obtain ⟨duration, hduration, h⟩ := bind_eq_ok_iff.mp h
  obtain ⟨result, henter, h⟩ := bind_eq_ok_iff.mp h
  obtain ⟨start, -, -, rfl, -⟩ :=
    allStarts_of_enter hkind (show 20 ≤ budget.toNat by omega) henter
  obtain ⟨⟨occurrences, more⟩, hlist, h⟩ := bind_eq_ok_iff.mp h
  cases h
  exact ⟨duration, start, occurrences, more, hduration, henter, hlist, rfl⟩

theorem listPeriods_of_enter {occurrences : List Occurrence} {more : Bool}
    (hduration : s.duration = .ok duration)
    (henter : s.enter duration w.first budget.toNat = .ok (some start))
    (hlist : s.pattern.list duration w.last cap.toNat start = .ok (occurrences, more)) :
    s.listPeriods w cap budget =
      .ok ⟨s.seriesId, occurrences, if more then .capped else .complete⟩ := by
  unfold listPeriods
  rw [hduration, ok_bind, henter, ok_bind]
  show (s.pattern.list duration w.last cap.toNat start >>= _) = _
  rw [hlist]
  rfl

/-- If none are missing, the occurrences are those of all starts that the window shows. -/
theorem mapM_shown_of_listPeriods (hkind : s.kind ≠ .customWeekly) (hbudget : 20 ≤ budget)
    (hduration : s.duration = .ok duration) (h : s.listPeriods w cap budget = .ok e)
    (hcomplete : e.truncated = false) :
    (s.allStarts.filter (w.shows duration)).mapM (Occurrence.startingAt duration) =
        .ok e.occurrences ∧
      (s.allStarts.filter (w.shows duration)).length ≤ cap.toNat := by
  obtain ⟨duration', hduration', hlisted, hmore⟩ := listPeriods_spec hkind hbudget h
  rw [hduration, Except.ok.injEq] at hduration'
  subst hduration'
  have hlength : (s.allStarts.filter (w.shows duration)).length ≤ cap.toNat := by
    rw [hcomplete] at hmore
    simpa using hmore
  rw [List.take_of_length_le hlength] at hlisted
  exact ⟨hlisted, hlength⟩

theorem exists_duration_of_listPeriods (h : s.listPeriods w cap budget = .ok e) :
    ∃ duration, s.duration = .ok duration := by
  unfold listPeriods at h
  obtain ⟨duration, hduration, -⟩ := bind_eq_ok_iff.mp h
  exact ⟨duration, hduration⟩

/-- If a window shows of the starts that another one shows those that pass a test, it has the
    occurrences that do. -/
theorem listPeriods_filter {P : Moment → Bool} {Q : Occurrence → Bool}
    (hkind : s.kind ≠ .customWeekly) (hbudget : 20 ≤ budget)
    (hduration : s.duration = .ok duration)
    (hsame : ∀ start o, Occurrence.startingAt duration start = .ok o → Q o = P start)
    (hshows : ∀ m ∈ s.allStarts, w'.shows duration m = (w.shows duration m && P m))
    (h : s.listPeriods w cap budget = .ok e) (hcomplete : e.truncated = false)
    (h' : s.listPeriods w' cap budget = .ok e') :
    e'.truncated = false ∧ e'.occurrences = e.occurrences.filter Q := by
  obtain ⟨hlisted, hlength⟩ := mapM_shown_of_listPeriods hkind hbudget hduration h hcomplete
  obtain ⟨duration', hduration', hlisted', hmore'⟩ := listPeriods_spec hkind hbudget h'
  rw [hduration, Except.ok.injEq] at hduration'
  subst hduration'
  have hfilter : s.allStarts.filter (w'.shows duration) =
      (s.allStarts.filter (w.shows duration)).filter P := by
    rw [List.filter_filter]
    apply List.filter_congr
    intro m hm
    rw [hshows m hm, Bool.and_comm]
  -- there are no more starts than before, so that the cap leaves none of them out
  have hless : (s.allStarts.filter (w'.shows duration)).length ≤ cap.toNat := by
    rw [hfilter]
    exact Nat.le_trans (List.length_filter_le _ _) hlength
  constructor
  · rw [← Bool.not_eq_true, hmore']
    omega
  · rw [List.take_of_length_le hless, hfilter,
      mapM_filter_eq_ok (fun m _ o ho => hsame m o ho) hlisted, Except.ok.injEq] at hlisted'
    exact hlisted'.symm

/-- An occurrence that has not ended before a window and starts by its end. -/
structure IsShown (s : Series) (w : Window) (o : Occurrence) : Prop where
  visits : s.Visits o.start
  finish : ∃ duration, s.duration = .ok duration ∧ o.start.plus duration = .ok o.finish
  first : o.finish.before w.first = false
  last : o.start.upTo w.last = true

theorem isShown_of_listPeriods (hkind : s.kind ≠ .customWeekly) (hbudget : 20 ≤ budget)
    (h : s.listPeriods w cap budget = .ok e) : ∀ o ∈ e.occurrences, s.IsShown w o := by
  obtain ⟨duration, hduration, hlisted, -⟩ := listPeriods_spec hkind hbudget h
  intro o ho
  obtain ⟨start, hstart, hplain⟩ := (mem_of_mapM_eq_ok hlisted).mp ho
  obtain ⟨hmem, hshows⟩ := List.mem_filter.mp (List.mem_of_mem_take hstart)
  obtain ⟨finish, hfinish, rfl⟩ := Occurrence.startingAt_eq_ok_iff.mp hplain
  rw [Window.shows, Moment.endsBefore_of_plus hfinish, Bool.and_eq_true,
    Bool.not_eq_true'] at hshows
  exact ⟨visits_of_mem_allStarts hkind hmem, ⟨duration, hduration, hfinish⟩, hshows.1, hshows.2⟩

end Series

/-- Listing returns with an earlier end if it does with a later one. -/
theorem Pattern.exists_list_of_earlier {p : Pattern} {duration : Int} {last last' cursor : Moment}
    {room : Nat} {occurrences : List Occurrence} {more : Bool}
    (hearlier : ∀ m ∈ p.startsFrom cursor, m.upTo last' = true → m.upTo last = true)
    (h : p.list duration last room cursor = .ok (occurrences, more)) :
    ∃ r, p.list duration last' room cursor = .ok r := by
  induction room generalizing cursor occurrences more with
  | zero =>
    unfold list
    split
    · exact ⟨_, rfl⟩
    · exact ⟨_, rfl⟩
  | succ room ih =>
    cases hstop : cursor.upTo last' with
    | false =>
      unfold list
      rw [hstop]
      exact ⟨_, rfl⟩
    | true =>
      -- both go on to the next start
      have hcursor := hearlier cursor (p.cursor_mem_startsFrom cursor) hstop
      unfold list at h ⊢
      rw [hcursor] at h
      rw [hstop]
      obtain ⟨finish, hfinish, h⟩ := bind_eq_ok_iff.mp h
      obtain ⟨next, hnext, h⟩ := bind_eq_ok_iff.mp h
      obtain ⟨⟨rest, more'⟩, hrest, -⟩ := bind_eq_ok_iff.mp h
      have hstarts := startsFrom_of_step_ok hnext
      obtain ⟨⟨rest', more''⟩, hrest'⟩ := ih (fun m hm => hearlier m (by
        rw [hstarts]
        exact List.mem_cons_of_mem _ hm)) hrest
      refine ⟨(.plain cursor finish :: rest', more''), ?_⟩
      show (cursor.plus duration >>= _) = _
      rw [hfinish, ok_bind, hnext, ok_bind, hrest']
      rfl

/-- A window that ends earlier is listed if a later one is. -/
theorem Series.exists_listPeriods_of_earlier {s : Series} {w : Window} {last : Moment}
    {cap budget : Int} {e : Expansion} (hkind : s.kind ≠ .customWeekly) (hbudget : 20 ≤ budget)
    (hearlier : ∀ m ∈ s.allStarts, m.upTo last = true → m.upTo w.last = true)
    (h : s.listPeriods w cap budget = .ok e) :
    ∃ e', s.listPeriods { w with last } cap budget = .ok e' := by
  obtain ⟨duration, start, occurrences, more, hduration, henter, hlist, -⟩ :=
    listPeriods_cases hkind hbudget h
  obtain ⟨_, before, _, hstart, hsplit, -⟩ :=
    allStarts_of_enter hkind (show 20 ≤ budget.toNat by omega) henter
  cases hstart
  have hfrom : ∀ m ∈ s.pattern.startsFrom start, m.upTo last = true → m.upTo w.last = true := by
    intro m hm
    apply hearlier
    rw [hsplit]
    exact List.mem_append_right _ hm
  obtain ⟨⟨occurrences', more'⟩, hlist'⟩ := Pattern.exists_list_of_earlier hfrom hlist
  exact ⟨_, listPeriods_of_enter hduration henter hlist'⟩

/-! ## Windows that begin later -/

/-- Between two date-times that a duration does not lead out of the calendar it leads out of it
    nowhere. -/
theorem Time.Moment.exists_plus_of_between {a b c before after : Moment} {duration : Int}
    (ha : a.plus duration = .ok before) (hc : c.plus duration = .ok after)
    (hab : a.wall.micros ≤ b.wall.micros) (hbc : b.wall.micros ≤ c.wall.micros) :
    ∃ ending, b.plus duration = .ok ending := by
  have hlow := Moment.exists_plus_eq_ok_iff.mp ⟨before, ha⟩
  have hhigh := Moment.exists_plus_eq_ok_iff.mp ⟨after, hc⟩
  apply Moment.exists_plus_eq_ok_iff.mpr
  omega

namespace Pattern

variable {p : Pattern} {duration : Int} {first last cursor m : Moment}

theorem micros_le_of_mem_startsFrom (h : m ∈ p.startsFrom cursor) :
    cursor.wall.micros ≤ m.wall.micros := by
  have hday := le_of_mem_startsFrom (f := fun m => m.wall.dayNumber)
    (fun _ _ hstep => Nat.le_of_lt (step_spec hstep).1) h
  exact (alike_of_mem_startsFrom h).1.symm.micros_add_le (show _ + 0 ≤ _ from hday)

/-- Skipping returns if there is a start ahead whose occurrence has not ended before the window. -/
theorem exists_skip_eq_ok {budget : Nat} {ending finish : Moment} (hm : m ∈ p.startsFrom cursor)
    (hending : m.plus duration = .ok ending) (hopen : ending.before first = false)
    (hfinish : cursor.plus duration = .ok finish) :
    ∃ result, p.skip duration first budget cursor = .ok result := by
  induction budget generalizing cursor finish with
  | zero =>
    unfold skip
    rw [hfinish, ok_bind]
    split
    · exact ⟨_, rfl⟩
    · exact ⟨_, rfl⟩
  | succ budget ih =>
    unfold skip
    rw [hfinish, ok_bind]
    cases hbefore : finish.before first with
    | false => exact ⟨_, rfl⟩
    | true =>
      -- the start is still ahead
      cases hstep : p.step cursor with
      | error e =>
        rw [startsFrom_of_step_error hstep, List.mem_singleton] at hm
        subst hm
        rw [hfinish, Except.ok.injEq] at hending
        rw [← hending, hbefore] at hopen
        cases hopen
      | ok next =>
        rw [startsFrom_of_step_ok hstep, List.mem_cons] at hm
        rcases hm with rfl | hm
        · rw [hfinish, Except.ok.injEq] at hending
          rw [← hending, hbefore] at hopen
          cases hopen
        · have hnext : next ∈ p.startsFrom cursor := by
            rw [startsFrom_of_step_ok hstep]
            exact List.mem_cons_of_mem _ (p.cursor_mem_startsFrom next)
          obtain ⟨finish', hfinish'⟩ := Moment.exists_plus_of_between hfinish hending
            (micros_le_of_mem_startsFrom hnext) (micros_le_of_mem_startsFrom hm)
          exact ih hm hfinish'

theorem upTo_of_mem_startsFrom (hm : m ∈ p.startsFrom cursor) (h : m.upTo last = true) :
    cursor.upTo last = true := by
  have hascending := p.startsFrom_ascending cursor
  rw [startsFrom, List.pairwise_cons] at hascending
  rw [startsFrom, List.mem_cons] at hm
  rcases hm with rfl | hm
  · exact h
  · exact Moment.upTo_of_dayNumber_lt
      (alike_of_mem_startsFrom (List.mem_cons_of_mem cursor hm)).1 (hascending.1 m hm) h

theorem list_of_after {room : Nat} (h : cursor.upTo last = false) :
    p.list duration last room cursor = .ok ([], false) := by
  unfold list
  rw [h]
  rfl

/-- Without gaps, a list returns from a later start on if it does from an earlier one. -/
theorem exists_list_of_mem {room room' : Nat} {occurrences : List Occurrence}
    (hm : m ∈ p.startsFrom cursor) (hroom : room ≤ room')
    (h : p.list duration last room cursor = .ok (occurrences, false)) :
    ∃ occurrences', p.list duration last room' m = .ok (occurrences', false) := by
  -- the list from the earlier start is walked until it comes to the later one
  induction room generalizing cursor m room' occurrences with
  | zero =>
    unfold list at h
    cases hm' : m.upTo last with
    | false => exact ⟨[], list_of_after hm'⟩
    | true =>
      rw [upTo_of_mem_startsFrom hm hm'] at h
      cases h
  | succ room ih =>
    cases hm' : m.upTo last with
    | false => exact ⟨[], list_of_after hm'⟩
    | true =>
      unfold list at h
      rw [upTo_of_mem_startsFrom hm hm'] at h
      obtain ⟨finish, hfinish, h⟩ := bind_eq_ok_iff.mp h
      obtain ⟨next, hnext, h⟩ := bind_eq_ok_iff.mp h
      obtain ⟨⟨rest, more⟩, hrest, h⟩ := bind_eq_ok_iff.mp h
      cases h
      rw [startsFrom_of_step_ok hnext, List.mem_cons] at hm
      rcases hm with rfl | hm
      · obtain ⟨room', rfl⟩ : ∃ n, room' = n + 1 := ⟨room' - 1, by omega⟩
        obtain ⟨rest', hrest'⟩ := ih (p.cursor_mem_startsFrom next)
          (show room ≤ room' by omega) hrest
        refine ⟨.plain m finish :: rest', ?_⟩
        unfold list
        rw [hm']
        show (m.plus duration >>= _) = _
        rw [hfinish, ok_bind, hnext, ok_bind, hrest']
        rfl
      · exact ih hm (by omega) hrest

end Pattern

namespace Series

variable {s : Series} {w : Window} {first m : Moment} {duration cap budget : Int} {e : Expansion}

/-- A jump leaves out no start that lies at most four hours before its target, or after it. -/
theorem mem_startsFrom_of_jump {cursor target landing : Moment} (hkind : s.kind ≠ .customWeekly)
    (hcursor : s.firstStart = .ok cursor) (hlanding : s.pattern.jump cursor target = .ok landing)
    (hm : m ∈ s.allStarts) (hnear : target.since m ≤ 4 * microsPerHour) :
    landing ∈ s.pattern.startsFrom cursor ∧ m ∈ s.pattern.startsFrom landing := by
  obtain ⟨before, hjump, hleft⟩ := Pattern.jump_spec hkind s.start.date.day_pos
    (fun hcount => fits_of_firstStart hcursor hcount) hlanding
  rw [allStarts_of_firstStart hcursor, hjump, List.mem_append] at hm
  constructor
  · rw [hjump]
    exact List.mem_append_right _ (s.pattern.cursor_mem_startsFrom landing)
  · apply hm.resolve_left
    intro hgone
    have hfar := hleft m hgone
    omega

/-- Whatever the zones, a window is entered if there is an occurrence that has not ended before it:
    where the first one has, a place that long before the window is all that it takes. -/
theorem exists_enter_eq_ok {cursor ending finish : Moment} (steps : Nat)
    (hkind : s.kind ≠ .customWeekly) (hzoned : first.isZoned = true) (hm : m ∈ s.allStarts)
    (hending : m.plus duration = .ok ending) (hopen : ending.before first = false)
    (hcursor : s.firstStart = .ok cursor) (hfinish : cursor.plus duration = .ok finish)
    (htarget : finish.before first = true → ∃ target, first.plus (-duration) = .ok target) :
    ∃ result, s.enter duration first steps = .ok result := by
  have hfrom : m ∈ s.pattern.startsFrom cursor := by rwa [← allStarts_of_firstStart hcursor]
  unfold enter
  rw [hcursor, ok_bind, hfinish, ok_bind]
  cases hbefore : finish.before first with
  | false => exact Pattern.exists_skip_eq_ok hfrom hending hopen hfinish
  | true =>
    obtain ⟨target, htarget⟩ := htarget hbefore
    have hnear : target.since m ≤ 4 * microsPerHour := by
      have hsince := (Moment.since_plus_bounds hending htarget).1
      rw [Moment.before_eq_not_upTo, Bool.not_eq_false', Moment.upTo, decide_eq_true_eq] at hopen
      omega
    have hcomparable : cursor.comparable target = true := by
      have hseries := s.zones s.anchorStart List.mem_cons_self
      have halike := Pattern.alike_of_mem_startsFrom hfrom
      have hzone : cursor.zone = s.anchorStart.zone :=
        halike.1.1.symm.trans ((alike_of_mem_allStarts hm).1.trans s.zone_start)
      simp only [Moment.comparable, Moment.isZoned, hzone,
        (Moment.plus_eq_ok_iff.mp htarget).2.2] at hzoned hseries ⊢
      rw [hzoned, hseries]
      rfl
    obtain ⟨landing, hlanding⟩ := Pattern.exists_jump_eq_ok hkind s.start.date.day_pos
      hcomparable hfrom hnear
    obtain ⟨hmem, hahead⟩ := mem_startsFrom_of_jump hkind hcursor hlanding hm hnear
    obtain ⟨finish', hfinish'⟩ := Moment.exists_plus_of_between hfinish hending
      (Pattern.micros_le_of_mem_startsFrom hmem) (Pattern.micros_le_of_mem_startsFrom hahead)
    obtain ⟨result, hresult⟩ := Pattern.exists_skip_eq_ok hahead hending hopen hfinish'
    refine ⟨result, ?_⟩
    show (first.plus (-duration) >>= _) = _
    rw [htarget, ok_bind, hlanding, ok_bind]
    exact hresult

/-- In the zone of the series a window is entered that begins up to a start. -/
theorem exists_enter_of_zone_eq {cursor ending finish : Moment} (steps : Nat)
    (hkind : s.kind ≠ .customWeekly) (hnonneg : 0 ≤ duration)
    (hzone : first.zone = s.anchorStart.zone) (hm : m ∈ s.allStarts)
    (hending : m.plus duration = .ok ending) (hreach : first.wall.micros ≤ m.wall.micros)
    (hcursor : s.firstStart = .ok cursor) (hfinish : cursor.plus duration = .ok finish) :
    ∃ result, s.enter duration first steps = .ok result := by
  have hzoned := s.zones s.anchorStart List.mem_cons_self
  rw [Moment.isZoned, ← hzone] at hzoned
  have hmZone : m.zone = first.zone :=
    ((alike_of_mem_allStarts hm).1.trans s.zone_start).trans hzone.symm
  have hopen : ending.before first = false := by
    obtain ⟨hendingMicros, -, hendingZone⟩ := Moment.plus_eq_ok_iff.mp hending
    rw [Moment.before, Moment.since_of_zone_eq (hendingZone.trans hmZone),
      decide_eq_false_iff_not]
    omega
  refine exists_enter_eq_ok steps hkind hzoned hm hending hopen hcursor hfinish fun hbefore => ?_
  -- the target lies between the first start and the window
  have hcursorZone : cursor.zone = first.zone := by
    rw [allStarts_of_firstStart hcursor] at hm
    exact (Pattern.alike_of_mem_startsFrom hm).1.1.symm.trans hmZone
  obtain ⟨hfinishMicros, -, hfinishZone⟩ := Moment.plus_eq_ok_iff.mp hfinish
  rw [Moment.before, Moment.since_of_zone_eq (hfinishZone.trans hcursorZone),
    decide_eq_true_eq] at hbefore
  have hcalendar := first.wall.inCalendar
  exact Moment.exists_plus_eq_ok_iff.mpr
    ⟨show 0 ≤ first.wall.micros + -duration by omega,
      show first.wall.micros + -duration < calendarMicros by omega⟩

theorem exists_firstStart_of_enter {steps : Nat} {result : Option Moment}
    (h : s.enter duration first steps = .ok result) :
    ∃ cursor finish, s.firstStart = .ok cursor ∧ cursor.plus duration = .ok finish ∧
      (finish.before first = true → ∃ target, first.plus (-duration) = .ok target) := by
  unfold enter at h
  obtain ⟨cursor, hcursor, h⟩ := bind_eq_ok_iff.mp h
  obtain ⟨finish, hfinish, h⟩ := bind_eq_ok_iff.mp h
  refine ⟨cursor, finish, hcursor, hfinish, fun hbefore => ?_⟩
  rw [if_pos hbefore] at h
  obtain ⟨target, htarget, -⟩ := bind_eq_ok_iff.mp h
  exact ⟨target, htarget⟩

/-- Entering a window leaves out no start whose occurrence has not ended before it. -/
theorem mem_startsFrom_of_enter {start : Moment} (hkind : s.kind ≠ .customWeekly)
    (hbudget : 20 ≤ budget) (h : s.enter duration first budget.toNat = .ok (some start))
    (hm : m ∈ s.allStarts) (hopen : m.endsBefore duration first = false) :
    m ∈ s.pattern.startsFrom start := by
  obtain ⟨_, before, _, hstart, hsplit, hended, -⟩ :=
    allStarts_of_enter hkind (show 20 ≤ budget.toNat by omega) h
  cases hstart
  rw [hsplit, List.mem_append] at hm
  apply hm.resolve_left
  intro hgone
  rw [hended m hgone] at hopen
  cases hopen

/-- In the zone of the series a window that begins later is listed if an earlier one is, unless it
    begins after all occurrences. -/
theorem exists_listPeriods_of_later (hkind : s.kind ≠ .customWeekly) (hbudget : 20 ≤ budget)
    (h : s.listPeriods w cap budget = .ok e) (hcomplete : e.truncated = false)
    (hzone : w.first.zone = s.anchorStart.zone) (hzone' : first.zone = s.anchorStart.zone)
    (hle : w.first.wall.micros ≤ first.wall.micros) (hduration : s.duration = .ok duration)
    (hnonneg : 0 ≤ duration) (hm : m ∈ s.allStarts) (hshown : w.shows duration m = true)
    (hreach : first.wall.micros ≤ m.wall.micros) :
    ∃ e', s.listPeriods { w with first } cap budget = .ok e' := by
  have hlisted := (mapM_shown_of_listPeriods hkind hbudget hduration h hcomplete).1
  obtain ⟨o, ho⟩ := exists_mapM_eq_ok_iff.mp ⟨_, hlisted⟩ m (List.mem_filter.mpr ⟨hm, hshown⟩)
  obtain ⟨ending, hending, -⟩ := Occurrence.startingAt_eq_ok_iff.mp ho
  obtain ⟨duration', start, occurrences, more, hduration', henter, hlist, rfl⟩ :=
    listPeriods_cases hkind hbudget h
  rw [hduration, Except.ok.injEq] at hduration'
  subst hduration'
  rw [Expansion.more_eq_false hcomplete] at hlist
  obtain ⟨cursor, finish, hcursor, hfinish, -⟩ := exists_firstStart_of_enter henter
  obtain ⟨result, henter'⟩ := exists_enter_of_zone_eq budget.toNat hkind hnonneg hzone' hm
    hending hreach hcursor hfinish
  obtain ⟨start', before, finish', rfl, hsplit, -, hfinish', hopen⟩ :=
    allStarts_of_enter hkind (show 20 ≤ budget.toNat by omega) henter'
  have hmem : start' ∈ s.allStarts :=
    hsplit ▸ List.mem_append_right _ (s.pattern.cursor_mem_startsFrom start')
  -- an occurrence that has not ended before the later window has not ended before the earlier one
  have hopen' : start'.endsBefore duration w.first = false := by
    have hfinishZone := (Moment.plus_eq_ok_iff.mp hfinish').2.2.trans
      ((alike_of_mem_allStarts hmem).1.trans s.zone_start)
    rw [Moment.before, Moment.since_of_zone_eq (hfinishZone.trans hzone'.symm),
      decide_eq_false_iff_not] at hopen
    rw [Moment.endsBefore_of_plus hfinish', Moment.before,
      Moment.since_of_zone_eq (hfinishZone.trans hzone.symm), decide_eq_false_iff_not]
    omega
  have hahead := mem_startsFrom_of_enter hkind hbudget henter hmem hopen'
  obtain ⟨occurrences', hlist'⟩ := Pattern.exists_list_of_mem hahead (Nat.le_refl _) hlist
  exact ⟨_, listPeriods_of_enter hduration henter' hlist'⟩

end Series

end EventCalendar
