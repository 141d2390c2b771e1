/-
  EventCalendar.Proofs.Expansion.Anchor

  The anchor of a series in its own expansion.  A window that holds it shows it
  first.  Its end is a sum on the wall clock, which leads back to the end that
  was given unless the clock is put forward or back on the way.
-/

import EventCalendar.Proofs.Expansion.Spans
import EventCalendar.Proofs.Lattice.Days

namespace EventCalendar

open EventCalendar.Time

/-! ## Readings -/

namespace Time.Moment

/-- The earlier of the two readings that a date-time may mean. -/
def earlierReading (m : Moment) : Moment := { m with later := false }

/-- A sum does not depend on which of the two readings is meant. -/
theorem plus_congr {a b : Moment} (hwall : a.wall = b.wall) (hzone : a.zone = b.zone)
    (duration : Int) : a.plus duration = b.plus duration := by
  unfold plus
  rw [hwall, hzone]

/-- What shows the same time of day on a later day is a later instant. -/
theorem Alike.instant_lt {a b : Moment} (h : a.Alike b)
    (hlt : a.wall.dayNumber < b.wall.dayNumber) : a.instant < b.instant := by
  have hown := instantBy_lt (variesByTwoHours_clockOf a.zone) h hlt
  rwa [instantBy_clockOf, h.1, instantBy_clockOf] at hown

/-- Date-times that show the same time of day lie on one day if they are one instant. -/
theorem Alike.dayNumber_eq {a b : Moment} (h : a.Alike b) (hinstant : a.instant = b.instant) :
    a.wall.dayNumber = b.wall.dayNumber := by
  rcases Nat.lt_trichotomy a.wall.dayNumber b.wall.dayNumber with hlt | heq | hgt
  · have := h.instant_lt hlt
    omega
  · exact heq
  · have := h.symm.instant_lt hgt
    omega

/-! ## Universal time -/

section

variable {t : Moment} (ht : t.zone = .utc)

include ht

theorem inStep_of_utc (m : Moment) : t.InStep m := inStep_of_isFixed (by rw [ht]; rfl)

theorem upTo_iff_of_utc (m : Moment) : m.upTo t = true ↔ m.instant ≤ t.instant :=
  (inStep_of_utc ht m).2

theorem before_eq_false_iff_of_utc (m : Moment) : m.before t = false ↔ t.instant ≤ m.instant := by
  rw [before_eq_not_upTo, Bool.not_eq_false', (inStep_of_utc ht m).1]

end

end Time.Moment

namespace Series

variable {s : Series} {duration : Int} {w : Window} {cap : Int} {e : Expansion} {o : Occurrence}
  {finish : Moment}

/-! ## What is listed first -/

theorem head?_expand_of_shows (hkind : s.kind ≠ .customWeekly)
    (hwindow : (w.clip s).isEmpty = false) (hstart : s.firstStart = .ok s.start)
    (hduration : s.duration = .ok duration) (hshows : (w.clip s).shows duration s.start = true)
    (hcap : 1 ≤ cap) (h : s.expand w cap = .ok e) :
    ∃ finish, s.start.plus duration = .ok finish ∧
      e.occurrences.head? = some (.plain s.start finish) := by
  obtain ⟨duration', hduration', hlisted, -⟩ := expand_eq_shown_starts hkind hwindow h
  rw [hduration, Except.ok.injEq] at hduration'
  subst hduration'
  obtain ⟨room, hroom⟩ : ∃ room, cap.toNat = room + 1 := ⟨cap.toNat - 1, by omega⟩
  rw [allStarts_of_firstStart hstart, Pattern.startsFrom, List.filter_cons_of_pos hshows, hroom,
    List.take_succ_cons, List.mapM_cons] at hlisted
  obtain ⟨o, ho, hlisted⟩ := bind_eq_ok_iff.mp hlisted
  obtain ⟨rest, -, hlisted⟩ := bind_eq_ok_iff.mp hlisted
  obtain ⟨finish, hfinish, rfl⟩ := Occurrence.startingAt_eq_ok_iff.mp ho
  rw [pure_eq_ok, Except.ok.injEq] at hlisted
  exact ⟨finish, hfinish, by rw [← hlisted, List.head?_cons]⟩

/-- Of the days of its week that are listed the anchor's comes first, as those before it are left
    out. -/
theorem head?_listDays {week start : Moment} {d : Nat} (hweek : s.IsWeek week)
    (hstart : week.plusDays ((d : Int) - 1) = .ok start) (hanchor : start.wall = s.start.wall)
    (hopen : start.before w.first = false)
    (hfits : ∀ finish, start.plus duration = .ok finish → w.last.before finish = false)
    {days : List Nat} {room : Nat} {occurrences : List Occurrence} {left : Option Nat}
    (hd : d ∈ days) (hascending : days.Pairwise (· < ·)) (hroom : 1 ≤ room)
    (h : s.listDays duration w week days room = .ok (occurrences, left)) :
    ∃ finish, start.plus duration = .ok finish ∧
      occurrences.head? = some (.plain start finish) := by
  -- the days ascend, so that those passed on the way to the anchor's lie before it
  induction days with
  | nil => cases hd
  | cons d' days ih =>
    obtain ⟨hbefore, hascending⟩ := List.pairwise_cons.mp hascending
    obtain ⟨start', finish, hstart', hfinish, hcases⟩ := listDays_cases h
    obtain ⟨hday, halike⟩ := Moment.plusDays_dayNumber hstart
    obtain ⟨hday', halike'⟩ := Moment.plusDays_dayNumber hstart'
    rcases List.mem_cons.mp hd with rfl | hmem
    · rw [hstart, Except.ok.injEq] at hstart'
      subst hstart'
      have hsame : start.before s.start = false := by
        rw [Moment.before, Moment.since_of_zone_eq (halike.trans hweek.alike).1, hanchor]
        simp
      rw [hsame, hopen, hfits finish hfinish] at hcases
      obtain ⟨hout, -⟩ | ⟨-, ⟨hnone, -⟩ | ⟨room', rest, -, rfl, -⟩⟩ := hcases
      · cases hout
      · omega
      · exact ⟨finish, hfinish, rfl⟩
    · have hlt := hbefore d hmem
      have hearly : start'.before s.start = true := by
        have hgap := (halike'.trans halike.symm).micros_add_le
          (show start'.wall.dayNumber + 1 ≤ start.wall.dayNumber by omega)
        rw [Moment.before, Moment.since_of_zone_eq (halike'.trans hweek.alike).1, ← hanchor,
          decide_eq_true_eq]
        simp only [microsPerDay] at hgap
        omega
      rw [hearly] at hcases
      obtain ⟨-, hrest⟩ | ⟨hin, -⟩ := hcases
      · exact ih hmem hascending hrest
      · cases hin

/-- An anchor that is a start is on a listed day. -/
theorem calendarWeekday_mem_of_firstStart (hkind : s.kind = .customWeekly)
    (hstart : s.firstStart = .ok s.start) : s.start.calendarWeekday ∈ s.weekdays.days := by
  have hfits := fits_of_firstStart hstart (by rw [hkind]; rfl)
  unfold fits Pattern.fits at hfits
  simp only [pattern, hkind] at hfits
  exact List.contains_iff_mem.mp hfits

/-- From the Sunday of its week the anchor is as far ahead as it is back to that Sunday. -/
theorem plusDays_sunday {sunday : Moment}
    (h : s.start.plusDays (-((s.start.calendarWeekday : Int) - 1)) = .ok sunday) :
    sunday.plusDays ((s.start.calendarWeekday : Int) - 1) = .ok s.start.earlierReading := by
  obtain ⟨hmicros, -, hzone⟩ := Moment.plusDays_eq_ok_iff.mp h
  rw [Int.neg_mul] at hmicros
  exact Moment.plusDays_eq_ok_iff.mpr
    ⟨show (s.start.wall.micros : Int) = _ by omega, rfl, hzone.symm⟩

/-- The week of an anchor that does not lie before the window is not left out. -/
theorem skippedWeeks_eq_zero {sunday : Moment} (hvisits : s.Visits s.start.earlierReading)
    (hsunday : s.start.plusDays (-((s.start.calendarWeekday : Int) - 1)) = .ok sunday)
    (hopen : s.start.earlierReading.before w.first = false) : skippedWeeks w sunday = 0 := by
  obtain ⟨hisSunday, hday⟩ := isWeek_sunday hsunday
  have hback := (Moment.plusDays_dayNumber hsunday).1
  have hnumber : s.start.earlierReading.wall.dayNumber = s.start.wall.dayNumber := rfl
  have hpos : 1 ≤ s.start.calendarWeekday := Nat.le_add_left 1 _
  by_contra hne
  have hbefore := before_of_skipped (w := w) hisSunday hvisits (by omega) (by omega)
  rw [hopen] at hbefore
  cases hbefore

/-- Week by week the list starts in the week of the anchor, if the anchor does not lie before the
    window. -/
theorem head?_expand_of_listed (hkind : s.kind = .customWeekly)
    (hwindow : (w.clip s).isEmpty = false) (hstart : s.firstStart = .ok s.start)
    (hduration : s.duration = .ok duration)
    (hopen : s.start.earlierReading.before (w.clip s).first = false)
    (hlast : s.start.earlierReading.upTo (w.clip s).last = true)
    (hfits : ∀ finish, s.start.plus duration = .ok finish → (w.clip s).last.before finish = false)
    (hcap : 1 ≤ cap) (h : s.expand w cap = .ok e) :
    ∃ finish, s.start.plus duration = .ok finish ∧
      e.occurrences.head? = some (.plain s.start.earlierReading finish) := by
  rw [expand_eq_listListed hkind hwindow] at h
  obtain ⟨duration', sunday, week, occurrences, more, hduration', hsunday, hweek, hlist, rfl⟩ :=
    listListed_eq_ok_iff.mp h
  rw [hduration, Except.ok.injEq] at hduration'
  subst hduration'
  have hlisted := calendarWeekday_mem_of_firstStart hkind hstart
  have hvisits : s.Visits s.start.earlierReading := by
    rw [Visits, if_pos hkind]
    exact ⟨.refl _, rfl, Nat.lt_add_of_pos_right (by decide), .inr hlisted⟩
  obtain ⟨hisSunday, -⟩ := isWeek_sunday hsunday
  -- the first week is that of the anchor, whose Sunday comes by the end of the window
  obtain rfl : week = sunday := by
    rw [skippedWeeks_eq_zero hvisits hsunday hopen] at hweek
    obtain ⟨hisWeek, hweekDay⟩ := hisSunday.plusDays hweek
    exact (hisWeek.alike.trans hisSunday.alike.symm).eq (by omega)
      (hisWeek.earlier.trans hisSunday.earlier.symm)
  have hback := (Moment.plusDays_dayNumber hsunday).1
  have hpos : 1 ≤ s.start.calendarWeekday := Nat.le_add_left 1 _
  have halike : s.start.earlierReading.Alike week := hisSunday.alike.symm
  have hweekLast : week.upTo (w.clip s).last = true := by
    rcases Nat.lt_or_eq_of_le (show week.wall.dayNumber ≤ s.start.wall.dayNumber by omega) with
      hlt | heq
    · exact Moment.upTo_of_dayNumber_lt halike hlt hlast
    · exact halike.eq heq.symm hisSunday.earlier.symm ▸ hlast
  obtain ⟨weeks, -, ⟨hafter, -⟩ | ⟨-, here, left, next, hhere, -, hcases⟩⟩ := listWeeks_cases hlist
  · rw [hweekLast] at hafter
    cases hafter
  · obtain ⟨finish, hfinish, hhead⟩ := head?_listDays hisSunday (plusDays_sunday hsunday) rfl hopen
      hfits hlisted s.weekdays.ascending (show 1 ≤ cap.toNat by omega) hhere
    refine ⟨finish, hfinish, ?_⟩
    obtain ⟨-, rfl, -⟩ | ⟨room', rest, -, rfl, -⟩ := hcases
    · exact hhead
    · rw [List.head?_append, hhead]
      rfl

/-! ## The given end -/

/-- Counted on the wall clock from the start, the length of the series leads to the instant of its
    given end: in the zone of the start if the end is not the later one of two readings, in another
    zone if the clock of the start is as far ahead where the occurrence ends as where it starts. -/
def ReturnsTo (s : Series) (finish : Moment) : Prop :=
  if finish.zone = s.anchorStart.zone then finish.earlierReading.instant = finish.instant
  else ∀ last, s.anchorStart.plus (finish.since s.anchorStart) = .ok last →
    last.offset = s.anchorStart.offset

theorem duration_of_anchorEnd (hday : s.allDay = false) (hend : s.anchorEnd = some finish) :
    s.duration = .ok (finish.since s.anchorStart) := by
  simp [Series.duration, Series.finish, hend, hday, start_eq_anchorStart hday]

theorem instant_eq_iff_returnsTo {last : Moment}
    (hlast : s.anchorStart.plus (finish.since s.anchorStart) = .ok last) :
    last.instant = finish.instant ↔ s.ReturnsTo finish := by
  obtain ⟨hmicros, hearlier, hzone⟩ := Moment.plus_eq_ok_iff.mp hlast
  unfold ReturnsTo
  split
  · rename_i hsame
    rw [Moment.since_of_zone_eq hsame] at hmicros
    have heq : last = finish.earlierReading :=
      Moment.ext_micros (show last.wall.micros = finish.wall.micros by omega) hearlier
        (hzone.trans hsame.symm)
    rw [heq]
  -- the length is one of instants, which the sum takes for one on the clock of the start
  · rename_i hother
    rw [Moment.since_of_zone_ne hother] at hmicros
    have hinstant : last.instant = finish.instant ↔ last.offset = s.anchorStart.offset := by
      simp only [Moment.instant, microsPerMinute] at hmicros ⊢
      omega
    rw [hinstant, hlast]
    simp

/-! ## The first occurrence -/

/-- A window in universal time that begins by the anchor of a series without bounds, which is one of
    its starts, and ends no earlier than its given end. -/
structure AnchoredIn (s : Series) (w : Window) (finish : Moment) : Prop where
  timed : s.allDay = false
  given : s.anchorEnd = some finish
  unbounded : s.firstInstance = none ∧ s.lastInstance = none
  start : s.firstStart = .ok s.start
  universal : w.first.zone = .utc ∧ w.last.zone = .utc
  first : w.first.upTo s.anchorStart = true
  last : finish.upTo w.last = true

/-- The first of the occurrences starts and ends at the instants at which the anchor does. -/
def AnchorComesFirst (s : Series) (finish : Moment) (e : Expansion) : Prop :=
  ∃ o, e.occurrences.head? = some o ∧ o.start.instant = s.anchorStart.instant ∧
    o.finish.instant = finish.instant

instance (s : Series) (finish : Moment) (e : Expansion) : Decidable (s.AnchorComesFirst finish e) :=
  decidable_of_iff (e.occurrences.head?.any fun o =>
      o.start.instant == s.anchorStart.instant && o.finish.instant == finish.instant) <| by
    simp [AnchorComesFirst, Option.any_eq_true]

theorem AnchoredIn.clip_eq (h : s.AnchoredIn w finish) : w.clip s = w := by
  have hzoned {m : Moment} (hm : m.zone = .utc) : m.zoned = m :=
    Moment.zoned_of_zone_ne (by rw [hm]; decide)
  simp only [Window.clip, h.unbounded.1, h.unbounded.2, hzoned h.universal.1, hzoned h.universal.2]

/-- What starts at the instant of the anchor is the anchor, by its reading. -/
theorem wall_eq_of_instant_eq (h : s.expand w cap = .ok e) (ho : o ∈ e.occurrences)
    (hinstant : o.start.instant = s.start.instant) : o.start.wall = s.start.wall := by
  have halike := (span_of_mem_expand h ho).1.alike
  have hmicros := halike.micros_sub
  rw [halike.dayNumber_eq hinstant, Int.sub_self, Int.zero_mul] at hmicros
  exact Wall.ext_micros (by omega)

section

variable (hanchor : s.AnchoredIn w finish) (hlast : s.anchorStart.upTo w.last = true)

include hanchor hlast

theorem AnchoredIn.isEmpty_clip : (w.clip s).isEmpty = false := by
  have hfirst := (Moment.inStep_of_utc hanchor.universal.1 _).1.mp hanchor.first
  have hlast := (Moment.upTo_iff_of_utc hanchor.universal.2 _).mp hlast
  rw [hanchor.clip_eq, Window.isEmpty, Moment.before_eq_false_iff_of_utc hanchor.universal.1]
  omega

/-- The window shows the start, as it has not ended before the window. -/
theorem shows_of_returnsTo (hfirst : w.first.upTo finish = true) (hreturns : s.ReturnsTo finish) :
    (w.clip s).shows (finish.since s.anchorStart) s.start = true := by
  have hopen : s.start.endsBefore (finish.since s.anchorStart) w.first = false := by
    rw [start_eq_anchorStart hanchor.timed]
    cases hplus : s.anchorStart.plus (finish.since s.anchorStart) with
    | error error => simp [Moment.endsBefore, hplus, Except.toOption]
    | ok last =>
      rw [Moment.endsBefore_of_plus hplus,
        Moment.before_eq_false_iff_of_utc hanchor.universal.1 last,
        (instant_eq_iff_returnsTo hplus).mpr hreturns]
      exact (Moment.inStep_of_utc hanchor.universal.1 _).1.mp hfirst
  rw [hanchor.clip_eq, Window.shows, hopen, start_eq_anchorStart hanchor.timed, hlast]
  rfl

/-- Where the sum leads back to the given end, the anchor is the first occurrence. -/
theorem anchorComesFirst_of_returnsTo (hfirst : w.first.upTo finish = true)
    (hreading : s.kind = .customWeekly →
      s.anchorStart.earlierReading.instant = s.anchorStart.instant)
    (hcap : 1 ≤ cap) (h : s.expand w cap = .ok e) (hreturns : s.ReturnsTo finish) :
    s.AnchorComesFirst finish e := by
  have hstart := start_eq_anchorStart hanchor.timed
  have hopen := hanchor.isEmpty_clip hlast
  have hduration := duration_of_anchorEnd hanchor.timed hanchor.given
  have hsum {last : Moment} (hplus : s.start.plus (finish.since s.anchorStart) = .ok last) :
      last.instant = finish.instant := by
    rw [hstart] at hplus
    exact (instant_eq_iff_returnsTo hplus).mpr hreturns
  by_cases hkind : s.kind = .customWeekly
  · have hinstant : s.start.earlierReading.instant = s.anchorStart.instant := by
      rw [hstart]
      exact hreading hkind
    have hnotBefore : s.start.earlierReading.before (w.clip s).first = false := by
      rw [hanchor.clip_eq, Moment.before_eq_false_iff_of_utc hanchor.universal.1, hinstant]
      exact (Moment.inStep_of_utc hanchor.universal.1 _).1.mp hanchor.first
    have hupTo : s.start.earlierReading.upTo (w.clip s).last = true := by
      rw [hanchor.clip_eq, Moment.upTo_iff_of_utc hanchor.universal.2, hinstant]
      exact (Moment.upTo_iff_of_utc hanchor.universal.2 _).mp hlast
    have hfits (last : Moment) (hplus : s.start.plus (finish.since s.anchorStart) = .ok last) :
        (w.clip s).last.before last = false := by
      rw [hanchor.clip_eq, Moment.before_eq_not_upTo, Bool.not_eq_false',
        Moment.upTo_iff_of_utc hanchor.universal.2, hsum hplus]
      exact (Moment.upTo_iff_of_utc hanchor.universal.2 _).mp hanchor.last
    obtain ⟨last, hplus, hhead⟩ :=
      head?_expand_of_listed hkind hopen hanchor.start hduration hnotBefore hupTo hfits hcap h
    exact ⟨_, hhead, hinstant, hsum hplus⟩
  · obtain ⟨last, hplus, hhead⟩ := head?_expand_of_shows hkind hopen hanchor.start hduration
      (shows_of_returnsTo hanchor hlast hfirst hreturns) hcap h
    exact ⟨_, hhead, by rw [← hstart]; rfl, hsum hplus⟩

end

/-- In a window that holds both ends of the anchor of a timed series, if the anchor is one of its
    starts, the first occurrence starts and ends at the instants of the anchor exactly if the sum of
    its start and the length of the series leads back to the instant of its end.  Week by week this
    is so for an anchor that is not the later one of two readings. -/
theorem anchorComesFirst_iff_returnsTo (hanchor : s.AnchoredIn w finish)
    (hfirst : w.first.upTo finish = true) (hlast : s.anchorStart.upTo w.last = true)
    (hreading : s.kind = .customWeekly →
      s.anchorStart.earlierReading.instant = s.anchorStart.instant)
    (hcap : 1 ≤ cap) (h : s.expand w cap = .ok e) :
    s.AnchorComesFirst finish e ↔ s.ReturnsTo finish := by
  refine ⟨?_, anchorComesFirst_of_returnsTo hanchor hlast hfirst hreading hcap h⟩
  rintro ⟨o, hhead, hinstant, hends⟩
  have hstart := start_eq_anchorStart hanchor.timed
  have ho := List.mem_of_head? hhead
  obtain ⟨hvisits, duration, hduration, hplus⟩ := span_of_mem_expand h ho
  rw [duration_of_anchorEnd hanchor.timed hanchor.given, Except.ok.injEq] at hduration
  have hwall := wall_eq_of_instant_eq h ho (by rw [hinstant, hstart])
  rw [Moment.plus_congr hwall hvisits.alike.1, hstart, ← hduration] at hplus
  exact (instant_eq_iff_returnsTo hplus).mp hends

/-- Every day from one time to another. -/
def dailyFrom (start finish : Moment) (hzones : start.isZoned = true ∧ finish.isZoned = true)
    (hends : finish.before start = false) : Series where
  seriesId := "daily"
  title := none
  description := none
  anchorStart := start
  anchorEnd := some finish
  allDay := false
  kind := .daily
  weekdays := .empty
  firstInstance := none
  lastInstance := none
  zones := by simp [SeriesFields.moments, hzones]
  ends := hends
  bounds := rfl
  listed := rfl

/-- The night of 27 October 2024 in universal time. -/
def octoberNight : Window := ⟨.inOctober 26 12, .inOctober 27 12⟩

/-- Every night from one to four in Berlin, from that in which the clock is put back on. -/
def oneToFour : Series :=
  dailyFrom (.inBerlin 60 false) (.inBerlin 240 false) (by decide) (by decide)

/-- The first night is an hour longer than the others, and still ends when it was said to. -/
theorem anchorComesFirst_oneToFour :
    let s := oneToFour
    let finish : Moment := .inBerlin 240 false
    s.AnchoredIn octoberNight finish ∧ octoberNight.first.upTo finish = true ∧
    s.anchorStart.upTo octoberNight.last = true ∧ s.kind ≠ .customWeekly ∧
    s.ReturnsTo finish ∧ ∃ e, s.expand octoberNight 1 = .ok e ∧ s.AnchorComesFirst finish e := by
  have hanchor : oneToFour.AnchoredIn octoberNight (.inBerlin 240 false) :=
    ⟨rfl, rfl, ⟨rfl, rfl⟩, by decide, ⟨rfl, rfl⟩, by decide, by decide⟩
  have hreturns : oneToFour.ReturnsTo (.inBerlin 240 false) := by
    rw [ReturnsTo, if_pos (by decide)]
    rfl
  have h : oneToFour.expand octoberNight 1 =
      .ok ⟨"daily", [.plain (.inBerlin 60 false) (.inBerlin 240 false)], .complete⟩ := by decide
  exact ⟨hanchor, by decide, by decide, by decide, hreturns, _, h,
    (anchorComesFirst_iff_returnsTo hanchor (by decide) (by decide) (fun hkind => by cases hkind)
      (by decide) h).mpr hreturns⟩

/-- A window is reached by the anchor, and its first occurrence is not the anchor. -/
def LosesAnchor (s : Series) (w : Window) (finish : Moment) : Prop :=
  s.AnchoredIn w finish ∧ ∃ e, s.expand w 10 = .ok e ∧ ¬ s.AnchorComesFirst finish e

/-- Every night from two in Berlin to the second half past two of the night in which the clock is
    put back. -/
def untilLaterReading : Series :=
  dailyFrom (.inBerlin 120 false) (.inBerlin 150 true) (by decide) (by decide)

/-- Every night from one in Berlin to an end that is given in universal time, when the clock has
    been put back. -/
def untilUniversal : Series :=
  dailyFrom (.inBerlin 60 false) (.inOctober 27 2) (by decide) (by decide)

/-- Sundays and Tuesdays from the second half past two of that night to half past three. -/
def sundayHours : Series where
  toSeriesFields := { sundaysAndTuesdays.toSeriesFields with
    anchorEnd := some (.inBerlin 210 false) }
  zones := by decide
  ends := by decide
  bounds := by decide
  listed := by decide

/-- Every night from half past two, which the clock skips on 31 March 2024, to three. -/
def fromSkippedReading : Series :=
  dailyFrom (.inMarch 31 150) (.inMarch 31 180) (by decide) (by decide)

/-- The day of 31 March 2024, from a quarter past one in universal time on. -/
def marchDay : Window where
  first := { Moment.inMarch 31 75 with zone := .utc }
  last := { Moment.inMarch 31 720 with zone := .utc }

/-- The first occurrence ends an hour early where the later reading of its end is meant, and an hour
    late where the clock of its start has been put back.  Week by week it starts an hour early where
    the later reading of its start is meant.  It is missed if, by the clock, it has ended before it
    starts, and before the window. -/
theorem losesAnchor_at_changes :
    untilLaterReading.LosesAnchor octoberNight (.inBerlin 150 true) ∧
    untilUniversal.LosesAnchor octoberNight (.inOctober 27 2) ∧
    sundayHours.LosesAnchor octoberNight (.inBerlin 210 false) ∧
    fromSkippedReading.LosesAnchor marchDay (.inMarch 31 180) := by
  refine ⟨?_, ?_, ?_, ?_⟩
  · exact ⟨⟨rfl, rfl, ⟨rfl, rfl⟩, by decide, ⟨rfl, rfl⟩, by decide, by decide⟩,
      ⟨"daily", [.plain (.inBerlin 120 false) (.inBerlin 150 false)], .complete⟩,
      by decide, by decide⟩
  · exact ⟨⟨rfl, rfl, ⟨rfl, rfl⟩, by decide, ⟨rfl, rfl⟩, by decide, by decide⟩,
      ⟨"daily", [.plain (.inBerlin 60 false) (.inBerlin 240 false)], .complete⟩,
      by decide, by decide⟩
  · exact ⟨⟨rfl, rfl, ⟨rfl, rfl⟩, by decide, ⟨rfl, rfl⟩, by decide, by decide⟩,
      ⟨"sundays and tuesdays", [.plain (.inBerlin 150 false) (.inBerlin 210 false)], .complete⟩,
      by decide, by decide⟩
  · exact ⟨⟨rfl, rfl, ⟨rfl, rfl⟩, by decide, ⟨rfl, rfl⟩, by decide, by decide⟩,
      ⟨"daily", [], .complete⟩, by decide, by decide⟩

end Series

end EventCalendar
