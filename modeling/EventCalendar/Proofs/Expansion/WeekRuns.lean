/-
  EventCalendar.Proofs.Expansion.WeekRuns

  One series with listed weekdays in two windows.  What one day and one week
  contribute is said once; from that follows, week by week, that windows which
  stand alike to all that is held against them are listed alike, that a window
  which begins later lists what is left of the list, and that it makes no
  difference how many of the weeks before a window are left out.
-/

import EventCalendar.Proofs.Expansion.Weeks
import EventCalendar.Proofs.Expansion.Windows

namespace EventCalendar

open EventCalendar.Time

namespace Series

variable {s : Series} {duration : Int} {w w' : Window} {week next bound : Moment} {room : Nat}
  {occurrences : List Occurrence}

/-! ## Days that are come by -/

theorem IsWeek.visits (h : s.IsWeek week) (hkind : s.kind = .customWeekly)
    (hday : s.start.wall.dayNumber < week.wall.dayNumber + 7) : s.Visits week := by
  have hsunday := h.sunday
  rw [Visits, if_pos hkind]
  refine ⟨h.alike, h.earlier, hday, .inl ?_⟩
  simp only [Moment.calendarWeekday, Moment.weekday]
  omega

theorem IsWeek.visits_plusDays {start : Moment} {d : Nat} (h : s.IsWeek week)
    (hkind : s.kind = .customWeekly) (hday : s.start.wall.dayNumber < week.wall.dayNumber + 7)
    (hd : d ∈ s.weekdays.days) (hstart : week.plusDays ((d : Int) - 1) = .ok start) :
    s.Visits start := by
  have hrange := s.weekdays.inWeek d hd
  obtain ⟨hstartDay, halike⟩ := Moment.plusDays_dayNumber hstart
  have hcount := h.add_calendarWeekday (show week.wall.dayNumber ≤ start.wall.dayNumber by omega)
    (by omega)
  rw [Visits, if_pos hkind]
  refine ⟨halike.trans h.alike, (Moment.plusDays_eq_ok_iff.mp hstart).2.1, by omega, .inr ?_⟩
  have hlisted : start.calendarWeekday = d := by omega
  rw [hlisted]
  exact hd

/-- From a Sunday to a later one it is a number of whole weeks. -/
theorem IsWeek.plusDays_eq_ok {count : Nat} (hweek : s.IsWeek week) (hnext : s.IsWeek next)
    (hdays : next.wall.dayNumber = week.wall.dayNumber + count * 7) :
    week.plusDays (count * 7 : Nat) = .ok next := by
  have halike := hnext.alike.trans hweek.alike.symm
  have hsub := halike.micros_sub
  have hdays : (next.wall.dayNumber : Int) - week.wall.dayNumber = (count * 7 : Nat) := by omega
  rw [hdays] at hsub
  rw [Moment.plusDays_eq_ok_iff]
  exact ⟨by omega, hnext.earlier, halike.1⟩

/-! ## One step -/

/-- What one listed day can contribute. -/
theorem listDays_cases {day : Nat} {days : List Nat} {left : Option Nat}
    (h : s.listDays duration w week (day :: days) room = .ok (occurrences, left)) :
    ∃ start finish, week.plusDays ((day : Int) - 1) = .ok start ∧
      start.plus duration = .ok finish ∧
      ((start.before s.start || start.before w.first || w.last.before finish) = true ∧
          s.listDays duration w week days room = .ok (occurrences, left) ∨
        (start.before s.start || start.before w.first || w.last.before finish) = false ∧
          (room = 0 ∧ occurrences = [] ∧ left = none ∨
            ∃ room' rest, room = room' + 1 ∧ occurrences = .plain start finish :: rest ∧
              s.listDays duration w week days room' = .ok (rest, left))) := by
  unfold listDays at h
  obtain ⟨start, hstart, h⟩ := bind_eq_ok_iff.mp h
  obtain ⟨finish, hfinish, h⟩ := bind_eq_ok_iff.mp h
  refine ⟨start, finish, hstart, hfinish, ?_⟩
  split at h
  · rename_i hout
    exact .inl ⟨hout, h⟩
  · rename_i hin
    refine .inr ⟨by simpa using hin, ?_⟩
    cases room with
    | zero =>
      cases h
      exact .inl ⟨rfl, rfl, rfl⟩
    | succ room =>
      obtain ⟨⟨rest, left'⟩, hrest, h⟩ := bind_eq_ok_iff.mp h
      cases h
      exact .inr ⟨room, rest, rfl, rfl, hrest⟩

/-- What one week can contribute. -/
theorem listWeeks_cases {weeks : Nat} {more : Bool}
    (h : s.listWeeks duration w weeks room week = .ok (occurrences, more)) :
    ∃ weeks', weeks = weeks' + 1 ∧
      (week.upTo w.last = false ∧ occurrences = [] ∧ more = false ∨
        week.upTo w.last = true ∧ ∃ here left next,
          s.listDays duration w week s.weekdays.days room = .ok (here, left) ∧
          week.plusDays 7 = .ok next ∧
          (left = none ∧ occurrences = here ∧ more = true ∨
            ∃ room' rest, left = some room' ∧ occurrences = here ++ rest ∧
              s.listWeeks duration w weeks' room' next = .ok (rest, more))) := by
  cases weeks with
  | zero =>
    rw [listWeeks] at h
    cases h
  | succ weeks =>
    refine ⟨weeks, rfl, ?_⟩
    unfold listWeeks at h
    split at h
    · rename_i hafter
      cases h
      exact .inl ⟨by simpa using hafter, rfl, rfl⟩
    · rename_i hbefore
      refine .inr ⟨by simpa using hbefore, ?_⟩
      obtain ⟨⟨here, left⟩, hhere, h⟩ := bind_eq_ok_iff.mp h
      obtain ⟨next, hnext, h⟩ := bind_eq_ok_iff.mp h
      refine ⟨here, left, next, hhere, hnext, ?_⟩
      cases left with
      | none =>
        cases h
        exact .inl ⟨rfl, rfl, rfl⟩
      | some left =>
        obtain ⟨⟨rest, more'⟩, hrest, h⟩ := bind_eq_ok_iff.mp h
        cases h
        exact .inr ⟨left, rest, rfl, rfl, hrest⟩

/-- A week whose days and those after it are listed is listed. -/
theorem listWeeks_succ {weeks room' : Nat} {here rest : List Occurrence} {more : Bool}
    (hlast : week.upTo w.last = true)
    (hhere : s.listDays duration w week s.weekdays.days room = .ok (here, some room'))
    (hnext : week.plusDays 7 = .ok next)
    (hrest : s.listWeeks duration w weeks room' next = .ok (rest, more)) :
    s.listWeeks duration w (weeks + 1) room week = .ok (here ++ rest, more) := by
  unfold listWeeks
  rw [hlast, hhere, ok_bind]
  show (week.plusDays 7 >>= _) = _
  rw [hnext, ok_bind]
  show (s.listWeeks duration w weeks room' next >>= _) = _
  rw [hrest]
  rfl

theorem listWeeks_of_after {weeks : Nat} (hlast : week.upTo w.last = false) :
    s.listWeeks duration w (weeks + 1) room week = .ok ([], false) := by
  unfold listWeeks
  rw [hlast]
  rfl

/-- A week with more days than there is room for is the last one that is listed. -/
theorem listWeeks_of_full {weeks : Nat} {here : List Occurrence} (hlast : week.upTo w.last = true)
    (hhere : s.listDays duration w week s.weekdays.days room = .ok (here, none))
    (hnext : week.plusDays 7 = .ok next) :
    s.listWeeks duration w (weeks + 1) room week = .ok (here, true) := by
  unfold listWeeks
  rw [hlast, hhere, ok_bind, hnext]
  rfl

/-! ## Windows that stand alike -/

/-- Two windows stand alike to all that an expansion holds against them. -/
structure SameFor (s : Series) (w w' : Window) : Prop where
  first : ∀ m, s.Passes m → m.before w.first = m.before w'.first
  last : ∀ m, s.Passes m → m.upTo w.last = m.upTo w'.last

theorem listDays_congr (hsame : s.SameFor w w') (hduration : s.duration = .ok duration)
    (hweek : s.IsWeek week) (hkind : s.kind = .customWeekly)
    (hday : s.start.wall.dayNumber < week.wall.dayNumber + 7) {days : List Nat}
    (hdays : ∀ d ∈ days, d ∈ s.weekdays.days) :
    s.listDays duration w week days room = s.listDays duration w' week days room := by
  induction days generalizing room with
  | nil => rfl
  | cons d days ih =>
    have hrest (room : Nat) : s.listDays duration w week days room =
        s.listDays duration w' week days room :=
      ih fun d' hd' => hdays d' (List.mem_cons_of_mem d hd')
    unfold listDays
    cases hstart : week.plusDays ((d : Int) - 1) with
    | error e => rfl
    | ok start =>
      rw [ok_bind, ok_bind]
      cases hfinish : start.plus duration with
      | error e => rfl
      | ok finish =>
        -- the day is held against the windows by its start and its end only
        have hvisits := hweek.visits_plusDays hkind hday (hdays d List.mem_cons_self) hstart
        rw [ok_bind, ok_bind, Moment.before_eq_not_upTo w.last, Moment.before_eq_not_upTo w'.last,
          hsame.first start (.start hvisits), hsame.last finish (.finish hvisits hduration hfinish)]
        simp only [hrest]

theorem listWeeks_congr (hsame : s.SameFor w w') (hduration : s.duration = .ok duration)
    (hweek : s.IsWeek week) (hkind : s.kind = .customWeekly)
    (hday : s.start.wall.dayNumber < week.wall.dayNumber + 7) {weeks : Nat} :
    s.listWeeks duration w weeks room week = s.listWeeks duration w' weeks room week := by
  induction weeks generalizing room week with
  | zero => rfl
  | succ weeks ih =>
    unfold listWeeks
    rw [hsame.last week (.start (hweek.visits hkind hday)),
      listDays_congr hsame hduration hweek hkind hday fun d hd => hd]
    cases hnext : week.plusDays 7 with
    | error e => rfl
    | ok next =>
      obtain ⟨hnextWeek, hnextDay⟩ := hweek.plusDays
        (show week.plusDays (1 * 7 : Nat) = .ok next from hnext)
      have hrest (room : Nat) : s.listWeeks duration w weeks room next =
          s.listWeeks duration w' weeks room next := ih hnextWeek (by omega)
      simp only [ok_bind, hrest]

/-! ## Windows that begin later -/

/-- The occurrences that do not start before a bound. -/
def startingFrom (bound : Moment) (occurrences : List Occurrence) : List Occurrence :=
  occurrences.filter (!·.start.before bound)

theorem listDays_filter (hfirst : ∀ m, s.Visits m →
      m.before w'.first = (m.before w.first || m.before bound)) (hlast : w'.last = w.last)
    (hweek : s.IsWeek week) (hkind : s.kind = .customWeekly)
    (hday : s.start.wall.dayNumber < week.wall.dayNumber + 7) {days : List Nat}
    (hdays : ∀ d ∈ days, d ∈ s.weekdays.days) {room' left : Nat} (hroom : room ≤ room')
    (h : s.listDays duration w week days room = .ok (occurrences, some left)) :
    ∃ left', left ≤ left' ∧ s.listDays duration w' week days room' =
      .ok (startingFrom bound occurrences, some left') := by
  induction days generalizing room room' left occurrences with
  | nil =>
    cases h
    exact ⟨room', hroom, rfl⟩
  | cons d days ih =>
    obtain ⟨start, finish, hstart, hfinish, hcases⟩ := listDays_cases h
    have hvisits := hweek.visits_plusDays hkind hday (hdays d List.mem_cons_self) hstart
    have hcond := hfirst start hvisits
    have hdays' : ∀ d' ∈ days, d' ∈ s.weekdays.days :=
      fun d' hd' => hdays d' (List.mem_cons_of_mem d hd')
    unfold listDays
    rw [hstart, ok_bind, hfinish, ok_bind, hlast, hcond]
    rcases hcases with ⟨hout, hrest⟩ | ⟨hin, ⟨-, -, hnone⟩ | ⟨left₀, rest, rfl, rfl, hrest⟩⟩
    · -- what is left out of the one list is left out of the other one
      rw [if_pos (by cases hs : start.before s.start <;> cases hw : start.before w.first <;>
        simp_all)]
      exact ih hdays' hroom hrest
    · cases hnone
    · simp only [Bool.or_eq_false_iff] at hin
      obtain ⟨⟨hs, hw⟩, hl⟩ := hin
      cases hbound : start.before bound with
      | true =>
        -- the later window leaves the day out, and saves its place
        rw [if_pos (by simp)]
        obtain ⟨left', hle, hrest'⟩ := ih hdays' (show left₀ ≤ room' by omega) hrest
        refine ⟨left', hle, ?_⟩
        rw [hrest', startingFrom, startingFrom, List.filter_cons_of_neg (by
          simp [Occurrence.plain, hbound])]
      | false =>
        obtain ⟨room₀, rfl⟩ : ∃ room₀, room' = room₀ + 1 := ⟨room' - 1, by omega⟩
        obtain ⟨left', hle, hrest'⟩ := ih hdays' (show left₀ ≤ room₀ by omega) hrest
        refine ⟨left', hle, ?_⟩
        rw [if_neg (by simp [hs, hw, hl]), startingFrom, List.filter_cons_of_pos (by
          simp [Occurrence.plain, hbound])]
        show (s.listDays duration w' week days room₀ >>= _) = _
        rw [hrest']
        rfl

/-- Of a list without gaps, a window that begins later has the occurrences from there on. -/
theorem listWeeks_filter (hfirst : ∀ m, s.Visits m →
      m.before w'.first = (m.before w.first || m.before bound)) (hlast : w'.last = w.last)
    (hweek : s.IsWeek week) (hkind : s.kind = .customWeekly)
    (hday : s.start.wall.dayNumber < week.wall.dayNumber + 7) {weeks room' : Nat}
    (hroom : room ≤ room')
    (h : s.listWeeks duration w weeks room week = .ok (occurrences, false)) :
    s.listWeeks duration w' weeks room' week = .ok (startingFrom bound occurrences, false) := by
  induction weeks generalizing room room' week occurrences with
  | zero =>
    obtain ⟨weeks', hweeks, -⟩ := listWeeks_cases h
    cases hweeks
  | succ weeks ih =>
    obtain ⟨weeks', hweeks, ⟨hafter, rfl, -⟩ | ⟨hbefore, here, left, next, hhere, hnext,
      ⟨-, -, hmore⟩ | ⟨left₀, rest, rfl, rfl, hrest⟩⟩⟩ := listWeeks_cases h
    · exact listWeeks_of_after (by rw [hlast]; exact hafter)
    · cases hmore
    · cases hweeks
      -- the later window has at least as much room left for the weeks to come
      obtain ⟨left', hle, hhere'⟩ :=
        listDays_filter hfirst hlast hweek hkind hday (fun d hd => hd) hroom hhere
      obtain ⟨hnextWeek, hnextDay⟩ := hweek.plusDays
        (show week.plusDays (1 * 7 : Nat) = .ok next from hnext)
      have hrest' := ih hnextWeek (by omega) hle hrest
      rw [startingFrom, List.filter_append]
      exact listWeeks_succ (by rw [hlast]; exact hbefore) hhere' hnext hrest'

/-! ## Weeks before a window -/

theorem listDays_of_before (hweek : s.IsWeek week) (hkind : s.kind = .customWeekly)
    (hday : s.start.wall.dayNumber < week.wall.dayNumber + 7)
    (hbefore : ∀ m, s.Visits m → week.wall.dayNumber ≤ m.wall.dayNumber →
      m.wall.dayNumber < week.wall.dayNumber + 7 → m.before w.first = true)
    {days : List Nat} (hdays : ∀ d ∈ days, d ∈ s.weekdays.days)
    {left : Option Nat} (h : s.listDays duration w week days room = .ok (occurrences, left)) :
    occurrences = [] ∧ left = some room := by
  induction days with
  | nil =>
    cases h
    exact ⟨rfl, rfl⟩
  | cons d days ih =>
    obtain ⟨start, finish, hstart, -, ⟨-, h⟩ | ⟨hin, -⟩⟩ := listDays_cases h
    · exact ih (fun d' hd' => hdays d' (List.mem_cons_of_mem d hd')) h
    · have hd := hdays d List.mem_cons_self
      have hrange := s.weekdays.inWeek d hd
      have hstartDay := (Moment.plusDays_dayNumber hstart).1
      have hgone := hbefore start (hweek.visits_plusDays hkind hday hd hstart) (by omega) (by omega)
      simp [hgone] at hin

/-- More weeks of the calendar make no difference. -/
theorem listWeeks_fuel {weeks : Nat} {more : Bool}
    (h : s.listWeeks duration w weeks room week = .ok (occurrences, more)) :
    s.listWeeks duration w (weeks + 1) room week = .ok (occurrences, more) := by
  induction weeks generalizing room week occurrences with
  | zero =>
    obtain ⟨weeks', hweeks, -⟩ := listWeeks_cases h
    cases hweeks
  | succ weeks ih =>
    obtain ⟨weeks', hweeks, ⟨hafter, rfl, rfl⟩ | ⟨hbefore, here, left, next, hhere, hnext,
      ⟨rfl, rfl, rfl⟩ | ⟨left₀, rest, rfl, rfl, hrest⟩⟩⟩ := listWeeks_cases h
    · exact listWeeks_of_after hafter
    · exact listWeeks_of_full hbefore hhere hnext
    · cases hweeks
      exact listWeeks_succ hbefore hhere hnext (ih hrest)

/-- Weeks whose days all lie before a window can be left out. -/
theorem listWeeks_skip (hkind : s.kind = .customWeekly) (hweek : s.IsWeek week)
    (hday : s.start.wall.dayNumber < week.wall.dayNumber + 7) {count weeks : Nat} {more : Bool}
    (hnext : week.plusDays (count * 7 : Nat) = .ok next)
    (hbefore : ∀ m, s.Visits m → week.wall.dayNumber ≤ m.wall.dayNumber →
      m.wall.dayNumber < next.wall.dayNumber → m.before w.first = true)
    (h : s.listWeeks duration w weeks room week = .ok (occurrences, more)) :
    s.listWeeks duration w weeks room next = .ok (occurrences, more) := by
  obtain ⟨hnextWeek, hnextDay⟩ := hweek.plusDays hnext
  induction count generalizing week weeks with
  | zero =>
    have hself := (hnextWeek.alike.trans hweek.alike.symm).eq (by omega)
      (hnextWeek.earlier.trans hweek.earlier.symm)
    rw [hself]
    exact h
  | succ count ih =>
    obtain ⟨weeks, rfl, ⟨hafter, rfl, rfl⟩ | ⟨-, here, left, following, hhere, hfollowing,
      hcases⟩⟩ := listWeeks_cases h
    · -- if the week starts after the window, so do all later ones
      apply listWeeks_of_after
      rw [← Bool.not_eq_true] at hafter ⊢
      intro hupTo
      exact hafter (Moment.upTo_of_dayNumber_lt (hnextWeek.alike.trans hweek.alike.symm)
        (by omega) hupTo)
    · -- the first week lists nothing and takes no room
      obtain ⟨rfl, rfl⟩ := listDays_of_before hweek hkind hday
        (fun m hm hle hlt => hbefore m hm hle (by omega)) (fun d hd => hd) hhere
      obtain ⟨hnone, -⟩ | ⟨room', rest, hroom, rfl, hrest⟩ := hcases
      · cases hnone
      · cases hroom
        obtain ⟨hfollowingWeek, hfollowingDay⟩ := hweek.plusDays
          (show week.plusDays (1 * 7 : Nat) = .ok following from hfollowing)
        have hplus : following.plusDays (count * 7 : Nat) = .ok next :=
          hfollowingWeek.plusDays_eq_ok hnextWeek (by omega)
        exact listWeeks_fuel (ih hfollowingWeek (by omega) hplus
          (fun m hm hle hlt => hbefore m hm (by omega) hlt) hrest (by omega))

/-! ## The first week -/

/-- The weeks that are left out before a window, counted from a Sunday on. -/
def skippedWeeks (w : Window) (sunday : Moment) : Nat :=
  ((w.first.since sunday).fdiv (7 * microsPerDay) - 1).toNat

/-- Whatever the zones, the weeks that are left out lie before the window, so that they lie in the
    calendar. -/
theorem exists_week_of_sunday (w : Window) (sunday : Moment) :
    ∃ week, sunday.plusDays (skippedWeeks w sunday * 7 : Nat) = .ok week := by
  refine Moment.exists_plus_eq_ok_iff.mpr ?_
  have hcalendar := w.first.wall.inCalendar
  have hcalendar' := sunday.wall.inCalendar
  have hsince := (Moment.since_bounds w.first sunday).2
  unfold skippedWeeks
  rw [Int.fdiv_eq_ediv_of_nonneg _ (by decide)]
  simp only [microsPerDay] at hsince ⊢
  omega

/-- Listing starts with the Sunday of the anchor's week and leaves out weeks before the window. -/
theorem listListed_eq_ok_iff {cap : Int} {e : Expansion} : s.listListed w cap = .ok e ↔
    ∃ duration sunday week occurrences more, s.duration = .ok duration ∧
      s.start.plusDays (-((s.start.calendarWeekday : Int) - 1)) = .ok sunday ∧
      sunday.plusDays (skippedWeeks w sunday * 7 : Nat) = .ok week ∧
      s.listWeeks duration w calendarWeeks cap.toNat week = .ok (occurrences, more) ∧
      e = ⟨s.seriesId, occurrences, if more then .capped else .complete⟩ := by
  have hplus {sunday : Moment} (hsunday : sunday.later = false) :
      (if 0 < (w.first.since sunday).fdiv (7 * microsPerDay) - 1 then
        sunday.plusDays (((w.first.since sunday).fdiv (7 * microsPerDay) - 1) * 7)
        else .ok sunday) = sunday.plusDays (skippedWeeks w sunday * 7 : Nat) := by
    unfold skippedWeeks
    split
    · rename_i hpos
      congr 1
      omega
    · rename_i hneg
      rw [Int.toNat_of_nonpos (by omega)]
      symm
      rw [Moment.plusDays_eq_ok_iff]
      exact ⟨by simp, hsunday, rfl⟩
  have hrun : s.listListed w cap = s.duration >>= fun duration =>
      s.start.plusDays (-((s.start.calendarWeekday : Int) - 1)) >>= fun sunday =>
        (if 0 < (w.first.since sunday).fdiv (7 * microsPerDay) - 1 then
          sunday.plusDays (((w.first.since sunday).fdiv (7 * microsPerDay) - 1) * 7)
          else .ok sunday) >>= fun week =>
            s.listWeeks duration w calendarWeeks cap.toNat week >>= fun listed =>
              .ok ⟨s.seriesId, listed.1, if listed.2 then .capped else .complete⟩ := by
    unfold listListed
    refine bind_congr fun duration => bind_congr fun sunday => ?_
    dsimp only
    split <;> rfl
  rw [hrun]
  simp only [bind_eq_ok_iff, Except.ok.injEq]
  constructor
  · rintro ⟨duration, hduration, sunday, hsunday, week, hweek, ⟨occurrences, more⟩, hlist, rfl⟩
    rw [hplus (Moment.plusDays_eq_ok_iff.mp hsunday).2.1] at hweek
    exact ⟨duration, sunday, week, occurrences, more, hduration, hsunday, hweek, hlist, rfl⟩
  · rintro ⟨duration, sunday, week, occurrences, more, hduration, hsunday, hweek, hlist, rfl⟩
    rw [← hplus (Moment.plusDays_eq_ok_iff.mp hsunday).2.1] at hweek
    exact ⟨duration, hduration, sunday, hsunday, week, hweek, (occurrences, more), hlist, rfl⟩

theorem isWeek_sunday {sunday : Moment}
    (h : s.start.plusDays (-((s.start.calendarWeekday : Int) - 1)) = .ok sunday) :
    s.IsWeek sunday ∧ s.start.wall.dayNumber < sunday.wall.dayNumber + 7 := by
  obtain ⟨hday, halike⟩ := Moment.plusDays_dayNumber h
  simp only [Moment.calendarWeekday, Moment.weekday] at hday
  exact ⟨⟨halike, (Moment.plusDays_eq_ok_iff.mp h).2.1, by omega⟩, by omega⟩

/-- The days of the weeks that are left out lie before the window, whatever the zones: a week is
    left that the clocks cannot make up for. -/
theorem before_of_skipped {sunday m : Moment} (hsunday : s.IsWeek sunday) (hm : s.Visits m)
    (hlow : sunday.wall.dayNumber ≤ m.wall.dayNumber)
    (hhigh : m.wall.dayNumber < sunday.wall.dayNumber + skippedWeeks w sunday * 7) :
    m.before w.first = true := by
  have hcount : (skippedWeeks w sunday : Int) =
      (w.first.since sunday).fdiv (7 * microsPerDay) - 1 := by
    unfold skippedWeeks at hhigh ⊢
    omega
  rw [Int.fdiv_eq_ediv_of_nonneg _ (by decide)] at hcount
  have hsub := (hm.alike.trans hsunday.alike.symm).micros_sub
  have hsince := Moment.since_sub_since_le (hsunday.alike.1.trans hm.alike.1.symm) w.first
  rw [Moment.before_eq_not_upTo, Moment.upTo, Bool.not_eq_true', decide_eq_false_iff_not]
  simp only [microsPerHour, microsPerDay] at *
  omega

/-! ## Whole lists -/

variable {cap : Int} {e e' : Expansion}

/-- From an earlier week on or from a later one, with what is left out before the window, the list
    is the same. -/
theorem listWeeks_of_skipped {sunday : Moment} {more : Bool} {count weeks : Nat}
    (hkind : s.kind = .customWeekly) (hsunday : s.IsWeek sunday)
    (hday : s.start.wall.dayNumber < sunday.wall.dayNumber + 7)
    (hle : count ≤ skippedWeeks w sunday) (hsame : ∀ m, s.Visits m →
      m.before w.first = true → m.before w'.first = true)
    (hweek : sunday.plusDays (count * 7 : Nat) = .ok week)
    (hnext : sunday.plusDays (skippedWeeks w sunday * 7 : Nat) = .ok next)
    (h : s.listWeeks duration w' weeks room week = .ok (occurrences, more)) :
    s.listWeeks duration w' weeks room next = .ok (occurrences, more) := by
  obtain ⟨hisWeek, hweekDay⟩ := hsunday.plusDays hweek
  obtain ⟨hisNext, hnextDay⟩ := hsunday.plusDays hnext
  have hplus : week.plusDays ((skippedWeeks w sunday - count) * 7 : Nat) = .ok next :=
    hisWeek.plusDays_eq_ok hisNext (by omega)
  refine listWeeks_skip hkind hisWeek (by omega) hplus (fun m hm hlow hhigh => ?_) h
  exact hsame m hm (before_of_skipped hsunday hm (by omega) (by omega))

/-- Windows that stand alike to all that is held against them have the same list. -/
theorem listListed_of_sameFor (hkind : s.kind = .customWeekly) (hsame : s.SameFor w w')
    (h : s.listListed w cap = .ok e) (h' : s.listListed w' cap = .ok e') : e' = e := by
  obtain ⟨duration, sunday, week, occurrences, more, hduration, hsunday, hweek, hlist, rfl⟩ :=
    listListed_eq_ok_iff.mp h
  obtain ⟨duration', sunday', week', occurrences', more', hduration', hsunday', hweek', hlist',
    rfl⟩ := listListed_eq_ok_iff.mp h'
  rw [hduration, Except.ok.injEq] at hduration'
  rw [hsunday, Except.ok.injEq] at hsunday'
  subst hduration' hsunday'
  obtain ⟨hisSunday, hday⟩ := isWeek_sunday hsunday
  obtain ⟨hisWeek, hweekDay⟩ := hisSunday.plusDays hweek
  obtain ⟨hisWeek', hweekDay'⟩ := hisSunday.plusDays hweek'
  -- the one that starts with the earlier week also starts with the later one
  suffices heq : (occurrences, more) = (occurrences', more') by
    cases heq
    rfl
  rcases Nat.le_total (skippedWeeks w sunday) (skippedWeeks w' sunday) with hle | hle
  · rw [listWeeks_congr hsame hduration hisWeek hkind (by omega)] at hlist
    have hskip := listWeeks_of_skipped hkind hisSunday hday hle (fun m _ hm => hm) hweek hweek'
      hlist
    rw [hskip] at hlist'
    exact Except.ok.inj hlist'
  · rw [← listWeeks_congr hsame hduration hisWeek' hkind (by omega)] at hlist'
    have hskip := listWeeks_of_skipped hkind hisSunday hday hle (fun m _ hm => hm) hweek' hweek
      hlist'
    rw [hskip] at hlist
    exact (Except.ok.inj hlist).symm

/-- Of a list without gaps, a window that begins later has the occurrences from there on. -/
theorem listListed_filter (hkind : s.kind = .customWeekly) (h : s.listListed w cap = .ok e)
    (hcomplete : e.truncated = false) (h' : s.listListed w' cap = .ok e')
    (hlast : w'.last = w.last)
    (hfirst : ∀ m, s.Visits m → m.before w'.first = (m.before w.first || m.before bound)) :
    e'.truncated = false ∧ e'.occurrences = startingFrom bound e.occurrences := by
  obtain ⟨duration, sunday, week, occurrences, more, hduration, hsunday, hweek, hlist, rfl⟩ :=
    listListed_eq_ok_iff.mp h
  obtain ⟨duration', sunday', week', occurrences', more', hduration', hsunday', hweek', hlist',
    rfl⟩ := listListed_eq_ok_iff.mp h'
  rw [hduration, Except.ok.injEq] at hduration'
  rw [hsunday, Except.ok.injEq] at hsunday'
  subst hduration' hsunday'
  obtain rfl : more = false := Expansion.more_eq_false hcomplete
  obtain ⟨hisSunday, hday⟩ := isWeek_sunday hsunday
  obtain ⟨hisWeek, hweekDay⟩ := hisSunday.plusDays hweek
  -- from the week of the earlier window on, the later one lists what is left; whichever of the two
  -- starts with the later week, the weeks between them list nothing
  suffices heq : (startingFrom bound occurrences, false) = (occurrences', more') by
    cases heq
    exact ⟨rfl, rfl⟩
  have hfilter := listWeeks_filter hfirst hlast hisWeek hkind (by omega) (Nat.le_refl _) hlist
  rcases Nat.le_total (skippedWeeks w sunday) (skippedWeeks w' sunday) with hle | hle
  · have hskip := listWeeks_of_skipped hkind hisSunday hday hle (fun m _ hm => hm) hweek hweek'
      hfilter
    rw [hskip] at hlist'
    exact Except.ok.inj hlist'
  · have hskip := listWeeks_of_skipped hkind hisSunday hday hle (fun m hm hbefore => by
      rw [hfirst m hm, hbefore, Bool.true_or]) hweek' hweek hlist'
    rw [hskip] at hfilter
    exact (Except.ok.inj hfilter).symm

/-- In the zone of the series a window that begins later is listed if an earlier one is. -/
theorem exists_listListed_of_later (hkind : s.kind = .customWeekly)
    (h : s.listListed w cap = .ok e) (hcomplete : e.truncated = false)
    (hzone : w.first.zone = s.anchorStart.zone) (hzone' : w'.first.zone = s.anchorStart.zone)
    (hle : w.first.wall.micros ≤ w'.first.wall.micros) (hlast : w'.last = w.last)
    (hfirst : ∀ m, s.Visits m → m.before w'.first = (m.before w.first || m.before bound)) :
    ∃ e', s.listListed w' cap = .ok e' := by
  obtain ⟨duration, sunday, week, occurrences, more, hduration, hsunday, hweek, hlist, rfl⟩ :=
    listListed_eq_ok_iff.mp h
  obtain rfl : more = false := Expansion.more_eq_false hcomplete
  obtain ⟨hisSunday, hday⟩ := isWeek_sunday hsunday
  obtain ⟨hisWeek, hweekDay⟩ := hisSunday.plusDays hweek
  have hsundayZone : sunday.zone = s.anchorStart.zone := hisSunday.alike.1.trans s.zone_start
  have hskipped : skippedWeeks w sunday ≤ skippedWeeks w' sunday := by
    unfold skippedWeeks
    rw [Moment.since_of_zone_eq (hzone.trans hsundayZone.symm),
      Moment.since_of_zone_eq (hzone'.trans hsundayZone.symm),
      Int.fdiv_eq_ediv_of_nonneg _ (by decide), Int.fdiv_eq_ediv_of_nonneg _ (by decide)]
    simp only [microsPerDay]
    omega
  obtain ⟨week', hweek'⟩ := exists_week_of_sunday w' sunday
  have hfilter := listWeeks_filter hfirst hlast hisWeek hkind (by omega) (Nat.le_refl _) hlist
  have hskip := listWeeks_of_skipped hkind hisSunday hday hskipped (fun m _ hm => hm) hweek hweek'
    hfilter
  exact ⟨_, listListed_eq_ok_iff.mpr
    ⟨duration, sunday, week', _, false, hduration, hsunday, hweek', hskip, rfl⟩⟩

theorem expand_eq_listListed (hkind : s.kind = .customWeekly)
    (hwindow : (w.clip s).isEmpty = false) : s.expand w cap = s.listListed (w.clip s) cap := by
  simp [expand, expandWithin, hwindow, hkind]

/-! ## What is listed -/

/-- An occurrence of a listed day that lies in a window. -/
structure IsListed (s : Series) (w : Window) (o : Occurrence) : Prop where
  visits : s.Visits o.start
  finish : ∃ duration, s.duration = .ok duration ∧ o.start.plus duration = .ok o.finish
  first : o.start.before w.first = false
  last : w.last.before o.finish = false

theorem isListed_of_listDays (hduration : s.duration = .ok duration) (hweek : s.IsWeek week)
    (hkind : s.kind = .customWeekly) (hday : s.start.wall.dayNumber < week.wall.dayNumber + 7)
    {days : List Nat} (hdays : ∀ d ∈ days, d ∈ s.weekdays.days) {left : Option Nat}
    (h : s.listDays duration w week days room = .ok (occurrences, left)) :
    ∀ o ∈ occurrences, s.IsListed w o := by
  induction days generalizing room occurrences left with
  | nil =>
    cases h
    simp
  | cons d days ih =>
    have hdays' : ∀ d' ∈ days, d' ∈ s.weekdays.days :=
      fun d' hd' => hdays d' (List.mem_cons_of_mem d hd')
    obtain ⟨start, finish, hstart, hfinish, ⟨-, hrest⟩ | ⟨hin, ⟨-, rfl, -⟩ |
      ⟨room', rest, -, rfl, hrest⟩⟩⟩ := listDays_cases h
    · exact ih hdays' hrest
    · simp
    · intro o ho
      rcases List.mem_cons.mp ho with rfl | ho
      · simp only [Bool.or_eq_false_iff] at hin
        exact ⟨hweek.visits_plusDays hkind hday (hdays d List.mem_cons_self) hstart,
          ⟨duration, hduration, hfinish⟩, hin.1.2, hin.2⟩
      · exact ih hdays' hrest o ho

theorem isListed_of_listWeeks (hduration : s.duration = .ok duration) (hweek : s.IsWeek week)
    (hkind : s.kind = .customWeekly) (hday : s.start.wall.dayNumber < week.wall.dayNumber + 7)
    {weeks : Nat} {more : Bool}
    (h : s.listWeeks duration w weeks room week = .ok (occurrences, more)) :
    ∀ o ∈ occurrences, s.IsListed w o := by
  induction weeks generalizing room week occurrences with
  | zero =>
    obtain ⟨weeks', hweeks, -⟩ := listWeeks_cases h
    cases hweeks
  | succ weeks ih =>
    obtain ⟨weeks', hweeks, ⟨-, rfl, -⟩ | ⟨-, here, left, next, hhere, hnext, hcases⟩⟩ :=
      listWeeks_cases h
    · simp
    · cases hweeks
      have hlisted := isListed_of_listDays hduration hweek hkind hday (fun d hd => hd) hhere
      obtain ⟨-, rfl, -⟩ | ⟨left₀, rest, -, rfl, hrest⟩ := hcases
      · exact hlisted
      · obtain ⟨hnextWeek, hnextDay⟩ := hweek.plusDays
          (show week.plusDays (1 * 7 : Nat) = .ok next from hnext)
        intro o ho
        rcases List.mem_append.mp ho with ho | ho
        · exact hlisted o ho
        · exact ih hnextWeek (by omega) hrest o ho

theorem isListed_of_listListed (hkind : s.kind = .customWeekly)
    (h : s.listListed w cap = .ok e) : ∀ o ∈ e.occurrences, s.IsListed w o := by
  obtain ⟨duration, sunday, week, occurrences, more, hduration, hsunday, hweek, hlist, rfl⟩ :=
    listListed_eq_ok_iff.mp h
  obtain ⟨hisSunday, hday⟩ := isWeek_sunday hsunday
  obtain ⟨hisWeek, hweekDay⟩ := hisSunday.plusDays hweek
  exact isListed_of_listWeeks hduration hisWeek hkind (by omega) hlist

end Series

end EventCalendar
