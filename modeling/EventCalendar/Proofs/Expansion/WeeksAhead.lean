/-
  EventCalendar.Proofs.Expansion.WeeksAhead

  What listing week by week needs of the calendar: the Sunday of the first week,
  the one after the last, and the ends of all listed days that are come by, in
  the window or not.  With what listing period by period needs this tells for
  every series, window and cap whether an expansion returns, and what.
-/

import EventCalendar.Proofs.Expansion.LookAhead
import EventCalendar.Proofs.Expansion.WeekRuns

namespace EventCalendar

open EventCalendar.Time

/-! ## Ends of all that is come by -/

/-- All starts that are come by have ends: those up to the first one that is kept when there is no
    more room. -/
def HaveEnds (keeps : Moment → Bool) (duration : Int) (room : Nat) (starts : List Moment) : Prop :=
  ∀ before m after, starts = before ++ m :: after → before.countP keeps ≤ room →
    ∃ finish, m.plus duration = .ok finish

namespace HaveEnds

variable {keeps : Moment → Bool} {duration : Int} {room : Nat} {m : Moment} {a b : List Moment}

theorem nil : HaveEnds keeps duration room [] := by
  intro before m after h
  simp at h

/-- One start has an end, and those after it in the room that it leaves, if it leaves any. -/
theorem cons_iff : HaveEnds keeps duration room (m :: a) ↔
    (∃ finish, m.plus duration = .ok finish) ∧
      ([m].countP keeps ≤ room → HaveEnds keeps duration (room - [m].countP keeps) a) := by
  constructor
  · intro h
    refine ⟨h [] m a rfl (Nat.zero_le _), fun hroom before m' after ha hcount => ?_⟩
    refine h (m :: before) m' after (by rw [ha, List.cons_append]) ?_
    rw [← List.singleton_append, List.countP_append]
    omega
  · rintro ⟨hm, ha⟩ before m' after hsplit hcount
    cases before with
    | nil =>
      rw [List.nil_append, List.cons.injEq] at hsplit
      rw [← hsplit.1]
      exact hm
    | cons m₀ before =>
      rw [List.cons_append, List.cons.injEq] at hsplit
      rw [← List.singleton_append, List.countP_append, ← hsplit.1] at hcount
      exact ha (by omega) before m' after hsplit.2 (by omega)

theorem append_iff : HaveEnds keeps duration room (a ++ b) ↔
    HaveEnds keeps duration room a ∧
      (a.countP keeps ≤ room → HaveEnds keeps duration (room - a.countP keeps) b) := by
  -- along the first list, in the room that the starts before leave
  induction a generalizing room with
  | nil => simp [nil]
  | cons m a ih =>
    have hsum : (m :: a).countP keeps = [m].countP keeps + a.countP keeps := by
      rw [← List.singleton_append, List.countP_append]
    rw [List.cons_append, cons_iff, cons_iff, and_assoc, hsum]
    refine and_congr_right fun _ => ?_
    by_cases hroom : [m].countP keeps ≤ room
    · simp only [hroom, true_implies, ih, Nat.sub_sub]
      refine and_congr_right fun _ => ?_
      rw [show a.countP keeps ≤ room - [m].countP keeps ↔
        [m].countP keeps + a.countP keeps ≤ room by omega]
    · have hsum' : ¬ [m].countP keeps + a.countP keeps ≤ room := by omega
      simp only [hroom, hsum', false_implies, and_self]

end HaveEnds

namespace Series

variable {s : Series} {w : Window} {duration : Int} {week next : Moment} {room : Nat}
  {occurrences : List Occurrence}

/-! ## The days of one week -/

/-- A start is kept if its occurrence lies in the window and not before the anchor. -/
def keeps (s : Series) (w : Window) (duration : Int) (start : Moment) : Bool :=
  !start.before s.start && w.encloses duration start

theorem keeps_of_plus {start finish : Moment} (h : start.plus duration = .ok finish) :
    s.keeps w duration start =
      !(start.before s.start || start.before w.first || w.last.before finish) := by
  rw [keeps, Window.encloses, h, Moment.before_eq_not_upTo w.last]
  simp [Except.toOption, Bool.and_assoc]

/-- The given days of a week, from its Sunday on. -/
def daysOf (week : Moment) (days : List Nat) : List Moment :=
  days.filterMap fun d : Nat => (week.plusDays ((d : Int) - 1)).toOption

/-- A week's listed days that are in the calendar contribute as far as there is room. -/
theorem listDays_eq_ok_iff {days : List Nat} {left : Option Nat}
    (hdays : ∀ d ∈ days, ∃ start, week.plusDays ((d : Int) - 1) = .ok start) :
    s.listDays duration w week days room = .ok (occurrences, left) ↔
      HaveEnds (s.keeps w duration) duration room (daysOf week days) ∧
        (((daysOf week days).filter (s.keeps w duration)).take room).mapM
          (Occurrence.startingAt duration) = .ok occurrences ∧
        left = if (daysOf week days).countP (s.keeps w duration) ≤ room then
          some (room - (daysOf week days).countP (s.keeps w duration)) else none := by
  -- along the days: a day without an end fails, one that is not kept takes no room, and one that is
  -- kept takes a place or, if there is none, ends the week
  induction days generalizing room occurrences left with
  | nil =>
    simp [listDays, daysOf, HaveEnds.nil, eq_comm]
  | cons d days ih =>
    obtain ⟨start, hstart⟩ := hdays d List.mem_cons_self
    have ih {room : Nat} {occurrences : List Occurrence} {left : Option Nat} :=
      @ih room occurrences left fun d' hd' => hdays d' (List.mem_cons_of_mem d hd')
    have hcons : daysOf week (d :: days) = start :: daysOf week days := by
      rw [daysOf, List.filterMap_cons, hstart]
      rfl
    unfold listDays
    rw [hstart, ok_bind, hcons, HaveEnds.cons_iff]
    cases hfinish : start.plus duration with
    | error e => simp
    | ok finish =>
      have hkeeps := keeps_of_plus (s := s) (w := w) hfinish
      rw [ok_bind]
      cases hkept : s.keeps w duration start with
      | false =>
        rw [hkept, eq_comm, Bool.not_eq_false'] at hkeeps
        rw [if_pos hkeeps, ih]
        simp [hkept]
      | true =>
        rw [hkept, eq_comm, Bool.not_eq_true'] at hkeeps
        rw [if_neg (by simp [hkeeps])]
        cases room with
        | zero => simp [hkept, eq_comm]
        | succ room =>
          have hstarting := Occurrence.startingAt_eq_ok_iff.mpr ⟨finish, hfinish, rfl⟩
          show (s.listDays duration w week days room >>= fun listed =>
            .ok (.plain start finish :: listed.1, listed.2)) = _ ↔ _
          simp only [bind_eq_ok_iff, Prod.exists, ih, List.filter_cons_of_pos hkept,
            List.take_succ_cons, List.mapM_cons, hstarting, ok_bind, pure_eq_ok,
            List.countP_cons_of_pos hkept, List.countP_nil, Nat.add_le_add_iff_right,
            Nat.add_sub_add_right, Except.ok.injEq, Prod.mk.injEq]
          constructor
          · rintro ⟨rest, _, ⟨hends, hlisted, rfl⟩, rfl, rfl⟩
            exact ⟨⟨⟨finish, rfl⟩, fun _ => hends⟩, ⟨rest, hlisted, rfl⟩, rfl⟩
          · rintro ⟨⟨-, hends⟩, ⟨rest, hlisted, rfl⟩, rfl⟩
            exact ⟨rest, _, ⟨hends (by omega), hlisted, rfl⟩, rfl, rfl⟩

/-! ## Week after week -/

/-- The listed days of some weeks, from the Sunday of the first one on. -/
def daysOfWeeks (s : Series) : (weeks : Nat) → (week : Moment) → List Moment
  | 0, _ => []
  | weeks + 1, week =>
    daysOf week s.weekdays.days ++ (week.plusDays 7).toOption.elim [] (s.daysOfWeeks weeks)

theorem daysOfWeeks_succ (hnext : week.plusDays 7 = .ok next) (weeks : Nat) :
    s.daysOfWeeks (weeks + 1) week =
      daysOf week s.weekdays.days ++ s.daysOfWeeks weeks next := by
  rw [daysOfWeeks, hnext]
  rfl

theorem daysOfWeeks_one (hnext : week.plusDays 7 = .ok next) :
    s.daysOfWeeks 1 week = daysOf week s.weekdays.days := by
  rw [daysOfWeeks_succ hnext, daysOfWeeks, List.append_nil]

/-- Up to a Sunday that is in the calendar, so are the days of the week before it. -/
theorem exists_day_of_next (hnext : week.plusDays 7 = .ok next) :
    ∀ d ∈ s.weekdays.days, ∃ start, week.plusDays ((d : Int) - 1) = .ok start := by
  intro d hd
  have hrange := s.weekdays.inWeek d hd
  have hday := (Moment.plusDays_dayNumber hnext).1
  have hlt := next.wall.dayNumber_lt
  exact Moment.exists_plusDays_eq_ok_iff.mpr ⟨by omega, by omega⟩

/-- Listing goes through these weeks, up to a Sunday at which it is over: it comes after the window,
    or there is no more room. -/
structure RunsTo (s : Series) (w : Window) (duration : Int) (room : Nat) (week next : Moment)
    (weeks : Nat) : Prop where
  reached : week.plusDays (weeks * 7 : Nat) = .ok next
  begun : ∀ m, s.IsWeek m → week.wall.dayNumber ≤ m.wall.dayNumber →
    m.wall.dayNumber < next.wall.dayNumber → m.upTo w.last = true
  ends : HaveEnds (s.keeps w duration) duration room (s.daysOfWeeks weeks week)
  finished : next.upTo w.last = false ∨
    room < (s.daysOfWeeks weeks week).countP (s.keeps w duration)

theorem runsTo_self (hweek : s.IsWeek week) (hafter : week.upTo w.last = false) :
    s.RunsTo w duration room week week 0 where
  reached := Moment.plusDays_eq_ok_iff.mpr ⟨by simp, hweek.earlier, rfl⟩
  begun := by omega
  ends := .nil
  finished := .inl hafter

/-- The only Sunday of a week is its first day. -/
theorem IsWeek.eq_of_lt {m : Moment} (hweek : s.IsWeek week) (hm : s.IsWeek m)
    (hlow : week.wall.dayNumber ≤ m.wall.dayNumber)
    (hhigh : m.wall.dayNumber < week.wall.dayNumber + 7) : m = week := by
  have hsunday := hweek.sunday
  have hsunday' := hm.sunday
  exact (hm.alike.trans hweek.alike.symm).eq (by omega) (hm.earlier.trans hweek.earlier.symm)

/-- A week that leaves no room is the last one. -/
theorem runsTo_one (hweek : s.IsWeek week) (hnext : week.plusDays 7 = .ok next)
    (hlast : week.upTo w.last = true)
    (hends : HaveEnds (s.keeps w duration) duration room (daysOf week s.weekdays.days))
    (hfull : room < (daysOf week s.weekdays.days).countP (s.keeps w duration)) :
    s.RunsTo w duration room week next 1 := by
  obtain ⟨-, hnextDay⟩ := hweek.plusDays (show week.plusDays (1 * 7 : Nat) = .ok next from hnext)
  refine ⟨hnext, ?_, ?_, ?_⟩
  · intro m hm hlow hhigh
    rw [hweek.eq_of_lt hm hlow (by omega)]
    exact hlast
  · rw [daysOfWeeks_one hnext]
    exact hends
  · rw [daysOfWeeks_one hnext]
    exact .inr hfull

/-- One week with room left over, and those from the next one on. -/
theorem runsTo_succ_iff {following : Moment} {weeks : Nat} (hweek : s.IsWeek week)
    (hfollowing : week.plusDays 7 = .ok following)
    (hroom : (daysOf week s.weekdays.days).countP (s.keeps w duration) ≤ room) :
    s.RunsTo w duration room week next (weeks + 1) ↔ week.upTo w.last = true ∧
      HaveEnds (s.keeps w duration) duration room (daysOf week s.weekdays.days) ∧
      s.RunsTo w duration (room - (daysOf week s.weekdays.days).countP (s.keeps w duration))
        following next weeks := by
  obtain ⟨hfollowingWeek, hfollowingDay⟩ := hweek.plusDays
    (show week.plusDays (1 * 7 : Nat) = .ok following from hfollowing)
  have hdays := daysOfWeeks_succ (s := s) hfollowing weeks
  constructor
  · rintro ⟨hreached, hbegun, hends, hfinished⟩
    obtain ⟨hnextWeek, hnextDay⟩ := hweek.plusDays hreached
    rw [hdays, HaveEnds.append_iff] at hends
    rw [hdays, List.countP_append] at hfinished
    refine ⟨hbegun week hweek (Nat.le_refl _) (by omega), hends.1, ?_, ?_, hends.2 hroom,
      hfinished.imp_right fun hfull => by omega⟩
    · exact hfollowingWeek.plusDays_eq_ok hnextWeek (by omega)
    · intro m hm hlow hhigh
      exact hbegun m hm (by omega) hhigh
  · rintro ⟨hlast, hends, hreached, hbegun, hends', hfinished⟩
    obtain ⟨hnextWeek, hnextDay⟩ := hfollowingWeek.plusDays hreached
    refine ⟨hweek.plusDays_eq_ok hnextWeek (by omega), ?_, ?_, ?_⟩
    · intro m hm hlow hhigh
      rcases Nat.lt_or_ge m.wall.dayNumber (week.wall.dayNumber + 7) with hlt | hge
      · rw [hweek.eq_of_lt hm hlow hlt]
        exact hlast
      · exact hbegun m hm (by omega) hhigh
    · rw [hdays, HaveEnds.append_iff]
      exact ⟨hends, fun _ => hends'⟩
    · rw [hdays, List.countP_append]
      exact hfinished.imp_right fun hfull => by omega

/-- What is kept of the first week and of those after it, as far as there is room. -/
theorem take_filter_daysOfWeeks {following : Moment} {weeks : Nat}
    (hfollowing : week.plusDays 7 = .ok following) :
    ((s.daysOfWeeks (weeks + 1) week).filter (s.keeps w duration)).take room =
      ((daysOf week s.weekdays.days).filter (s.keeps w duration)).take room ++
        ((s.daysOfWeeks weeks following).filter (s.keeps w duration)).take
          (room - (daysOf week s.weekdays.days).countP (s.keeps w duration)) := by
  rw [daysOfWeeks_succ hfollowing, List.filter_append, List.take_append,
    List.countP_eq_length_filter]

/-- What a list tells is found in weeks that listing can go through. -/
theorem exists_runsTo_of_listWeeks {fuel : Nat} {more : Bool} (hweek : s.IsWeek week)
    (h : s.listWeeks duration w fuel room week = .ok (occurrences, more)) :
    ∃ weeks next, s.RunsTo w duration room week next weeks ∧
      (((s.daysOfWeeks weeks week).filter (s.keeps w duration)).take room).mapM
        (Occurrence.startingAt duration) = .ok occurrences ∧
      more = decide (room < (s.daysOfWeeks weeks week).countP (s.keeps w duration)) := by
  induction fuel generalizing week room occurrences with
  | zero =>
    obtain ⟨fuel', hfuel, -⟩ := listWeeks_cases h
    cases hfuel
  | succ fuel ih =>
    obtain ⟨fuel', hfuel', ⟨hafter, rfl, rfl⟩ | ⟨hlast, here, left, following, hhere, hfollowing,
      hcases⟩⟩ := listWeeks_cases h
    · refine ⟨0, week, runsTo_self hweek hafter, ?_, ?_⟩ <;> simp [daysOfWeeks]
    cases hfuel'
    obtain ⟨hends, hlisted, hleft⟩ :=
      (listDays_eq_ok_iff (exists_day_of_next hfollowing)).mp hhere
    obtain ⟨rfl, rfl, rfl⟩ | ⟨room', rest, rfl, rfl, hrest⟩ := hcases
    · -- there is no more room in the first week, so that it is the last one
      split at hleft
      · cases hleft
      rename_i hfull
      rw [Nat.not_le] at hfull
      refine ⟨1, following, runsTo_one hweek hfollowing hlast hends hfull, ?_, ?_⟩
      · rw [daysOfWeeks_one hfollowing]
        exact hlisted
      · rw [daysOfWeeks_one hfollowing]
        simp [hfull]
    · split at hleft
      · rename_i hroom
        rw [Option.some.injEq] at hleft
        subst hleft
        obtain ⟨hfollowingWeek, -⟩ := hweek.plusDays
          (show week.plusDays (1 * 7 : Nat) = .ok following from hfollowing)
        obtain ⟨weeks, next, hruns, hlisted', rfl⟩ := ih hfollowingWeek hrest
        refine ⟨weeks + 1, next,
          (runsTo_succ_iff hweek hfollowing hroom).mpr ⟨hlast, hends, hruns⟩, ?_, ?_⟩
        · rw [take_filter_daysOfWeeks hfollowing, mapM_append_eq_ok_iff]
          exact ⟨here, rest, hlisted, hlisted', rfl⟩
        · rw [daysOfWeeks_succ hfollowing, List.countP_append, decide_eq_decide]
          omega
      · cases hleft

/-- Weeks that listing can go through are listed, with as much fuel as the calendar has weeks. -/
theorem listWeeks_of_runsTo {fuel weeks : Nat} (hweek : s.IsWeek week)
    (hfuel : dayCount ≤ week.wall.dayNumber + fuel * 7)
    (hruns : s.RunsTo w duration room week next weeks)
    (hlisted : (((s.daysOfWeeks weeks week).filter (s.keeps w duration)).take room).mapM
      (Occurrence.startingAt duration) = .ok occurrences) :
    s.listWeeks duration w fuel room week = .ok (occurrences,
      decide (room < (s.daysOfWeeks weeks week).countP (s.keeps w duration))) := by
  induction weeks generalizing week room occurrences fuel with
  | zero =>
    have hlt := week.wall.dayNumber_lt
    obtain ⟨fuel, rfl⟩ : ∃ n, fuel = n + 1 := ⟨fuel - 1, by omega⟩
    obtain ⟨hnextWeek, hnextDay⟩ := hweek.plusDays hruns.reached
    have hafter := hruns.finished.resolve_right (Nat.not_lt_zero room)
    rw [hweek.eq_of_lt hnextWeek (by omega) (by omega)] at hafter
    rw [listWeeks_of_after hafter]
    simpa [daysOfWeeks] using hlisted
  | succ weeks ih =>
    obtain ⟨-, hnextDay⟩ := hweek.plusDays hruns.reached
    have hlt := next.wall.dayNumber_lt
    obtain ⟨fuel, rfl⟩ : ∃ n, fuel = n + 1 := ⟨fuel - 1, by omega⟩
    have hlast := hruns.begun week hweek (Nat.le_refl _) (by omega)
    -- the next Sunday does not come after the one at which listing is over
    obtain ⟨following, hfollowing⟩ : ∃ following, week.plusDays 7 = .ok following :=
      Moment.exists_plusDays_eq_ok_iff.mpr ⟨by omega, by omega⟩
    rw [take_filter_daysOfWeeks hfollowing, mapM_append_eq_ok_iff] at hlisted
    obtain ⟨here, rest, hhere, hrest, rfl⟩ := hlisted
    have hends := hruns.ends
    rw [daysOfWeeks_succ hfollowing, HaveEnds.append_iff] at hends
    have hlistDays := (listDays_eq_ok_iff (exists_day_of_next hfollowing)).mpr
      ⟨hends.1, hhere, rfl⟩
    rw [daysOfWeeks_succ hfollowing, List.countP_append]
    split at hlistDays
    · rename_i hroom
      obtain ⟨-, -, hruns'⟩ := (runsTo_succ_iff hweek hfollowing hroom).mp hruns
      obtain ⟨hfollowingWeek, hfollowingDay⟩ := hweek.plusDays
        (show week.plusDays (1 * 7 : Nat) = .ok following from hfollowing)
      have hfuel' : dayCount ≤ following.wall.dayNumber + fuel * 7 := by omega
      rw [listWeeks_succ hlast hlistDays hfollowing (ih hfollowingWeek hfuel' hruns' hrest)]
      simp only [Except.ok.injEq, Prod.mk.injEq, true_and, decide_eq_decide]
      omega
    · -- the first week leaves no room, and nothing is listed of the others
      rename_i hfull
      rw [Nat.sub_eq_zero_of_le (by omega), List.take_zero, List.mapM_nil, pure_eq_ok,
        Except.ok.injEq] at hrest
      subst hrest
      rw [listWeeks_of_full hlast hlistDays hfollowing, List.append_nil,
        decide_eq_true (show room < _ by omega)]

/-! ## Whole lists -/

variable {cap : Int} {e : Expansion}

/-- These are the starts that are found in a window week by week, as far as they are asked for: what
    is kept of the weeks that listing goes through, from the Sunday of the anchor's week on but for
    weeks before the window. -/
def FindsByWeeks (s : Series) (w : Window) (duration : Int) (room : Nat) (starts : List Moment) :
    Prop :=
  ∃ sunday week weeks next,
    s.start.plusDays (-((s.start.calendarWeekday : Int) - 1)) = .ok sunday ∧
    sunday.plusDays (skippedWeeks w sunday * 7 : Nat) = .ok week ∧
    s.RunsTo w duration room week next weeks ∧
    starts = (s.daysOfWeeks weeks week).filter (s.keeps w duration)

/-- A list is made week by week exactly where the calendar has what is looked at for it. -/
theorem listListed_eq_ok_iff_finds : s.listListed w cap = .ok e ↔
    ∃ duration starts, s.duration = .ok duration ∧
      s.FindsByWeeks w duration cap.toNat starts ∧
      (starts.take cap.toNat).mapM (Occurrence.startingAt duration) = .ok e.occurrences ∧
      e = ⟨s.seriesId, e.occurrences,
        if cap.toNat < starts.length then .capped else .complete⟩ := by
  have hfuel (week : Moment) : dayCount ≤ week.wall.dayNumber + calendarWeeks * 7 := by
    simp only [calendarWeeks, dayCount]
    omega
  rw [listListed_eq_ok_iff]
  constructor
  · rintro ⟨duration, sunday, week, occurrences, more, hduration, hsunday, hweek, hlist, rfl⟩
    obtain ⟨hisWeek, -⟩ := (isWeek_sunday hsunday).1.plusDays hweek
    obtain ⟨weeks, next, hruns, hlisted, rfl⟩ := exists_runsTo_of_listWeeks hisWeek hlist
    refine ⟨duration, _, hduration, ⟨sunday, week, weeks, next, hsunday, hweek, hruns, rfl⟩,
      hlisted, ?_⟩
    simp [List.countP_eq_length_filter]
  · rintro ⟨duration, _, hduration, ⟨sunday, week, weeks, next, hsunday, hweek, hruns, rfl⟩,
      hlisted, he⟩
    obtain ⟨hisWeek, -⟩ := (isWeek_sunday hsunday).1.plusDays hweek
    refine ⟨duration, sunday, week, e.occurrences, _, hduration, hsunday, hweek,
      listWeeks_of_runsTo hisWeek (hfuel week) hruns hlisted, he.trans ?_⟩
    simp [List.countP_eq_length_filter]

/-- These are the starts that an expansion finds in a window, as far as they are asked for. -/
def Finds (s : Series) (w : Window) (duration : Int) (room : Nat) (starts : List Moment) : Prop :=
  if s.kind = .customWeekly then s.FindsByWeeks w duration room starts
  else s.FindsByPeriods w duration room starts

theorem isZoned_first_clip (s : Series) (w : Window) : (w.clip s).first.isZoned = true := by
  have hzoned (m : Moment) : m.zoned.isZoned = true := by
    simpa [Moment.isZoned] using m.zone_zoned_ne
  have hmem := (clip_mem w s).1
  rw [List.mem_cons, List.mem_cons] at hmem
  rcases hmem with h | h | h
  · rw [h]
    exact hzoned _
  · rw [h]
    exact hzoned _
  · exact s.zones _ h

/-- An expansion returns exactly where nothing lies in the window, or where the calendar has all
    that is looked at: the occurrences that are listed, at the first of the starts that are found,
    and the date-times around them that it takes to find these. -/
theorem expand_eq_ok_iff (s : Series) (w : Window) (cap : Int) (e : Expansion) :
    s.expand w cap = .ok e ↔
      (w.clip s).isEmpty = true ∧ e = ⟨s.seriesId, [], .emptyWindow⟩ ∨
      (w.clip s).isEmpty = false ∧ ∃ duration starts, s.duration = .ok duration ∧
        s.Finds (w.clip s) duration cap.toNat starts ∧
        (starts.take cap.toNat).mapM (Occurrence.startingAt duration) = .ok e.occurrences ∧
        e = ⟨s.seriesId, e.occurrences,
          if cap.toNat < starts.length then .capped else .complete⟩ := by
  cases hwindow : (w.clip s).isEmpty with
  | true => simp [expand_of_isEmpty hwindow, eq_comm]
  | false =>
    unfold Finds
    by_cases hkind : s.kind = .customWeekly
    · rw [expand_eq_listListed hkind hwindow, listListed_eq_ok_iff_finds]
      simp [hkind]
    · rw [expand_eq_listPeriods hkind hwindow,
        listPeriods_eq_ok_iff hkind (by decide) (s.isZoned_first_clip w)]
      simp [hkind]

/-- Every morning from nine to ten, from the last day but one of the calendar on. -/
def lastMornings : Series where
  seriesId := "last mornings"
  title := none
  description := none
  anchorStart := .onTheHour 3652057 9 (by decide)
  anchorEnd := some (.onTheHour 3652057 10 (by decide))
  allDay := false
  kind := .daily
  weekdays := .empty
  firstInstance := none
  lastInstance := none
  zones := by decide
  ends := by decide
  bounds := by decide
  listed := by decide

/-- The last two days of the calendar. -/
def lastDays : Window where
  first := .onTheHour 3652057 0 (by decide)
  last := .onTheHour 3652058 23 (by decide)

/-- Every Monday from nine to ten, from the first day of the calendar on. -/
def firstMondays : Series where
  seriesId := "first mondays"
  title := none
  description := none
  anchorStart := .onTheHour 0 9 (by decide)
  anchorEnd := some (.onTheHour 0 10 (by decide))
  allDay := false
  kind := .customWeekly
  weekdays := .ofList [2]
  firstInstance := none
  lastInstance := none
  zones := by decide
  ends := by decide
  bounds := by decide
  listed := by decide

/-- The first day of the calendar. -/
def firstDay : Window where
  first := .onTheHour 0 0 (by decide)
  last := .onTheHour 0 23 (by decide)

/-- Two mornings lie in the window, and their ends in the calendar, but there is no third morning to
    look at.  The first Monday lies in its window, but not the Sunday before it in the calendar. -/
theorem expand_fails_at_ends_of_calendar :
    (lastMornings.duration = .ok microsPerHour ∧
      (lastMornings.allStarts.filter ((lastDays.clip lastMornings).shows microsPerHour)).mapM
        (Occurrence.startingAt microsPerHour) =
          .ok [.plain (.onTheHour 3652057 9 (by decide)) (.onTheHour 3652057 10 (by decide)),
            .plain (.onTheHour 3652058 9 (by decide)) (.onTheHour 3652058 10 (by decide))] ∧
      lastMornings.expand lastDays 10 = .error .outOfRange) ∧
    firstMondays.duration = .ok microsPerHour ∧
      firstMondays.start ∈ firstMondays.enclosed (firstDay.clip firstMondays) microsPerHour ∧
      firstMondays.expand firstDay 10 = .error .outOfRange := by
  have hlast : lastMornings.allStarts =
      [.onTheHour 3652057 9 (by decide), .onTheHour 3652058 9 (by decide)] := by
    have hstep : lastMornings.pattern.step (.onTheHour 3652057 9 (by decide)) =
        .ok (.onTheHour 3652058 9 (by decide)) := by decide
    have hstep' : lastMornings.pattern.step (.onTheHour 3652058 9 (by decide)) =
        .error .outOfRange := by decide
    rw [allStarts_of_firstStart (show lastMornings.firstStart =
      .ok (.onTheHour 3652057 9 (by decide)) from rfl), Pattern.startsFrom_of_step_ok hstep,
      Pattern.startsFrom_of_step_error hstep']
  refine ⟨⟨rfl, ?_, rfl⟩, rfl, List.mem_filter.mpr ⟨?_, by decide⟩, rfl⟩
  · rw [hlast]
    decide
  · rw [allStarts_of_firstStart (show firstMondays.firstStart = .ok firstMondays.start from rfl)]
    exact Pattern.cursor_mem_startsFrom _ _

end Series

end EventCalendar
