/-
  EventCalendar.Proofs.Expansion.Weeks

  Listing week by week.  On clocks that keep their distances from each other the
  weeks, walked from Sunday to Sunday, give the starts that the steps from one
  listed weekday to the next lead to.
-/

import EventCalendar.Proofs.Expansion.Lengths
import EventCalendar.Proofs.Expansion.Periods
import EventCalendar.Proofs.Time.FixedClocks

namespace EventCalendar

open EventCalendar.Time

/-! ## Clocks that keep their distances -/

/-- On one scale for all zones, a distance is what the readings are apart. -/
def Steady (zones : Zone → Prop) : Prop :=
  ∃ shift : Zone → Int, ∀ a b : Moment, zones a.zone → zones b.zone →
    a.since b = (a.wall.micros - shift a.zone) - (b.wall.micros - shift b.zone)

theorem steady_eq (zone : Zone) : Steady (· = zone) := by
  refine ⟨fun _ => 0, ?_⟩
  intro a b ha hb
  rw [Moment.since_of_zone_eq (ha.trans hb.symm), Int.sub_zero, Int.sub_zero]

theorem steady_isFixed : Steady (·.isFixed = true) := by
  -- a clock with one offset has that of any reading
  refine ⟨fun zone => zone.offset ⟨0, by decide⟩ false * microsPerMinute, ?_⟩
  have hinstant (m : Moment) (hm : m.zone.isFixed = true) :
      m.instant = m.wall.micros - m.zone.offset ⟨0, by decide⟩ false * microsPerMinute := by
    unfold Moment.instant Moment.offset
    cases hzone : m.zone <;> simp [hzone, Zone.isFixed, Zone.offset] at hm ⊢
  intro a b ha hb
  by_cases h : a.zone = b.zone
  · rw [Moment.since_of_zone_eq h, h]
    omega
  · rw [Moment.since_of_zone_ne h, hinstant a ha, hinstant b hb]

/-! ## Days in order -/

/-- The starts from a day on. -/
def fromDay (day : Nat) (starts : List Moment) : List Moment :=
  starts.filter (day ≤ ·.wall.dayNumber)

theorem mem_fromDay {day : Nat} {starts : List Moment} {m : Moment} :
    m ∈ fromDay day starts ↔ m ∈ starts ∧ day ≤ m.wall.dayNumber := by
  simp [fromDay]

/-- Days without a start can be left out. -/
theorem fromDay_congr {day day' : Nat} {starts : List Moment} (hle : day ≤ day')
    (h : ∀ m ∈ starts, day ≤ m.wall.dayNumber → day' ≤ m.wall.dayNumber) :
    fromDay day starts = fromDay day' starts := by
  apply List.filter_congr
  intro m hm
  have := h m hm
  rw [decide_eq_decide]
  omega

theorem fromDay_eq_cons {starts : List Moment} {m : Moment}
    (hascending : starts.Pairwise fun a b => a.wall.dayNumber < b.wall.dayNumber)
    (hm : m ∈ starts) :
    fromDay m.wall.dayNumber starts = m :: fromDay (m.wall.dayNumber + 1) starts := by
  obtain ⟨before, after, rfl⟩ := List.append_of_mem hm
  obtain ⟨-, hafter, hbefore⟩ := List.pairwise_append.mp hascending
  have hgone (day : Nat) (hday : m.wall.dayNumber ≤ day) :
      before.filter (day ≤ ·.wall.dayNumber) = [] := by
    rw [List.filter_eq_nil_iff]
    intro a ha
    have := hbefore a ha m List.mem_cons_self
    simp only [decide_eq_true_eq]
    omega
  have hkept (day : Nat) (hday : day ≤ m.wall.dayNumber + 1) :
      after.filter (day ≤ ·.wall.dayNumber) = after := by
    rw [List.filter_eq_self]
    intro b hb
    have := (List.pairwise_cons.mp hafter).1 b hb
    simp only [decide_eq_true_eq]
    omega
  simp only [fromDay, List.filter_append, List.filter_cons, Nat.le_refl, decide_true, if_true,
    Nat.not_succ_le_self, decide_false, Bool.false_eq_true, if_false]
  rw [hgone _ (Nat.le_refl _), hgone _ (Nat.le_succ _), hkept _ (Nat.le_succ _),
    hkept _ (Nat.le_refl _)]
  simp

/-! ## Mondays and Wednesdays -/

/-- Every Monday and Wednesday from nine to ten, from 1 January 2024 on. -/
def mondaysAndWednesdays : Series where
  seriesId := "mondays and wednesdays"
  title := none
  description := none
  anchorStart := mondays.anchorStart
  anchorEnd := mondays.anchorEnd
  allDay := false
  kind := .customWeekly
  weekdays := .ofList [2, 4]
  firstInstance := none
  lastInstance := none
  zones := by decide
  ends := by decide
  bounds := by decide
  listed := by decide

/-! ## Starts in a window -/

/-- The occurrence at a start lies in a window. -/
def Window.encloses (w : Window) (duration : Int) (start : Moment) : Bool :=
  !start.before w.first && (start.plus duration).toOption.any (·.upTo w.last)

namespace Series

variable {s : Series} {duration : Int} {w : Window} {week m : Moment}

/-- The starts of a series whose occurrences lie in a window. -/
def enclosed (s : Series) (w : Window) (duration : Int) : List Moment :=
  s.allStarts.filter (w.encloses duration)

theorem mem_allStarts_of_listed (hkind : s.kind = .customWeekly) (hlater : s.start.later = false) :
    m ∈ s.allStarts ↔ m.Alike s.start ∧ m.later = false ∧
      s.start.wall.dayNumber ≤ m.wall.dayNumber ∧ m.calendarWeekday ∈ s.weekdays.days := by
  have hfits : s.fits m.wall.dayNumber = true ↔ m.calendarWeekday ∈ s.weekdays.days := by
    unfold fits Pattern.fits
    simp only [pattern, hkind, List.contains_iff_mem]
    rfl
  rw [mem_allStarts_iff (by simp [hkind, Kind.countsDays]), hfits]
  constructor
  · rintro ⟨halike, hlisted, rfl | ⟨hlt, hm⟩⟩
    · exact ⟨halike, hlater, Nat.le_refl _, hlisted⟩
    · exact ⟨halike, hm, Nat.le_of_lt hlt, hlisted⟩
  · rintro ⟨halike, hm, hle, hlisted⟩
    refine ⟨halike, hlisted, ?_⟩
    rcases Nat.lt_or_eq_of_le hle with hlt | heq
    · exact .inr ⟨hlt, hm⟩
    · exact .inl (halike.eq heq.symm (hm.trans hlater.symm))

/-! ## One week -/

/-- A Sunday at the time of day of the anchor. -/
structure IsWeek (s : Series) (week : Moment) : Prop where
  alike : week.Alike s.start
  earlier : week.later = false
  sunday : week.wall.dayNumber % 7 = 6

theorem IsWeek.plusDays {next : Moment} {weeks : Nat} (h : s.IsWeek week)
    (hnext : week.plusDays (weeks * 7 : Nat) = .ok next) :
    s.IsWeek next ∧ next.wall.dayNumber = week.wall.dayNumber + weeks * 7 := by
  obtain ⟨hday, halike⟩ := Moment.plusDays_dayNumber hnext
  have hsunday := h.sunday
  refine ⟨⟨halike.trans h.alike, (Moment.plusDays_eq_ok_iff.mp hnext).2.1, by omega⟩, by omega⟩

/-- The days of a week are numbered as calendars do. -/
theorem IsWeek.add_calendarWeekday (h : s.IsWeek week)
    (hlow : week.wall.dayNumber ≤ m.wall.dayNumber)
    (hhigh : m.wall.dayNumber < week.wall.dayNumber + 7) :
    week.wall.dayNumber + m.calendarWeekday = m.wall.dayNumber + 1 := by
  have hsunday := h.sunday
  simp only [Moment.calendarWeekday, Moment.weekday]
  omega

/-- The start that a listed day of a week gives is one of the series, unless it comes before the
    anchor. -/
theorem IsWeek.mem_allStarts_iff {start : Moment} {d : Nat} (h : s.IsWeek week)
    (hkind : s.kind = .customWeekly) (hlater : s.start.later = false) (hd : d ∈ s.weekdays.days)
    (hstart : week.plusDays ((d : Int) - 1) = .ok start) :
    start ∈ s.allStarts ↔ start.before s.start = false := by
  have hrange := s.weekdays.inWeek d hd
  obtain ⟨hday, halike⟩ := Moment.plusDays_dayNumber hstart
  have halike := halike.trans h.alike
  have hcount := h.add_calendarWeekday (show week.wall.dayNumber ≤ start.wall.dayNumber by omega)
    (by omega)
  have hlisted : start.calendarWeekday = d := by omega
  have hmicros := halike.micros_sub
  rw [mem_allStarts_of_listed hkind hlater, Moment.before, Moment.since_of_zone_eq halike.1,
    decide_eq_false_iff_not, hlisted]
  simp only [microsPerDay] at hmicros
  constructor
  · rintro ⟨-, -, hle, -⟩
    omega
  · intro hle
    exact ⟨halike, (Moment.plusDays_eq_ok_iff.mp hstart).2.1, by omega, hd⟩

/-- These listed days of a week are left from a day on. -/
structure DaysLeft (s : Series) (week : Moment) (day : Nat) (days : List Nat) : Prop where
  low : week.wall.dayNumber ≤ day
  high : day ≤ week.wall.dayNumber + 7
  listed : ∀ d ∈ days, d ∈ s.weekdays.days ∧ day < week.wall.dayNumber + d
  complete : ∀ d ∈ s.weekdays.days, day < week.wall.dayNumber + d → d ∈ days
  ascending : days.Pairwise (· < ·)

theorem daysLeft_all (s : Series) (week : Moment) :
    s.DaysLeft week week.wall.dayNumber s.weekdays.days where
  low := Nat.le_refl _
  high := Nat.le_add_right _ _
  listed := fun d hd => ⟨hd, by have := (s.weekdays.inWeek d hd).1; omega⟩
  complete := fun _ hd _ => hd
  ascending := s.weekdays.ascending

theorem DaysLeft.tail {day d : Nat} {days : List Nat} (h : s.DaysLeft week day (d :: days)) :
    s.DaysLeft week (week.wall.dayNumber + d) days := by
  obtain ⟨hlater, hascending⟩ := List.pairwise_cons.mp h.ascending
  obtain ⟨hd, hday⟩ := h.listed d List.mem_cons_self
  have hrange := s.weekdays.inWeek d hd
  refine ⟨by omega, by omega, ?_, ?_, hascending⟩
  · intro d' hd'
    have := hlater d' hd'
    exact ⟨(h.listed d' (List.mem_cons_of_mem d hd')).1, by omega⟩
  · intro d' hd' hlt
    have hlow := h.low
    rcases List.mem_cons.mp (h.complete d' hd' (by omega)) with rfl | hmem
    · omega
    · exact hmem

/-- Up to the first of the days that are left there is no start. -/
theorem DaysLeft.fromDay_eq {day next : Nat} {days : List Nat} (h : s.DaysLeft week day days)
    (hweek : s.IsWeek week) (hkind : s.kind = .customWeekly) (hlater : s.start.later = false)
    (hle : day ≤ next) (hhigh : next ≤ week.wall.dayNumber + 7)
    (hnext : ∀ d ∈ days, next < week.wall.dayNumber + d) :
    fromDay day (s.enclosed w duration) = fromDay next (s.enclosed w duration) := by
  apply fromDay_congr hle
  intro m hm hday
  rcases Nat.lt_or_ge m.wall.dayNumber (week.wall.dayNumber + 7) with hlt | hge
  · have hcount := hweek.add_calendarWeekday (Nat.le_trans h.low hday) hlt
    have hlisted :=
      ((mem_allStarts_of_listed hkind hlater).mp (List.mem_filter.mp hm).1).2.2.2
    have hlate := hnext _ (h.complete _ hlisted (by omega))
    omega
  · omega

/-- What is listed with some room: all starts before some others, with the room that is left over,
    or as many starts as there is room for. -/
def Listed (duration : Int) (starts others : List Moment) (room : Nat)
    (occurrences : List Occurrence) : (left : Option Nat) → Prop
  | some left => ∃ here, starts = here ++ others ∧
      here.mapM (Occurrence.startingAt duration) = .ok occurrences ∧ here.length + left = room
  | none => (starts.take room).mapM (Occurrence.startingAt duration) = .ok occurrences ∧
      room < starts.length

theorem Listed.cons {start : Moment} {starts others : List Moment} {room : Nat} {o : Occurrence}
    {occurrences : List Occurrence} {left : Option Nat}
    (hstart : Occurrence.startingAt duration start = .ok o)
    (h : Listed duration starts others room occurrences left) :
    Listed duration (start :: starts) others (room + 1) (o :: occurrences) left := by
  cases left with
  | none =>
    obtain ⟨hlisted, hroom⟩ := h
    constructor
    · rw [List.take_succ_cons, List.mapM_cons, hstart, ok_bind, hlisted]
      rfl
    · exact Nat.succ_lt_succ hroom
  | some left =>
    obtain ⟨here, rfl, hlisted, hroom⟩ := h
    refine ⟨start :: here, rfl, ?_, ?_⟩
    · rw [List.mapM_cons, hstart, ok_bind, hlisted]
      rfl
    · rw [List.length_cons]
      omega

/-- The days of a week that are left give the starts in it. -/
theorem listDays_spec (hkind : s.kind = .customWeekly) (hlater : s.start.later = false)
    (hweek : s.IsWeek week) {days : List Nat} {day room : Nat} {occurrences : List Occurrence}
    {left : Option Nat} (hdays : s.DaysLeft week day days)
    (h : s.listDays duration w week days room = .ok (occurrences, left)) :
    Listed duration (fromDay day (s.enclosed w duration))
      (fromDay (week.wall.dayNumber + 7) (s.enclosed w duration)) room occurrences left := by
  induction days generalizing day room occurrences left with
  | nil =>
    cases h
    exact ⟨[], hdays.fromDay_eq hweek hkind hlater hdays.high (Nat.le_refl _) (by simp), rfl,
      by simp⟩
  | cons d days ih =>
    obtain ⟨hd, hday⟩ := hdays.listed d List.mem_cons_self
    have hrange := s.weekdays.inWeek d hd
    unfold listDays at h
    obtain ⟨start, hstart, h⟩ := bind_eq_ok_iff.mp h
    obtain ⟨finish, hfinish, h⟩ := bind_eq_ok_iff.mp h
    obtain ⟨hstartDay, halike⟩ := Moment.plusDays_dayNumber hstart
    have hskip : fromDay day (s.enclosed w duration) =
        fromDay start.wall.dayNumber (s.enclosed w duration) := by
      apply hdays.fromDay_eq hweek hkind hlater (by omega) (by omega)
      intro d' hd'
      rcases List.mem_cons.mp hd' with rfl | hd'
      · omega
      · have := (hdays.tail.listed d' hd').2
        omega
    have hmem : start ∈ s.enclosed w duration ↔
        (start.before s.start || start.before w.first || w.last.before finish) = false := by
      rw [enclosed, List.mem_filter, hweek.mem_allStarts_iff hkind hlater hd hstart]
      simp [Window.encloses, hfinish, Except.toOption, Moment.upTo_eq_not_before, and_assoc]
    have hnext : start.wall.dayNumber + 1 = week.wall.dayNumber + d := by omega
    split at h
    · rename_i hout
      -- the only start on that day is left out
      have hgone : fromDay start.wall.dayNumber (s.enclosed w duration) =
          fromDay (week.wall.dayNumber + d) (s.enclosed w duration) := by
        apply fromDay_congr (by omega)
        intro m hm hle
        rcases Nat.lt_or_eq_of_le hle with hlt | heq
        · omega
        · have hm' := (mem_allStarts_of_listed hkind hlater).mp (List.mem_filter.mp hm).1
          have hsame := (hm'.1.trans (halike.trans hweek.alike).symm).eq heq.symm
            (hm'.2.1.trans (Moment.plusDays_eq_ok_iff.mp hstart).2.1.symm)
          subst hsame
          rw [hmem.mp hm] at hout
          cases hout
      rw [hskip, hgone]
      exact ih hdays.tail h
    · rename_i hin
      have hcons : fromDay start.wall.dayNumber (s.enclosed w duration) =
          start :: fromDay (week.wall.dayNumber + d) (s.enclosed w duration) := by
        rw [← hnext]
        exact fromDay_eq_cons (s.allStarts_ascending.filter _) (hmem.mpr (by simpa using hin))
      rw [hskip, hcons]
      cases room with
      | zero =>
        cases h
        exact ⟨rfl, by simp⟩
      | succ room =>
        obtain ⟨⟨rest, left'⟩, hrest, h⟩ := bind_eq_ok_iff.mp h
        cases h
        refine Listed.cons ?_ (ih hdays.tail hrest)
        rw [Occurrence.startingAt, hfinish, ok_bind, pure_eq_ok]

/-! ## Week after week -/

/-- Once a week starts after a window, no start of it or of a later week lies in the window. -/
theorem fromDay_enclosed_eq_nil {zones : Zone → Prop} (hsteady : Steady zones)
    (hstart : zones s.start.zone) (hlast : zones w.last.zone) (hduration : 0 ≤ duration)
    (hkind : s.kind = .customWeekly) (hlater : s.start.later = false) (hweek : s.IsWeek week)
    (hafter : week.upTo w.last = false) :
    fromDay week.wall.dayNumber (s.enclosed w duration) = [] := by
  obtain ⟨shift, hshift⟩ := hsteady
  rw [List.eq_nil_iff_forall_not_mem]
  intro m hm
  obtain ⟨hmem, hle⟩ := mem_fromDay.mp hm
  obtain ⟨hmem, hencloses⟩ := List.mem_filter.mp hmem
  have halike := ((mem_allStarts_of_listed hkind hlater).mp hmem).1
  have hmicros := (hweek.alike.trans halike.symm).micros_add_le (show _ + 0 ≤ _ from hle)
  simp only [Window.encloses, Bool.and_eq_true, Option.any_eq_true, Except.toOption] at hencloses
  obtain ⟨-, finish, hfinish, hupTo⟩ := hencloses
  split at hfinish
  · rename_i ending hplus
    cases hfinish
    -- the start is not before the week, nor the end before the start
    obtain ⟨hfinish, -, hzone⟩ := Moment.plus_eq_ok_iff.mp hplus
    have hzone := hzone.trans halike.1
    simp only [Moment.upTo, decide_eq_true_eq, decide_eq_false_iff_not] at hafter hupTo
    rw [hshift _ _ (by rwa [hzone]) hlast, hzone] at hupTo
    rw [hshift _ _ (by rwa [hweek.alike.1]) hlast, hweek.alike.1] at hafter
    omega
  · cases hfinish

/-- The weeks from a week on give the starts from there on that lie in the window. -/
theorem listWeeks_spec {zones : Zone → Prop} (hsteady : Steady zones)
    (hstart : zones s.start.zone) (hlast : zones w.last.zone) (hduration : 0 ≤ duration)
    (hkind : s.kind = .customWeekly) (hlater : s.start.later = false) (hweek : s.IsWeek week)
    {weeks room : Nat} {occurrences : List Occurrence} {more : Bool}
    (h : s.listWeeks duration w weeks room week = .ok (occurrences, more)) :
    ((fromDay week.wall.dayNumber (s.enclosed w duration)).take room).mapM
        (Occurrence.startingAt duration) = .ok occurrences ∧
      (more = true ↔ room < (fromDay week.wall.dayNumber (s.enclosed w duration)).length) := by
  induction weeks generalizing room week occurrences more with
  | zero =>
    rw [listWeeks] at h
    cases h
  | succ weeks ih =>
    unfold listWeeks at h
    split at h
    · rename_i hafter
      cases h
      rw [fromDay_enclosed_eq_nil hsteady hstart hlast hduration hkind hlater hweek
        (by simpa using hafter)]
      exact ⟨by simp, by simp⟩
    · obtain ⟨⟨here, left⟩, hhere, h⟩ := bind_eq_ok_iff.mp h
      obtain ⟨next, hnext, h⟩ := bind_eq_ok_iff.mp h
      have hdays := listDays_spec hkind hlater hweek (s.daysLeft_all week) hhere
      cases left with
      | none =>
        cases h
        exact ⟨hdays.1, by simpa using hdays.2⟩
      | some left =>
        -- the next week is listed with the room that this one leaves
        obtain ⟨⟨rest, more'⟩, hrest, h⟩ := bind_eq_ok_iff.mp h
        cases h
        obtain ⟨starts, hsplit, hlisted, hroom⟩ := hdays
        obtain ⟨hnextWeek, hnextDay⟩ := hweek.plusDays
          (show week.plusDays (1 * 7 : Nat) = .ok next from hnext)
        obtain ⟨hrestListed, hmore⟩ := ih hnextWeek hrest
        rw [hnextDay, Nat.one_mul] at hrestListed hmore
        rw [hsplit, ← hroom]
        constructor
        · rw [List.take_length_add_append, List.mapM_append, hlisted, ok_bind, hrestListed]
          rfl
        · rw [hmore, List.length_append]
          omega

/-! ## The first week -/

/-- The Sunday of the anchor's week, and the weeks that are left out, lie before all starts in the
    window. -/
theorem fromDay_enclosed_eq_self (duration : Int) {zones : Zone → Prop} (hsteady : Steady zones)
    (hstart : zones s.start.zone) (hfirst : zones w.first.zone)
    (hkind : s.kind = .customWeekly) (hlater : s.start.later = false)
    {sunday week : Moment}
    (hsunday : s.start.plusDays (-((s.start.calendarWeekday : Int) - 1)) = .ok sunday)
    (hweek : (if 0 < (w.first.since sunday).fdiv (7 * microsPerDay) - 1 then
        sunday.plusDays (((w.first.since sunday).fdiv (7 * microsPerDay) - 1) * 7)
      else .ok sunday) = .ok week) :
    s.IsWeek week ∧
      fromDay week.wall.dayNumber (s.enclosed w duration) = s.enclosed w duration := by
  obtain ⟨hday, halike⟩ := Moment.plusDays_dayNumber hsunday
  have hsundayWeek : s.IsWeek sunday := by
    refine ⟨halike, (Moment.plusDays_eq_ok_iff.mp hsunday).2.1, ?_⟩
    simp only [Moment.calendarWeekday, Moment.weekday] at hday
    omega
  have hself (h : ∀ m ∈ s.enclosed w duration, week.wall.dayNumber ≤ m.wall.dayNumber) :
      fromDay week.wall.dayNumber (s.enclosed w duration) = s.enclosed w duration := by
    rw [fromDay, List.filter_eq_self]
    intro m hm
    exact decide_eq_true (h m hm)
  split at hweek
  · rename_i hpos
    obtain ⟨count, hcount⟩ : ∃ count : Nat,
        (count : Int) = (w.first.since sunday).fdiv (7 * microsPerDay) - 1 :=
      ⟨((w.first.since sunday).fdiv (7 * microsPerDay) - 1).toNat, by omega⟩
    have hplus : sunday.plusDays (count * 7 : Nat) = .ok week := by
      rw [Int.natCast_mul, hcount]
      exact hweek
    obtain ⟨hisWeek, hweekDay⟩ := hsundayWeek.plusDays hplus
    refine ⟨hisWeek, hself ?_⟩
    intro m hm
    obtain ⟨hmem, hencloses⟩ := List.mem_filter.mp hm
    obtain ⟨shift, hshift⟩ := hsteady
    have hmAlike := ((mem_allStarts_of_listed hkind hlater).mp hmem).1
    have hfloor := hcount
    rw [Int.fdiv_eq_ediv_of_nonneg _ (by decide),
      hshift _ _ hfirst (by rwa [halike.1]), halike.1] at hfloor
    -- the window starts a week or more after the week does
    have hinside : 0 ≤ m.since w.first := by
      simp only [Window.encloses, Bool.and_eq_true, Moment.before, Bool.not_eq_true',
        decide_eq_false_iff_not] at hencloses
      omega
    rw [hshift _ _ (by rwa [hmAlike.1]) hfirst, hmAlike.1] at hinside
    have hm := m.micros_eq
    have hs := sunday.micros_eq
    have htime := m.wall.timeOfDay_lt
    simp only [microsPerDay] at *
    omega
  · cases hweek
    refine ⟨hsundayWeek, hself ?_⟩
    intro m hm
    have hle := ((mem_allStarts_of_listed hkind hlater).mp (List.mem_filter.mp hm).1).2.2.1
    have hpos : 1 ≤ s.start.calendarWeekday := by
      simp only [Moment.calendarWeekday]
      omega
    omega

theorem listListed_spec {zones : Zone → Prop} {cap : Int} {e : Expansion} (hsteady : Steady zones)
    (hstart : zones s.start.zone) (hfirst : zones w.first.zone) (hlast : zones w.last.zone)
    (hduration : ∀ duration, s.duration = .ok duration → 0 ≤ duration)
    (hkind : s.kind = .customWeekly) (hlater : s.start.later = false)
    (h : s.listListed w cap = .ok e) :
    ∃ duration, s.duration = .ok duration ∧
      ((s.enclosed w duration).take cap.toNat).mapM (Occurrence.startingAt duration) =
        .ok e.occurrences ∧
      (e.truncated = true ↔ cap.toNat < (s.enclosed w duration).length) := by
  unfold listListed at h
  obtain ⟨duration, hlength, h⟩ := bind_eq_ok_iff.mp h
  obtain ⟨sunday, hsunday, h⟩ := bind_eq_ok_iff.mp h
  obtain ⟨week, hweek, h⟩ : ∃ week, (if 0 < (w.first.since sunday).fdiv (7 * microsPerDay) - 1 then
      sunday.plusDays (((w.first.since sunday).fdiv (7 * microsPerDay) - 1) * 7)
      else .ok sunday) = .ok week ∧ _ := by
    dsimp only at h
    split at h
    · rename_i hpos
      rw [if_pos hpos]
      exact bind_eq_ok_iff.mp h
    · rename_i hpos
      rw [if_neg hpos]
      exact bind_eq_ok_iff.mp h
  obtain ⟨⟨occurrences, more⟩, hlist, h⟩ := bind_eq_ok_iff.mp h
  cases h
  obtain ⟨hisWeek, hall⟩ := fromDay_enclosed_eq_self duration hsteady hstart hfirst hkind hlater
    hsunday hweek
  obtain ⟨hlisted, hmore⟩ := listWeeks_spec hsteady hstart hlast (hduration duration hlength)
    hkind hlater hisWeek hlist
  rw [hall] at hlisted hmore
  refine ⟨duration, hlength, hlisted, Iff.trans ?_ hmore⟩
  cases more <;> simp [Expansion.truncated]

/-! ## Clipped windows -/

/-- The ends of a clipped window are its own or bounds of the series. -/
theorem clip_mem (w : Window) (s : Series) :
    (w.clip s).first ∈ w.first.zoned :: w.last.zoned :: s.moments ∧
      (w.clip s).last ∈ w.first.zoned :: w.last.zoned :: s.moments := by
  unfold Window.clip SeriesFields.moments
  constructor
  · dsimp only
    split
    · rename_i bound hbound
      split <;> simp [hbound]
    · simp
  · dsimp only
    split
    · rename_i bound hbound
      split <;> simp [hbound]
    · simp

/-! ## All that lies in a window -/

theorem enclosed_before (s : Series) (w : Window) (duration : Int) :
    (s.enclosed w duration).Pairwise fun a b => a.before b = true := by
  apply List.Pairwise.filter
  refine s.allStarts_ascending.imp_of_mem ?_
  intro a b ha hb hlt
  have halike := (alike_of_mem_allStarts ha).trans (alike_of_mem_allStarts hb).symm
  have hmicros := halike.micros_add_le (show _ + 1 ≤ _ from hlt)
  rw [Moment.before, Moment.since_of_zone_eq halike.1, decide_eq_true_eq]
  simp only [microsPerDay] at hmicros
  omega

/-- The occurrences of a series with listed weekdays in a window are those of exactly the starts
    that lie in it with their ends, the first of them, in order.  Some are missing only if there
    are more than the cap allows; a negative cap allows none. -/
theorem expand_eq_enclosed_starts {cap : Int} {e : Expansion} (hkind : s.kind = .customWeekly)
    (hanchor : s.anchorStart.later = false)
    (hzones : (∃ zone, ∀ m ∈ w.first.zoned :: w.last.zoned :: s.moments, m.zone = zone) ∨
      (∀ m ∈ w.first.zoned :: w.last.zoned :: s.moments, m.zone.isFixed = true) ∧
        ∀ duration, s.duration = .ok duration → 0 ≤ duration)
    (hwindow : (w.clip s).isEmpty = false) (h : s.expand w cap = .ok e) :
    ∃ duration, s.duration = .ok duration ∧
      ((s.enclosed (w.clip s) duration).take cap.toNat).mapM (Occurrence.startingAt duration) =
        .ok e.occurrences ∧
      (e.truncated = true ↔ cap.toNat < (s.enclosed (w.clip s) duration).length) ∧
      (s.enclosed (w.clip s) duration).Pairwise fun a b => a.before b = true := by
  obtain ⟨hfirst, hlast⟩ := clip_mem w s
  have hmoments {m : Moment} (hm : m ∈ s.moments) :
      m ∈ w.first.zoned :: w.last.zoned :: s.moments :=
    List.mem_cons_of_mem _ (List.mem_cons_of_mem _ hm)
  have hstart : s.anchorStart ∈ w.first.zoned :: w.last.zoned :: s.moments :=
    hmoments List.mem_cons_self
  have hlater : s.start.later = false := by rw [later_start, hanchor]
  have hlist : s.listListed (w.clip s) cap = .ok e := by
    simpa [expand, expandWithin, hwindow, hkind] using h
  obtain ⟨duration, hduration, hlisted, hmore⟩ : ∃ duration, s.duration = .ok duration ∧
      ((s.enclosed (w.clip s) duration).take cap.toNat).mapM (Occurrence.startingAt duration) =
        .ok e.occurrences ∧
      (e.truncated = true ↔ cap.toNat < (s.enclosed (w.clip s) duration).length) := by
    rcases hzones with ⟨zone, hzone⟩ | ⟨hfixed, hnonneg⟩
    · exact listListed_spec (steady_eq zone) (by rw [zone_start, hzone _ hstart])
        (hzone _ hfirst) (hzone _ hlast)
        (fun _ => duration_nonneg fun m hm => hzone m (hmoments hm)) hkind hlater hlist
    · exact listListed_spec steady_isFixed (by rw [zone_start, hfixed _ hstart])
        (hfixed _ hfirst) (hfixed _ hlast) hnonneg hkind hlater hlist
  exact ⟨duration, hduration, hlisted, hmore, s.enclosed_before _ _⟩

/-- In two weeks there are two Mondays and two Wednesdays. The cap leaves out the last Monday. -/
theorem expand_mondaysAndWednesdays_eq_enclosed_starts :
    ∃ e, mondaysAndWednesdays.expand (fortnight 738985 (by decide)) 3 = .ok e ∧
      ∃ duration, mondaysAndWednesdays.duration = .ok duration ∧
        ((mondaysAndWednesdays.enclosed ((fortnight 738985 (by decide)).clip mondaysAndWednesdays)
            duration).take (3 : Int).toNat).mapM (Occurrence.startingAt duration) =
          .ok e.occurrences ∧
        (e.truncated = true ↔ (3 : Int).toNat < (mondaysAndWednesdays.enclosed
          ((fortnight 738985 (by decide)).clip mondaysAndWednesdays) duration).length) ∧
        (mondaysAndWednesdays.enclosed ((fortnight 738985 (by decide)).clip mondaysAndWednesdays)
          duration).Pairwise fun a b => a.before b = true := by
  have h : mondaysAndWednesdays.expand (fortnight 738985 (by decide)) 3 =
      .ok ⟨"mondays and wednesdays",
        [.plain (.onTheHour 738985 9 (by decide)) (.onTheHour 738985 10 (by decide)),
          .plain (.onTheHour 738990 9 (by decide)) (.onTheHour 738990 10 (by decide)),
          .plain (.onTheHour 738992 9 (by decide)) (.onTheHour 738992 10 (by decide))],
        .capped⟩ := rfl
  exact ⟨_, h, expand_eq_enclosed_starts (by decide) (by decide) (.inl ⟨.utc, by decide⟩)
    (by decide) h⟩

/-- With a negative cap nothing is missing where nothing lies in the window, although the number
    of starts that do, none, is above the cap. -/
theorem expand_mondaysAndWednesdays_negative_cap :
    let w := fortnight 738520 (by decide)
    let e : Expansion := ⟨"mondays and wednesdays", [], .complete⟩
    mondaysAndWednesdays.kind = .customWeekly ∧
      mondaysAndWednesdays.anchorStart.later = false ∧
      (∀ m ∈ w.first.zoned :: w.last.zoned :: mondaysAndWednesdays.moments, m.zone = .utc) ∧
      (w.clip mondaysAndWednesdays).isEmpty = false ∧
      mondaysAndWednesdays.expand w (-1) = .ok e ∧
      ∀ duration, mondaysAndWednesdays.duration = .ok duration →
        ¬ (e.truncated = true ↔
          (-1 : Int) < (mondaysAndWednesdays.enclosed (w.clip mondaysAndWednesdays)
            duration).length) := by
  refine ⟨by decide, by decide, by decide, by decide, rfl, ?_⟩
  intro duration _ hiff
  have htruncated := hiff.mpr (by omega)
  cases htruncated

end Series

end EventCalendar
