/-
  EventCalendar.Proofs.Expansion.Periods

  Listing period by period.  Starts that are jumped or stepped over have ended
  before the window, and those that are listed are the starts in the window, up
  to the cap.
-/

import EventCalendar.Expansion
import EventCalendar.Proofs.Lattice.Jump

namespace EventCalendar

open EventCalendar.Time

/-! ## Starts and windows -/

/-- The occurrence at a start ends before a date-time.  One that ends beyond the calendar does
    not. -/
def Time.Moment.endsBefore (start : Moment) (duration : Int) (first : Moment) : Bool :=
  (start.plus duration).toOption.any (·.before first)

/-- The occurrence at a start has not ended before a window, and starts by its end. -/
def Window.shows (w : Window) (duration : Int) (start : Moment) : Bool :=
  !start.endsBefore duration w.first && start.upTo w.last

/-- The occurrence at a start. -/
def Occurrence.startingAt (duration : Int) (start : Moment) : Except CalendarError Occurrence := do
  let finish ← start.plus duration
  return .plain start finish

namespace Time.Moment

variable {a b start finish first last : Moment} {duration : Int}

theorem endsBefore_of_plus (h : start.plus duration = .ok finish) :
    start.endsBefore duration first = finish.before first := by
  simp [endsBefore, h, Except.toOption]

theorem before_eq_not_upTo (a b : Moment) : a.before b = !b.upTo a := by
  rw [upTo_eq_not_before, Bool.not_not]

/-- A day later on the wall clock is later, whatever the clocks do in between. -/
theorem since_le_of_dayNumber_lt (halike : b.Alike a) (hlt : a.wall.dayNumber < b.wall.dayNumber)
    (t : Moment) : t.since b + 4 * microsPerHour ≤ t.since a := by
  have hgap := halike.symm.micros_add_le (show _ + 1 ≤ _ from hlt)
  have hsince := since_sub_since_le halike.1 t
  simp only [microsPerHour, microsPerDay] at *
  omega

/-- If a start comes after a date-time, so do the starts on later days. -/
theorem upTo_of_dayNumber_lt (halike : b.Alike a) (hlt : a.wall.dayNumber < b.wall.dayNumber)
    (h : b.upTo last = true) : a.upTo last = true := by
  have hsince := since_le_of_dayNumber_lt halike hlt last
  rw [upTo_eq_not_before, Bool.not_eq_true', before, decide_eq_false_iff_not] at h ⊢
  simp only [microsPerHour] at hsince
  omega

/-- If an occurrence has not ended before a date-time, neither have those of later days. -/
theorem endsBefore_eq_false_of_dayNumber_lt (halike : b.Alike a)
    (hlt : a.wall.dayNumber < b.wall.dayNumber) (hplus : a.plus duration = .ok finish)
    (h : finish.before first = false) : b.endsBefore duration first = false := by
  cases hb : b.plus duration with
  | error e => simp [endsBefore, hb, Except.toOption]
  | ok finish' =>
    obtain ⟨ha', -, haz⟩ := plus_eq_ok_iff.mp hplus
    obtain ⟨hb', -, hbz⟩ := plus_eq_ok_iff.mp hb
    have hgap := halike.symm.micros_add_le (show _ + 1 ≤ _ from hlt)
    have hsince := since_sub_since_le (hbz.trans (halike.1.trans haz.symm)) first
    rw [endsBefore_of_plus hb, before_eq_not_upTo]
    rw [before_eq_not_upTo] at h
    simp only [Bool.not_eq_false', upTo, decide_eq_true_eq] at h ⊢
    simp only [microsPerHour, microsPerDay] at *
    omega

end Time.Moment

/-! ## Prefixes -/

/-- What holds of an element if it holds of a later one holds of the first elements, and of no
    others. -/
theorem filter_eq_takeWhile {α : Type} {P : α → Bool} {l : List α}
    (h : l.Pairwise fun a b => P b = true → P a = true) : l.filter P = l.takeWhile P := by
  induction l with
  | nil => rfl
  | cons a l ih =>
    rw [List.pairwise_cons] at h
    cases ha : P a with
    | true => rw [List.filter_cons_of_pos ha, List.takeWhile_cons_of_pos ha, ih h.2]
    | false =>
      rw [List.takeWhile_cons_of_neg (by simp [ha]), List.filter_eq_nil_iff]
      intro b hb hPb
      rcases List.mem_cons.mp hb with rfl | hb
      · simp [ha] at hPb
      · simp [ha] at h
        exact absurd hPb (by simpa using h.1 b hb)

/-! ## A series of Mondays -/

/-- Every Monday from nine to ten, from 1 January 2024 on. -/
def mondays : Series where
  seriesId := "mondays"
  title := none
  description := none
  anchorStart := .onTheHour 738885 9 (by decide)
  anchorEnd := some (.onTheHour 738885 10 (by decide))
  allDay := false
  kind := .weekly
  weekdays := .empty
  firstInstance := none
  lastInstance := none
  zones := by decide
  ends := by decide
  bounds := by decide
  listed := by decide

/-- The two weeks from a day on. -/
def fortnight (day : Nat) (h : day + 14 < dayCount) : Window where
  first := .onTheHour day 0 (by omega)
  last := .onTheHour (day + 14) 0 (by omega)

namespace Pattern

variable {p : Pattern} {duration : Int} {first last cursor : Moment}

/-! ## Skipping -/

/-- What a step of skipping can do. -/
theorem skip_cases {budget : Nat} {result : Option Moment}
    (h : p.skip duration first budget cursor = .ok result) :
    ∃ finish, cursor.plus duration = .ok finish ∧
      (finish.before first = false ∧ result = some cursor ∨
        finish.before first = true ∧
          (budget = 0 ∧ result = none ∨
            ∃ left next, budget = left + 1 ∧ p.step cursor = .ok next ∧
              p.skip duration first left next = .ok result)) := by
  unfold skip at h
  obtain ⟨finish, hfinish, h⟩ := bind_eq_ok_iff.mp h
  refine ⟨finish, hfinish, ?_⟩
  split at h
  · rename_i hbefore
    cases h
    exact .inl ⟨by simpa using hbefore, rfl⟩
  · rename_i hbefore
    refine .inr ⟨by simpa using hbefore, ?_⟩
    cases budget with
    | zero =>
      cases h
      exact .inl ⟨rfl, rfl⟩
    | succ left =>
      obtain ⟨next, hnext, h⟩ := bind_eq_ok_iff.mp h
      exact .inr ⟨left, next, rfl, hnext, h⟩

/-- Skipping ends at the first start whose occurrence has not ended before the window. -/
theorem startsFrom_of_skip {start : Moment} {budget : Nat}
    (h : p.skip duration first budget cursor = .ok (some start)) :
    ∃ before finish, p.startsFrom cursor = before ++ p.startsFrom start ∧
      (∀ m ∈ before, m.endsBefore duration first = true) ∧
      start.plus duration = .ok finish ∧ finish.before first = false := by
  induction budget generalizing cursor with
  | zero =>
    obtain ⟨finish, hfinish, ⟨hbefore, hsome⟩ | ⟨-, ⟨-, hnone⟩ | ⟨left, -, hleft, -⟩⟩⟩ :=
      skip_cases h
    · cases hsome
      exact ⟨[], finish, rfl, by simp, hfinish, hbefore⟩
    · cases hnone
    · cases hleft
  | succ budget ih =>
    obtain ⟨finish, hfinish, ⟨hbefore, hsome⟩ |
      ⟨hbefore, ⟨hzero, -⟩ | ⟨left, next, hleft, hnext, h⟩⟩⟩ := skip_cases h
    · cases hsome
      exact ⟨[], finish, rfl, by simp, hfinish, hbefore⟩
    · cases hzero
    · cases hleft
      obtain ⟨before, finish', hsplit, hended, hstart⟩ := ih h
      refine ⟨cursor :: before, finish', ?_, ?_, hstart⟩
      · rw [startsFrom_of_step_ok hnext, hsplit, List.cons_append]
      · intro m hm
        rcases List.mem_cons.mp hm with rfl | hm
        · rw [Moment.endsBefore_of_plus hfinish, hbefore]
        · exact hended m hm

/-- If the budget is used up, that many steps have led to occurrences that end before the window. -/
theorem getElem?_startsFrom_of_skip {budget n : Nat}
    (h : p.skip duration first budget cursor = .ok none) (hn : n ≤ budget) :
    ∃ m finish, (p.startsFrom cursor)[n]? = some m ∧ m.plus duration = .ok finish ∧
      finish.before first = true := by
  induction n generalizing cursor budget with
  | zero =>
    obtain ⟨finish, hfinish, ⟨-, hsome⟩ | ⟨hbefore, -⟩⟩ := skip_cases h
    · cases hsome
    · exact ⟨cursor, finish, rfl, hfinish, hbefore⟩
  | succ n ih =>
    obtain ⟨finish, -, ⟨-, hsome⟩ | ⟨-, ⟨rfl, -⟩ | ⟨left, next, rfl, hnext, h⟩⟩⟩ := skip_cases h
    · cases hsome
    · omega
    · rw [startsFrom_of_step_ok hnext, List.getElem?_cons_succ]
      exact ih h (by omega)

/-! ## Listing -/

/-- The starts that are listed are those up to the window's end, as many as there is room for. -/
theorem mapM_startingAt_of_list {room : Nat} {occurrences : List Occurrence} {more : Bool}
    (h : p.list duration last room cursor = .ok (occurrences, more)) :
    (((p.startsFrom cursor).takeWhile (·.upTo last)).take room).mapM
        (Occurrence.startingAt duration) = .ok occurrences ∧
      (more = true ↔ room < ((p.startsFrom cursor).takeWhile (·.upTo last)).length) := by
  induction room generalizing cursor occurrences more with
  | zero =>
    unfold list at h
    split at h
    · rename_i hupTo
      cases h
      rw [startsFrom, List.takeWhile_cons_of_neg (by simpa using hupTo)]
      exact ⟨rfl, by simp⟩
    · rename_i hupTo
      cases h
      rw [startsFrom, List.takeWhile_cons_of_pos (by simpa using hupTo)]
      exact ⟨rfl, by simp⟩
  | succ room ih =>
    unfold list at h
    split at h
    · rename_i hupTo
      cases h
      rw [startsFrom, List.takeWhile_cons_of_neg (by simpa using hupTo)]
      exact ⟨rfl, by simp⟩
    · rename_i hupTo
      obtain ⟨finish, hfinish, h⟩ := bind_eq_ok_iff.mp h
      obtain ⟨next, hnext, h⟩ := bind_eq_ok_iff.mp h
      obtain ⟨⟨rest, more'⟩, hrest, h⟩ := bind_eq_ok_iff.mp h
      cases h
      obtain ⟨hlisted, hmore⟩ := ih hrest
      rw [startsFrom_of_step_ok hnext, List.takeWhile_cons_of_pos (by simpa using hupTo)]
      constructor
      · rw [List.take_succ_cons, List.mapM_cons]
        simp only [Occurrence.startingAt] at hlisted ⊢
        simp only [hfinish, ok_bind, pure_eq_ok, hlisted]
      · rw [hmore, List.length_cons, Nat.add_lt_add_iff_right]

end Pattern

/-! ## Entering a window -/

namespace Series

variable {s : Series} {duration : Int} {first : Moment}

theorem fits_of_firstStart {start : Moment} (h : s.firstStart = .ok start)
    (hkind : s.kind.countsDays = true) : s.fits start.wall.dayNumber = true := by
  have hmem := s.pattern.cursor_mem_startsFrom start
  rw [← allStarts_of_firstStart h] at hmem
  exact ((mem_allStarts_iff hkind).mp hmem).2.1

/-- The starts that a jump leaves out have ended before the window. -/
theorem endsBefore_of_jump {cursor target landing finish finish' : Moment}
    (htarget : first.plus (-duration) = .ok target) (hfinish : cursor.plus duration = .ok finish)
    (hfinish' : landing.plus duration = .ok finish') {before : List Moment}
    (hsplit : s.pattern.startsFrom cursor = before ++ s.pattern.startsFrom landing)
    (hbefore : ∀ m ∈ before, 4 * microsPerHour < target.since m) :
    ∀ m ∈ before, m.endsBefore duration first = true := by
  intro m hm
  have hmem : m ∈ s.pattern.startsFrom cursor := hsplit ▸ List.mem_append_left _ hm
  have hascending := s.pattern.startsFrom_ascending cursor
  rw [hsplit, List.pairwise_append] at hascending
  have hlt := hascending.2.2 m hm landing (s.pattern.cursor_mem_startsFrom landing)
  have hlanding : landing ∈ s.pattern.startsFrom cursor :=
    hsplit ▸ List.mem_append_right _ (s.pattern.cursor_mem_startsFrom landing)
  have halike := (Pattern.alike_of_mem_startsFrom hmem).1
  have halike' := (Pattern.alike_of_mem_startsFrom hlanding).1
  have hle := Pattern.le_of_mem_startsFrom (f := fun m => m.wall.dayNumber)
    (fun _ _ hstep => Nat.le_of_lt (Pattern.step_spec hstep).1) hmem
  -- its end lies between that of the cursor and that of the landing
  have hlow := halike.symm.micros_add_le (show _ + 0 ≤ _ from hle)
  have hhigh := (halike.trans halike'.symm).micros_add_le (show _ + 0 ≤ _ from Nat.le_of_lt hlt)
  have hcursor := Moment.exists_plus_eq_ok_iff.mp ⟨finish, hfinish⟩
  have hjump := Moment.exists_plus_eq_ok_iff.mp ⟨finish', hfinish'⟩
  obtain ⟨ending, hending⟩ := Moment.exists_plus_eq_ok_iff.mpr
    ⟨show 0 ≤ m.wall.micros + duration by omega,
      show m.wall.micros + duration < calendarMicros by omega⟩
  have hsince := (Moment.since_plus_bounds hending htarget).1
  have hfar := hbefore m hm
  rw [Moment.endsBefore_of_plus hending, Moment.before_eq_not_upTo]
  simp only [Moment.upTo, Bool.not_eq_true', decide_eq_false_iff_not]
  omega

/-- A window is entered at the first start whose occurrence has not ended before it.  Twenty steps
    are always enough, wherever the window lies. -/
theorem allStarts_of_enter {budget : Nat} {result : Option Moment}
    (hkind : s.kind ≠ .customWeekly) (hbudget : 20 ≤ budget)
    (h : s.enter duration first budget = .ok result) :
    ∃ start before finish, result = some start ∧
      s.allStarts = before ++ s.pattern.startsFrom start ∧
      (∀ m ∈ before, m.endsBefore duration first = true) ∧
      start.plus duration = .ok finish ∧ finish.before first = false := by
  unfold enter at h
  obtain ⟨cursor, hcursor, h⟩ := bind_eq_ok_iff.mp h
  obtain ⟨finish, hfinish, h⟩ := bind_eq_ok_iff.mp h
  rw [allStarts_of_firstStart hcursor]
  split at h
  · obtain ⟨target, htarget, h⟩ := bind_eq_ok_iff.mp h
    obtain ⟨landing, hjump, h⟩ := bind_eq_ok_iff.mp h
    have hfits : s.pattern.kind.countsDays = true →
        s.pattern.fits s.start.wall.dayNumber cursor.wall.dayNumber = true :=
      fits_of_firstStart hcursor
    cases result with
    -- the occurrence of the twentieth start would have ended, but it starts beyond the target
    | none =>
      exfalso
      obtain ⟨m, ending, hm, hending, hbefore⟩ := Pattern.getElem?_startsFrom_of_skip h hbudget
      have hfar := Pattern.since_lt_of_jump hkind hfits hjump hm
      have hsince := (Moment.since_plus_bounds hending htarget).2
      rw [Moment.before_eq_not_upTo, Bool.not_eq_true', Moment.upTo,
        decide_eq_false_iff_not] at hbefore
      omega
    | some start =>
      obtain ⟨left, hleft, hout⟩ :=
        Pattern.jump_spec hkind s.start.date.day_pos hfits hjump
      obtain ⟨finish', hfinish', -⟩ := Pattern.skip_cases h
      obtain ⟨before, ending, hsplit, hended, hstart⟩ := Pattern.startsFrom_of_skip h
      refine ⟨start, left ++ before, ending, rfl, ?_, ?_, hstart⟩
      · rw [hleft, hsplit, List.append_assoc]
      · intro m hm
        rcases List.mem_append.mp hm with hm | hm
        · exact endsBefore_of_jump htarget hfinish hfinish' hleft hout m hm
        · exact hended m hm
  · rename_i hbefore
    cases result with
    | none =>
      obtain ⟨m, ending, hm, hending, hended⟩ :=
        Pattern.getElem?_startsFrom_of_skip h (Nat.zero_le budget)
      rw [Pattern.startsFrom, List.getElem?_cons_zero, Option.some.injEq] at hm
      subst hm
      rw [hfinish, Except.ok.injEq] at hending
      subst hending
      exact absurd hended hbefore
    | some start =>
      obtain ⟨before, ending, hsplit, hended, hstart⟩ := Pattern.startsFrom_of_skip h
      exact ⟨start, before, ending, rfl, hsplit, hended, hstart⟩

/-! ## All that a window shows -/

/-- The starts that a window shows are those up to its end, from the first one on whose occurrence
    has not ended before it. -/
theorem filter_shows_eq_takeWhile {w : Window} {start finish : Moment} {before : List Moment}
    (hsplit : s.allStarts = before ++ s.pattern.startsFrom start)
    (hended : ∀ m ∈ before, m.endsBefore duration w.first = true)
    (hfinish : start.plus duration = .ok finish) (hbefore : finish.before w.first = false) :
    s.allStarts.filter (w.shows duration) =
      (s.pattern.startsFrom start).takeWhile (·.upTo w.last) := by
  have hskipped : before.filter (w.shows duration) = [] := by
    rw [List.filter_eq_nil_iff]
    intro m hm
    simp [Window.shows, hended m hm]
  have hascending := s.pattern.startsFrom_ascending start
  -- once an occurrence has not ended, no later one has
  have hshown : (s.pattern.startsFrom start).filter (w.shows duration) =
      (s.pattern.startsFrom start).filter (·.upTo w.last) := by
    apply List.filter_congr
    intro m hm
    have hopen : m.endsBefore duration w.first = false := by
      rw [Pattern.startsFrom] at hm hascending
      rcases List.mem_cons.mp hm with rfl | hlater
      · rw [Moment.endsBefore_of_plus hfinish, hbefore]
      · exact Moment.endsBefore_eq_false_of_dayNumber_lt (Pattern.alike_of_mem_startsFrom hm).1
          ((List.pairwise_cons.mp hascending).1 m hlater) hfinish hbefore
    simp [Window.shows, hopen]
  rw [hsplit, List.filter_append, hskipped, List.nil_append, hshown]
  apply filter_eq_takeWhile
  refine hascending.imp_of_mem ?_
  intro a b ha hb hlt
  exact Moment.upTo_of_dayNumber_lt
    ((Pattern.alike_of_mem_startsFrom hb).1.trans (Pattern.alike_of_mem_startsFrom ha).1.symm) hlt

theorem listPeriods_spec {w : Window} {cap budget : Int} {e : Expansion}
    (hkind : s.kind ≠ .customWeekly) (hbudget : 20 ≤ budget)
    (h : s.listPeriods w cap budget = .ok e) :
    ∃ duration, s.duration = .ok duration ∧
      ((s.allStarts.filter (w.shows duration)).take cap.toNat).mapM
          (Occurrence.startingAt duration) = .ok e.occurrences ∧
      (e.truncated = true ↔ cap.toNat < (s.allStarts.filter (w.shows duration)).length) := by
  unfold listPeriods at h
  obtain ⟨duration, hduration, h⟩ := bind_eq_ok_iff.mp h
  obtain ⟨result, henter, h⟩ := bind_eq_ok_iff.mp h
  obtain ⟨start, before, finish, rfl, hsplit, hended, hfinish, hbefore⟩ :=
    allStarts_of_enter hkind (show 20 ≤ budget.toNat by omega) henter
  obtain ⟨⟨occurrences, more⟩, hlist, h⟩ := bind_eq_ok_iff.mp h
  cases h
  obtain ⟨hlisted, hmore⟩ := Pattern.mapM_startingAt_of_list hlist
  refine ⟨duration, hduration, ?_⟩
  rw [filter_shows_eq_takeWhile hsplit hended hfinish hbefore]
  refine ⟨hlisted, Iff.trans ?_ hmore⟩
  cases more <;> simp [Expansion.truncated]

theorem expand_eq_listPeriods {w : Window} {cap : Int} (hkind : s.kind ≠ .customWeekly)
    (hwindow : (w.clip s).isEmpty = false) :
    s.expand w cap = s.listPeriods (w.clip s) cap skipBudget := by
  simp [expand, expandWithin, hwindow, hkind]

/-- The occurrences of a series in a window are those of exactly the starts that have not ended
    before it and start by its end, the first of them, in order.  Some are missing only if there
    are more than the cap allows; a negative cap allows none. -/
theorem expand_eq_shown_starts {w : Window} {cap : Int} {e : Expansion}
    (hkind : s.kind ≠ .customWeekly) (hwindow : (w.clip s).isEmpty = false)
    (h : s.expand w cap = .ok e) :
    ∃ duration, s.duration = .ok duration ∧
      ((s.allStarts.filter ((w.clip s).shows duration)).take cap.toNat).mapM
          (Occurrence.startingAt duration) = .ok e.occurrences ∧
      (e.truncated = true ↔
        cap.toNat < (s.allStarts.filter ((w.clip s).shows duration)).length) := by
  rw [expand_eq_listPeriods hkind hwindow] at h
  exact listPeriods_spec hkind (by decide) h

/-- Far from the anchor the first of two Mondays is listed, and the second one is missed. -/
theorem expand_mondays_eq_shown_starts :
    ∃ e, mondays.expand (fortnight 838885 (by decide)) 1 = .ok e ∧
      ∃ duration, mondays.duration = .ok duration ∧
        ((mondays.allStarts.filter
          (((fortnight 838885 (by decide)).clip mondays).shows duration)).take (1 : Int).toNat).mapM
            (Occurrence.startingAt duration) = .ok e.occurrences ∧
        (e.truncated = true ↔ (1 : Int).toNat < (mondays.allStarts.filter
          (((fortnight 838885 (by decide)).clip mondays).shows duration)).length) := by
  have h : mondays.expand (fortnight 838885 (by decide)) 1 =
      .ok ⟨"mondays", [.plain (.onTheHour 838887 9 (by decide))
        (.onTheHour 838887 10 (by decide))], .capped⟩ := rfl
  exact ⟨_, h, expand_eq_shown_starts (by decide) (by decide) h⟩

/-- With a negative cap nothing is missing where nothing is shown, although the number of starts
    that are shown, none, is above the cap. -/
theorem expand_mondays_negative_cap :
    let w := fortnight 738520 (by decide)
    let e : Expansion := ⟨"mondays", [], .complete⟩
    mondays.kind ≠ .customWeekly ∧ (w.clip mondays).isEmpty = false ∧
      mondays.expand w (-1) = .ok e ∧
      ∀ duration, mondays.duration = .ok duration →
        ¬ (e.truncated = true ↔
          (-1 : Int) < (mondays.allStarts.filter ((w.clip mondays).shows duration)).length) := by
  refine ⟨by decide, by decide, rfl, ?_⟩
  intro duration _ hiff
  have htruncated := hiff.mpr (by omega)
  cases htruncated

end Series

end EventCalendar
