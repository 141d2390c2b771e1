/-
  EventCalendar.Proofs.Expansion.Skipping

  How many steps lead to a window.  A run of steps with a budget stops after a
  number of them that does not depend on the budget.  From where a jump lands
  that number is at most twenty, so that the budget is never used up and an
  expansion is cut short by its cap alone.
-/

import EventCalendar.Proofs.Expansion.Windows

namespace EventCalendar

open EventCalendar.Time

/-! ## Steps with a budget -/

namespace Pattern

variable {p : Pattern} {duration : Int} {first cursor finish next : Moment}

/-- An occurrence that has not ended needs no step. -/
theorem skip_of_not_before (hfinish : cursor.plus duration = .ok finish)
    (hopen : finish.before first = false) (budget : Nat) :
    p.skip duration first budget cursor = .ok (some cursor) := by
  unfold skip
  rw [hfinish, ok_bind, hopen]
  rfl

theorem skip_zero_of_before (hfinish : cursor.plus duration = .ok finish)
    (hended : finish.before first = true) : p.skip duration first 0 cursor = .ok none := by
  unfold skip
  rw [hfinish, ok_bind, hended]
  rfl

/-- Past an occurrence that has ended one step is taken off the budget. -/
theorem skip_succ_of_before (hfinish : cursor.plus duration = .ok finish)
    (hended : finish.before first = true) (hnext : p.step cursor = .ok next) (budget : Nat) :
    p.skip duration first (budget + 1) cursor = p.skip duration first budget next := by
  conv_lhs => unfold skip
  rw [hfinish, ok_bind, hended]
  show p.step cursor >>= _ = _
  rw [hnext, ok_bind]

/-- A start is reached by a number of steps: every budget of at least that many leads there, and no
    smaller one does. -/
theorem exists_steps_of_skip {start : Moment} {budget : Nat}
    (h : p.skip duration first budget cursor = .ok (some start)) :
    ∃ steps, (p.startsFrom cursor)[steps]? = some start ∧
      ∀ allowed, p.skip duration first allowed cursor =
        .ok (if steps ≤ allowed then some start else none) := by
  -- by induction on the budget, one start after the other
  induction budget generalizing cursor with
  | zero =>
    obtain ⟨finish, hfinish, ⟨hopen, hsome⟩ | ⟨-, ⟨-, hnone⟩ | ⟨left, -, hleft, -⟩⟩⟩ := skip_cases h
    · cases hsome
      exact ⟨0, rfl, skip_of_not_before hfinish hopen⟩
    · cases hnone
    · cases hleft
  | succ budget ih =>
    obtain ⟨finish, hfinish, ⟨hopen, hsome⟩ |
      ⟨hended, ⟨hzero, -⟩ | ⟨left, next, hleft, hnext, h⟩⟩⟩ := skip_cases h
    · cases hsome
      exact ⟨0, rfl, skip_of_not_before hfinish hopen⟩
    · cases hzero
    · cases hleft
      obtain ⟨steps, hsteps, hallowed⟩ := ih h
      refine ⟨steps + 1, ?_, ?_⟩
      · rw [startsFrom_of_step_ok hnext, List.getElem?_cons_succ, hsteps]
      · intro allowed
        cases allowed with
        | zero => rw [skip_zero_of_before hfinish hended, if_neg (by omega)]
        | succ allowed =>
          rw [skip_succ_of_before hfinish hended hnext, hallowed]
          simp only [Nat.add_le_add_iff_right]

end Pattern

/-! ## From the landing to the window -/

namespace Series

variable {s : Series} {duration : Int} {first : Moment}

/-- Where the steps towards a window begin: at the first start, or where a jump lands from there if
    the first occurrence ends before the window. -/
def landing (s : Series) (duration : Int) (first : Moment) : Except CalendarError Moment := do
  let cursor ← s.firstStart
  let finish ← cursor.plus duration
  if finish.before first then
    let target ← first.plus (-duration)
    s.pattern.jump cursor target
  else return cursor

/-- A window is entered by steps from the landing. -/
theorem enter_eq_landing_bind (s : Series) (duration : Int) (first : Moment) (budget : Nat) :
    s.enter duration first budget =
      s.landing duration first >>= s.pattern.skip duration first budget := by
  unfold enter landing
  cases s.firstStart with
  | error e => rfl
  | ok cursor =>
    simp only [ok_bind]
    cases cursor.plus duration with
    | error e => rfl
    | ok finish =>
      simp only [ok_bind]
      split
      · cases first.plus (-duration) <;> rfl
      · rfl

/-- No budget of twenty or more steps is used up. -/
theorem enter_ne_none {budget : Nat} (hkind : s.kind ≠ .customWeekly) (hbudget : 20 ≤ budget) :
    s.enter duration first budget ≠ .ok none := by
  intro h
  obtain ⟨start, -, -, hstart, -⟩ := allStarts_of_enter hkind hbudget h
  cases hstart

/-- Occurrences are missing only if as many are listed as the cap allows. -/
theorem length_of_truncated {w : Window} {cap budget : Int} {e : Expansion}
    (hkind : s.kind ≠ .customWeekly) (hbudget : 20 ≤ budget)
    (h : s.listPeriods w cap budget = .ok e) (hmissing : e.truncated = true) :
    e.occurrences.length = cap.toNat := by
  obtain ⟨duration, -, hlisted, hmore⟩ := listPeriods_spec hkind hbudget h
  have hlength := (mapM_eq_ok_iff_forall₂.mp hlisted).length_eq
  rw [List.length_take] at hlength
  have hmore := hmore.mp hmissing
  omega

theorem ending_of_listPeriods {w : Window} {cap budget : Int} {e : Expansion}
    (hkind : s.kind ≠ .customWeekly) (hbudget : 20 ≤ budget)
    (h : s.listPeriods w cap budget = .ok e) : e.ending ≠ .gaveUp := by
  obtain ⟨-, -, occurrences, more, -, -, -, rfl⟩ := listPeriods_cases hkind hbudget h
  cases more <;> simp

/-- A number of steps leads from the landing to the start at which a window is entered: every budget
    of at least that many is enough, and no smaller one is. -/
structure EntersBy (s : Series) (duration : Int) (first landing start : Moment) (steps : Nat) :
    Prop where
  lands : s.landing duration first = .ok landing
  reaches : (s.pattern.startsFrom landing)[steps]? = some start
  enters : ∀ budget, s.enter duration first budget =
    .ok (if steps ≤ budget then some start else none)

theorem exists_entersBy {start : Moment} {budget : Nat}
    (h : s.enter duration first budget = .ok (some start)) :
    ∃ landing steps, s.EntersBy duration first landing start steps := by
  rw [enter_eq_landing_bind] at h
  obtain ⟨landing, hlanding, hskip⟩ := bind_eq_ok_iff.mp h
  obtain ⟨steps, hsteps, hbudgets⟩ := Pattern.exists_steps_of_skip hskip
  refine ⟨landing, steps, hlanding, hsteps, fun budget => ?_⟩
  rw [enter_eq_landing_bind, hlanding, ok_bind, hbudgets]

/-- Otherwise a budget of twenty steps would be used up. -/
theorem EntersBy.steps_le_twenty {landing start : Moment} {steps : Nat}
    (hkind : s.kind ≠ .customWeekly) (h : s.EntersBy duration first landing start steps) :
    steps ≤ 20 := by
  rw [← Nat.not_lt]
  intro hmore
  refine enter_ne_none hkind (Nat.le_refl 20) ((h.enters 20).trans ?_)
  rw [if_neg (Nat.not_le.mpr hmore)]

/-- However far ahead a window lies, at most twenty steps lead there from the landing, whenever it
    is entered at all.  So no expansion gives up on its way, and occurrences are missing only if as
    many are listed as the cap allows. -/
theorem enter_within_twenty_steps (hkind : s.kind ≠ .customWeekly) :
    (∀ duration first budget result, 20 ≤ budget →
      s.enter duration first budget = .ok result →
        ∃ landing start steps, result = some start ∧ steps ≤ 20 ∧
          s.EntersBy duration first landing start steps) ∧
      ∀ w cap e, s.expand w cap = .ok e → e.ending ≠ .gaveUp ∧
        (e.truncated = true → cap ≤ e.occurrences.length) := by
  constructor
  · intro duration first budget result hbudget henter
    cases result with
    | none => exact absurd henter (enter_ne_none hkind hbudget)
    | some start =>
      obtain ⟨landing, steps, hsteps⟩ := exists_entersBy henter
      exact ⟨landing, start, steps, rfl, hsteps.steps_le_twenty hkind, hsteps⟩
  · intro w cap e h
    cases hwindow : (w.clip s).isEmpty with
    | true =>
      rw [expand_of_isEmpty hwindow, Except.ok.injEq] at h
      subst h
      exact ⟨by simp, by simp [Expansion.truncated]⟩
    | false =>
      rw [expand_eq_listPeriods hkind hwindow] at h
      refine ⟨ending_of_listPeriods hkind (by decide) h, fun hmissing => ?_⟩
      have hlength := length_of_truncated hkind (by decide) h hmissing
      omega

/-- Tasks of three days, less half an hour, that begin in Berlin on the working days after a
    Sunday. -/
def tasks : Series where
  seriesId := "tasks"
  title := none
  description := none
  anchorStart := .inBerlin 635 false
  anchorEnd := some (.onTheHour 739188 9 (by decide))
  allDay := false
  kind := .workdays
  weekdays := .empty
  firstInstance := none
  lastInstance := none
  zones := by decide
  ends := by decide
  bounds := by decide
  listed := by decide

/-- A window in universal time that lies 166 years ahead is entered by ten steps, and the cap is
    what ends the list of the tasks there. -/
theorem enter_tasks_within_twenty_steps :
    tasks.kind ≠ .customWeekly ∧
      (∃ landing start, tasks.enter 257100000000 (fortnight 800003 (by decide)).first 10000 =
          .ok (some start) ∧
        tasks.EntersBy 257100000000 (fortnight 800003 (by decide)).first landing start 10) ∧
      ∃ e, tasks.expand (fortnight 800003 (by decide)) 4 = .ok e ∧ e.truncated = true ∧
        e.ending ≠ .gaveUp ∧ (4 : Int) ≤ e.occurrences.length := by
  have hkind : tasks.kind ≠ .customWeekly := by decide
  have hnine : tasks.enter 257100000000 (fortnight 800003 (by decide)).first 9 = .ok none := by
    decide +kernel
  have hten : (tasks.enter 257100000000 (fortnight 800003 (by decide)).first 10).map
      Option.isSome = .ok true := by decide +kernel
  have hall : (tasks.enter 257100000000 (fortnight 800003 (by decide)).first 10000).map
      Option.isSome = .ok true := by decide +kernel
  obtain ⟨result, henter, -⟩ := map_eq_ok_iff.mp hall
  obtain ⟨landing, start, steps, rfl, -, hsteps⟩ :=
    (enter_within_twenty_steps hkind).1 _ _ _ _ (by decide) henter
  -- nine steps are too few, and ten are enough
  have hmore : ¬ steps ≤ 9 := fun hle => by simp [hsteps.enters, hle] at hnine
  have hless : steps ≤ 10 := by
    by_contra hnot
    simp [hsteps.enters, hnot, Except.map] at hten
  obtain rfl : steps = 10 := by omega
  have hlisted : (tasks.expand (fortnight 800003 (by decide)) 4).map Expansion.truncated =
      .ok true := by decide +kernel
  obtain ⟨e, he, hmissing⟩ := map_eq_ok_iff.mp hlisted
  obtain ⟨hending, hlength⟩ := (enter_within_twenty_steps hkind).2 _ _ _ he
  exact ⟨hkind, ⟨landing, start, henter, hsteps⟩, e, he, hmissing, hending, hlength hmissing⟩

end Series

end EventCalendar
