/-
  EventCalendar.Proofs.Expansion.Spans

  From the start of an occurrence to its end.  Every occurrence of an expansion
  has the length of its series on the wall clock, so that it ends before it
  starts exactly where that length is negative.
-/

import EventCalendar.Proofs.Expansion.Bounds

namespace EventCalendar

open EventCalendar.Time

namespace Series

variable {s : Series} {w : Window} {cap : Int} {e : Expansion} {o : Occurrence}

/-- Every occurrence is one that an expansion comes by, and ends the length of the series after its
    start, on the wall clock. -/
theorem span_of_mem_expand (h : s.expand w cap = .ok e) (ho : o ∈ e.occurrences) :
    s.Visits o.start ∧
      ∃ duration, s.duration = .ok duration ∧ o.start.plus duration = .ok o.finish := by
  have hopen := isEmpty_clip_of_mem h ho
  by_cases hkind : s.kind = .customWeekly
  · rw [expand_eq_listListed hkind hopen] at h
    have hlisted := isListed_of_listListed hkind h o ho
    exact ⟨hlisted.visits, hlisted.finish⟩
  · rw [expand_eq_listPeriods hkind hopen] at h
    have hshown := isShown_of_listPeriods hkind (by decide) h o ho
    exact ⟨hshown.visits, hshown.finish⟩

/-- A series has a length, and it is not negative, exactly if the end of its first occurrence is in
    the calendar and, of an all-day event, not on an earlier date than its start; in one zone it
    never is.  The occurrences do not end before they start in just these series.  As instants they
    may do so even then, if the clock is put back between start and end. -/
theorem duration_nonneg_iff_datesInOrder (s : Series) :
    ((∃ duration, s.duration = .ok duration ∧ 0 ≤ duration) ↔ s.DatesInOrder ∧ s.GuessesEnd) ∧
    ((∀ finish ∈ s.anchorEnd, finish.zone = s.anchorStart.zone) → s.DatesInOrder) ∧
    ∀ w cap e, s.expand w cap = .ok e → ∀ o ∈ e.occurrences,
      (o.start.upTo o.finish = true ↔ s.DatesInOrder) ∧
      (s.DatesInOrder → (o.finish.instant < o.start.instant ↔ o.start.Reversed o.finish)) := by
  refine ⟨?_, datesInOrder_of_zone_eq, ?_⟩
  · rw [← exists_duration_iff]
    constructor
    · rintro ⟨duration, hduration, hnonneg⟩
      exact ⟨(nonneg_iff_datesInOrder hduration).mp hnonneg, duration, hduration⟩
    · rintro ⟨horder, duration, hduration⟩
      exact ⟨duration, hduration, (nonneg_iff_datesInOrder hduration).mpr horder⟩
  · intro w cap e h o ho
    obtain ⟨-, duration, hduration, hfinish⟩ := span_of_mem_expand h ho
    obtain ⟨hmicros, -, hzone⟩ := Moment.plus_eq_ok_iff.mp hfinish
    have hforward : o.start.upTo o.finish = true ↔ s.DatesInOrder := by
      rw [← nonneg_iff_datesInOrder hduration, Moment.upTo_eq_true_iff, if_pos hzone.symm]
      omega
    exact ⟨hforward, fun horder => Moment.instant_lt_iff_reversed (hforward.mpr horder)⟩

/-- Every Tuesday by a clock that is five hours ahead, with an end that is given by another clock,
    on whose calendar it is Tuesday as well. -/
def tuesdaysForward : Series where
  toSeriesFields := { tuesdaysBackward.withoutFirst.toSeriesFields with
    anchorEnd := some (.inJanuary 2 20) }
  zones := by decide
  ends := by decide
  bounds := by decide
  listed := by decide

/-- The first days of January 2024, by that clock. -/
def januaryAhead : Window where
  first := { Moment.inJanuary 1 0 with zone := tuesdaysBackward.anchorStart.zone }
  last := { Moment.inJanuary 5 0 with zone := tuesdaysBackward.anchorStart.zone }

/-- The Tuesday on which the series starts ends with it. -/
theorem duration_tuesdaysForward_nonneg :
    let s := tuesdaysForward
    (s.DatesInOrder ∧ s.GuessesEnd) ∧ (∃ duration, s.duration = .ok duration ∧ 0 ≤ duration) ∧
    ∃ e, s.expand januaryAhead 10 = .ok e ∧ ∃ o ∈ e.occurrences, o.start.upTo o.finish = true := by
  obtain ⟨hiff, -, hforward⟩ := duration_nonneg_iff_datesInOrder tuesdaysForward
  have horder : tuesdaysForward.DatesInOrder := by
    intro _ finish hfinish
    cases hfinish
    decide
  have hguess : tuesdaysForward.GuessesEnd := fun hday => by cases hday
  have h : tuesdaysForward.expand januaryAhead 10 =
      .ok ⟨"mondays", [.plain { Moment.inJanuary 2 0 with zone := .fixed 300 }
        { Moment.inJanuary 2 0 with zone := .fixed 300 }], .complete⟩ := by decide
  exact ⟨⟨horder, hguess⟩, hiff.mpr ⟨horder, hguess⟩, _, h, _, List.mem_cons_self,
    (hforward januaryAhead 10 _ h _ List.mem_cons_self).1.mpr horder⟩

/-- With an end that is no earlier instant and has an earlier date the length is that of a day,
    negative, and the Tuesday ends on the day before it starts. -/
theorem duration_tuesdaysBackward_neg :
    let s := tuesdaysBackward.withoutFirst
    s.endsBeforeStart = false ∧ s.duration = .ok (-(microsPerDay : Int)) ∧
    ∃ e, s.expand januaryAhead 10 = .ok e ∧
      ∃ o ∈ e.occurrences, o.finish.before o.start = true := by
  refine ⟨by decide, rfl, ?_⟩
  exact ⟨⟨"mondays", [.plain { Moment.inJanuary 2 0 with zone := .fixed 300 }
    { Moment.inJanuary 1 0 with zone := .fixed 300 }], .complete⟩, rfl, _, List.mem_cons_self,
    by decide⟩

end Series

end EventCalendar
