/-
  EventCalendar.Proofs.Expansion.Instants

  Two windows that name the same instants in different ways.  Where their ends
  are in step with all that they are held against, the ends come out alike
  everywhere, and so do the occurrences.
-/

import EventCalendar.Proofs.Expansion.WeekRuns

namespace EventCalendar

open EventCalendar.Time

/-! ## Ends of windows -/

/-- The ends of a window are in step with the bounds of a series. -/
def Window.InStepWithBounds (w : Window) (s : Series) : Prop :=
  ∀ bound ∈ s.firstInstance.toList ++ s.lastInstance.toList,
    bound.InStep w.first ∧ bound.InStep w.last

namespace Series

variable {s : Series} {w w' : Window} {cap : Int} {e e' : Expansion} {m t bound : Moment}

theorem zoned_of_mem_bounds (hm : m ∈ s.firstInstance.toList ++ s.lastInstance.toList) :
    m.zoned = m := by
  have hmem : m ∈ s.moments := by
    rw [List.mem_append] at hm
    simp only [SeriesFields.moments, List.mem_cons, List.mem_append]
    rcases hm with hm | hm
    · exact .inr (.inl (.inr hm))
    · exact .inr (.inr hm)
  have hzoned := s.zones m hmem
  rw [Moment.isZoned, bne_iff_ne] at hzoned
  exact Moment.zoned_of_zone_ne hzoned

theorem inStep_zoned_right (hm : m.zoned = m) (h : m.InStep t) : m.InStep t.zoned := by
  rw [← hm]
  exact Moment.inStep_zoned.mpr h

/-- On clocks that are never put forward or back a window is in step with every series. -/
theorem inStepWith_of_isFixed (hfirst : w.first.zone.isFixed = true)
    (hlast : w.last.zone.isFixed = true) : w.InStepWith s ∧ w.InStepWithBounds s :=
  ⟨⟨Moment.inStep_of_isFixed hfirst, fun _ _ =>
      ⟨(Moment.inStep_of_isFixed hfirst).symm, (Moment.inStep_of_isFixed hlast).symm⟩⟩,
    fun _ _ => ⟨(Moment.inStep_of_isFixed hfirst).symm, (Moment.inStep_of_isFixed hlast).symm⟩⟩

/-! ## Cut windows -/

/-- Two windows with ends at the same instants, both in step with a series and its bounds. -/
structure AtSameInstants (s : Series) (w w' : Window) : Prop where
  first : w.first.instant = w'.first.instant
  last : w.last.instant = w'.last.instant
  inStep : w.InStepWith s
  inStep' : w'.InStepWith s
  bounds : w.InStepWithBounds s
  bounds' : w'.InStepWithBounds s

section

variable (h : s.AtSameInstants w w')

include h

/-- Both windows are cut to the first bound, or neither is. -/
theorem AtSameInstants.first_clip : (w.clip s).first = (w'.clip s).first ∧
      (w.clip s).first ∈ s.firstInstance.toList ∨
    (w.clip s).first = w.first.zoned ∧ (w'.clip s).first = w'.first.zoned := by
  cases hfirst : s.firstInstance with
  | none => exact .inr ⟨by simp only [Window.clip, hfirst], by simp only [Window.clip, hfirst]⟩
  | some bound =>
    have hmem : bound ∈ s.firstInstance.toList ++ s.lastInstance.toList := by
      rw [hfirst]
      exact List.mem_cons_self
    have hzoned := zoned_of_mem_bounds hmem
    have hsame : w.first.zoned.before bound = w'.first.zoned.before bound := by
      rw [Moment.before_eq_not_upTo, Moment.before_eq_not_upTo, Moment.InStep.upTo_congr
        (inStep_zoned_right hzoned (h.bounds bound hmem).1)
        (inStep_zoned_right hzoned (h.bounds' bound hmem).1) (by simpa using h.first)]
    simp only [Window.clip, hfirst, hsame]
    cases w'.first.zoned.before bound with
    | true => exact .inl ⟨rfl, by simp⟩
    | false => exact .inr ⟨rfl, rfl⟩

/-- Both windows are cut to the last bound, or neither is. -/
theorem AtSameInstants.last_clip : (w.clip s).last = (w'.clip s).last ∧
      (w.clip s).last ∈ s.lastInstance.toList ∨
    (w.clip s).last = w.last.zoned ∧ (w'.clip s).last = w'.last.zoned := by
  cases hlast : s.lastInstance with
  | none => exact .inr ⟨by simp only [Window.clip, hlast], by simp only [Window.clip, hlast]⟩
  | some bound =>
    have hmem : bound ∈ s.firstInstance.toList ++ s.lastInstance.toList := by
      rw [hlast]
      exact List.mem_append_right _ List.mem_cons_self
    have hzoned := zoned_of_mem_bounds hmem
    have hsame : bound.before w.last.zoned = bound.before w'.last.zoned :=
      Moment.InStep.before_congr (inStep_zoned_right hzoned (h.bounds bound hmem).2)
        (inStep_zoned_right hzoned (h.bounds' bound hmem).2) (by simpa using h.last)
    simp only [Window.clip, hlast, hsame]
    cases bound.before w'.last.zoned with
    | true => exact .inl ⟨rfl, by simp⟩
    | false => exact .inr ⟨rfl, rfl⟩

/-- Nothing lies in the one window if nothing lies in the other one. -/
theorem AtSameInstants.isEmpty_clip : (w.clip s).isEmpty = (w'.clip s).isEmpty := by
  unfold Window.isEmpty
  -- either end is a bound in both windows, or it is the own end of either
  rcases h.first_clip with ⟨hfirst, hbound⟩ | ⟨hfirst, hfirst'⟩ <;>
    rcases h.last_clip with ⟨hlast, hbound'⟩ | ⟨hlast, hlast'⟩
  · rw [hfirst, hlast]
  · have hmem := List.mem_append_left s.lastInstance.toList hbound
    have hzoned := zoned_of_mem_bounds hmem
    rw [← hfirst, hlast, hlast', Moment.before_eq_not_upTo, Moment.before_eq_not_upTo,
      Moment.InStep.upTo_congr (inStep_zoned_right hzoned (h.bounds _ hmem).2)
        (inStep_zoned_right hzoned (h.bounds' _ hmem).2) (by simpa using h.last)]
  · have hmem := List.mem_append_right s.firstInstance.toList hbound'
    have hzoned := zoned_of_mem_bounds hmem
    rw [← hlast, hfirst, hfirst']
    exact Moment.InStep.before_congr (inStep_zoned_right hzoned (h.bounds _ hmem).1)
      (inStep_zoned_right hzoned (h.bounds' _ hmem).1) (by simpa using h.first)
  · rw [hfirst, hfirst', hlast, hlast', Bool.eq_iff_iff,
      (Moment.inStep_zoned.mpr h.inStep.ends).symm.before_iff,
      (Moment.inStep_zoned.mpr h.inStep'.ends).symm.before_iff]
    simp only [Moment.instant_zoned, h.first, h.last]

/-- The cut windows stand alike to all that is held against them. -/
theorem AtSameInstants.sameFor_clip : s.SameFor (w.clip s) (w'.clip s) := by
  constructor
  · intro m hm
    rcases h.first_clip with ⟨hsame, -⟩ | ⟨hfirst, hfirst'⟩
    · rw [hsame]
    · have hzoned := s.zoned_of_zone_eq hm.zone
      rw [hfirst, hfirst']
      exact Moment.InStep.before_congr (inStep_zoned_right hzoned (h.inStep.passed m hm).1)
        (inStep_zoned_right hzoned (h.inStep'.passed m hm).1) (by simpa using h.first)
  · intro m hm
    rcases h.last_clip with ⟨hsame, -⟩ | ⟨hlast, hlast'⟩
    · rw [hsame]
    · have hzoned := s.zoned_of_zone_eq hm.zone
      rw [hlast, hlast']
      exact Moment.InStep.upTo_congr (inStep_zoned_right hzoned (h.inStep.passed m hm).2)
        (inStep_zoned_right hzoned (h.inStep'.passed m hm).2) (by simpa using h.last)

end

/-! ## Expansions -/

/-- Period by period, windows that stand alike show the same starts. -/
theorem shows_of_sameFor {duration : Int} (hkind : s.kind ≠ .customWeekly)
    (hduration : s.duration = .ok duration) (hsame : s.SameFor w w') (hm : m ∈ s.allStarts) :
    w.shows duration m = w'.shows duration m := by
  have hvisits := visits_of_mem_allStarts hkind hm
  rw [Window.shows, Window.shows, hsame.last m (.start hvisits)]
  cases hfinish : m.plus duration with
  | error error => simp [Moment.endsBefore, hfinish, Except.toOption]
  | ok finish =>
    rw [Moment.endsBefore_of_plus hfinish, Moment.endsBefore_of_plus hfinish,
      hsame.first finish (.finish hvisits hduration hfinish)]

theorem listPeriods_of_sameFor {budget : Int} (hkind : s.kind ≠ .customWeekly)
    (hbudget : 20 ≤ budget) (hsame : s.SameFor w w') (h : s.listPeriods w cap budget = .ok e)
    (h' : s.listPeriods w' cap budget = .ok e') :
    e'.occurrences = e.occurrences ∧ e'.truncated = e.truncated := by
  obtain ⟨duration, hduration, hlisted, hmore⟩ := listPeriods_spec hkind hbudget h
  obtain ⟨duration', hduration', hlisted', hmore'⟩ := listPeriods_spec hkind hbudget h'
  rw [hduration, Except.ok.injEq] at hduration'
  subst hduration'
  have hshown : s.allStarts.filter (w.shows duration) = s.allStarts.filter (w'.shows duration) :=
    List.filter_congr fun m hm => shows_of_sameFor hkind hduration hsame hm
  rw [← hshown] at hlisted' hmore'
  rw [hlisted, Except.ok.injEq] at hlisted'
  exact ⟨hlisted'.symm, Bool.eq_iff_iff.mpr (hmore'.trans hmore.symm)⟩

/-- Windows whose ends are in step with all that they are held against give the same occurrences if
    the ends are the same instants. -/
theorem expand_of_instant_eq (hfirst : w.first.instant = w'.first.instant)
    (hlast : w.last.instant = w'.last.instant) (hstep : w.InStepWith s ∧ w.InStepWithBounds s)
    (hstep' : w'.InStepWith s ∧ w'.InStepWithBounds s) (h : s.expand w cap = .ok e)
    (h' : s.expand w' cap = .ok e') :
    e'.occurrences = e.occurrences ∧ e'.truncated = e.truncated := by
  have hsame : s.AtSameInstants w w' := ⟨hfirst, hlast, hstep.1, hstep'.1, hstep.2, hstep'.2⟩
  cases hwindow : (w.clip s).isEmpty with
  | true =>
    rw [expand_of_isEmpty hwindow, Except.ok.injEq] at h
    rw [expand_of_isEmpty (hsame.isEmpty_clip.symm.trans hwindow), Except.ok.injEq] at h'
    rw [← h, ← h']
    exact ⟨rfl, rfl⟩
  | false =>
    have hwindow' := hsame.isEmpty_clip.symm.trans hwindow
    by_cases hkind : s.kind = .customWeekly
    · rw [expand_eq_listListed hkind hwindow] at h
      rw [expand_eq_listListed hkind hwindow'] at h'
      rw [listListed_of_sameFor hkind hsame.sameFor_clip h h']
      exact ⟨rfl, rfl⟩
    · rw [expand_eq_listPeriods hkind hwindow] at h
      rw [expand_eq_listPeriods hkind hwindow'] at h'
      exact listPeriods_of_sameFor hkind (by decide) hsame.sameFor_clip h h'

/-- The night in which the clock is put back, in universal time and five hours ahead of it. -/
theorem expand_nightly_of_instant_eq :
    let w : Window := ⟨.inOctober 26 12, .inOctober 27 12⟩
    let w' : Window := ⟨{ Moment.inOctober 26 17 with zone := .fixed 300 },
      { Moment.inOctober 27 17 with zone := .fixed 300 }⟩
    ∃ e e', nightly.expand w 10 = .ok e ∧ nightly.expand w' 10 = .ok e' ∧
      e.occurrences.length = 1 ∧ e'.occurrences = e.occurrences ∧ e'.truncated = e.truncated := by
  intro w w'
  have h : nightly.expand w 10 =
      .ok ⟨"nightly", [.plain (.inBerlin 155 false) (.inBerlin 165 false)], .complete⟩ := rfl
  have h' : nightly.expand w' 10 =
      .ok ⟨"nightly", [.plain (.inBerlin 155 false) (.inBerlin 165 false)], .complete⟩ := by
    decide +kernel
  exact ⟨_, _, h, h', rfl, expand_of_instant_eq (by decide) (by decide)
    (inStepWith_of_isFixed rfl rfl) (inStepWith_of_isFixed rfl rfl) h h'⟩

/-- On the clock that is put back, an occurrence that ends at 2:45 has not ended by the second two
    o'clock, though it has by the instant. -/
theorem expand_nightly_ne_of_instant_eq :
    let w : Window := ⟨.inBerlin 120 true, .inOctober 27 12⟩
    let w' : Window := ⟨.inOctober 27 1, .inOctober 27 12⟩
    w.first.instant = w'.first.instant ∧ w.last.instant = w'.last.instant ∧
      ∃ e e', nightly.expand w 10 = .ok e ∧ nightly.expand w' 10 = .ok e' ∧
        e'.occurrences ≠ e.occurrences := by
  refine ⟨by decide, by decide, ?_⟩
  exact ⟨⟨"nightly", [.plain (.inBerlin 155 false) (.inBerlin 165 false)], .complete⟩,
    ⟨"nightly", [], .complete⟩, rfl, rfl, by decide⟩

end Series

end EventCalendar
