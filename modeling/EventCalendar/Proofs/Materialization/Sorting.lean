/-
  EventCalendar.Proofs.Materialization.Sorting

  What is known of sorted events.  Of two events at most one comes before the
  other, but three may stand in a circle: their starts are held against each
  other by the readings of their clock or, in two zones, by their instants.
  Sorted events nevertheless stand in order with their neighbours.
-/

import EventCalendar.Materialization
import EventCalendar.Proofs.RunSort.Order
import EventCalendar.Proofs.Time.InStep

namespace EventCalendar

open EventCalendar.Time

theorem Time.Moment.same_symm {a b : Moment} (h : a.same b = true) : b.same a = true := by
  unfold same at h ⊢
  by_cases hzone : a.zone = b.zone
  · rw [if_pos hzone, decide_eq_true_eq] at h
    rw [if_pos hzone.symm, decide_eq_true_eq]
    exact h.symm
  · rw [if_neg hzone] at h
    rw [if_neg (Ne.symm hzone)]
    simp only [Bool.and_eq_true, beq_iff_eq] at h ⊢
    obtain ⟨⟨⟨⟨ha, hb⟩, hclear⟩, hclear'⟩, hinstant⟩ := h
    exact ⟨⟨⟨⟨hb, ha⟩, hclear'⟩, hclear⟩, hinstant.symm⟩

theorem Time.Moment.same_comm (a b : Moment) : a.same b = b.same a :=
  Bool.eq_iff_iff.mpr ⟨same_symm, same_symm⟩

namespace EventInstance

variable {a b : EventInstance} {events : List EventInstance}

/-! ## Two events -/

theorem asymmetric_before : RunSort.Asymmetric before := by
  intro a b h
  unfold before at h ⊢
  rw [Moment.same_comm b.start a.start]
  split at h
  · rename_i hsame
    rw [if_pos hsame]
    rw [decide_eq_true_eq] at h
    exact decide_eq_false (String.lt_asymm h)
  · rename_i hsame
    rw [if_neg hsame]
    have htotal := Moment.upTo_total a.start b.start
    rw [Moment.upTo_eq_not_before, Moment.upTo_eq_not_before, h] at htotal
    simpa using htotal

/-- An event that is not preceded by another one starts no later. -/
theorem upTo_of_not_before (h : b.before a = false) : a.start.upTo b.start = true := by
  rw [Moment.upTo_eq_not_before, Bool.not_eq_true']
  unfold before at h
  split at h
  · rename_i hsame
    exact Moment.not_before_of_same hsame
  · exact h

/-- Events of one series stand in the order of their starts. -/
theorem not_before_of_seriesId_eq (h : a.seriesId = b.seriesId) :
    (!b.before a) = a.start.upTo b.start := by
  rw [EventInstance.before, Moment.upTo_eq_not_before]
  split
  · rename_i hsame
    have hbefore : b.start.before a.start = false := Moment.not_before_of_same hsame
    rw [hbefore, h]
    simp
  · rfl

/-! ## Sorted events -/

theorem sorted_perm (events : List EventInstance) : (sorted events).Perm events :=
  RunSort.sort_perm asymmetric_before events

theorem mem_sorted : a ∈ sorted events ↔ a ∈ events := (sorted_perm events).mem_iff

/-- Each of some sorted events starts no later than the next one. -/
theorem isChain_sorted (events : List EventInstance) :
    (sorted events).IsChain fun a b => a.start.upTo b.start = true :=
  (RunSort.sort_spec asymmetric_before events).1.imp fun _ _ => upTo_of_not_before

/-- Events in order are sorted as they stand. -/
theorem sorted_of_ascends (h : RunSort.Ascends before events) : sorted events = events :=
  RunSort.sort_of_ascends h

@[simp] theorem sorted_nil : sorted [] = [] := sorted_of_ascends .nil

@[simp] theorem sorted_singleton (a : EventInstance) : sorted [a] = [a] :=
  sorted_of_ascends (.singleton a)

end EventInstance

end EventCalendar
