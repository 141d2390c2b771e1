/-
  EventCalendar.Proofs.Overlay.Repetition

  The same exceptions laid over occurrences twice.  The occurrences stay as the
  first time has made them; but a modification that a deletion overrides the
  first time finds no occurrence the second time.
-/

import EventCalendar.Proofs.Overlay.Steps
import EventCalendar.Proofs.Time.Distance

namespace EventCalendar

open EventCalendar.Time

namespace Overlay

variable {deletions : List ExceptionKey} {modifications : Modifications} {s : Option Series}
  {raw : List Occurrence} {once : Overlay}

/-- Elements that pass a test pass a weaker one, and no others do if as many pass both. -/
theorem forall_of_length_filter_eq {α : Type} {P Q : α → Bool} {l : List α}
    (hle : ∀ a, P a = true → Q a = true) (hlength : (l.filter P).length = (l.filter Q).length) :
    ∀ a ∈ l, Q a = true → P a = true := by
  have hall := (List.monotone_filter_right l hle).eq_of_length hlength
  intro a ha hQ
  have hmem : a ∈ l.filter P := hall ▸ List.mem_filter.mpr ⟨ha, hQ⟩
  exact (List.mem_filter.mp hmem).2

/-- Laying the same exceptions over an overlay once more gives the same occurrences.  The overlay
    stays the same as a whole if and only if no occurrence is both deleted and modified. -/
theorem apply_again_iff (h : (apply raw deletions modifications s).outcome = .ok once) :
    ∃ again, (apply once.occurrences deletions modifications s).outcome = .ok again ∧
      again.occurrences = once.occurrences ∧
      (again = once ↔ ∀ o ∈ raw, o.key ∈ deletionKeys deletions →
        o.key ∉ modifications.index.keys) := by
  obtain ⟨p, hp, rfl⟩ := apply_eq_ok_iff.mp h
  obtain ⟨p', hp', hkept⟩ := exists_applyFrom_kept hp fun _ _ => rfl
  refine ⟨⟨p'.kept, p'.pending.values⟩, apply_eq_ok_iff.mpr ⟨p', hp', rfl⟩, hkept, ?_⟩
  have hpending := pending_of_applyFrom hp
  have hpending' := pending_of_applyFrom hp'
  rw [keys_of_applyFrom hp] at hpending'
  have hwaiting (key : Int) : key ∉ raw.map Occurrence.key →
      key ∉ (raw.map Occurrence.key).filter (· ∉ deletionKeys deletions) :=
    fun hnot hmem => hnot (List.mem_filter.mp hmem).1
  constructor
  · -- as many modifications are handed back both times, so that each of the second time was one
    -- of the first, and found no occurrence even among those that were then deleted
    intro heq o ho hdeleted hmodified
    have hvalues : p'.pending.values = p.pending.values := congrArg Overlay.unmatched heq
    have hlength := congrArg List.length hvalues
    rw [OrderedMap.values, OrderedMap.values, List.length_map, List.length_map, hpending,
      hpending'] at hlength
    obtain ⟨entry, hentry, hkey⟩ := List.mem_map.mp hmodified
    have hgone := forall_of_length_filter_eq
      (fun entry hentry => decide_eq_true (hwaiting entry.1 (of_decide_eq_true hentry)))
      hlength.symm entry hentry (decide_eq_true fun hmem =>
        of_decide_eq_true (List.mem_filter.mp hmem).2 (hkey ▸ hdeleted))
    exact of_decide_eq_true hgone (hkey ▸ List.mem_map_of_mem ho)
  · -- a modification that found its occurrence finds it among those kept
    intro hfree
    have hsame : p'.pending.entries = p.pending.entries := by
      rw [hpending, hpending']
      apply List.filter_congr
      intro entry hentry
      rw [decide_eq_decide]
      refine ⟨fun hnot hmem => hnot ?_, hwaiting entry.1⟩
      obtain ⟨o, ho, hkey⟩ := List.mem_map.mp hmem
      refine List.mem_filter.mpr ⟨hmem, decide_eq_true fun hdeleted => ?_⟩
      exact hfree o ho (hkey ▸ hdeleted) (hkey ▸ List.mem_map_of_mem hentry)
    rw [Overlay.mk.injEq, OrderedMap.values, OrderedMap.values, hsame]
    exact ⟨hkept, rfl⟩

/-- The first two Mondays of 2024 from nine to ten. -/
def twoMondays : List Occurrence :=
  [.plain (.inJanuary 1 9) (.inJanuary 1 10), .plain (.inJanuary 8 9) (.inJanuary 8 10)]

/-- The first Monday moves to the afternoon, without an end. -/
def mondayAfternoon : Modifications :=
  .listed [⟨.inJanuary 1 9, some (.inJanuary 1 14), none, none, none⟩]

/-- With the second Monday deleted, the first one moves once and for all. -/
theorem apply_mondayAfternoon_again :
    let deletions : List ExceptionKey := [.moment (.inJanuary 8 9)]
    ∃ once, (apply twoMondays deletions mondayAfternoon none).outcome = .ok once ∧
      once.occurrences.map (·.state) = [.modified] ∧
      (apply once.occurrences deletions mondayAfternoon none).outcome = .ok once := by
  intro deletions
  have hrun : (apply twoMondays deletions mondayAfternoon none).outcome.map
      (fun once => once.occurrences.map (·.state)) = .ok [.modified] := by decide +kernel
  obtain ⟨once, honce, hstates⟩ := map_eq_ok_iff.mp hrun
  obtain ⟨again, hagain, -, hsame⟩ := apply_again_iff honce
  have hfree : ∀ o ∈ twoMondays, o.key ∈ deletionKeys deletions →
      o.key ∉ mondayAfternoon.index.keys := by decide +kernel
  exact ⟨once, honce, hstates, hsame.mpr hfree ▸ hagain⟩

/-- With the first Monday deleted, its modification is overridden the first time, and handed back
    the second time. -/
theorem apply_mondayAfternoon_of_deleted :
    let deletions : List ExceptionKey := [.moment (.inJanuary 1 9)]
    let once : Overlay := ⟨twoMondays.tail, []⟩
    let again : Overlay := ⟨twoMondays.tail, mondayAfternoon.index.values⟩
    (apply twoMondays deletions mondayAfternoon none).outcome = .ok once ∧
      (apply once.occurrences deletions mondayAfternoon none).outcome = .ok again ∧
      again ≠ once := by
  decide +kernel

end Overlay

end EventCalendar
