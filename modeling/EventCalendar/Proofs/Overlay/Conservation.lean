/-
  EventCalendar.Proofs.Overlay.Conservation

  An overlay loses nothing and adds nothing.  Its occurrences are those that are
  not deleted, each as it was or as its one modification makes it, and every
  modification is merged, overridden by a deletion, or handed back.
-/

import EventCalendar.Proofs.Overlay.Steps
import EventCalendar.Proofs.Time.Distance

namespace EventCalendar

open EventCalendar.Time

namespace Overlay

variable {deletions : List ExceptionKey} {modifications : Modifications} {s : Option Series}
  {raw : List Occurrence} {overlay : Overlay} {entry : Int × Modification} {place place' : Nat}

/-! ## Accounts of an overlay -/

/-- What an overlay makes of one occurrence. -/
inductive Becomes (index : Modifications.Index) (s : Option Series) :
    Occurrence → Occurrence → Prop
  /-- No modification is stored under its key. -/
  | same {o : Occurrence} (free : index.find? o.key = none) : Becomes index s o o
  /-- It is merged with the modification under its key. -/
  | merged {o o' : Occurrence} {m : Modification} (found : index.find? o.key = some m)
      (merges : o.merge m s = .ok o') (original : o'.originalStart = o.originalStart)
      (marked : o'.state = .modified) : Becomes index s o o'

/-- A modification is merged with the occurrence under its key, and the result stands at a place of
    the overlay. -/
def MergedAt (raw : List Occurrence) (s : Option Series) (overlay : Overlay)
    (entry : Int × Modification) (place : Nat) : Prop :=
  ∃ o ∈ raw, ∃ o', o.key = entry.1 ∧ o.merge entry.2 s = .ok o' ∧
    overlay.occurrences[place]? = some o'

/-- The occurrence under the key of a modification is deleted. -/
def Overridden (raw : List Occurrence) (deletions : List ExceptionKey)
    (entry : Int × Modification) : Prop :=
  entry.1 ∈ raw.map Occurrence.key ∧ entry.1 ∈ deletionKeys deletions

/-- An overlay accounts for all occurrences and for all modifications. -/
structure Conserves (raw : List Occurrence) (deletions : List ExceptionKey)
    (modifications : Modifications) (s : Option Series) (overlay : Overlay) : Prop where
  /-- What is not deleted stands in its order, and nothing else. -/
  occurrences : List.Forall₂ (Becomes modifications.index s)
    (raw.filter (·.key ∉ deletionKeys deletions)) overlay.occurrences
  /-- Of three things exactly one happens to a modification: it is merged at one place, overridden,
      or handed back, in the order in which the modifications are stored. -/
  modifications : ∃ left : List (Int × Modification),
    left.Sublist modifications.index.entries ∧ overlay.unmatched = left.map (·.2) ∧
    ∀ entry ∈ modifications.index.entries,
      ((∃! place, MergedAt raw s overlay entry place) ∧ ¬ Overridden raw deletions entry ∧
        entry ∉ left) ∨
      ((¬ ∃ place, MergedAt raw s overlay entry place) ∧ Overridden raw deletions entry ∧
        entry ∉ left) ∨
      ((¬ ∃ place, MergedAt raw s overlay entry place) ∧ ¬ Overridden raw deletions entry ∧
        entry ∈ left)

/-! ## What happens to occurrences and modifications -/

theorem becomes_of_adjust {index : Modifications.Index} {o o' : Occurrence}
    (h : o.adjust (index.find? o.key) s = .ok o') : Becomes index s o o' := by
  cases hfind : index.find? o.key with
  | none =>
    rw [hfind] at h
    cases h
    exact .same hfind
  | some m =>
    rw [hfind] at h
    exact .merged hfind h (Occurrence.originalStart_of_merge h) (Occurrence.state_of_merge h)

/-- The occurrence at the place of a merged modification has its key. -/
theorem MergedAt.key_getElem? (h : MergedAt raw s overlay entry place) :
    (overlay.occurrences.map Occurrence.key)[place]? = some entry.1 := by
  obtain ⟨o, -, o', hkey, hmerge, hplace⟩ := h
  rw [List.getElem?_map, hplace, Option.map_some, Occurrence.key,
    Occurrence.originalStart_of_merge hmerge, ← hkey]
  rfl

theorem MergedAt.key_mem (h : MergedAt raw s overlay entry place) :
    entry.1 ∈ raw.map Occurrence.key := by
  obtain ⟨o, ho, -, hkey, -⟩ := h
  exact hkey ▸ List.mem_map_of_mem ho

section

variable (hkeys : (raw.map Occurrence.key).Nodup)
  (h : (apply raw deletions modifications s).outcome = .ok overlay)

include h in
theorem keys_of_apply : overlay.occurrences.map Occurrence.key =
    (raw.map Occurrence.key).filter (· ∉ deletionKeys deletions) := by
  obtain ⟨p, hp, rfl⟩ := apply_eq_ok_iff.mp h
  exact keys_of_applyFrom hp

include h in
theorem MergedAt.key_not_mem_deletionKeys (hmerged : MergedAt raw s overlay entry place) :
    entry.1 ∉ deletionKeys deletions := by
  have hmem := List.mem_of_getElem? hmerged.key_getElem?
  rw [keys_of_apply h, List.mem_filter] at hmem
  simpa using hmem.2

include hkeys h in
theorem MergedAt.unique (hmerged : MergedAt raw s overlay entry place)
    (hmerged' : MergedAt raw s overlay entry place') : place' = place := by
  have hnodup : (overlay.occurrences.map Occurrence.key).Nodup := by
    rw [keys_of_apply h]
    exact hkeys.sublist List.filter_sublist
  have hplace := hmerged'.key_getElem?
  obtain ⟨hlt, -⟩ := List.getElem?_eq_some_iff.mp hplace
  exact (List.getElem?_inj hlt hnodup).mp (hplace.trans hmerged.key_getElem?.symm)

include hkeys h in
theorem mapM_adjust_of_apply : (raw.filter (·.key ∉ deletionKeys deletions)).mapM
    (fun o => o.adjust (modifications.index.find? o.key) s) = .ok overlay.occurrences := by
  obtain ⟨p, hp, rfl⟩ := apply_eq_ok_iff.mp h
  rw [← kept_applyFrom_of_nodup _ _ _ hkeys, hp, ok_bind]

include hkeys h in
/-- A modification whose occurrence is there and not deleted is merged. -/
theorem exists_mergedAt (hentry : entry ∈ modifications.index.entries)
    (hmem : entry.1 ∈ raw.map Occurrence.key) (hkept : entry.1 ∉ deletionKeys deletions) :
    ∃ place, MergedAt raw s overlay entry place := by
  have hmem' : entry.1 ∈ overlay.occurrences.map Occurrence.key := by
    rw [keys_of_apply h, List.mem_filter]
    exact ⟨hmem, decide_eq_true hkept⟩
  obtain ⟨o', ho', hkey'⟩ := List.mem_map.mp hmem'
  obtain ⟨o, ho, hadjust⟩ := (mem_of_mapM_eq_ok (mapM_adjust_of_apply hkeys h)).mp ho'
  have hkey : o.key = entry.1 := (Occurrence.key_of_adjust hadjust).symm.trans hkey'
  rw [hkey, OrderedMap.find?_eq_some_iff.mpr hentry] at hadjust
  obtain ⟨place, hplace⟩ := List.getElem?_of_mem ho'
  exact ⟨place, o, (List.mem_filter.mp ho).1, o', hkey, hadjust, hplace⟩

end

/-- An overlay gives a result unless a modification cannot be merged with its occurrence.  If the
    occurrences have different keys, the result accounts for all occurrences and modifications. -/
theorem apply_conserves (deletions : List ExceptionKey) (modifications : Modifications)
    (s : Option Series) (hkeys : (raw.map Occurrence.key).Nodup) :
    ((∃ overlay, (apply raw deletions modifications s).outcome = .ok overlay) ↔
      ∀ o ∈ raw, o.key ∉ deletionKeys deletions →
        ∀ m, modifications.index.find? o.key = some m → ∃ o', o.merge m s = .ok o') ∧
    ∀ overlay, (apply raw deletions modifications s).outcome = .ok overlay →
      Conserves raw deletions modifications s overlay := by
  constructor
  · -- with different keys a run adjusts one occurrence apart from the others
    have hruns : (∃ overlay, (apply raw deletions modifications s).outcome = .ok overlay) ↔
        ∃ kept, (raw.filter (·.key ∉ deletionKeys deletions)).mapM
          (fun o => o.adjust (modifications.index.find? o.key) s) = .ok kept := by
      rw [← kept_applyFrom_of_nodup _ _ _ hkeys, outcome_apply,
        exists_bind_eq_ok_iff fun p _ => ⟨_, rfl⟩, exists_bind_eq_ok_iff fun p _ => ⟨_, rfl⟩]
    rw [hruns, exists_mapM_eq_ok_iff]
    constructor
    · intro hall o ho hnot m hm
      obtain ⟨o', ho'⟩ := hall o (List.mem_filter.mpr ⟨ho, decide_eq_true hnot⟩)
      rw [hm] at ho'
      exact ⟨o', ho'⟩
    · intro hall o ho
      obtain ⟨ho, hnot⟩ := List.mem_filter.mp ho
      cases hfind : modifications.index.find? o.key with
      | none => exact ⟨o, rfl⟩
      | some m => exact hall o ho (by simpa using hnot) m hfind
  · intro overlay h
    obtain ⟨p, hp, hoverlay⟩ := apply_eq_ok_iff.mp h
    refine ⟨?_, modifications.index.entries.filter (·.1 ∉ raw.map Occurrence.key),
      List.filter_sublist, ?_, ?_⟩
    · exact (mapM_eq_ok_iff_forall₂.mp (mapM_adjust_of_apply hkeys h)).imp
        fun _ _ => becomes_of_adjust
    · rw [hoverlay, OrderedMap.values, pending_of_applyFrom hp]
    · intro entry hentry
      have hleft : entry ∈ modifications.index.entries.filter (·.1 ∉ raw.map Occurrence.key) ↔
          entry.1 ∉ raw.map Occurrence.key := by
        rw [List.mem_filter, decide_eq_true_iff, and_iff_right hentry]
      rw [hleft]
      -- which of the three happens is decided by the key alone
      by_cases hmem : entry.1 ∈ raw.map Occurrence.key
      · by_cases hdeleted : entry.1 ∈ deletionKeys deletions
        · refine .inr (.inl ⟨?_, ⟨hmem, hdeleted⟩, not_not_intro hmem⟩)
          rintro ⟨place, hmerged⟩
          exact hmerged.key_not_mem_deletionKeys h hdeleted
        · obtain ⟨place, hmerged⟩ := exists_mergedAt hkeys h hentry hmem hdeleted
          exact .inl ⟨⟨place, hmerged, fun place' => hmerged.unique hkeys h⟩,
            fun hover => hdeleted hover.2, not_not_intro hmem⟩
      · refine .inr (.inr ⟨?_, fun hover => hmem hover.1, hmem⟩)
        rintro ⟨place, hmerged⟩
        exact hmem hmerged.key_mem

/-- The first three Mondays of 2024 from nine to ten. -/
def threeMondays : List Occurrence :=
  [.plain (.inJanuary 1 9) (.inJanuary 1 10), .plain (.inJanuary 8 9) (.inJanuary 8 10),
    .plain (.inJanuary 15 9) (.inJanuary 15 10)]

/-- The first Monday moves to the afternoon, without an end; the second one and a Tuesday get a
    title. -/
def mondayChanges : Modifications :=
  .listed [⟨.inJanuary 1 9, some (.inJanuary 1 14), none, none, none⟩,
    ⟨.inJanuary 8 9, none, none, some "second", none⟩,
    ⟨.inJanuary 9 9, none, none, some "Tuesday", none⟩]

/-- With the second Monday deleted, one of the changes is merged, one is overridden, and one is
    handed back. -/
theorem apply_mondayChanges_conserves :
    let deletions : List ExceptionKey := [.moment (.inJanuary 8 9)]
    (threeMondays.map Occurrence.key).Nodup ∧
      ∃ overlay, (apply threeMondays deletions mondayChanges none).outcome = .ok overlay ∧
        overlay.occurrences.map (·.state) = [.modified, .none] ∧ overlay.unmatched.length = 1 ∧
        Conserves threeMondays deletions mondayChanges none overlay := by
  intro deletions
  have hkeys : (threeMondays.map Occurrence.key).Nodup := by decide +kernel
  have hrun : (apply threeMondays deletions mondayChanges none).outcome.map
      (fun overlay => (overlay.occurrences.map (·.state), overlay.unmatched.length)) =
        .ok ([.modified, .none], 1) := by decide +kernel
  obtain ⟨-, hconserves⟩ := apply_conserves deletions mondayChanges none hkeys
  obtain ⟨overlay, hoverlay, hcounts⟩ := map_eq_ok_iff.mp hrun
  obtain ⟨hstates, hleft⟩ := Prod.mk.inj hcounts
  exact ⟨hkeys, overlay, hoverlay, hstates, hleft, hconserves overlay hoverlay⟩

end Overlay

end EventCalendar
