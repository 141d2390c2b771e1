/-
  EventCalendar.Proofs.Zone.Names

  Names of zones.  A canonical name stands for itself, and the zone that it
  leads to has that name.  So a name, known or not, has the name of the zone it
  is resolved to as its canonical name, or that of the fallback, or `UTC`.
-/

import EventCalendar.Zone.Names

namespace EventCalendar.Zone

variable {name canonical : String}

/-! ## Canonical names -/

theorem Region.name_of_ofName? {r : Region} (h : Region.ofName? name = some r) : r.name = name := by
  have hfound := List.find?_some h
  exact beq_iff_eq.mp hfound

theorem isCanonical_iff :
    isCanonical name = true ↔ name = defaultName ∨ ∃ r : Region, r.name = name := by
  rw [isCanonical, Bool.or_eq_true, beq_iff_eq, Option.isSome_iff_exists]
  refine or_congr_right ⟨?_, ?_⟩
  · rintro ⟨r, hr⟩
    exact ⟨r, Region.name_of_ofName? hr⟩
  · rintro ⟨r, rfl⟩
    have hsome : (Region.ofName? r.name).isSome = true :=
      List.find?_isSome.mpr ⟨r, r.mem_all, beq_self_eq_true r.name⟩
    exact Option.isSome_iff_exists.mp hsome

/-- Neither blanks nor quotes surround the name of a region, and no table replaces it. -/
theorem currentName_of_isCanonical (h : isCanonical name = true) : currentName name = name := by
  obtain rfl | ⟨r, rfl⟩ := isCanonical_iff.mp h
  · decide +kernel
  · cases r <;> decide +kernel

theorem ne_empty_of_isCanonical (h : isCanonical name = true) : name ≠ "" := by
  rintro rfl
  exact absurd h (by decide +kernel)

theorem canonical?_of_isCanonical (h : isCanonical name = true) :
    canonical? (some name) = some name := by
  rw [canonical?, if_neg (ne_empty_of_isCanonical h), currentName_of_isCanonical h, if_pos h]

theorem isCanonical_of_canonical? {given : Option String} (h : canonical? given = some canonical) :
    isCanonical canonical = true := by
  cases given with
  | none => cases h
  | some given =>
    rw [canonical?] at h
    by_cases hempty : given = ""
    · rw [if_pos hempty] at h
      cases h
    · rw [if_neg hempty] at h
      by_cases hcanonical : isCanonical (currentName given) = true
      · rw [if_pos hcanonical] at h
        rwa [← Option.some.inj h]
      · rw [if_neg hcanonical] at h
        cases h

theorem canonical?_defaultName : canonical? (some defaultName) = some defaultName :=
  canonical?_of_isCanonical (isCanonical_iff.mpr (.inl rfl))

/-! ## The zones behind them -/

/-- A zone that is looked up by its canonical name has that name. -/
theorem name_ofCanonical (h : isCanonical name = true) : (ofCanonical name).name = name := by
  unfold ofCanonical
  split
  · rename_i r hr
    exact Region.name_of_ofName? hr
  · rename_i hnone
    rw [isCanonical, hnone, Option.isSome_none, Bool.or_false, beq_iff_eq] at h
    exact h.symm

theorem isCanonical_resolvedName (given : Option String) (fallback : String) :
    isCanonical (resolvedName given fallback) = true := by
  unfold resolvedName
  split
  · rename_i h
    exact isCanonical_of_canonical? h
  · cases h : canonical? (some fallback) with
    | none => exact isCanonical_iff.mpr (.inl rfl)
    | some canonical => exact isCanonical_of_canonical? h

/-- The name of the zone that a name is resolved to. -/
theorem name_resolve (given : Option String) (fallback : String) :
    (resolve given fallback).name = resolvedName given fallback :=
  name_ofCanonical (isCanonical_resolvedName given fallback)

end EventCalendar.Zone
