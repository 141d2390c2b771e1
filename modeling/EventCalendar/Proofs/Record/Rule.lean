/-
  EventCalendar.Proofs.Record.Rule

  What a recurrence rule may say.  The tag of a rule is in small letters, so no
  rule names the kind whose weekdays are listed.
-/

import EventCalendar.RecurrenceRule

namespace EventCalendar

open EventCalendar.Text

/-! ## Small letters -/

/-- The small letters of the table lie above the capital letters of ASCII. -/
private theorem smallRuns_above :
    ∀ run ∈ smallRuns.toList, (0x5A : Int) < run.low + run.shift := by
  decide +kernel

private theorem lt_shiftCase_smallRuns {n : Nat} (h : 0x80 ≤ n) : 0x5A < shiftCase smallRuns n := by
  unfold shiftCase
  split
  · rename_i run hrun
    have hmem := Array.mem_toList_iff.mpr (Array.mem_of_find?_eq_some hrun)
    have habove := smallRuns_above run hmem
    have hholds := Array.find?_some hrun
    simp only [CaseRun.holds, Bool.and_eq_true, decide_eq_true_eq] at hholds
    omega
  · omega

/-- A capital letter of ASCII. -/
def isCapital (c : Char) : Bool := 0x41 ≤ c.toNat && c.toNat ≤ 0x5A

private theorem isCapital_ofNat {n : Nat} (h : 0x5A < n) : isCapital (Char.ofNat n) = false := by
  by_cases hvalid : n.isValidChar
  · rw [show Char.ofNat n = Char.ofNatAux n hvalid from dif_pos hvalid]
    show (decide (0x41 ≤ n) && decide (n ≤ 0x5A)) = false
    rw [decide_eq_false (Nat.not_le.mpr h), Bool.and_false]
  · -- a number of no character stands for the character 0
    rw [show Char.ofNat n = Char.ofNat 0 from dif_neg hvalid]
    rfl

private theorem isCapital_toLower (c : Char) : isCapital c.toLower = false := by
  unfold Char.toLower
  split
  · rename_i h
    obtain ⟨hlow, hhigh⟩ : 0x41 ≤ c.val.toNat ∧ c.val.toNat ≤ 0x5A := h
    have hsum : (c.val + ('a'.val - 'A'.val)).toNat = c.val.toNat + 0x20 := by
      rw [UInt32.toNat_add, show ('a'.val - 'A'.val).toNat = 0x20 from rfl]
      exact Nat.mod_eq_of_lt (by omega)
    have hbeyond : ¬ c.val.toNat + 0x20 ≤ 0x5A := by omega
    simp only [isCapital, Char.toNat, hsum, hbeyond, decide_false, Bool.and_false]
  · rename_i h
    have hout : ¬ (0x41 ≤ c.val.toNat ∧ c.val.toNat ≤ 0x5A) := h
    rw [isCapital, ← Bool.decide_and]
    exact decide_eq_false hout

private theorem isCapital_of_mem_lowerChar {c l : Char} (h : l ∈ lowerChar c) :
    isCapital l = false := by
  unfold lowerChar at h
  simp only at h
  split at h
  · rw [List.mem_singleton] at h
    rw [h]
    exact isCapital_toLower c
  · split at h
    · rcases List.mem_cons.mp h with rfl | h
      · rfl
      · rw [List.mem_singleton] at h
        rw [h]
        rfl
    · rw [List.mem_singleton] at h
      rw [h]
      exact isCapital_ofNat (lt_shiftCase_smallRuns (by omega))

private theorem isCapital_lowerSigma (before after : List Char) :
    isCapital (lowerSigma before after) = false := by
  unfold lowerSigma
  split <;> rfl

private theorem isCapital_of_mem_lowerAfter {before cs : List Char} {l : Char}
    (h : l ∈ lowerAfter before cs) : isCapital l = false := by
  induction cs generalizing before with
  | nil => cases h
  | cons c rest ih =>
    rw [lowerAfter, List.mem_append] at h
    rcases h with h | h
    · split at h
      · rw [List.mem_singleton] at h
        rw [h]
        exact isCapital_lowerSigma before rest
      · exact isCapital_of_mem_lowerChar h
    · exact ih h

/-- Small letters are no capital letters of ASCII. -/
theorem isCapital_of_mem_lower {s : String} {c : Char} (h : c ∈ (lower s).toList) :
    isCapital c = false := by
  rw [lower, String.toList_ofList] at h
  exact isCapital_of_mem_lowerAfter h

/-! ## The tag of a rule -/

/-- The tag of a rule has no capital letters. -/
theorem RecurrenceRule.isCapital_of_mem_tag {r : RecurrenceRule} {c : Char}
    (h : c ∈ r.tag.toList) : isCapital c = false := by
  unfold RecurrenceRule.tag at h
  split at h
  · exact isCapital_of_mem_lower h
  · have hliterals : [Kind.workdays.tag, Kind.biweekly.tag, "", Kind.weekly.tag].all
        (fun tag => tag.toList.all (!isCapital ·)) = true := by
      decide
    simp only [List.all_eq_true, Bool.not_eq_true'] at hliterals
    refine hliterals _ ?_ c h
    simp only
    repeat' split
    all_goals simp

/-- No rule recurs on listed weekdays. -/
theorem RecurrenceRule.ofTag?_tag_ne (r : RecurrenceRule) :
    Kind.ofTag? r.tag ≠ some .customWeekly := by
  intro h
  have htag : r.tag = Kind.customWeekly.tag := by
    have hfound := List.find?_some h
    exact (beq_iff_eq.mp hfound).symm
  have hcapital : isCapital 'W' = false :=
    isCapital_of_mem_tag (r := r) (by rw [htag]; decide)
  cases hcapital

end EventCalendar
