/-
  EventCalendar.Proofs.Text.Case

  Capital letters stay as they are, and letters that differ in their case only
  have the same capital and the same small forms.  What the tables say is
  decided once, over the runs and the sequences; the rest follows for text of
  any length.
-/

import EventCalendar.Proofs.Text.Parts
import EventCalendar.Text.Case

namespace EventCalendar.Text

/-! ## Sets of code points -/

/-- Some code points as one number, each of them a bit. -/
def bits (ns : List Nat) : Nat :=
  ns.foldr (fun n m => 1 <<< n ||| m) 0

theorem testBit_bits (ns : List Nat) (n : Nat) : (bits ns).testBit n = true ↔ n ∈ ns := by
  induction ns with
  | nil => simp [bits]
  | cons n' ns ih =>
    rw [bits, List.foldr_cons, ← bits, Nat.testBit_or, Bool.or_eq_true, ih, Nat.one_shiftLeft,
      Nat.testBit_two_pow, decide_eq_true_eq, List.mem_cons, eq_comm]

theorem disjoint_of_bits {ns ns' : List Nat} (h : bits ns &&& bits ns' = 0) : ns.Disjoint ns' := by
  intro n hn hn'
  have hbit : (bits ns &&& bits ns').testBit n = true := by
    rw [Nat.testBit_and, (testBit_bits ns n).mpr hn, (testBit_bits ns' n).mpr hn', Bool.and_self]
  rw [h, Nat.zero_testBit] at hbit
  cases hbit

/-! ## Capital letters -/

/-- The code points of a run. -/
def CaseRun.members (run : CaseRun) : List Nat :=
  (List.range ((run.high - run.low) / run.stride + 1)).map fun k => run.low + k * run.stride

theorem CaseRun.mem_members {run : CaseRun} {n : Nat} (h : run.holds n = true) :
    n ∈ run.members := by
  simp only [holds, Bool.and_eq_true, decide_eq_true_eq, beq_iff_eq] at h
  obtain ⟨⟨hlow, hhigh⟩, hstride⟩ := h
  refine List.mem_map.mpr ⟨(n - run.low) / run.stride, List.mem_range.mpr ?_, ?_⟩
  · exact Nat.lt_succ_of_le (Nat.div_le_div_right (Nat.sub_le_sub_right hhigh _))
  · rw [Nat.div_mul_cancel (Nat.dvd_of_mod_eq_zero hstride), Nat.add_sub_cancel' hlow]

/-- The code points from U+0080 on that have another capital form. -/
def smallPoints : List Nat :=
  capitalRuns.toList.flatMap CaseRun.members ++ capitalSequences.map Prod.fst

/-- The code points of these capital forms. -/
def capitalPoints : List Nat :=
  capitalRuns.toList.flatMap (fun run => run.members.map fun (n : Nat) => ((n : Int) + run.shift).toNat) ++
    capitalSequences.flatMap Prod.snd

private theorem capitalPoints_disjoint : capitalPoints.Disjoint smallPoints :=
  disjoint_of_bits (by decide +kernel)

private theorem capitalPoints_valid : ∀ n ∈ capitalPoints,
    n.isValidChar ∧ (n < 0x80 → (Char.ofNat n).toUpper = Char.ofNat n) := by
  decide +kernel

private theorem toUpper_toUpper_ascii :
    ∀ n < 0x80, (Char.ofNat n).toUpper.toNat < 0x80 ∧
      (Char.ofNat n).toUpper.toUpper = (Char.ofNat n).toUpper := by
  decide +kernel

theorem toNat_ofNat {n : Nat} (h : n.isValidChar) : (Char.ofNat n).toNat = n := by
  rw [show Char.ofNat n = Char.ofNatAux n h from dif_pos h]
  rfl

/-- A character that stands in no table is its own capital form. -/
theorem upperChar_of_not_mem {c : Char} (h : c.toNat ∉ smallPoints)
    (hascii : c.toNat < 0x80 → c.toUpper = c) : upperChar c = [c] := by
  rw [smallPoints, List.mem_append, not_or] at h
  obtain ⟨hruns, hsequences⟩ := h
  have hrun : capitalRuns.find? (·.holds c.toNat) = none := by
    rw [← Array.find?_toList, List.find?_eq_none]
    exact fun run hrun hholds =>
      hruns (List.mem_flatMap.mpr ⟨run, hrun, CaseRun.mem_members hholds⟩)
  have hsequence : capitalSequences.lookup c.toNat = none := by
    rw [List.lookup_eq_none_iff]
    intro entry hentry
    rw [bne_iff_ne]
    intro hkey
    rw [hkey] at hsequences
    exact hsequences (List.mem_map_of_mem hentry)
  unfold upperChar
  dsimp only
  split
  · rename_i hlow
    rw [hascii hlow]
  · rw [hsequence, shiftCase, hrun]
    simp only [Char.ofNat_toNat]

theorem upperChar_ofNat {n : Nat} (h : n ∈ capitalPoints) :
    upperChar (Char.ofNat n) = [Char.ofNat n] := by
  obtain ⟨hvalid, hascii⟩ := capitalPoints_valid n h
  have hnat := toNat_ofNat hvalid
  refine upperChar_of_not_mem ?_ ?_
  · rw [hnat]
    exact fun hsmall => capitalPoints_disjoint h hsmall
  · rwa [hnat]

/-- A capital form has no other capital form. -/
theorem upperChar_of_mem_upperChar {c l : Char} (h : l ∈ upperChar c) : upperChar l = [l] := by
  unfold upperChar at h
  dsimp only at h
  split at h
  · rename_i hlow
    obtain ⟨hupperLow, hfixed⟩ := toUpper_toUpper_ascii c.toNat hlow
    rw [Char.ofNat_toNat] at hupperLow hfixed
    rw [List.mem_singleton.mp h, upperChar]
    simp only [hupperLow, hfixed, if_true]
  rename_i hlow
  split at h
  · rename_i letters hlookup
    obtain ⟨n, hn, rfl⟩ := List.mem_map.mp h
    obtain ⟨before, after, htable, -⟩ := List.lookup_eq_some_iff.mp hlookup
    have hmem : (c.toNat, letters) ∈ capitalSequences := by
      rw [htable]
      exact List.mem_append_right before List.mem_cons_self
    exact upperChar_ofNat (List.mem_append_right _ (List.mem_flatMap.mpr ⟨_, hmem, hn⟩))
  · rename_i hlookup
    rw [List.mem_singleton, shiftCase] at h
    split at h
    · rename_i run hrun
      have hmem := Array.mem_toList_iff.mpr (Array.mem_of_find?_eq_some hrun)
      have hholds := Array.find?_some hrun
      have hmember := CaseRun.mem_members hholds
      rw [h]
      exact upperChar_ofNat (List.mem_append_left _
        (List.mem_flatMap.mpr ⟨run, hmem, List.mem_map_of_mem hmember⟩))
    · rename_i hnone
      rw [Char.ofNat_toNat] at h
      simp only [h, upperChar, if_neg hlow, hlookup, shiftCase, hnone, Char.ofNat_toNat]

/-- Text in capital letters stays as it is in capital letters. -/
theorem upper_upper (s : String) : upper (upper s) = upper s := by
  unfold upper
  rw [String.toList_ofList]
  congr 1
  have hfixed : ∀ l ∈ s.toList.flatMap upperChar, upperChar l = [l] := by
    intro l hl
    obtain ⟨c, -, hl⟩ := List.mem_flatMap.mp hl
    exact upperChar_of_mem_upperChar hl
  rw [List.flatMap_congr hfixed, List.flatMap_singleton']

/-- A blank has no other capital form. -/
theorem upperChar_of_isBlank {c : Char} (h : isBlank c = true) : upperChar c = [c] := by
  have hsmall : ∀ n ∈ smallPoints, isBlank (Char.ofNat n) = false := by decide +kernel
  have hascii : ∀ n < 0x80, isBlank (Char.ofNat n) = true →
      (Char.ofNat n).toUpper = Char.ofNat n := by
    decide +kernel
  refine upperChar_of_not_mem (fun hmem => ?_) fun hlow => ?_
  · have hnot := hsmall c.toNat hmem
    rw [Char.ofNat_toNat, h] at hnot
    cases hnot
  · have hfixed := hascii c.toNat hlow
    rw [Char.ofNat_toNat] at hfixed
    exact hfixed h

/-! ## Letters in two cases -/

/-- Characters that differ in the case of ASCII letters only. -/
def SameLetter (c c' : Char) : Prop := c.toLower = c'.toLower

instance (c c' : Char) : Decidable (SameLetter c c') := inferInstanceAs (Decidable (_ = _))

/-- Texts that differ in the case of ASCII letters only. -/
def SameLetters (cs cs' : List Char) : Prop := List.Forall₂ SameLetter cs cs'

theorem sameLetters_iff {cs cs' : List Char} :
    SameLetters cs cs' ↔ cs.map Char.toLower = cs'.map Char.toLower := by
  rw [← List.forall₂_eq_eq_eq, List.forall₂_map_left_iff, List.forall₂_map_right_iff]
  rfl

instance (cs cs' : List Char) : Decidable (SameLetters cs cs') :=
  decidable_of_iff _ sameLetters_iff.symm

theorem toLower_of_le {c : Char} (h : 0x80 ≤ c.toNat) : c.toLower = c := by
  unfold Char.toLower
  rw [dif_neg]
  rintro ⟨-, hcapital⟩
  have hhigh : c.toNat ≤ 0x5A := hcapital
  omega

/-- What all ASCII letters share with their small forms is the same in both cases. -/
theorem SameLetter.congr {β : Type} {f : Char → β} {c c' : Char} (h : SameLetter c c')
    (hf : ∀ n < 0x80, f (Char.ofNat n).toLower = f (Char.ofNat n)) : f c = f c' := by
  have hlower (c : Char) : f c.toLower = f c := by
    by_cases hlow : c.toNat < 0x80
    · have hc := hf c.toNat hlow
      rwa [Char.ofNat_toNat] at hc
    · rw [toLower_of_le (by omega)]
  rw [← hlower c, h, hlower c']

theorem SameLetter.upperChar_eq {c c' : Char} (h : SameLetter c c') : upperChar c = upperChar c' :=
  h.congr (by decide +kernel)

theorem SameLetter.isBlank_eq {c c' : Char} (h : SameLetter c c') : isBlank c = isBlank c' :=
  h.congr (by decide +kernel)

/-- Blanks around texts that differ in the case of letters only are the same. -/
theorem SameLetters.trimBy {cs cs' : List Char} (h : SameLetters cs cs') :
    SameLetters (trimBy isBlank cs) (trimBy isBlank cs') :=
  trimBy_forall₂ (fun _ _ hc => SameLetter.isBlank_eq hc) h

theorem SameLetters.upper_eq {cs cs' : List Char} (h : SameLetters cs cs') :
    upper (String.ofList cs) = upper (String.ofList cs') := by
  rw [upper, upper, String.toList_ofList, String.toList_ofList]
  congr 1
  induction h with
  | nil => rfl
  | cons hc _ ih => rw [List.flatMap_cons, List.flatMap_cons, hc.upperChar_eq, ih]

/-- Different characters that are the same letter are both ASCII letters. -/
theorem SameLetter.eq_or_isAlpha {c c' : Char} (h : SameLetter c c') :
    c = c' ∨ c.isAlpha = true ∧ c'.isAlpha = true := by
  have hsame : (if c.isAlpha then none else some c) = if c'.isAlpha then none else some c' :=
    h.congr (f := fun c => if c.isAlpha then none else some c) (by decide +kernel)
  split at hsame <;> split at hsame <;> simp_all

theorem meetsCased_cons (c : Char) (cs : List Char) :
    meetsCased (c :: cs) =
      if inRuns caseIgnorableRuns c = true then meetsCased cs else inRuns casedRuns c := by
  unfold meetsCased
  rw [List.dropWhile_cons]
  by_cases hc : inRuns caseIgnorableRuns c = true
  · rw [if_pos hc, if_pos hc]
  · rw [if_neg hc, if_neg hc]

theorem meetsCased_cons_of_isAlpha {c : Char} (h : c.isAlpha = true) (cs : List Char) :
    meetsCased (c :: cs) = true := by
  have hcode : 0x41 ≤ c.toNat ∧ c.toNat ≤ 0x5A ∨ 0x61 ≤ c.toNat ∧ c.toNat ≤ 0x7A := by
    unfold Char.isAlpha Char.isUpper Char.isLower at h
    simpa [UInt32.le_iff_toNat_le] using h
  have hignorable : inRuns caseIgnorableRuns c = false := by
    have hbeside : ∀ run ∈ caseIgnorableRuns.toList,
        run.2 < 0x41 ∨ 0x5A < run.1 ∧ run.2 < 0x61 ∨ 0x7A < run.1 := by
      decide +kernel
    rw [inRuns, ← Array.any_toList, List.any_eq_false]
    intro run hrun
    have hrun := hbeside run hrun
    simp only [Bool.and_eq_true, decide_eq_true_eq]
    omega
  have hcased : inRuns casedRuns c = true := by
    have hmem : (0x41, 0x5A) ∈ casedRuns.toList ∧ (0x61, 0x7A) ∈ casedRuns.toList := by
      decide +kernel
    rw [inRuns, ← Array.any_toList, List.any_eq_true]
    rcases hcode with hcode | hcode
    · exact ⟨_, hmem.1, by simpa using hcode⟩
    · exact ⟨_, hmem.2, by simpa using hcode⟩
  rw [meetsCased_cons, hignorable, if_neg Bool.false_ne_true, hcased]

/-- Whether a letter with a case comes next does not depend on the case of letters. -/
theorem SameLetters.meetsCased_eq {cs cs' : List Char} (h : SameLetters cs cs') :
    meetsCased cs = meetsCased cs' := by
  induction h with
  | nil => rfl
  | @cons c c' cs cs' hc _ ih =>
    obtain rfl | ⟨hc, hc'⟩ := hc.eq_or_isAlpha
    · rw [meetsCased_cons, meetsCased_cons, ih]
    · rw [meetsCased_cons_of_isAlpha hc, meetsCased_cons_of_isAlpha hc']

theorem SameLetters.lowerAfter_eq {before before' cs cs' : List Char}
    (hbefore : SameLetters before before') (h : SameLetters cs cs') :
    lowerAfter before cs = lowerAfter before' cs' := by
  induction h generalizing before before' with
  | nil => rfl
  | @cons c c' cs cs' hc hcs ih =>
    have hsigma : (c.toNat == 0x3A3) = (c'.toNat == 0x3A3) :=
      hc.congr (f := fun c => c.toNat == 0x3A3) (by decide +kernel)
    have hlower : lowerChar c = lowerChar c' := hc.congr (f := lowerChar) (by decide +kernel)
    rw [lowerAfter, lowerAfter, ih (.cons hc hbefore), hsigma, hlower, lowerSigma, lowerSigma,
      hbefore.meetsCased_eq, SameLetters.meetsCased_eq hcs]

theorem SameLetters.lower_eq {cs cs' : List Char} (h : SameLetters cs cs') :
    lower (String.ofList cs) = lower (String.ofList cs') := by
  rw [lower, lower, String.toList_ofList, String.toList_ofList,
    SameLetters.lowerAfter_eq .nil h]

end EventCalendar.Text
