/-
  EventCalendar.Proofs.Text.Integer

  Reading texts that consist of digits.  Of such a text nothing is trimmed, and
  there is no sign; it is read if all its digits have a place in decimal notation
  and are few enough, as the number that they are the digits of.
-/

import EventCalendar.Proofs.DateToken.InlineZone
import EventCalendar.Text.Integer
import Mathlib.Data.Nat.Digits.Defs

namespace EventCalendar.Text

variable {c : Char} {cs : List Char} {ds : List Nat} {s : String}

/-! ## Digits -/

theorem isDigit_of_isDecimal (h : isDecimal c = true) : isDigit c = true := by
  simp [isDigit, h]

/-- No digit is blank, decimal or not. -/
theorem isBlank_of_isDigit (h : isDigit c = true) : isBlank c = false := by
  -- the other digits too are few enough to look at each
  have hsymbols : ∀ run ∈ symbolicDigits, ∀ d < run.2 + 1 - run.1,
      isBlank (Char.ofNat (run.1 + d)) = false := by
    decide +kernel
  rw [isDigit, Bool.or_eq_true, List.any_eq_true] at h
  rcases h with h | ⟨⟨low, high⟩, hrun, hrange⟩
  · exact isBlank_of_isDecimal h
  · simp only [Bool.and_eq_true, decide_eq_true_eq] at hrange
    have hc := hsymbols (low, high) hrun (c.toNat - low) (by dsimp only; omega)
    rwa [Nat.add_sub_cancel' hrange.1, Char.ofNat_toNat] at hc

/-- Neither a sign nor an underscore is a digit. -/
theorem ne_of_isDigit (h : isDigit c = true) : c ≠ '-' ∧ c ≠ '+' ∧ c ≠ '_' := by
  refine ⟨?_, ?_, ?_⟩ <;> rintro rfl <;> revert h <;> decide

/-- The values of decimal digits stand in their places. -/
theorem exists_values (h : ∀ c ∈ cs, isDecimal c = true) :
    ∃ ds : List Nat, cs.map decimalValue? = ds.map some := by
  induction cs with
  | nil => exact ⟨[], rfl⟩
  | cons c cs ih =>
    obtain ⟨ds, hds⟩ := ih fun c' hc' => h c' (List.mem_cons_of_mem c hc')
    obtain ⟨d, hd⟩ := Option.isSome_iff_exists.mp (h c List.mem_cons_self)
    exact ⟨d :: ds, by rw [List.map_cons, List.map_cons, hd, hds]⟩

theorem isDecimal_of_values (h : cs.map decimalValue? = ds.map some) :
    ∀ c ∈ cs, isDecimal c = true := by
  intro c hc
  have hmem : decimalValue? c ∈ ds.map some := h ▸ List.mem_map_of_mem hc
  obtain ⟨d, -, hd⟩ := List.mem_map.mp hmem
  rw [isDecimal, ← hd]
  rfl

theorem filterMap_of_values (h : cs.map decimalValue? = ds.map some) :
    cs.filterMap decimalValue? = ds := by
  calc cs.filterMap decimalValue? = (cs.map decimalValue?).filterMap id := by
        rw [List.filterMap_map]
        rfl
    _ = ds := by rw [h, List.filterMap_map, Function.id_comp, List.filterMap_some]

/-- The number of decimal digits is the one with these digits, the last one the lowest. -/
theorem decimalNumber_eq_ofDigits (ds : List Nat) :
    decimalNumber ds = Nat.ofDigits 10 ds.reverse := by
  induction ds using List.reverseRecOn with
  | nil => rfl
  | append_singleton ds d ih =>
    rw [DateToken.decimalNumber_append_singleton, ih, List.reverse_append, List.reverse_singleton,
      List.singleton_append, Nat.ofDigits_cons, Nat.add_comm]

/-! ## Reading -/

/-- Digits alone are a run of digits if they are decimal. -/
theorem isDigitRun_of_isDecimal (hne : cs ≠ []) (h : ∀ c ∈ cs, isDecimal c = true) :
    isDigitRun cs = true := by
  induction cs with
  | nil => exact absurd rfl hne
  | cons c cs ih =>
    have hc := h c List.mem_cons_self
    cases cs with
    | nil => exact hc
    | cons c' cs =>
      have hrest := ih (List.cons_ne_nil _ _) fun a ha => h a (List.mem_cons_of_mem c ha)
      have hplain := (ne_of_isDigit (isDigit_of_isDecimal (h c' (by simp)))).2.2
      unfold isDigitRun
      split
      · rename_i hcons
        cases hcons
      · rename_i hcons
        cases hcons
      · rename_i hcons
        cases hcons
        exact absurd rfl hplain
      · rename_i hcons
        cases hcons
        rw [hc, hrest]
        rfl

/-- Nothing but digits has neither blanks around it nor a sign in front. -/
theorem splitSign_trimBy_of_isDigit (h : ∀ c ∈ cs, isDigit c = true) :
    splitSign (trimBy isPadding cs) = (false, cs) := by
  have hkeep {cs : List Char} (h : ∀ c ∈ cs, isDigit c = true) :
      cs.dropWhile isPadding = cs := by
    cases cs with
    | nil => rfl
    | cons c cs =>
      have hblank := isBlank_of_isDigit (h c List.mem_cons_self)
      exact List.dropWhile_cons_of_neg (by simp [isPadding, hblank])
  have htrim : trimBy isPadding cs = cs := by
    rw [trimBy, hkeep h, hkeep fun c hc => h c (List.mem_reverse.mp hc), List.reverse_reverse]
  rw [htrim]
  cases cs with
  | nil => rfl
  | cons c cs =>
    obtain ⟨hminus, hplus, -⟩ := ne_of_isDigit (h c List.mem_cons_self)
    unfold splitSign
    split
    · rename_i hcons
      cases hcons
      exact absurd rfl hminus
    · rename_i hcons
      cases hcons
      exact absurd rfl hplus
    · rfl

theorem isDigits_iff : isDigits s = true ↔ s.toList ≠ [] ∧ ∀ c ∈ s.toList, isDigit c = true := by
  rw [isDigits, Bool.and_eq_true, bne_iff_ne, List.all_eq_true]

/-- A text of decimal digits is the number that it spells, unless it is too long. -/
theorem readInteger_of_values (hdigits : isDigits s = true)
    (hvalues : s.toList.map decimalValue? = ds.map some) :
    readInteger s = if integerDigitLimit < ds.length then .error (.tooLong ds.length)
      else .ok (Nat.ofDigits 10 ds.reverse : Nat) := by
  obtain ⟨hne, hall⟩ := isDigits_iff.mp hdigits
  have hdecimal := isDecimal_of_values hvalues
  have hrun : s.toList.takeWhile (fun c => isDecimal c || c == '_') = s.toList :=
    List.takeWhile_eq_self_iff.mpr fun c hc => by rw [hdecimal c hc]; rfl
  unfold readInteger
  rw [splitSign_trimBy_of_isDigit hall]
  dsimp only
  rw [hrun, filterMap_of_values hvalues, isDigitRun_of_isDecimal hne hdecimal,
    decimalNumber_eq_ofDigits]
  simp

/-- A text of digits is not read if one of them has no place in decimal notation. -/
theorem isDecimal_of_readInteger {n : Int} (hdigits : isDigits s = true)
    (h : readInteger s = .ok n) : ∀ c ∈ s.toList, isDecimal c = true := by
  obtain ⟨-, hall⟩ := isDigits_iff.mp hdigits
  unfold readInteger at h
  rw [splitSign_trimBy_of_isDigit hall] at h
  dsimp only at h
  -- otherwise the run of digits ends before the text does
  have hwhole : ¬ (s.toList.takeWhile fun c => isDecimal c || c == '_').length <
      s.toList.length := by
    intro hshort
    rw [if_pos hshort] at h
    split at h
    · cases h
    · split at h <;> cases h
  have hfront := List.takeWhile_prefix (fun c => isDecimal c || c == '_') (l := s.toList)
  have hrun := List.takeWhile_eq_self_iff.mp (hfront.eq_of_length_le (by omega))
  intro c hc
  have hchar := hrun c hc
  rw [Bool.or_eq_true, beq_iff_eq] at hchar
  exact hchar.resolve_right (ne_of_isDigit (hall c hc)).2.2

end EventCalendar.Text
