/-
  EventCalendar.Proofs.DateToken.InlineZone

  Local times with the name of a zone in front.  Such a token falls apart again
  into the name, without the blanks around it, and the local time; a name says
  the same with and without these blanks.  What is read is the local time in the
  zone whose name comes first, of the one beside the token and the one in front.
-/

import EventCalendar.Proofs.DateToken.Grammar

namespace EventCalendar

open EventCalendar.Text EventCalendar.Time

/-! ## Blanks -/

/-- No digit is blank. -/
theorem Text.isBlank_of_isDecimal {c : Char} (h : isDecimal c = true) : isBlank c = false := by
  -- the digits of all scripts are few enough to look at each
  have hscripts : ∀ start ∈ decimalZeros, ∀ d < 10, isBlank (Char.ofNat (start + d)) = false := by
    decide +kernel
  rw [isDecimal, decimalValue?, Option.isSome_map, Option.isSome_iff_exists] at h
  obtain ⟨start, hfind⟩ := h
  have hrange := List.find?_some hfind
  simp only [Bool.and_eq_true, decide_eq_true_eq] at hrange
  have hc := hscripts start (List.mem_of_find?_eq_some hfind) (c.toNat - start) (by omega)
  rwa [Nat.add_sub_cancel' hrange.1, Char.ofNat_toNat] at hc

namespace DateToken

/-- A text that neither starts nor ends with a blank has none to trim. -/
theorem trim_of_ends {s : String} (hfirst : ∀ c ∈ s.toList.head?, isBlank c = false)
    (hlast : ∀ c ∈ s.toList.getLast?, isBlank c = false) : trim s = s := by
  have hkeep {cs : List Char} (h : ∀ c ∈ cs.head?, isBlank c = false) :
      cs.dropWhile isBlank = cs := by
    cases cs with
    | nil => rfl
    | cons c cs => exact List.dropWhile_cons_of_neg (Bool.eq_false_iff.mp (h c rfl))
  rw [trim, trimBy, hkeep hfirst, hkeep, List.reverse_reverse, String.ofList_toList]
  intro c hc
  rw [List.head?_reverse] at hc
  exact hlast c hc

theorem trim_eq_empty_iff {s : String} : trim s = "" ↔ isBlankText s = true := by
  refine ⟨fun h => ?_, trim_of_isBlankText⟩
  have hnil : trimBy isBlank s.toList = [] := by
    rw [← String.toList_ofList (l := trimBy isBlank s.toList)]
    exact String.toList_eq_nil_iff.mpr h
  rw [trimBy, List.reverse_eq_nil_iff, List.dropWhile_eq_nil_iff] at hnil
  rw [isBlankText, List.all_eq_true]
  intro c hc
  rw [← List.takeWhile_append_dropWhile (p := isBlank) (l := s.toList), List.mem_append] at hc
  rcases hc with hc | hc
  · exact List.mem_takeWhile_imp hc
  · exact hnil c (List.mem_reverse.mpr hc)

theorem ne_empty_of_not_blank {s : String} (h : isBlankText s = false) : s ≠ "" := by
  rintro rfl
  cases h

end DateToken

/-- Blanks around the name of a zone do not matter. -/
theorem Zone.canonical?_trim {name : String} (h : isBlankText name = false) :
    canonical? (some (trim name)) = canonical? (some name) := by
  have hcurrent : currentName (trim name) = currentName name := by
    simp only [currentName, DateToken.trim_trim]
  have htrim : trim name ≠ "" := fun hempty =>
    Bool.false_ne_true (h.symm.trans (DateToken.trim_eq_empty_iff.mp hempty))
  rw [canonical?, canonical?, if_neg htrim, if_neg (DateToken.ne_empty_of_not_blank h), hcurrent]

namespace DateToken

/-! ## Local times -/

/-- A token of the form of a local time, in the digits of any script. -/
structure IsLocalTime (v : String) : Prop where
  form : hasForm v.toList = true
  length : v.length = 15

/-- A token with the name of a zone in front. -/
def inZone (z v : String) : String :=
  "TZID=" ++ z ++ ":" ++ v

variable {v z : String} {r : Reader}

theorem IsLocalTime.exists_digits (hv : IsLocalTime v) :
    ∃ day time, v.toList = day ++ 'T' :: time ∧ day.length = 8 ∧ time.length = 6 ∧
      (∀ c ∈ day, isDecimal c = true) ∧ ∀ c ∈ time, isDecimal c = true := by
  obtain ⟨day, behind, hsplit, hday, hdays, hbehind⟩ := hasForm_eq_true_iff.mp hv.form
  have hlength := hv.length
  rw [← String.length_toList, hsplit, List.length_append, hday] at hlength
  rcases hbehind with rfl | ⟨time, tail, rfl, htime, htimes, htail⟩
  · simp at hlength
  · rw [List.length_cons, List.length_append, htime] at hlength
    obtain rfl : tail = [] := List.length_eq_zero_iff.mp (by omega)
    exact ⟨day, time, by rw [hsplit, List.append_nil], hday, htime, hdays, htimes⟩

theorem IsLocalTime.isDecimal_or (hv : IsLocalTime v) {c : Char} (hc : c ∈ v.toList) :
    isDecimal c = true ∨ c = 'T' := by
  obtain ⟨day, time, hsplit, -, -, hdays, htimes⟩ := hv.exists_digits
  rw [hsplit, List.mem_append, List.mem_cons] at hc
  rcases hc with hc | hc | hc
  · exact .inl (hdays c hc)
  · exact .inr hc
  · exact .inl (htimes c hc)

theorem IsLocalTime.isBlank_eq_false (hv : IsLocalTime v) {c : Char} (hc : c ∈ v.toList) :
    isBlank c = false := by
  rcases hv.isDecimal_or hc with h | rfl
  · exact isBlank_of_isDecimal h
  · decide

/-- Signs that are no digits do not stand in a local time. -/
theorem IsLocalTime.not_mem (hv : IsLocalTime v) {c : Char} (hdecimal : isDecimal c = false)
    (hc : c ≠ 'T') : c ∉ v.toList := by
  intro hmem
  rcases hv.isDecimal_or hmem with h | h
  · exact Bool.false_ne_true (hdecimal.symm.trans h)
  · exact hc h

theorem IsLocalTime.ne_nil (hv : IsLocalTime v) : v.toList ≠ [] := by
  intro hnil
  have hlength := hv.length
  rw [← String.length_toList, hnil] at hlength
  cases hlength

theorem IsLocalTime.trim_eq (hv : IsLocalTime v) : trim v = v :=
  trim_of_ends (fun _ hc => hv.isBlank_eq_false (List.mem_of_mem_head? hc))
    fun _ hc => hv.isBlank_eq_false (List.mem_of_mem_getLast? hc)

theorem IsLocalTime.isDay_eq_false (hv : IsLocalTime v) : isDay v = false := by
  rw [isDay, hv.trim_eq, hv.length]
  rfl

theorem IsLocalTime.endsWith_eq_false (hv : IsLocalTime v) : v.endsWith "Z" = false := by
  rw [← Bool.not_eq_true, String.endsWith_eq_endsWith_toSlice, String.Slice.endsWith_string_iff,
    String.copy_toSlice]
  intro hsuffix
  exact hv.not_mem (by decide) (by decide) (hsuffix.subset (List.mem_singleton_self 'Z'))

/-! ## Splitting -/

/-- There is no zone in front of a local time by itself. -/
theorem IsLocalTime.splitZone_trim (hv : IsLocalTime v) : splitZone (trim v) = (none, v) := by
  rw [hv.trim_eq]
  refine splitZone_of_plain (Bool.eq_false_iff.mpr fun hnamed => ?_)
  have hmem : 'Z' ∈ v.toList :=
    (List.isPrefixOf_iff_prefix.mp hnamed).subset (by decide)
  exact hv.not_mem (by decide) (by decide) hmem

theorem toList_inZone (z v : String) :
    (inZone z v).toList = "TZID=".toList ++ (z.toList ++ ':' :: v.toList) := by
  simp [inZone]

theorem trim_inZone (hv : IsLocalTime v) (z : String) : trim (inZone z v) = inZone z v := by
  refine trim_of_ends ?_ ?_
  · rw [toList_inZone]
    intro c hc
    cases hc
    decide
  · rw [toList_inZone]
    intro c hc
    have hlast : (':' :: v.toList).getLast? = v.toList.getLast? := by
      cases h : v.toList with
      | nil => exact absurd h hv.ne_nil
      | cons d ds => rfl
    rw [← List.append_assoc, List.getLast?_append_of_ne_nil _ (List.cons_ne_nil _ _), hlast] at hc
    exact hv.isBlank_eq_false (List.mem_of_mem_getLast? hc)

/-- A local time with a zone in front is split at the last colon. -/
theorem splitZone_inZone (hv : IsLocalTime v) (z : String) :
    splitZone (trim (inZone z v)) = (some (trim z), v) := by
  have htail : (inZone z v).toList.reverse.takeWhile (· != ':') = v.toList.reverse := by
    rw [toList_inZone, ← List.append_assoc, List.reverse_append, List.reverse_cons,
      List.append_assoc, List.takeWhile_append_of_pos]
    · simp
    · intro c hc
      rw [List.mem_reverse] at hc
      rw [bne_iff_ne]
      rintro rfl
      exact hv.not_mem (by decide) (by decide) hc
  have hnamed : "TZID=".toList.isPrefixOf (inZone z v).toList = true := by
    rw [toList_inZone, List.isPrefixOf_iff_prefix]
    exact List.prefix_append _ _
  have hlength : (inZone z v).toList.length =
      ("TZID=".toList ++ z.toList).length + 1 + v.toList.length := by
    rw [toList_inZone, ← List.append_assoc, List.length_append, List.length_cons]
    omega
  have hname : ((inZone z v).toList.take
      ((inZone z v).toList.length - v.toList.length - 1)).drop 5 = z.toList := by
    rw [hlength, Nat.add_sub_cancel, Nat.add_sub_cancel, toList_inZone, ← List.append_assoc,
      List.take_left' rfl]
    exact List.drop_left' rfl
  rw [trim_inZone hv, splitZone]
  simp only [hnamed, htail, if_true, List.length_reverse, List.reverse_reverse,
    String.ofList_toList, hname]
  rw [if_neg (by omega)]

/-! ## Reading -/

theorem Reader.zoneFor_trim (r : Reader) (hz : isBlankText z = false) :
    r.zoneFor (some (trim z)) = r.zoneFor (some z) := by
  rw [zoneFor, zoneFor, Zone.resolve, Zone.resolve, Zone.resolvedName, Zone.resolvedName,
    Zone.canonical?_trim hz]

/-- A token whose value is a local time is read in the zone that is named first. -/
theorem Reader.outcome_read_localTime (hv : IsLocalTime v) {token : String}
    {inner : Option String} (hsplit : splitZone (trim token) = (inner, v))
    (zone : Option String) :
    (r.read token zone).outcome =
      (readForm .local v).map fun wall => ⟨wall, false, r.zoneFor (firstName zone inner)⟩ := by
  have hblank : isBlankText token = true → False := by
    intro hblank
    rw [trim_of_isBlankText hblank] at hsplit
    cases hsplit
    exact hv.ne_nil rfl
  rw [outcome_read, hsplit]
  dsimp only
  rw [if_neg hblank, hv.form, hv.isDay_eq_false, hv.endsWith_eq_false, if_neg (by decide),
    if_neg Bool.false_ne_true, if_neg Bool.false_ne_true]

end DateToken

end EventCalendar
