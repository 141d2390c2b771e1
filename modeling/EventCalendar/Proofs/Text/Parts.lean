/-
  EventCalendar.Proofs.Text.Parts

  Dividing text and trimming it.  The parts of a text are those it was put
  together from; blanks at its ends stand at the ends of its outer parts, so
  that whatever overlooks the blanks around a part overlooks them as well.
-/

import EventCalendar.Text.Blank
import EventCalendar.Text.Split
import Mathlib.Data.List.Basic
import Mathlib.Data.List.DropRight
import Mathlib.Data.List.Forall2

namespace EventCalendar.Text

variable {β : Type} {separator c : Char} {cs : List Char} {p : Char → Bool}

/-! ## Dividing -/

theorem splitAt_cons_ne (h : c ≠ separator) (cs : List Char) :
    splitAt separator (c :: cs) = (splitAt separator cs).modifyHead (c :: ·) := by
  rw [splitAt, if_neg h]
  split
  · rename_i hnil
    exact absurd hnil (splitAt_ne_nil separator cs)
  · rename_i hparts
    rw [hparts, List.modifyHead_cons]

theorem splitAt_eq_splitOn (separator : Char) (cs : List Char) :
    splitAt separator cs = cs.splitOn separator := by
  induction cs with
  | nil => rfl
  | cons c cs ih =>
    rw [List.splitOn, List.splitOnP_cons_eq_if_modifyHead, ← List.splitOn]
    by_cases hc : c = separator
    · rw [if_pos (beq_iff_eq.mpr hc), splitAt, if_pos hc, ih]
    · rw [if_neg (by simpa using hc), splitAt_cons_ne hc, ih]

/-- A text that is put together from parts with separators between them falls apart into them. -/
theorem splitAt_intercalate {parts : List (List Char)} (h : ∀ part ∈ parts, separator ∉ part)
    (hne : parts ≠ []) : splitAt separator ([separator].intercalate parts) = parts := by
  rw [splitAt_eq_splitOn]
  exact List.splitOn_intercalate separator h hne

/-- A further character stands at the end of the last part. -/
theorem exists_splitAt_concat (h : c ≠ separator) (cs : List Char) :
    ∃ parts last, splitAt separator cs = parts ++ [last] ∧
      splitAt separator (cs ++ [c]) = parts ++ [last ++ [c]] := by
  induction cs with
  | nil => exact ⟨[], [], rfl, by simp [splitAt, h]⟩
  | cons c' cs ih =>
    obtain ⟨parts, last, hcs, hconcat⟩ := ih
    by_cases hc' : c' = separator
    · refine ⟨[] :: parts, last, ?_, ?_⟩
      · rw [splitAt, if_pos hc', hcs, List.cons_append]
      · rw [List.cons_append, splitAt, if_pos hc', hconcat, List.cons_append]
    · rw [List.cons_append, splitAt_cons_ne hc', splitAt_cons_ne hc', hcs, hconcat]
      cases parts with
      | nil => exact ⟨[], c' :: last, rfl, rfl⟩
      | cons part parts => exact ⟨(c' :: part) :: parts, last, rfl, rfl⟩

/-- Characters that are alike one by one fall apart alike. -/
theorem splitAt_forall₂ {R : Char → Char → Prop} {cs cs' : List Char}
    (hR : ∀ c c', R c c' → (c = separator ↔ c' = separator)) (h : List.Forall₂ R cs cs') :
    List.Forall₂ (List.Forall₂ R) (splitAt separator cs) (splitAt separator cs') := by
  induction h with
  | nil => exact .cons .nil .nil
  | @cons c c' cs cs' hc _ ih =>
    by_cases hsep : c = separator
    · rw [splitAt, splitAt, if_pos hsep, if_pos ((hR c c' hc).mp hsep)]
      exact .cons .nil ih
    · rw [splitAt_cons_ne hsep, splitAt_cons_ne (fun h => hsep ((hR c c' hc).mpr h))]
      generalize splitAt separator cs = parts at ih ⊢
      generalize splitAt separator cs' = parts' at ih ⊢
      cases ih with
      | nil => exact .nil
      | cons hpart hparts => exact .cons (.cons hc hpart) hparts

/-! ## Trimming -/

theorem trimBy_eq_rdropWhile (p : Char → Bool) (cs : List Char) :
    trimBy p cs = (cs.dropWhile p).rdropWhile p := rfl

/-- What overlooks a character of a class at the start overlooks all of them. -/
theorem apply_dropWhile {f : List Char → β} (h : ∀ c cs, p c = true → f (c :: cs) = f cs)
    (cs : List Char) : f (cs.dropWhile p) = f cs := by
  induction cs with
  | nil => rfl
  | cons c cs ih =>
    by_cases hc : p c = true
    · rw [List.dropWhile_cons_of_pos hc, ih, h c cs hc]
    · rw [List.dropWhile_cons_of_neg hc]

/-- What overlooks a character of a class at the end overlooks all of them. -/
theorem apply_rdropWhile {f : List Char → β} (h : ∀ c cs, p c = true → f (cs ++ [c]) = f cs)
    (cs : List Char) : f (cs.rdropWhile p) = f cs := by
  induction cs using List.reverseRecOn with
  | nil => rfl
  | append_singleton cs c ih =>
    by_cases hc : p c = true
    · rw [List.rdropWhile_concat_pos p cs c hc, ih, h c cs hc]
    · rw [List.rdropWhile_concat_neg p cs c hc]

theorem trimBy_cons_of_pos (h : p c = true) (cs : List Char) :
    trimBy p (c :: cs) = trimBy p cs := by
  rw [trimBy, trimBy, List.dropWhile_cons_of_pos h]

theorem trimBy_concat_of_pos (h : p c = true) (cs : List Char) :
    trimBy p (cs ++ [c]) = trimBy p cs := by
  rw [trimBy_eq_rdropWhile, trimBy_eq_rdropWhile, List.dropWhile_append]
  split
  · rename_i hall
    rw [List.isEmpty_iff.mp hall, List.dropWhile_cons_of_pos h]
    rfl
  · rw [List.rdropWhile_concat_pos p _ c h]

/-- A character that stays keeps what stands around it, but for the outer ends. -/
theorem trimBy_append_cons (h : p c = false) (before after : List Char) :
    trimBy p (before ++ c :: after) = before.dropWhile p ++ c :: after.rdropWhile p := by
  have hfirst : (before ++ c :: after).dropWhile p = before.dropWhile p ++ c :: after := by
    rw [List.dropWhile_append, List.dropWhile_cons_of_neg (by rw [h]; decide)]
    split
    · rename_i hall
      rw [List.isEmpty_iff.mp hall, List.nil_append]
    · rfl
  have hlast (kept : List Char) :
      (kept ++ c :: after).rdropWhile p = kept ++ c :: after.rdropWhile p := by
    clear hfirst
    induction after using List.reverseRecOn with
    | nil => exact List.rdropWhile_concat_neg p _ c (by rw [h]; decide)
    | append_singleton after c' ih =>
      have hassoc : kept ++ c :: (after ++ [c']) = kept ++ c :: after ++ [c'] := by simp
      rw [hassoc]
      by_cases hc' : p c' = true
      · rw [List.rdropWhile_concat_pos p _ c' hc', List.rdropWhile_concat_pos p _ c' hc', ih]
      · rw [List.rdropWhile_concat_neg p _ c' hc', List.rdropWhile_concat_neg p _ c' hc', hassoc]
  rw [trimBy_eq_rdropWhile, hfirst, hlast]

/-- Characters that are alike one by one are trimmed alike. -/
theorem trimBy_forall₂ {R : Char → Char → Prop} {cs cs' : List Char}
    (hR : ∀ c c', R c c' → p c = p c') (h : List.Forall₂ R cs cs') :
    List.Forall₂ R (trimBy p cs) (trimBy p cs') := by
  have hdrop {cs cs' : List Char} (h : List.Forall₂ R cs cs') :
      List.Forall₂ R (cs.dropWhile p) (cs'.dropWhile p) := by
    induction h with
    | nil => exact .nil
    | @cons c c' cs cs' hc hcs ih =>
      rw [List.dropWhile_cons, List.dropWhile_cons, ← hR c c' hc]
      split
      · exact ih
      · exact .cons hc hcs
  exact List.forall₂_reverse_iff.mpr (hdrop (List.forall₂_reverse_iff.mpr (hdrop h)))

section

variable {f : List Char → β} (hseparator : p separator = false)

include hseparator

/-- What overlooks the blanks behind a part finds the same in the parts of a text without the
    blanks behind it. -/
theorem map_splitAt_rdropWhile (hlast : ∀ c cs, p c = true → f (cs ++ [c]) = f cs)
    (cs : List Char) :
    (splitAt separator (cs.rdropWhile p)).map f = (splitAt separator cs).map f := by
  refine apply_rdropWhile (f := fun cs => (splitAt separator cs).map f) ?_ cs
  intro c cs hc
  have hne : c ≠ separator := by
    rintro rfl
    rw [hseparator] at hc
    cases hc
  obtain ⟨parts, last, hcs, hconcat⟩ := exists_splitAt_concat hne cs
  rw [hcs, hconcat, List.map_append, List.map_append, List.map_singleton, List.map_singleton,
    hlast c last hc]

/-- What overlooks the blanks around a part finds the same in the parts of a trimmed text. -/
theorem map_splitAt_trimBy (hfirst : ∀ c cs, p c = true → f (c :: cs) = f cs)
    (hlast : ∀ c cs, p c = true → f (cs ++ [c]) = f cs) (cs : List Char) :
    (splitAt separator (trimBy p cs)).map f = (splitAt separator cs).map f := by
  rw [trimBy_eq_rdropWhile, map_splitAt_rdropWhile hseparator hlast]
  refine apply_dropWhile (f := fun cs => (splitAt separator cs).map f) ?_ cs
  intro c cs hc
  have hne : c ≠ separator := by
    rintro rfl
    rw [hseparator] at hc
    cases hc
  rw [splitAt_cons_ne hne]
  cases h : splitAt separator cs with
  | nil => exact absurd h (splitAt_ne_nil separator cs)
  | cons part parts => rw [List.modifyHead_cons, List.map_cons, List.map_cons, hfirst c part hc]

end

end EventCalendar.Text
