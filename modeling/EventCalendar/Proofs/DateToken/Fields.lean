/-
  EventCalendar.Proofs.DateToken.Fields

  Numbers in a fixed width, and how a text made of them is divided into fields.
  Fields may be read with fewer digits than they have, but a text that is as
  long as all of its fields can only be used up by taking each of them in full
  width; and where the numbers are in range that division comes first.
-/

import EventCalendar.Proofs.DateToken
import Mathlib.Algebra.Ring.Nat
import Mathlib.Data.List.Induction

namespace EventCalendar

open EventCalendar.Text EventCalendar.Time

namespace DateToken

/-! ## Numbers in a fixed width -/

/-- The last digits of a number, as many as the width has, the highest first. -/
def digits : (width n : Nat) → List Nat
  | 0, _ => []
  | width + 1, n => digits width (n / 10) ++ [n % 10]

/-- The last digits of a number in ASCII. -/
def decimals (width n : Nat) : List Char :=
  (digits width n).map Nat.digitChar

variable {width n : Nat} {cs rest behind : List Char} {ds ns : List Nat} {c : Char}

@[simp] theorem length_digits (width n : Nat) : (digits width n).length = width := by
  induction width generalizing n with
  | zero => rfl
  | succ width ih => rw [digits, List.length_append, ih, List.length_singleton]

@[simp] theorem length_decimals (width n : Nat) : (decimals width n).length = width := by
  rw [decimals, List.length_map, length_digits]

theorem lt_ten_of_mem_digits {d : Nat} (h : d ∈ digits width n) : d < 10 := by
  induction width generalizing n with
  | zero => cases h
  | succ width ih =>
    rw [digits, List.mem_append, List.mem_singleton] at h
    rcases h with h | rfl
    · exact ih h
    · exact Nat.mod_lt _ (by decide)

theorem decimalNumber_append_singleton (ds : List Nat) (d : Nat) :
    decimalNumber (ds ++ [d]) = 10 * decimalNumber ds + d := by
  rw [decimalNumber, List.foldl_append]
  rfl

theorem decimalNumber_digits (h : n < 10 ^ width) : decimalNumber (digits width n) = n := by
  induction width generalizing n with
  | zero =>
    rw [Nat.pow_zero, Nat.lt_one_iff] at h
    rw [h]
    rfl
  | succ width ih =>
    rw [Nat.pow_succ] at h
    rw [digits, decimalNumber_append_singleton, ih (by omega)]
    omega

/-! ## ASCII digits -/

theorem decimalValue?_digitChar : ∀ d < 10, decimalValue? (Nat.digitChar d) = some d := by
  decide

theorem map_decimalValue?_decimals (width n : Nat) :
    (decimals width n).map decimalValue? = (digits width n).map some := by
  rw [decimals, List.map_map]
  exact List.map_congr_left fun d hd => decimalValue?_digitChar d (lt_ten_of_mem_digits hd)

/-- A decimal digit of ASCII. -/
def IsAsciiDigit (c : Char) : Prop :=
  c.toNat < 128 ∧ isDecimal c = true

theorem isAsciiDigit_digitChar : ∀ d < 10,
    (Nat.digitChar d).toNat < 128 ∧ isDecimal (Nat.digitChar d) = true := by
  decide

theorem isAsciiDigit_of_mem_decimals (h : c ∈ decimals width n) : IsAsciiDigit c := by
  obtain ⟨d, hd, rfl⟩ := List.mem_map.mp h
  exact isAsciiDigit_digitChar d (lt_ten_of_mem_digits hd)

theorem IsAsciiDigit.exists_digitChar (h : IsAsciiDigit c) : ∃ d < 10, c = Nat.digitChar d := by
  -- below 128 there are few enough characters to look at each
  have hcodes : ∀ code < 128, isDecimal (Char.ofNat code) = true →
      ∃ d < 10, Char.ofNat code = Nat.digitChar d := by
    decide
  have hc := hcodes c.toNat h.1
  rw [Char.ofNat_toNat] at hc
  exact hc h.2

/-- ASCII digits are a number in the width of the text. -/
theorem exists_decimals (h : ∀ c ∈ cs, IsAsciiDigit c) :
    ∃ n < 10 ^ cs.length, cs = decimals cs.length n := by
  -- the last digit is the remainder, those before it the quotient
  induction cs using List.reverseRecOn with
  | nil => exact ⟨0, by decide, rfl⟩
  | append_singleton cs c ih =>
    obtain ⟨n, hn, hcs⟩ := ih fun c' hc' => h c' (List.mem_append_left _ hc')
    obtain ⟨d, hd, rfl⟩ := (h c (by simp)).exists_digitChar
    refine ⟨10 * n + d, ?_, ?_⟩
    · rw [List.length_append, List.length_singleton, Nat.pow_succ]
      omega
    · rw [List.length_append, List.length_singleton, decimals, digits, List.map_append,
        show (10 * n + d) / 10 = n by omega, show (10 * n + d) % 10 = d by omega]
      exact congrArg (· ++ [Nat.digitChar d]) hcs

/-- The first digits of a text are a number in their width. -/
theorem exists_decimals_append (width k : Nat) (h : ∀ c ∈ cs, IsAsciiDigit c)
    (hlength : cs.length = width + k) :
    ∃ n < 10 ^ width, ∃ behind, cs = decimals width n ++ behind ∧ behind.length = k ∧
      ∀ c ∈ behind, IsAsciiDigit c := by
  have htake : (cs.take width).length = width := by
    rw [List.length_take]
    omega
  obtain ⟨n, hn, hcs⟩ := exists_decimals fun c hc => h c (List.mem_of_mem_take hc)
  rw [htake] at hn hcs
  refine ⟨n, hn, cs.drop width, ?_, ?_, fun c hc => h c (List.mem_of_mem_drop hc)⟩
  · rw [← hcs, List.take_append_drop]
  · rw [List.length_drop]
    omega

/-- A text of the length of three fields is three numbers in their widths. -/
theorem exists_three_decimals (w₁ w₂ w₃ : Nat) (h : ∀ c ∈ cs, IsAsciiDigit c)
    (hlength : cs.length = w₁ + (w₂ + w₃)) :
    ∃ n₁ < 10 ^ w₁, ∃ n₂ < 10 ^ w₂, ∃ n₃ < 10 ^ w₃,
      cs = decimals w₁ n₁ ++ (decimals w₂ n₂ ++ decimals w₃ n₃) := by
  obtain ⟨n₁, h₁, cs₁, rfl, hlength, h⟩ := exists_decimals_append w₁ (w₂ + w₃) h hlength
  obtain ⟨n₂, h₂, cs₂, rfl, hlength, h⟩ := exists_decimals_append w₂ w₃ h hlength
  obtain ⟨n₃, h₃, hcs⟩ := exists_decimals h
  rw [hlength] at h₃ hcs
  exact ⟨n₁, h₁, n₂, h₂, n₃, h₃, by rw [hcs]⟩

/-! ## Divisions of a text of full width -/

/-- The layouts in which a number may stand. -/
def Piece.layouts : Piece → List (List Place)
  | .letter _ => []
  | .number layouts => layouts

/-- The most characters that a piece takes. -/
def Piece.reach : Piece → Nat
  | .letter _ => 1
  | .number layouts => layouts.foldr (fun layout most => max layout.length most) 0

theorem Piece.length_le_reach {layouts : List (List Place)} {layout : List Place}
    (h : layout ∈ layouts) : layout.length ≤ (Piece.number layouts).reach := by
  induction layouts with
  | nil => cases h
  | cons first layouts ih =>
    show layout.length ≤ max first.length (Piece.number layouts).reach
    rcases List.mem_cons.mp h with rfl | h
    · exact Nat.le_max_left _ _
    · exact Nat.le_trans (ih h) (Nat.le_max_right _ _)

/-- What a layout leaves stands behind as many characters as it has places. -/
theorem readLayout_rest {layout : List Place} (h : readLayout layout cs = some (ds, rest)) :
    layout.length ≤ cs.length ∧ rest = cs.drop layout.length := by
  induction layout generalizing cs ds with
  | nil =>
    cases h
    exact ⟨Nat.zero_le _, rfl⟩
  | cons p layout ih =>
    cases cs with
    | nil => cases h
    | cons c cs =>
      unfold readLayout at h
      split at h
      · rename_i hread
        cases h
        obtain ⟨hle, hrest⟩ := ih hread
        exact ⟨Nat.succ_le_succ hle, hrest⟩
      · cases h

/-- A division takes no more of a text than its pieces are wide. -/
theorem length_le_of_mem_divisions {pieces : List Piece} (h : (ns, rest) ∈ divisions pieces cs) :
    cs.length ≤ (pieces.map Piece.reach).sum + rest.length := by
  induction pieces generalizing cs ns with
  | nil =>
    obtain ⟨-, rfl⟩ : ns = [] ∧ rest = cs := by simpa [divisions] using h
    omega
  | cons piece pieces ih =>
    rw [List.map_cons, List.sum_cons]
    cases piece with
    | letter l =>
      cases cs with
      | nil => cases h
      | cons c cs =>
        unfold divisions at h
        split at h
        · have hle := ih h
          simp only [List.length_cons, Piece.reach]
          omega
        · cases h
    | number layouts =>
      simp only [divisions, List.mem_flatMap, List.mem_filterMap, List.mem_map,
        Prod.mk.injEq] at h
      obtain ⟨⟨ds, behind⟩, ⟨layout, hlayout, hread⟩, ⟨ns', rest'⟩, hmem, -, rfl⟩ := h
      have hle := ih hmem
      have hreach := Piece.length_le_reach hlayout
      obtain ⟨-, rfl⟩ := readLayout_rest hread
      rw [List.length_drop] at hle
      omega

/-- If a text is used up that is as long as its fields are wide, then a number in front of it is
    taken in full width. -/
theorem exists_of_mem_divisions_decimals {layouts : List (List Place)} {pieces : List Piece}
    (hdecimal : ∀ layout ∈ layouts, ∀ p ∈ layout, p.isDecimal = true)
    (hreach : (Piece.number layouts).reach = width) (hn : n < 10 ^ width)
    (hrest : rest.length = (pieces.map Piece.reach).sum)
    (h : (ns, []) ∈ divisions (.number layouts :: pieces) (decimals width n ++ rest)) :
    ∃ ns', (ns', []) ∈ divisions pieces rest ∧ ns = n :: ns' := by
  simp only [divisions, List.mem_flatMap, List.mem_filterMap, List.mem_map, Prod.mk.injEq] at h
  obtain ⟨⟨ds, behind⟩, ⟨layout, hlayout, hread⟩, ⟨ns', rest'⟩, hmem, hns, rfl⟩ := h
  obtain ⟨hvalues, hlength⟩ := readLayout_spec (hdecimal layout hlayout) hread
  obtain ⟨-, hbehind⟩ := readLayout_rest hread
  have hle := Piece.length_le_reach hlayout
  have hall := length_le_of_mem_divisions hmem
  have hcount := congrArg List.length hvalues
  simp only [List.length_map, List.length_append, length_decimals, List.length_nil] at hcount hall
  -- whatever is behind the number has to fit into the pieces that are left
  have hfull : layout.length = width := by omega
  have htail : behind = rest := by
    rw [hbehind, hfull, List.drop_left' (length_decimals width n)]
  rw [htail, List.map_append, map_decimalValue?_decimals] at hvalues
  have hdigits : digits width n = ds :=
    (List.map_inj_right fun _ _ => Option.some.inj).mp (List.append_cancel_right hvalues)
  refine ⟨ns', htail ▸ hmem, ?_⟩
  rw [← hns, ← hdigits, decimalNumber_digits hn]

/-- So are three numbers, one behind the other. -/
theorem exists_of_mem_divisions_three {l₁ l₂ l₃ : List (List Place)} {pieces : List Piece}
    {w₁ w₂ w₃ n₁ n₂ n₃ : Nat}
    (h : (ns, []) ∈ divisions (.number l₁ :: .number l₂ :: .number l₃ :: pieces)
      (decimals w₁ n₁ ++ (decimals w₂ n₂ ++ (decimals w₃ n₃ ++ rest))))
    (hrest : rest.length = (pieces.map Piece.reach).sum)
    (hdecimal : ∀ layouts ∈ [l₁, l₂, l₃], ∀ layout ∈ layouts, ∀ p ∈ layout, p.isDecimal = true)
    (hreach₁ : (Piece.number l₁).reach = w₁) (hreach₂ : (Piece.number l₂).reach = w₂)
    (hreach₃ : (Piece.number l₃).reach = w₃)
    (h₁ : n₁ < 10 ^ w₁) (h₂ : n₂ < 10 ^ w₂) (h₃ : n₃ < 10 ^ w₃) :
    ∃ ns', (ns', []) ∈ divisions pieces rest ∧ ns = n₁ :: n₂ :: n₃ :: ns' := by
  obtain ⟨hdecimal₁, hdecimal₂, hdecimal₃⟩ :
      (∀ layout ∈ l₁, ∀ p ∈ layout, p.isDecimal = true) ∧
      (∀ layout ∈ l₂, ∀ p ∈ layout, p.isDecimal = true) ∧
      ∀ layout ∈ l₃, ∀ p ∈ layout, p.isDecimal = true := by simpa using hdecimal
  -- what stands behind each number is as long as the fields for it are wide
  have hlength₃ : (decimals w₃ n₃ ++ rest).length =
      ((Piece.number l₃ :: pieces).map Piece.reach).sum := by
    rw [List.length_append, length_decimals, List.map_cons, List.sum_cons, hreach₃, hrest]
  have hlength₂ : (decimals w₂ n₂ ++ (decimals w₃ n₃ ++ rest)).length =
      ((Piece.number l₂ :: .number l₃ :: pieces).map Piece.reach).sum := by
    rw [List.length_append, length_decimals, List.map_cons, List.sum_cons, hreach₂, hlength₃]
  obtain ⟨ns₁, hmem₁, rfl⟩ := exists_of_mem_divisions_decimals hdecimal₁ hreach₁ h₁ hlength₂ h
  obtain ⟨ns₂, hmem₂, rfl⟩ :=
    exists_of_mem_divisions_decimals hdecimal₂ hreach₂ h₂ hlength₃ hmem₁
  obtain ⟨ns₃, hmem₃, rfl⟩ := exists_of_mem_divisions_decimals hdecimal₃ hreach₃ h₃ hrest hmem₂
  exact ⟨ns₃, hmem₃, rfl⟩

/-! ## The first division -/

/-- A field takes a number in full width before it tries any other layout. -/
def Piece.Takes (p : Piece) (width n : Nat) : Prop :=
  (∀ layout ∈ p.layouts, layout.length ≤ width) ∧
    (p.layouts.filterMap (readLayout · (decimals width n))).head? = some (digits width n, [])

instance (p : Piece) (width n : Nat) : Decidable (p.Takes width n) :=
  inferInstanceAs (Decidable (_ ∧ _))

theorem monthField_takes : ∀ n < 13, 1 ≤ n → monthField.Takes 2 n := by decide

theorem dayField_takes : ∀ n < 32, 1 ≤ n → dayField.Takes 2 n := by decide

theorem hourField_takes : ∀ n < 24, hourField.Takes 2 n := by decide

theorem minuteField_takes : ∀ n < 60, minuteField.Takes 2 n := by decide

theorem secondField_takes : ∀ n < 60, secondField.Takes 2 n := by decide

theorem readLayout_any (h : ∀ d ∈ ds, d < 10) :
    readLayout (List.replicate ds.length .any) (ds.map Nat.digitChar) = some (ds, []) := by
  induction ds with
  | nil => rfl
  | cons d ds ih =>
    rw [List.forall_mem_cons] at h
    rw [List.length_cons, List.replicate_succ, List.map_cons, readLayout, Place.digit?,
      decimalValue?_digitChar d h.1, ih h.2]

theorem yearField_takes (n : Nat) : yearField.Takes 4 n := by
  refine ⟨by decide, ?_⟩
  have hread := readLayout_any fun d (hd : d ∈ digits 4 n) => lt_ten_of_mem_digits hd
  rw [length_digits] at hread
  exact congrArg List.head? (List.filterMap_cons_some (l := []) hread)

/-- What stands behind the places of a layout does not matter to it. -/
theorem readLayout_append {layout : List Place} (h : layout.length ≤ cs.length)
    (rest : List Char) : readLayout layout (cs ++ rest) =
      (readLayout layout cs).map fun (ds, behind) => (ds, behind ++ rest) := by
  induction layout generalizing cs with
  | nil => rfl
  | cons p layout ih =>
    cases cs with
    | nil => simp at h
    | cons c cs =>
      rw [List.cons_append, readLayout, readLayout, ih (Nat.le_of_succ_le_succ h)]
      cases p.digit? c with
      | none => rfl
      | some d => cases readLayout layout cs <;> rfl

/-- The first division takes a number in full width if its field does. -/
theorem head?_divisions_decimals {layouts : List (List Place)} {pieces : List Piece}
    (htakes : (Piece.number layouts).Takes width n) (hn : n < 10 ^ width)
    (hrest : (divisions pieces rest).head? = some (ns, behind)) :
    (divisions (.number layouts :: pieces) (decimals width n ++ rest)).head? =
      some (n :: ns, behind) := by
  obtain ⟨hlayouts, hfirst⟩ := htakes
  have hreads : layouts.filterMap (readLayout · (decimals width n ++ rest)) =
      (layouts.filterMap (readLayout · (decimals width n))).map
        fun (ds, behind) => (ds, behind ++ rest) := by
    rw [List.map_filterMap]
    refine List.filterMap_congr fun layout hlayout => readLayout_append ?_ rest
    rw [length_decimals]
    exact hlayouts layout hlayout
  obtain ⟨others, hothers⟩ := List.head?_eq_some_iff.mp hfirst
  simp only [Piece.layouts] at hothers
  rw [divisions, hreads, hothers, List.map_cons, List.flatMap_cons, List.head?_append,
    List.head?_map, List.nil_append, hrest, decimalNumber_digits hn]
  rfl

end DateToken

end EventCalendar
