/-
  EventCalendar.Proofs.Number.Rounding

  How far a quotient is from the binary64 number nearest to it: by no more than
  half a unit in the last of its 53 bits, or of the least exponent.  Where the
  53 bits are known, so is the number.
-/

import EventCalendar.Number.Binary64
import Mathlib.Algebra.Order.Field.Rat
import Mathlib.Algebra.Order.Field.Power
import Mathlib.Tactic.FieldSimp
import Mathlib.Tactic.Linarith
import Mathlib.Tactic.NormNum
import Mathlib.Tactic.Positivity
import Mathlib.Tactic.Ring

namespace EventCalendar.Number

/-! ## Whole numbers -/

/-- Rounding moves a quotient by no more than one half. -/
theorem abs_roundHalfEven_sub_le (num : Nat) {den : Nat} (hden : 0 < den) :
    |(roundHalfEven num den : ℚ) - num / den| ≤ 1 / 2 := by
  have hpos : (0 : ℚ) < den := by exact_mod_cast hden
  have hsum : (num : ℚ) = den * (num / den : Nat) + (num % den : Nat) := by
    exact_mod_cast (Nat.div_add_mod num den).symm
  have hlt : ((num % den : Nat) : ℚ) < den := by exact_mod_cast Nat.mod_lt num hden
  have hdiv : (num : ℚ) / den = (num / den : Nat) + (num % den : Nat) / den := by
    rw [hsum]
    field_simp
  rw [hdiv]
  unfold roundHalfEven
  dsimp only
  split
  · rename_i hup
    -- the remainder is at least half the denominator
    have hhalf : den ≤ 2 * (num % den) := by
      simp only [Bool.or_eq_true, Bool.and_eq_true, decide_eq_true_eq, beq_iff_eq] at hup
      omega
    have hhalf : (1 : ℚ) / 2 ≤ (num % den : Nat) / den := by
      rw [div_le_div_iff₀ (by norm_num) hpos]
      exact_mod_cast (by omega : 1 * den ≤ num % den * 2)
    have hone : ((num % den : Nat) : ℚ) / den ≤ 1 := (div_le_one hpos).mpr hlt.le
    rw [abs_le]
    push_cast
    constructor <;> linarith
  · rename_i hdown
    have hhalf : 2 * (num % den) ≤ den := by
      simp only [Bool.or_eq_true, decide_eq_true_eq, not_or] at hdown
      omega
    have hhalf : ((num % den : Nat) : ℚ) / den ≤ 1 / 2 := by
      rw [div_le_div_iff₀ hpos (by norm_num)]
      exact_mod_cast (by omega : num % den * 2 ≤ 1 * den)
    have hnonneg : (0 : ℚ) ≤ (num % den : Nat) / den := by positivity
    rw [abs_le]
    constructor <;> linarith

/-- The whole number is nearest to a quotient, or the even one of the two that are. -/
def IsNearest (m : Nat) (x : ℚ) : Prop :=
  |(m : ℚ) - x| < 1 / 2 ∨ |(m : ℚ) - x| = 1 / 2 ∧ m % 2 = 0

/-- What is nearest to a quotient can be told from whole numbers alone. -/
theorem isNearest_div_iff {m num den : Nat} (hden : 0 < den) :
    IsNearest m (num / den) ↔
      2 * ((m : Int) * den - num).natAbs < den ∨
        2 * ((m : Int) * den - num).natAbs = den ∧ m % 2 = 0 := by
  have hpos : (0 : ℚ) < den := by exact_mod_cast hden
  have hscaled : |(m : ℚ) - num / den| = (((m : Int) * den - num).natAbs : ℚ) / den := by
    rw [Nat.cast_natAbs, Int.cast_abs, ← abs_of_pos hpos, ← abs_div, abs_of_pos hpos]
    congr 1
    push_cast
    field_simp
  unfold IsNearest
  rw [hscaled, div_lt_div_iff₀ hpos (by norm_num), div_eq_div_iff hpos.ne' (by norm_num)]
  norm_cast
  rw [one_mul, Nat.mul_comm _ 2]

/-- Rounding leads to what is nearest. -/
theorem roundHalfEven_eq {m num den : Nat} (hden : 0 < den) (h : IsNearest m (num / den)) :
    roundHalfEven num den = m := by
  rw [isNearest_div_iff hden] at h
  have hsum : (num : Int) = (num / den : Nat) * den + (num % den : Nat) := by
    exact_mod_cast (Nat.div_add_mod' num den).symm
  have hlt := Nat.mod_lt num hden
  unfold roundHalfEven
  dsimp only
  generalize num / den = q at *
  generalize num % den = r at *
  -- only the two whole numbers around the quotient are near enough
  have hlow : q ≤ m := by
    rw [← Nat.not_lt]
    intro hless
    have hgap : ((m : Int) + 1) * den ≤ q * den := by
      exact_mod_cast Nat.mul_le_mul_right den hless
    rw [Int.add_mul] at hgap
    omega
  have hhigh : m ≤ q + 1 := by
    rw [← Nat.not_lt]
    intro hmore
    have hgap : ((q : Int) + 2) * den ≤ m * den := by
      exact_mod_cast Nat.mul_le_mul_right den hmore
    rw [Int.add_mul] at hgap
    omega
  obtain rfl | rfl : m = q ∨ m = q + 1 := by omega
  · rw [if_neg]
    simp only [Bool.or_eq_true, Bool.and_eq_true, decide_eq_true_eq, beq_iff_eq, not_or, not_and]
    omega
  · rw [Int.natCast_succ, Int.add_mul] at h
    rw [if_pos]
    simp only [Bool.or_eq_true, Bool.and_eq_true, decide_eq_true_eq, beq_iff_eq]
    omega

namespace Binary64

/-! ## Scales -/

/-- The number that a mantissa and an exponent stand for, without its sign. -/
def value (mantissa : Nat) (exponent : Int) : ℚ := mantissa * 2 ^ exponent

/-- Scaling divides by a power of two. -/
theorem scaleDown_spec (num : Nat) {den : Nat} (hden : 0 < den) (e : Int) :
    0 < (scaleDown num den e).2 ∧
      ((scaleDown num den e).1 : ℚ) / (scaleDown num den e).2 = num / den / 2 ^ e := by
  have hpos : (0 : ℚ) < den := by exact_mod_cast hden
  unfold scaleDown
  split
  · rename_i he
    obtain ⟨k, rfl⟩ := Int.eq_ofNat_of_zero_le he
    refine ⟨Nat.mul_pos hden (Nat.pow_pos (by decide)), ?_⟩
    simp only [twoTo, Nat.pow_eq, Int.toNat_natCast, zpow_natCast]
    push_cast
    rw [div_div]
  · rename_i he
    obtain ⟨k, hk⟩ : ∃ k : Nat, e = -(k : Int) := ⟨(-e).toNat, by omega⟩
    subst hk
    refine ⟨hden, ?_⟩
    simp only [twoTo, Nat.pow_eq, Int.neg_neg, Int.toNat_natCast, zpow_neg, zpow_natCast]
    push_cast
    field_simp

theorem magnitude_spec (mantissa : Nat) (exponent : Int) :
    0 < (magnitude mantissa exponent).2 ∧
      ((magnitude mantissa exponent).1 : ℚ) / (magnitude mantissa exponent).2 =
        value mantissa exponent := by
  unfold magnitude value
  split
  · rename_i he
    obtain ⟨k, rfl⟩ := Int.eq_ofNat_of_zero_le he
    simp [twoTo]
  · rename_i he
    obtain ⟨k, hk⟩ : ∃ k : Nat, exponent = -(k : Int) := ⟨(-exponent).toNat, by omega⟩
    subst hk
    refine ⟨Nat.pow_pos (by decide), ?_⟩
    simp only [twoTo, Nat.pow_eq, Int.neg_neg, Int.toNat_natCast, zpow_neg, zpow_natCast]
    push_cast
    field_simp

/-- At the exponent that is chosen a quotient has 53 bits, unless the exponent is the least one. -/
theorem exponentOf_spec {num den : Nat} (hnum : 0 < num) (hden : 0 < den) :
    exponentOf num den = minExponent ∨
      (2 : ℚ) ^ 52 * 2 ^ exponentOf num den ≤ num / den := by
  have hpos : (0 : ℚ) < den := by exact_mod_cast hden
  unfold exponentOf
  dsimp only
  generalize he : (num.log2 : Int) - den.log2 - 52 = e
  obtain ⟨hd, hscale⟩ := scaleDown_spec num hden e
  rcases max_choice minExponent
    (if (scaleDown num den e).1 / (scaleDown num den e).2 < twoTo 52 then e - 1 else e)
    with hmax | hmax
  · exact .inl hmax
  · rw [hmax]
    right
    split
    · -- the bit lengths alone give all but the last bit
      have hlow : (2 : ℚ) ^ num.log2 ≤ num := by
        exact_mod_cast Nat.log2_self_le (by omega)
      have hhigh : (den : ℚ) ≤ 2 ^ (den.log2 + 1) := by
        exact_mod_cast Nat.lt_log2_self.le
      calc (2 : ℚ) ^ 52 * 2 ^ (e - 1) = 2 ^ num.log2 / 2 ^ (den.log2 + 1) := by
            rw [← zpow_natCast, ← zpow_natCast, ← zpow_natCast, ← zpow_add₀ (by norm_num),
              ← zpow_sub₀ (by norm_num)]
            congr 1
            push_cast
            omega
        _ ≤ num / 2 ^ (den.log2 + 1) := by gcongr
        _ ≤ num / den := by gcongr
    · rename_i hbits
      have hdpos : (0 : ℚ) < (scaleDown num den e).2 := by exact_mod_cast hd
      have hquotient : (2 : ℚ) ^ 52 ≤ (scaleDown num den e).1 / (scaleDown num den e).2 := by
        rw [le_div_iff₀ hdpos]
        have hle := (Nat.le_div_iff_mul_le hd).mp (Nat.le_of_not_lt hbits)
        simp only [twoTo, Nat.pow_eq] at hle
        exact_mod_cast hle
      rw [hscale, le_div_iff₀ (by positivity)] at hquotient
      exact hquotient

/-- At the exponent that is chosen a quotient has no more than 53 bits. -/
theorem lt_exponentOf (num : Nat) {den : Nat} (hden : 0 < den) :
    (num : ℚ) / den < 2 ^ 53 * 2 ^ exponentOf num den := by
  have hpos : (0 : ℚ) < den := by exact_mod_cast hden
  unfold exponentOf
  dsimp only
  generalize he : (num.log2 : Int) - den.log2 - 52 = e
  obtain ⟨hd, hscale⟩ := scaleDown_spec num hden e
  have hmono {a b : Int} (h : a ≤ b) : (2 : ℚ) ^ 53 * 2 ^ a ≤ 2 ^ 53 * 2 ^ b := by
    gcongr
    norm_num
  refine lt_of_lt_of_le ?_ (hmono (le_max_right _ _))
  split
  · rename_i hbits
    have hdpos : (0 : ℚ) < (scaleDown num den e).2 := by exact_mod_cast hd
    have hquotient : ((scaleDown num den e).1 : ℚ) / (scaleDown num den e).2 < 2 ^ 52 := by
      rw [div_lt_iff₀ hdpos]
      have hlt := (Nat.div_lt_iff_lt_mul hd).mp hbits
      simp only [twoTo, Nat.pow_eq] at hlt
      exact_mod_cast hlt
    rw [hscale, div_lt_iff₀ (by positivity)] at hquotient
    calc (num : ℚ) / den < 2 ^ 52 * 2 ^ e := hquotient
      _ = 2 ^ 53 * 2 ^ (e - 1) := by rw [zpow_sub_one₀ (by norm_num)]; ring
  · -- the bit lengths alone give no more bits
    have hhigh : (num : ℚ) < 2 ^ (num.log2 + 1) := by exact_mod_cast Nat.lt_log2_self
    calc (num : ℚ) / den < 2 ^ (num.log2 + 1) / den := by gcongr
      _ ≤ 2 ^ (num.log2 + 1) / 2 ^ den.log2 := by
          gcongr
          exact_mod_cast Nat.log2_self_le (by omega)
      _ = 2 ^ 53 * 2 ^ e := by
          rw [← zpow_natCast, ← zpow_natCast, ← zpow_natCast, ← zpow_sub₀ (by norm_num),
            ← zpow_add₀ (by norm_num)]
          congr 1
          push_cast
          omega

/-- There is one exponent at which a quotient has 53 bits. -/
theorem exponentOf_eq {num den : Nat} {e : Int} (hden : 0 < den) (hmin : minExponent ≤ e)
    (hlow : (2 : ℚ) ^ 52 * 2 ^ e ≤ num / den) (hhigh : (num : ℚ) / den < 2 ^ 53 * 2 ^ e) :
    exponentOf num den = e := by
  have hnum : 0 < num := by
    rw [Nat.pos_iff_ne_zero]
    rintro rfl
    have hunit : (0 : ℚ) < 2 ^ 52 * 2 ^ e := by positivity
    rw [Nat.cast_zero, zero_div] at hlow
    linarith
  -- whatever has 53 bits at two exponents has them at one
  have hle {a b : Int} (h : (2 : ℚ) ^ 52 * 2 ^ a < 2 ^ 53 * 2 ^ b) : a ≤ b := by
    rw [← zpow_natCast, ← zpow_natCast, ← zpow_add₀ (by norm_num), ← zpow_add₀ (by norm_num),
      zpow_lt_zpow_iff_right₀ (by norm_num)] at h
    omega
  refine le_antisymm ?_ (hle (hlow.trans_lt (lt_exponentOf num hden)))
  rcases exponentOf_spec hnum hden with heq | hbits
  · rw [heq]
    exact hmin
  · exact hle (hbits.trans_lt hhigh)

/-! ## Quotients -/

/-- A quotient with 53 bits at an exponent is rounded to the mantissa nearest to it there. -/
theorem ofRatio_eq (negative : Bool) {num den m : Nat} {e : Int} (hden : 0 < den)
    (hmin : minExponent ≤ e) (hmax : e ≤ maxExponent)
    (hlow : (2 : ℚ) ^ 52 * 2 ^ e ≤ num / den) (hhigh : (num : ℚ) / den < 2 ^ 53 * 2 ^ e)
    (hnearest : IsNearest m (num / den / 2 ^ e)) (hm : m < 2 ^ 53) :
    ofRatio negative num den = .finite negative m e := by
  obtain ⟨hd, hscale⟩ := scaleDown_spec num hden e
  rw [← hscale] at hnearest
  have hnum : num ≠ 0 := by
    rintro rfl
    have hunit : (0 : ℚ) < 2 ^ 52 * 2 ^ e := by positivity
    rw [Nat.cast_zero, zero_div] at hlow
    linarith
  have hcarry : m ≠ twoTo 53 := by
    simp only [twoTo, Nat.pow_eq]
    omega
  unfold ofRatio
  rw [if_neg hnum, exponentOf_eq hden hmin hlow hhigh]
  dsimp only
  rw [roundHalfEven_eq hd hnearest, if_neg hcarry]
  dsimp only
  rw [if_neg (by omega)]

/-- A mantissa that is one half away from a scaled number stands for one half a unit away. -/
theorem abs_value_sub_le {mantissa : Nat} {e : Int} {x : ℚ}
    (h : |(mantissa : ℚ) - x / 2 ^ e| ≤ 1 / 2) : |value mantissa e - x| ≤ 2 ^ e / 2 := by
  have hunit : (0 : ℚ) < 2 ^ e := by positivity
  have hvalue : value mantissa e - x = (mantissa - x / 2 ^ e) * 2 ^ e := by
    unfold value
    field_simp
  calc |value mantissa e - x| = |(mantissa : ℚ) - x / 2 ^ e| * 2 ^ e := by
        rw [hvalue, abs_mul, abs_of_pos hunit]
    _ ≤ 1 / 2 * 2 ^ e := by gcongr
    _ = 2 ^ e / 2 := by ring

/-- A carry into one more bit leaves the number as it is. -/
theorem value_carry (e : Int) : value (twoTo 52) (e + 1) = value (twoTo 53) e := by
  unfold value twoTo
  rw [zpow_add₀ (by norm_num)]
  norm_num
  ring

/-- The number nearest to a quotient of moderate size is finite, and it is as near as 53 bits
    allow, or at least as near as the least unit. -/
theorem ofRatio_spec (negative : Bool) (num : Nat) {den : Nat} (hden : 0 < den)
    (hsize : (num : ℚ) / den < 2 ^ 100) :
    ∃ mantissa exponent, ofRatio negative num den = .finite negative mantissa exponent ∧
      |value mantissa exponent - num / den| ≤ num / den / 2 ^ 53 + 1 / 2 ^ 60 := by
  unfold ofRatio
  split
  · rename_i hzero
    refine ⟨0, minExponent, rfl, ?_⟩
    rw [hzero]
    simp only [value, Nat.cast_zero, zero_mul, zero_div, sub_zero, abs_zero, zero_add]
    positivity
  · rename_i hnum
    dsimp only
    have hexponent := exponentOf_spec (Nat.pos_of_ne_zero hnum) hden
    generalize exponentOf num den = e at hexponent
    obtain ⟨hd, hscale⟩ := scaleDown_spec num hden e
    have hround := abs_roundHalfEven_sub_le (scaleDown num den e).1 hd
    rw [hscale] at hround
    have herror := abs_value_sub_le hround
    generalize roundHalfEven (scaleDown num den e).1 (scaleDown num den e).2 = m at herror
    have hquotient : (0 : ℚ) ≤ num / den := by positivity
    -- the unit is the least one, or 53 bits below the quotient
    have hunit : (2 : ℚ) ^ e / 2 ≤ num / den / 2 ^ 53 + 1 / 2 ^ 60 := by
      rcases hexponent with rfl | hbits
      · have hmin : (2 : ℚ) ^ minExponent ≤ 1 / 2 ^ 60 :=
          calc (2 : ℚ) ^ minExponent ≤ 2 ^ (-60 : Int) :=
                zpow_le_zpow_right₀ (by norm_num) (by decide)
            _ = 1 / 2 ^ 60 := by norm_num
        have hscaled : (0 : ℚ) ≤ num / den / 2 ^ 53 := by positivity
        linarith
      · rw [show (2 : ℚ) ^ 53 = 2 ^ 52 * 2 by norm_num, ← div_div]
        have hscaled : (2 : ℚ) ^ e ≤ num / den / 2 ^ 52 := by
          rw [le_div_iff₀ (by norm_num)]
          linarith
        linarith
    have hsmall : e < 100 := by
      rcases hexponent with rfl | hbits
      · decide
      · rw [← zpow_lt_zpow_iff_right₀ (show (1 : ℚ) < 2 by norm_num)]
        have hfloor : (1 : ℚ) * 2 ^ e ≤ 2 ^ 52 * 2 ^ e := by gcongr; norm_num
        calc (2 : ℚ) ^ e ≤ 2 ^ 52 * 2 ^ e := by linarith
          _ ≤ num / den := hbits
          _ < 2 ^ 100 := hsize
          _ = 2 ^ (100 : Int) := by norm_num
    split
    · rename_i hcarry
      rw [hcarry, ← value_carry] at herror
      rw [if_neg (by simp only [maxExponent]; omega)]
      exact ⟨_, _, rfl, herror.trans hunit⟩
    · rw [if_neg (by simp only [maxExponent]; omega)]
      exact ⟨_, _, rfl, herror.trans hunit⟩

/-- Without its fraction a number is less than one smaller. -/
theorem truncate_spec (negative : Bool) (mantissa : Nat) (exponent : Int) :
    ∃ whole : Nat, truncate negative mantissa exponent = (if negative then -(whole : Int) else whole) ∧
      (whole : ℚ) ≤ value mantissa exponent ∧ value mantissa exponent < whole + 1 := by
  obtain ⟨hden, hvalue⟩ := magnitude_spec mantissa exponent
  have hpos : (0 : ℚ) < (magnitude mantissa exponent).2 := by exact_mod_cast hden
  refine ⟨(magnitude mantissa exponent).1 / (magnitude mantissa exponent).2, ?_, ?_, ?_⟩
  · unfold truncate
    cases negative <;> rfl
  · rw [← hvalue, le_div_iff₀ hpos]
    exact_mod_cast Nat.div_mul_le_self _ _
  · rw [← hvalue, div_lt_iff₀ hpos]
    exact_mod_cast Nat.lt_mul_of_div_lt (Nat.lt_succ_self _) hden

/-- The whole part is the whole number before which a number lies by less than one. -/
theorem truncate_eq (negative : Bool) {mantissa whole : Nat} {exponent : Int}
    (hle : (whole : ℚ) ≤ value mantissa exponent) (hlt : value mantissa exponent < whole + 1) :
    truncate negative mantissa exponent = if negative then -(whole : Int) else whole := by
  obtain ⟨whole', htruncate, hle', hlt'⟩ := truncate_spec negative mantissa exponent
  have h₁ : (whole : ℚ) < whole' + 1 := hle.trans_lt hlt'
  have h₂ : (whole' : ℚ) < whole + 1 := hle'.trans_lt hlt
  norm_cast at h₁ h₂
  rw [htruncate, show whole' = whole by omega]

end Binary64

end EventCalendar.Number
