/-
  EventCalendar.Proofs.Time.WholeMillis

  Keys of date-times that lie on a whole millisecond.  Of the two roundings on
  the way to a key only the first one can lose anything: the seconds may be
  rounded down.  Where their thousandfold has ten bits more than they have, the
  second rounding makes up for it.  Just above a power of two, where it has nine,
  a loss of more than a quarter of the unit remains, and with the fraction a
  whole millisecond is dropped.
-/

import EventCalendar.Proofs.Time.EpochKey

namespace EventCalendar.Time

open EventCalendar.Number

/-! ## Numbers in 62 bits -/

/-- A number with zeros behind its bits, so that it has 62 of them. -/
def inSixtyTwoBits (n : Nat) : Nat := n * 2 ^ (61 - n.log2)

/-- A number of milliseconds that its key falls short of.  The seconds lie less than three percent
    above a power of two, and what is lost of them in rounding is more than a quarter of their
    unit. -/
def FallsShort (millis : Int) : Prop :=
  1000 * 2 ^ 52 ≤ inSixtyTwoBits millis.natAbs ∧
    256 < inSixtyTwoBits millis.natAbs % 1000 ∧ inSixtyTwoBits millis.natAbs % 1000 < 500

instance (millis : Int) : Decidable (FallsShort millis) := inferInstanceAs (Decidable (_ ∧ _))

/-- A number of no more than 49 bits is followed by at least thirteen zeros. -/
theorem inSixtyTwoBits_spec {n : Nat} (hpos : 0 < n) (hsize : n < 2 ^ 49) :
    ∃ c, inSixtyTwoBits n = 8192 * c ∧ 2 ^ 48 ≤ c ∧ c < 2 ^ 49 ∧ n.log2 ≤ 48 ∧
      (n : ℚ) = inSixtyTwoBits n * 2 ^ ((n.log2 : Int) - 61) := by
  have hbits : n.log2 < 49 := (Nat.log2_lt hpos.ne').mpr hsize
  obtain ⟨zeros, hzeros⟩ : ∃ zeros, n.log2 + zeros = 48 := ⟨48 - n.log2, by omega⟩
  have hlow := Nat.log2_self_le hpos.ne'
  have hhigh := Nat.lt_log2_self (n := n)
  have hshift : 61 - n.log2 = zeros + 13 := by omega
  refine ⟨n * 2 ^ zeros, ?_, ?_, ?_, by omega, ?_⟩
  · rw [inSixtyTwoBits, hshift, Nat.pow_add]
    ring
  · calc 2 ^ 48 = 2 ^ n.log2 * 2 ^ zeros := by rw [← Nat.pow_add, hzeros]
      _ ≤ n * 2 ^ zeros := Nat.mul_le_mul_right _ hlow
  · calc n * 2 ^ zeros < 2 ^ (n.log2 + 1) * 2 ^ zeros :=
          Nat.mul_lt_mul_of_pos_right hhigh (Nat.pow_pos (by decide))
      _ = 2 ^ 49 := by rw [← Nat.pow_add, show n.log2 + 1 + zeros = 49 by omega]
  · have hexponent : (n.log2 : Int) - 61 = -((61 - n.log2 : Nat) : Int) := by omega
    rw [inSixtyTwoBits, hexponent, zpow_neg, zpow_natCast]
    push_cast
    field_simp

/-! ## Two roundings -/

/-- The seconds of a number of milliseconds `n * 2 ^ e`, rounded: the mantissa is the whole number
    nearest to the thousandth part of `n`. -/
theorem seconds_of_bits (negative : Bool) {millis n q : Nat} {e : Int}
    (hmillis : (millis : ℚ) = n * 2 ^ e) (hexponent : -1000 ≤ e ∧ e ≤ 900)
    (hn : 2 ^ 52 * 1000 ≤ n ∧ n < 2 ^ 53 * 1000) (hq : q < 2 ^ 53)
    (hnearest : 2 * ((q : Int) * 1000 - n).natAbs < 1000) :
    Binary64.ofRatio negative (1000 * millis) 1000000 = .finite negative q e := by
  have hunit : (0 : ℚ) < 2 ^ e := by positivity
  have hratio : ((1000 * millis : Nat) : ℚ) / (1000000 : Nat) = n / (1000 : Nat) * 2 ^ e := by
    push_cast
    rw [hmillis]
    ring
  have hlow : (2 : ℚ) ^ 52 ≤ n / (1000 : Nat) := by
    rw [le_div_iff₀ (by norm_num)]
    exact_mod_cast hn.1
  have hhigh : (n : ℚ) / (1000 : Nat) < 2 ^ 53 := by
    rw [div_lt_iff₀ (by norm_num)]
    exact_mod_cast hn.2
  refine Binary64.ofRatio_eq negative (by decide) ?_ ?_ ?_ ?_ ?_ hq
  · simp only [Binary64.minExponent]
    omega
  · simp only [Binary64.maxExponent]
    omega
  · rw [hratio]
    gcongr
  · rw [hratio]
    gcongr
  · rw [hratio, mul_div_cancel_right₀ _ hunit.ne', isNearest_div_iff (by decide)]
    exact .inl hnearest

/-- The thousandfold of seconds `q * 2 ^ e`, rounded: the mantissa is the whole number, `t` bits
    further on, nearest to the thousandfold of `q`. -/
theorem thousandfold_of_bits (negative : Bool) {q r t : Nat} {e e' : Int} (ht : e' = e + t)
    (hexponent : -1000 ≤ e' ∧ e' ≤ 900)
    (hq : 2 ^ 52 * 2 ^ t ≤ 1000 * q ∧ 1000 * q < 2 ^ 53 * 2 ^ t) (hr : r < 2 ^ 53)
    (hnearest : 2 * ((r : Int) * 2 ^ t - (1000 * q : Nat)).natAbs < 2 ^ t ∨
      2 * ((r : Int) * 2 ^ t - (1000 * q : Nat)).natAbs = 2 ^ t ∧ r % 2 = 0) :
    thousandfold negative q e = .finite negative r e' := by
  obtain ⟨hden, hvalue⟩ := Binary64.magnitude_spec q e
  have hunit : (0 : ℚ) < 2 ^ e := by positivity
  have hpower : (2 : ℚ) ^ e' = 2 ^ t * 2 ^ e := by
    rw [ht, zpow_add₀ (by norm_num), zpow_natCast, mul_comm]
  have hratio : (((Binary64.magnitude q e).1 * 1000 : Nat) : ℚ) / (Binary64.magnitude q e).2 =
      (1000 * q : Nat) * 2 ^ e := by
    rw [Nat.cast_mul, mul_div_right_comm, hvalue, Binary64.value]
    push_cast
    ring
  show Binary64.ofRatio negative ((Binary64.magnitude q e).1 * 1000)
    (Binary64.magnitude q e).2 = _
  refine Binary64.ofRatio_eq negative hden ?_ ?_ ?_ ?_ ?_ hr
  · simp only [Binary64.minExponent]
    omega
  · simp only [Binary64.maxExponent]
    omega
  · rw [hratio, hpower, ← mul_assoc]
    gcongr
    exact_mod_cast hq.1
  · rw [hratio, hpower, ← mul_assoc]
    gcongr
    exact_mod_cast hq.2
  · have hscaled : ((1000 * q : Nat) : ℚ) * 2 ^ e / 2 ^ e' = (1000 * q : Nat) / (2 ^ t : Nat) := by
      rw [hpower]
      push_cast
      field_simp
    rw [hratio, hscaled, isNearest_div_iff (Nat.pow_pos (by decide))]
    push_cast at hnearest ⊢
    exact hnearest

/-- Rounded twice, what is left of the milliseconds is told by the second mantissa. -/
theorem millisOfMicros_eq {millis : Int} {m r : Nat} {e e' : Int} (whole : Nat)
    (hrounded : ∀ negative,
      Binary64.ofRatio negative (1000 * millis.natAbs) 1000000 = .finite negative m e ∧
        thousandfold negative m e = .finite negative r e')
    (hle : (whole : ℚ) ≤ Binary64.value r e') (hlt : Binary64.value r e' < whole + 1) :
    millisOfMicros (1000 * millis) = if millis < 0 then -(whole : Int) else whole := by
  have hsign : decide (1000 * millis < 0) = decide (millis < 0) := by
    rw [decide_eq_decide]
    omega
  have hsize : (1000 * millis).natAbs = 1000 * millis.natAbs := by
    rw [Int.natAbs_mul]
    rfl
  obtain ⟨hseconds, hproduct⟩ := hrounded (decide (millis < 0))
  unfold millisOfMicros
  rw [hsign, hsize, hseconds]
  dsimp only
  rw [hproduct]
  dsimp only
  rw [Binary64.truncate_eq _ hle hlt]
  simp only [decide_eq_true_eq]

/-! ## Whole milliseconds -/

/-- Nine bits further on the unit of the thousandfold is 512.  The whole number nearest to it, with
    ties to the even one, is that of `n` or the next one, and if more than a quarter of their unit
    was lost of the seconds, the one before. -/
theorem exists_nearest_above {n c : Nat} (hc : n = 8192 * c) (hhigh : c < 2 ^ 49)
    (htop : 1000 * 2 ^ 52 ≤ n) :
    ∃ r, r < 2 ^ 53 ∧
      (2 * ((r : Int) * 2 ^ 9 - (1000 * ((n + 500) / 1000) : Nat)).natAbs < 2 ^ 9 ∨
        2 * ((r : Int) * 2 ^ 9 - (1000 * ((n + 500) / 1000) : Nat)).natAbs = 2 ^ 9 ∧
          r % 2 = 0) ∧
      (256 < n % 1000 ∧ n % 1000 < 500 → 512 * (r + 1) = n) ∧
      (¬ (256 < n % 1000 ∧ n % 1000 < 500) → n ≤ 512 * r ∧ 512 * r ≤ n + 512) := by
  rcases Nat.lt_or_ge (n % 1000) 500 with hdown | hup
  · have hseconds : 1000 * ((n + 500) / 1000) + n % 1000 = n := by omega
    rcases Nat.lt_or_ge (n % 1000) 257 with hkept | hlost
    · exact ⟨16 * c, by omega, by omega, by omega, by omega⟩
    · exact ⟨16 * c - 1, by omega, by omega, by omega, by omega⟩
  · have hseconds : 1000 * ((n + 500) / 1000) + n % 1000 = n + 1000 := by omega
    rcases Nat.lt_or_ge (n % 1000) 744 with hmore | hless
    · exact ⟨16 * c + 1, by omega, by omega, by omega, by omega⟩
    · exact ⟨16 * c, by omega, by omega, by omega, by omega⟩

/-- The two roundings of a number of milliseconds.  The second mantissa stands for the number itself
    or for one unit more, and where the number falls short, for one unit less. -/
theorem exists_rounded {millis : Int} (hzero : millis ≠ 0) (hsize : millis.natAbs < 2 ^ 49) :
    ∃ m e r, (∀ negative,
        Binary64.ofRatio negative (1000 * millis.natAbs) 1000000 = .finite negative m e ∧
          thousandfold negative m e = .finite negative r ((millis.natAbs.log2 : Int) - 52)) ∧
      (FallsShort millis → 512 * (r + 1) = inSixtyTwoBits millis.natAbs) ∧
      (¬ FallsShort millis → inSixtyTwoBits millis.natAbs ≤ 512 * r ∧
        512 * r ≤ inSixtyTwoBits millis.natAbs + 512) := by
  obtain ⟨c, hc, hlow, hhigh, hbits, hvalue⟩ :=
    inSixtyTwoBits_spec (show 0 < millis.natAbs by omega) hsize
  unfold FallsShort
  generalize inSixtyTwoBits millis.natAbs = n at *
  by_cases htop : 1000 * 2 ^ 52 ≤ n
  · -- just above a power of two there are nine more bits
    obtain ⟨r, hr, hnearest, hshort, hkept⟩ := exists_nearest_above hc hhigh htop
    exact ⟨(n + 500) / 1000, (millis.natAbs.log2 : Int) - 61, r, fun negative =>
      ⟨seconds_of_bits negative hvalue (by omega) (by omega) (by omega) (by omega),
        thousandfold_of_bits (t := 9) negative (by omega) (by omega) (by omega) hr hnearest⟩,
      fun h => hshort h.2, fun h => hkept fun hlost => h ⟨htop, hlost⟩⟩
  · -- elsewhere ten: half the unit of the product is more than what may be lost of the seconds
    have hdouble : (millis.natAbs : ℚ) = (2 * n : Nat) * 2 ^ ((millis.natAbs.log2 : Int) - 62) := by
      rw [hvalue, show (millis.natAbs.log2 : Int) - 61 = millis.natAbs.log2 - 62 + 1 by omega,
        zpow_add_one₀ (by norm_num)]
      push_cast
      ring
    refine ⟨(2 * n + 500) / 1000, (millis.natAbs.log2 : Int) - 62, 16 * c, fun negative =>
      ⟨seconds_of_bits negative hdouble (by omega) (by omega) (by omega) (by omega), ?_⟩,
      by omega, by omega⟩
    exact thousandfold_of_bits (t := 10) negative (by omega) (by omega) (by omega) (by omega)
      (by omega)

/-- The unit of the product is 512 of the 62nd bit. -/
theorem value_product (r bits : Nat) :
    Binary64.value r ((bits : Int) - 52) = (512 * r : Nat) * 2 ^ ((bits : Int) - 61) := by
  rw [Binary64.value, show (bits : Int) - 52 = bits - 61 + 9 by omega, zpow_add₀ (by norm_num)]
  push_cast
  ring

/-- It is less than a millisecond. -/
theorem unit_lt_one {bits : Nat} (hbits : bits ≤ 48) :
    512 * (2 : ℚ) ^ ((bits : Int) - 61) < 1 := by
  calc 512 * (2 : ℚ) ^ ((bits : Int) - 61) ≤ 512 * 2 ^ (-13 : Int) := by
        gcongr
        · norm_num
        · omega
    _ < 1 := by norm_num

/-- Over the whole calendar a number of milliseconds comes out as it is, or, if it falls short,
    nearer to zero by one. -/
theorem millisOfMicros_whole {millis : Int} (hsize : millis.natAbs < 2 ^ 49) :
    millisOfMicros (1000 * millis) =
      if FallsShort millis then millis - millis.sign else millis := by
  rcases eq_or_ne millis 0 with rfl | hzero
  · decide +kernel
  obtain ⟨c, -, -, -, hbits, hvalue⟩ :=
    inSixtyTwoBits_spec (show 0 < millis.natAbs by omega) hsize
  obtain ⟨m, e, r, hrounded, hshort, hkept⟩ := exists_rounded hzero hsize
  generalize inSixtyTwoBits millis.natAbs = n at hvalue hshort hkept
  have hproduct := value_product r millis.natAbs.log2
  have hunit := unit_lt_one hbits
  have hpos : (0 : ℚ) < 2 ^ ((millis.natAbs.log2 : Int) - 61) := by positivity
  generalize (2 : ℚ) ^ ((millis.natAbs.log2 : Int) - 61) = u at hvalue hproduct hunit hpos
  by_cases hfalls : FallsShort millis
  · have hsum : (millis.natAbs : ℚ) = (512 * r : Nat) * u + 512 * u := by
      rw [hvalue, ← hshort hfalls]
      push_cast
      ring
    have hwhole : ((millis.natAbs - 1 : Nat) : ℚ) = millis.natAbs - 1 := by
      rw [Nat.cast_sub (by omega), Nat.cast_one]
    rw [if_pos hfalls, millisOfMicros_eq (millis.natAbs - 1) hrounded
      (by rw [hproduct, hwhole]; linarith) (by rw [hproduct, hwhole]; linarith)]
    rcases lt_or_gt_of_ne hzero with hneg | hpos
    · rw [if_pos hneg, Int.sign_eq_neg_one_of_neg hneg]
      omega
    · rw [if_neg (by omega), Int.sign_eq_one_of_pos hpos]
      omega
  · obtain ⟨hlow, hhigh⟩ := hkept hfalls
    have hlow : (n : ℚ) * u ≤ (512 * r : Nat) * u := by gcongr
    have hhigh : ((512 * r : Nat) : ℚ) * u ≤ (n + 512 : Nat) * u := by gcongr
    rw [Nat.cast_add, add_mul, ← hvalue] at hhigh
    rw [← hvalue] at hlow
    push_cast at hhigh
    rw [if_neg hfalls, millisOfMicros_eq millis.natAbs hrounded
      (by rw [hproduct]; linarith) (by rw [hproduct]; push_cast; linarith)]
    split <;> omega

namespace Moment

/-- A date-time on a whole millisecond is a whole number of milliseconds away from the beginning of
    1970, as clocks are whole minutes ahead of universal time. -/
theorem exists_millis {m : Moment} (h : m.wall.micros % 1000 = 0) :
    ∃ millis : Int, m.instant - epochMicros = 1000 * millis := by
  refine ⟨(m.wall.micros / 1000 : Nat) - m.offset * 60000 - 719162 * 86400000, ?_⟩
  simp only [instant, epochMicros, microsPerMinute, microsPerDay]
  omega

/-- The key of such a date-time. -/
theorem epochKey_of_millis {m : Moment} {millis : Int}
    (h : m.instant - epochMicros = 1000 * millis) :
    m.epochKey = if FallsShort millis then millis - millis.sign else millis := by
  have hcalendar := m.wall.inCalendar
  have hoffset := m.zone.natAbs_offset_lt m.wall m.later
  have hsize : millis.natAbs < 2 ^ 49 := by
    simp only [calendarMicros] at hcalendar
    simp only [instant, offset, epochMicros, microsPerMinute, microsPerDay] at h
    omega
  rw [epochKey, instant_zoned, h, millisOfMicros_whole hsize]

end Moment

end EventCalendar.Time
