import LineDirective.Number.Binary64
import Mathlib.Algebra.Order.Field.Power
import Mathlib.Data.Nat.Log
import Mathlib.Data.Rat.Lemmas
import Mathlib.Tactic.FieldSimp
import Mathlib.Tactic.Linarith
import Mathlib.Tactic.Positivity

/-!
# Rounding to the binary format

Numbers of the format round to themselves, magnitudes from `2 ^ 1024` on round to an infinity, and
magnitudes below half of the least positive number round to zero. Hence the shortcuts of
`Binary64.ofDecimal` for exponents far outside the format are right, and what a decimal is read as
depends on its value alone (`Binary64.ofDecimal_eq_ofRat`).
-/

namespace LineDirective

/-! ## 1. Scaling and logarithms -/

/-- What `scaleDown` gives is the ratio divided by the power. -/
theorem scaleDown_spec (num : Nat) {base den : Nat} (hbase : 0 < base) (hden : 0 < den) (e : Int) :
    0 < (scaleDown base num den e).2 ∧
      ((scaleDown base num den e).1 : ℚ) / (scaleDown base num den e).2 =
        (num : ℚ) / den / (base : ℚ) ^ e := by
  have hb : (base : ℚ) ≠ 0 := by positivity
  unfold scaleDown
  split
  · rename_i nonneg
    obtain ⟨n, rfl⟩ := Int.eq_ofNat_of_zero_le nonneg
    refine ⟨Nat.mul_pos hden (Nat.pow_pos hbase), ?_⟩
    simp only [Int.toNat_natCast, Nat.pow_eq, Nat.cast_mul, Nat.cast_pow, zpow_natCast]
    rw [div_div]
  · rename_i negative
    obtain ⟨n, hn⟩ := Int.eq_ofNat_of_zero_le (a := -e) (by omega)
    obtain rfl : e = -(n : Int) := by omega
    refine ⟨hden, ?_⟩
    simp only [neg_neg, Int.toNat_natCast, Nat.pow_eq, Nat.cast_mul, Nat.cast_pow, zpow_neg,
      zpow_natCast]
    field_simp

theorem two_zpow_pos (e : Int) : (0 : ℚ) < (2 : ℚ) ^ e := zpow_pos (by norm_num) e

/-- The comparison that `floorLog2` makes: whether the ratio reaches the power. -/
theorem scaleDown_le_iff {num den : Nat} (hden : 0 < den) (e : Int) :
    (scaleDown 2 num den e).2 ≤ (scaleDown 2 num den e).1 ↔ (2 : ℚ) ^ e ≤ (num : ℚ) / den := by
  obtain ⟨hpos, value⟩ := scaleDown_spec num (show 0 < 2 by decide) hden e
  have hposq : (0 : ℚ) < (scaleDown 2 num den e).2 := by exact_mod_cast hpos
  rw [Nat.cast_ofNat] at value
  rw [← one_le_div (two_zpow_pos e), ← value, one_le_div hposq, Nat.cast_le]

/-- `floorLog2` is the exponent of the greatest power of two that is at most the ratio. -/
theorem floorLog2_spec {num den : Nat} (hnum : 0 < num) (hden : 0 < den) :
    (2 : ℚ) ^ floorLog2 num den ≤ (num : ℚ) / den ∧
      (num : ℚ) / den < (2 : ℚ) ^ (floorLog2 num den + 1) := by
  have hdenq : (0 : ℚ) < den := by exact_mod_cast hden
  -- the bounds of both logarithms put the quotient between two powers that are two apart
  have low : ((2 : ℚ) ^ (num.log2 : Int)) ≤ num := by
    rw [zpow_natCast]; exact_mod_cast Nat.log2_self_le hnum.ne'
  have high : (num : ℚ) < (2 : ℚ) ^ ((num.log2 : Int) + 1) := by
    exact_mod_cast Nat.lt_log2_self (n := num)
  have low' : ((2 : ℚ) ^ (den.log2 : Int)) ≤ den := by
    rw [zpow_natCast]; exact_mod_cast Nat.log2_self_le hden.ne'
  have high' : (den : ℚ) < (2 : ℚ) ^ ((den.log2 : Int) + 1) := by
    exact_mod_cast Nat.lt_log2_self (n := den)
  have below : (num : ℚ) / den < (2 : ℚ) ^ ((num.log2 : Int) - den.log2 + 1) := by
    rw [div_lt_iff₀ hdenq]
    calc (num : ℚ) < (2 : ℚ) ^ ((num.log2 : Int) + 1) := high
      _ = (2 : ℚ) ^ ((num.log2 : Int) - den.log2 + 1) * (2 : ℚ) ^ (den.log2 : Int) := by
        rw [← zpow_add₀ (by norm_num)]
        congr 1
        omega
      _ ≤ (2 : ℚ) ^ ((num.log2 : Int) - den.log2 + 1) * den :=
        mul_le_mul_of_nonneg_left low' (two_zpow_pos _).le
  have above : (2 : ℚ) ^ ((num.log2 : Int) - den.log2 - 1) ≤ (num : ℚ) / den := by
    rw [le_div_iff₀ hdenq]
    calc (2 : ℚ) ^ ((num.log2 : Int) - den.log2 - 1) * den
        ≤ (2 : ℚ) ^ ((num.log2 : Int) - den.log2 - 1) * (2 : ℚ) ^ ((den.log2 : Int) + 1) :=
        mul_le_mul_of_nonneg_left high'.le (two_zpow_pos _).le
      _ = (2 : ℚ) ^ (num.log2 : Int) := by
        rw [← zpow_add₀ (by norm_num)]
        congr 1
        omega
      _ ≤ num := low
  -- which of the two steps it lies in is what the comparison decides
  unfold floorLog2
  simp only [scaleDown_le_iff hden]
  split
  · rename_i reached
    exact ⟨reached, below⟩
  · rename_i missed
    refine ⟨above, ?_⟩
    rw [sub_add_cancel]
    exact not_le.mp missed

/-! ## 2. Rounding a ratio -/

theorem roundHalfEven_mul {n den : Nat} (hden : 0 < den) : roundHalfEven (n * den) den = n := by
  unfold roundHalfEven
  simp only [Nat.mul_div_cancel n hden, Nat.mul_mod_left]
  rw [if_pos (.inl (by omega))]

theorem roundHalfEven_of_lt_half {num den : Nat} (small : 2 * num < den) :
    roundHalfEven num den = 0 := by
  unfold roundHalfEven
  simp only [Nat.div_eq_of_lt (show num < den by omega), Nat.mod_eq_of_lt (show num < den by omega)]
  rw [if_pos (.inl small)]

namespace Binary64

/-- The parts that a positive magnitude rounds to, before a carry is put right. -/
def roundedParts (q : ℚ) : Nat × Int :=
  let exponent := max (-1074) (floorLog2 q.num.natAbs q.den - 52)
  let (a, b) := scaleDown 2 q.num.natAbs q.den exponent
  (roundHalfEven a b, exponent)

theorem ofRat_of_pos (negative : Bool) {q : ℚ} (hq : 0 < q) :
    ofRat negative q =
      if (roundedParts q).1 = 2 * leadingBit then pack negative leadingBit ((roundedParts q).2 + 1)
      else pack negative (roundedParts q).1 (roundedParts q).2 := by
  have some_num : q.num.natAbs ≠ 0 := by
    have := Rat.num_pos.mpr hq
    omega
  unfold ofRat
  simp only [if_neg some_num]
  rfl

theorem natAbs_num_div_den {q : ℚ} (hq : 0 < q) : (q.num.natAbs : ℚ) / q.den = q := by
  have nonneg := (Rat.num_pos.mpr hq).le
  have cast : (q.num.natAbs : ℚ) = (q.num : ℚ) := by
    rw [← Int.cast_natCast, Int.natAbs_of_nonneg nonneg]
  rw [cast, Rat.num_div_den]

/-- A magnitude is the significand times the power. -/
theorem magnitude_eq (base significand : Nat) (exponent : Int) :
    magnitude base significand exponent = significand * (base : ℚ) ^ exponent := by
  unfold magnitude
  split
  · rename_i nonneg
    obtain ⟨n, rfl⟩ := Int.eq_ofNat_of_zero_le nonneg
    rw [Rat.mkRat_eq_div]
    simp
  · rename_i negative
    obtain ⟨n, hn⟩ := Int.eq_ofNat_of_zero_le (a := -exponent) (by omega)
    obtain rfl : exponent = -(n : Int) := by omega
    rw [Rat.mkRat_eq_div]
    simp [div_eq_mul_inv]

theorem floorLog2_spec_of_pos {q : ℚ} (hq : 0 < q) :
    (2 : ℚ) ^ floorLog2 q.num.natAbs q.den ≤ q ∧
      q < (2 : ℚ) ^ (floorLog2 q.num.natAbs q.den + 1) := by
  have hnum : 0 < q.num.natAbs := by
    have := Rat.num_pos.mpr hq
    omega
  have spec := floorLog2_spec hnum q.den_pos
  rwa [natAbs_num_div_den hq] at spec

/-- A canonical significand and exponent are recovered from their value: at its own exponent the
scaled ratio is the significand. -/
theorem roundedParts_eq {q : ℚ} {significand : Nat} {exponent : Int}
    (canonical : Canonical significand exponent) (hq : 0 < q)
    (value : q = significand * (2 : ℚ) ^ exponent) :
    roundedParts q = (significand, exponent) := by
  obtain ⟨small, least, -, normal⟩ := canonical
  obtain ⟨low, high⟩ := floorLog2_spec_of_pos hq
  have one_lt : (1 : ℚ) < 2 := by norm_num
  have upper : floorLog2 q.num.natAbs q.den < exponent + 53 := by
    apply (zpow_lt_zpow_iff_right₀ one_lt).mp
    apply lt_of_le_of_lt low
    have fits : (significand : ℚ) < ((2 * leadingBit : Nat) : ℚ) := by exact_mod_cast small
    calc q = (2 : ℚ) ^ exponent * significand := by rw [value, mul_comm]
      _ < (2 : ℚ) ^ exponent * ((2 * leadingBit : Nat) : ℚ) :=
        mul_lt_mul_of_pos_left fits (two_zpow_pos exponent)
      _ = (2 : ℚ) ^ (exponent + 53) := by
        rw [zpow_add₀ (by norm_num)]
        norm_num [leadingBit]
  -- the leading bit of the significand fixes the logarithm, unless the exponent is the least
  have same : max (-1074) (floorLog2 q.num.natAbs q.den - 52) = exponent := by
    rcases normal with normal | rfl
    · have lower : exponent + 52 < floorLog2 q.num.natAbs q.den + 1 := by
        apply (zpow_lt_zpow_iff_right₀ one_lt).mp
        apply lt_of_le_of_lt _ high
        have leading : ((leadingBit : Nat) : ℚ) ≤ significand := by exact_mod_cast normal
        calc (2 : ℚ) ^ (exponent + 52) = (2 : ℚ) ^ exponent * ((leadingBit : Nat) : ℚ) := by
              rw [zpow_add₀ (by norm_num)]
              norm_num [leadingBit]
          _ ≤ (2 : ℚ) ^ exponent * significand :=
            mul_le_mul_of_nonneg_left leading (two_zpow_pos exponent).le
          _ = q := by rw [value, mul_comm]
      omega
    · omega
  -- at its own exponent the scaled ratio is whole, so nothing is rounded off
  unfold roundedParts
  simp only [same]
  obtain ⟨hpos, scaled⟩ := scaleDown_spec q.num.natAbs (show 0 < 2 by decide)
    q.den_pos exponent
  have hposq : ((scaleDown 2 q.num.natAbs q.den exponent).2 : ℚ) ≠ 0 := by
    exact_mod_cast hpos.ne'
  have back : q / (2 : ℚ) ^ exponent = significand := by
    rw [div_eq_iff (two_zpow_pos exponent).ne', value]
  rw [natAbs_num_div_den hq, Nat.cast_ofNat, back, div_eq_iff hposq] at scaled
  have exactly : (scaleDown 2 q.num.natAbs q.den exponent).1 =
      significand * (scaleDown 2 q.num.natAbs q.den exponent).2 := by exact_mod_cast scaled
  rw [exactly, roundHalfEven_mul hpos]

/-- A number of the format rounds to itself. -/
theorem ofRat_magnitude (negative : Bool) {significand : Nat} {exponent : Int}
    (canonical : Canonical significand exponent) (positive : 0 < significand) :
    ofRat negative (magnitude 2 significand exponent) = pack negative significand exponent := by
  have value : magnitude 2 significand exponent = significand * (2 : ℚ) ^ exponent := by
    rw [magnitude_eq, Nat.cast_ofNat]
  have hsig : (0 : ℚ) < significand := by exact_mod_cast positive
  have hq : 0 < magnitude 2 significand exponent := by
    rw [value]
    exact mul_pos hsig (two_zpow_pos exponent)
  have fits : significand ≠ 2 * leadingBit := canonical.1.ne
  rw [ofRat_of_pos negative hq, roundedParts_eq canonical hq value, if_neg fits]

/-- Magnitudes beyond the format round to an infinity. -/
theorem ofRat_of_large (negative : Bool) {q : ℚ} (large : (2 : ℚ) ^ (1024 : Int) ≤ q) :
    ofRat negative q = infinity negative := by
  have hq : 0 < q := lt_of_lt_of_le (two_zpow_pos _) large
  have bound : 1024 < floorLog2 q.num.natAbs q.den + 1 :=
    (zpow_lt_zpow_iff_right₀ (by norm_num)).mp (lt_of_le_of_lt large (floorLog2_spec_of_pos hq).2)
  have beyond : 971 < (roundedParts q).2 := by
    show 971 < max (-1074) (floorLog2 q.num.natAbs q.den - 52)
    omega
  -- a carry only makes the exponent larger
  have unfit : ∀ significand exponent, 971 < exponent →
      pack negative significand exponent = infinity negative := by
    intro significand exponent h
    unfold pack
    rw [dif_neg]
    rintro ⟨-, -, most, -⟩
    omega
  rw [ofRat_of_pos negative hq]
  split
  · exact unfit _ _ (by omega)
  · exact unfit _ _ beyond

/-- Magnitudes below half of the least positive number round to zero. -/
theorem ofRat_of_small (negative : Bool) {q : ℚ} (hq : 0 < q)
    (small : q < (2 : ℚ) ^ (-1075 : Int)) : ofRat negative q = zero negative := by
  have bound : floorLog2 q.num.natAbs q.den < -1075 :=
    (zpow_lt_zpow_iff_right₀ (by norm_num)).mp (lt_of_le_of_lt (floorLog2_spec_of_pos hq).1 small)
  have least : max (-1074) (floorLog2 q.num.natAbs q.den - 52) = -1074 := by omega
  have parts : roundedParts q = (0, -1074) := by
    unfold roundedParts
    simp only [least]
    obtain ⟨hpos, scaled⟩ := scaleDown_spec q.num.natAbs (show 0 < 2 by decide)
      q.den_pos (-1074)
    have hposq : (0 : ℚ) < (scaleDown 2 q.num.natAbs q.den (-1074)).2 := by exact_mod_cast hpos
    -- at the least exponent the scaled ratio is below one half, which rounds to nothing
    have half : q / (2 : ℚ) ^ (-1074 : Int) < 1 / 2 := by
      rw [div_lt_iff₀ (two_zpow_pos _)]
      calc q < (2 : ℚ) ^ (-1075 : Int) := small
        _ = (2 : ℚ) ^ (-1 + -1074 : Int) := by norm_num
        _ = 1 / 2 * (2 : ℚ) ^ (-1074 : Int) := by
          rw [zpow_add₀ (by norm_num)]
          norm_num
    rw [natAbs_num_div_den hq, Nat.cast_ofNat] at scaled
    rw [← scaled, div_lt_div_iff₀ hposq (by norm_num), one_mul] at half
    have below : 2 * (scaleDown 2 q.num.natAbs q.den (-1074)).1 <
        (scaleDown 2 q.num.natAbs q.den (-1074)).2 := by
      rw [mul_comm]
      exact_mod_cast half
    rw [roundHalfEven_of_lt_half below]
  rw [ofRat_of_pos negative hq, parts, if_neg (by decide)]
  unfold pack zero
  rw [dif_pos]

/-! ## 3. Decimals -/

/-- Ten is more than two cubed. -/
theorem two_pow_le_ten_pow (n : Nat) : (2 : ℚ) ^ (3 * n) ≤ (10 : ℚ) ^ n := by
  rw [pow_mul]
  exact pow_le_pow_left₀ (by norm_num) (by norm_num) n

/-- A decimal with a large exponent exceeds the format. -/
theorem two_zpow_le_of_large {digits : Nat} {exponent : Int} (some_digit : digits ≠ 0)
    (large : 400 < exponent) : (2 : ℚ) ^ (1024 : Int) ≤ digits * (10 : ℚ) ^ exponent := by
  have one_le : (1 : ℚ) ≤ digits := by exact_mod_cast Nat.one_le_iff_ne_zero.mpr some_digit
  calc (2 : ℚ) ^ (1024 : Int) ≤ (2 : ℚ) ^ ((3 * 401 : Nat) : Int) :=
        zpow_le_zpow_right₀ (by norm_num) (by omega)
    _ ≤ (10 : ℚ) ^ ((401 : Nat) : Int) := by
      rw [zpow_natCast, zpow_natCast]
      exact two_pow_le_ten_pow 401
    _ ≤ (10 : ℚ) ^ exponent := zpow_le_zpow_right₀ (by norm_num) (by omega)
    _ ≤ digits * (10 : ℚ) ^ exponent := le_mul_of_one_le_left (zpow_nonneg (by norm_num) _) one_le

/-- A decimal whose exponent outweighs its digits is below half of the least positive number. -/
theorem lt_two_zpow_of_small {digits : Nat} {exponent : Int}
    (small : exponent < -(401 + Nat.log2 digits)) :
    digits * (10 : ℚ) ^ exponent < (2 : ℚ) ^ (-1075 : Int) := by
  have high : (digits : ℚ) < (10 : ℚ) ^ ((digits.log2 : Int) + 1) := by
    have binary : (digits : ℚ) < (2 : ℚ) ^ (digits.log2 + 1) := by
      exact_mod_cast Nat.lt_log2_self (n := digits)
    calc (digits : ℚ) < (2 : ℚ) ^ (digits.log2 + 1) := binary
      _ ≤ (10 : ℚ) ^ (digits.log2 + 1) := pow_le_pow_left₀ (by norm_num) (by norm_num) _
      _ = (10 : ℚ) ^ ((digits.log2 : Int) + 1) := by norm_cast
  calc digits * (10 : ℚ) ^ exponent
      < (10 : ℚ) ^ ((digits.log2 : Int) + 1) * (10 : ℚ) ^ exponent :=
        mul_lt_mul_of_pos_right high (zpow_pos (by norm_num) _)
    _ = (10 : ℚ) ^ ((digits.log2 : Int) + 1 + exponent) := by rw [← zpow_add₀ (by norm_num)]
    _ ≤ (10 : ℚ) ^ (-401 : Int) := zpow_le_zpow_right₀ (by norm_num) (by omega)
    _ = ((10 : ℚ) ^ 401)⁻¹ := by rw [zpow_neg]; norm_cast
    _ ≤ ((2 : ℚ) ^ (3 * 401))⁻¹ := inv_anti₀ (by positivity) (two_pow_le_ten_pow 401)
    _ = (2 : ℚ) ^ (-(3 * 401) : Int) := by rw [zpow_neg]; norm_cast
    _ < (2 : ℚ) ^ (-1075 : Int) := zpow_lt_zpow_right₀ (by norm_num) (by omega)

/-- What a decimal is read as depends on its value alone. -/
theorem ofDecimal_eq_ofRat (negative : Bool) (digits : Nat) (exponent : Int) :
    ofDecimal negative digits exponent = ofRat negative (magnitude 10 digits exponent) := by
  have value : magnitude 10 digits exponent = digits * (10 : ℚ) ^ exponent := by
    rw [magnitude_eq, Nat.cast_ofNat]
  -- the bounds on the exponent spare the powers; what they cut off is decided already
  unfold ofDecimal
  split
  · rename_i none
    rw [value, none, Nat.cast_zero, zero_mul]
    rfl
  · rename_i some_digit
    split
    · rename_i large
      rw [ofRat_of_large negative]
      rw [value]
      exact two_zpow_le_of_large some_digit large
    · split
      · rename_i small
        have hdigits : (0 : ℚ) < digits := by exact_mod_cast Nat.pos_of_ne_zero some_digit
        rw [ofRat_of_small negative]
        · rw [value]
          exact mul_pos hdigits (zpow_pos (by norm_num) _)
        · rw [value]
          exact lt_two_zpow_of_small small
      · rfl

/-- Decimals of equal value are read alike. -/
theorem ofDecimal_congr (negative : Bool) {m n : Nat} {e f : Int}
    (same : m * (10 : ℚ) ^ e = n * (10 : ℚ) ^ f) :
    ofDecimal negative m e = ofDecimal negative n f := by
  rw [ofDecimal_eq_ofRat, ofDecimal_eq_ofRat, magnitude_eq, magnitude_eq, Nat.cast_ofNat, same]

end Binary64

end LineDirective
