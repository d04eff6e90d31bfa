import LineDirective.Proofs.Numerals
import LineDirective.Proofs.Rounding

/-!
# Reading floating-point numbers back

Three steps lead from a written number back to it. The decimal that `Decimal.shortest` finds is read
as the number, because the search asks for just that and the exact expansion behind the search is
read as what it equals. Every layout of a decimal denotes its value. And a sign does not change what
a magnitude rounds to. Together: `Binary64.parse_write`.
-/

namespace LineDirective

/-! ## 1. The shortest decimal -/

namespace Decimal

/-- Taking trailing zeros off does not change the value. -/
theorem value_trim (d : Decimal) :
    (d.trim.digits : ℚ) * (10 : ℚ) ^ d.trim.exponent = d.digits * (10 : ℚ) ^ d.exponent := by
  fun_induction trim d with
  | case1 d h => rfl
  | case2 d h ih =>
    have tenfold : d.digits = d.digits / 10 * 10 := by omega
    rw [ih, zpow_add₀ (by norm_num), zpow_one]
    conv_rhs => rw [tenfold]
    push_cast
    ring

theorem readsBack_of_withDigits? {significand : Nat} {exponent : Int} {count : Nat} {d : Decimal}
    (h : withDigits? significand exponent count = some d) :
    readsBack significand exponent d = true := by
  unfold withDigits? at h
  simp only at h
  split at h
  · rename_i below above
    obtain rfl := Option.some.inj h
    split
    · exact below
    · exact above
  · rename_i below _
    obtain rfl := Option.some.inj h
    exact below
  · rename_i _ above
    obtain rfl := Option.some.inj h
    exact above
  · cases h

/-- The exact expansion has the value of the number: two times five is ten. -/
theorem value_exact (significand : Nat) (exponent : Int) :
    ((exact significand exponent).digits : ℚ) * (10 : ℚ) ^ (exact significand exponent).exponent =
      significand * (2 : ℚ) ^ exponent := by
  unfold exact
  split
  · rename_i nonneg
    obtain ⟨n, rfl⟩ := Int.eq_ofNat_of_zero_le nonneg
    simp
  · rename_i negative
    obtain ⟨n, hn⟩ := Int.eq_ofNat_of_zero_le (a := -exponent) (by omega)
    obtain rfl : exponent = -(n : Int) := by omega
    have ten : (10 : ℚ) = 2 * 5 := by norm_num
    simp only [neg_neg, Int.toNat_natCast, Nat.pow_eq, Nat.cast_mul, Nat.cast_pow, Nat.cast_ofNat,
      zpow_neg, zpow_natCast, ten, mul_pow, mul_inv]
    field_simp

/-- The shortest decimal of a positive number of the format is read as it. -/
theorem ofDecimal_shortest {significand : Nat} {exponent : Int}
    (canonical : Canonical significand exponent) (positive : 0 < significand) :
    Binary64.ofDecimal false (shortest significand exponent).digits
      (shortest significand exponent).exponent = Binary64.pack false significand exponent := by
  rw [shortest, Binary64.ofDecimal_congr false (value_trim _)]
  -- a candidate has been tested by reading it back; only the exact expansion needs an argument
  cases found : (List.range' 1 17).findSome? (withDigits? significand exponent) with
  | some d =>
    obtain ⟨count, -, chosen⟩ := List.exists_of_findSome?_eq_some found
    have back := readsBack_of_withDigits? chosen
    simpa [readsBack] using back
  | none =>
    have value : Binary64.magnitude 2 significand exponent =
        Binary64.magnitude 10 (exact significand exponent).digits
          (exact significand exponent).exponent := by
      rw [Binary64.magnitude_eq, Binary64.magnitude_eq]
      exact_mod_cast (value_exact significand exponent).symm
    rw [Option.getD_none, Binary64.ofDecimal_eq_ofRat, ← value,
      Binary64.ofRat_magnitude false canonical positive]

end Decimal

/-! ## 2. Layouts -/

namespace Number

theorem decimal?_point (negative : Bool) {whole fraction : Text} (after : Text)
    (digits : isDigits whole = true) (digits' : fraction.all CodePoint.isDecimalDigit = true)
    (stops : after.head?.any CodePoint.isDecimalDigit = false) :
    decimal? negative (whole ++ .scalar '.' :: (fraction ++ after)) =
      (exponent? after).map fun e =>
        .ofDecimal negative (digitsValue (whole ++ fraction)) (e - fraction.length) := by
  obtain ⟨some_digit, all_digits⟩ := isDigits_iff.mp digits
  obtain ⟨first, rest⟩ := split_digits (.scalar '.' :: (fraction ++ after)) all_digits
    (show CodePoint.isDecimalDigit (.scalar '.') = false by decide)
  obtain ⟨second, left⟩ := split_digits after digits' stops
  unfold decimal?
  simp only [first, rest, second, left, some_digit, Bool.false_and]
  rfl

theorem decimal?_exponent (negative : Bool) {whole rest : Text} (digits : isDigits whole = true) :
    decimal? negative (whole ++ .scalar 'e' :: rest) =
      (exponent? (.scalar 'e' :: rest)).map fun e => .ofDecimal negative (digitsValue whole) e := by
  obtain ⟨some_digit, all_digits⟩ := isDigits_iff.mp digits
  obtain ⟨first, left⟩ := split_digits (.scalar 'e' :: rest) all_digits
    (show CodePoint.isDecimalDigit (.scalar 'e') = false by decide)
  unfold decimal?
  simp only [first, left, some_digit, Bool.false_and]
  show (exponent? (.scalar 'e' :: rest)).map (fun e => Binary64.ofDecimal negative
    (digitsValue (whole ++ [])) (e - ([] : Text).length)) = _
  simp only [List.append_nil, List.length_nil, Int.natCast_zero, Int.sub_zero]

/-- Digits on both sides of a point, without an exponent. -/
theorem parse_point (negative : Bool) (whole fraction : Text) (digits : isDigits whole = true)
    (digits' : fraction.all CodePoint.isDecimalDigit = true) :
    parse (Text.signed negative (whole ++ .scalar '.' :: fraction)) =
      .ok (some (.real (.ofDecimal negative (digitsValue (whole ++ fraction))
        (-fraction.length)))) := by
  have read := decimal?_point negative [] digits digits' rfl
  rw [List.append_nil] at read
  rw [parse_decimal negative digits (.inl rfl), read]
  show Except.ok (some (Number.real (.ofDecimal negative _ (0 - (fraction.length : Int))))) = _
  rw [Int.zero_sub]

end Number

namespace RealFormat

open Number

theorem exponent?_exponentText (f : RealFormat) (e : Int) :
    exponent? (.scalar 'e' :: f.exponentText e) = some e := by
  have padded : ∀ k, isDigits (List.replicate k (.scalar '0') ++ Text.ofNat e.natAbs) = true := by
    intro k
    have some_digit := Text.ofNat_ne_nil e.natAbs
    rw [isDigits_iff, List.all_append, all_zeros, Text.all_ofNat]
    simp [some_digit]
  have value : ∀ k, digitsValue (List.replicate k (.scalar '0') ++ Text.ofNat e.natAbs) =
      e.natAbs := by
    intro k
    rw [digitsValue_append _ (Text.all_ofNat _), digitsValue_zeros, digitsValue_ofNat]
    omega
  have signed := signed_natAbs e
  unfold exponent? exponentText
  by_cases negative : e < 0
  · simp only [negative, decide_true, if_true] at signed ⊢
    simp [IntegerLiteral.splitSign, padded, value, signed]
  · simp only [negative, decide_false, if_false] at signed ⊢
    simp [IntegerLiteral.splitSign, padded, value, signed]

/-- A mantissa with an exponent: the point stands after the first digit, if more follow. -/
theorem parse_scientific (f : RealFormat) (negative : Bool) {t : Text} (digits : isDigits t = true)
    (lead : Int) :
    parse (Text.signed negative (mantissa t ++ .scalar 'e' :: f.exponentText lead)) =
      .ok (some (.real (.ofDecimal negative (digitsValue t) (lead - (t.length - 1))))) := by
  obtain ⟨some_digit, all_digits⟩ := isDigits_iff.mp digits
  have power := exponent?_exponentText f lead
  cases t with
  | nil => cases some_digit
  | cons d rest =>
    simp only [List.all_cons, Bool.and_eq_true] at all_digits
    have first : isDigits [d] = true := by simp [isDigits, all_digits.1]
    cases rest with
    | nil =>
      show parse (Text.signed negative ([d] ++ .scalar 'e' :: f.exponentText lead)) = _
      rw [parse_decimal negative first (.inr rfl), decimal?_exponent negative first, power]
      simp
    | cons d' more =>
      have split : mantissa (d :: d' :: more) ++ .scalar 'e' :: f.exponentText lead =
          [d] ++ .scalar '.' :: ((d' :: more) ++ .scalar 'e' :: f.exponentText lead) := rfl
      rw [split, parse_decimal negative first (.inl rfl),
        decimal?_point negative (.scalar 'e' :: f.exponentText lead) first all_digits.2
          (show CodePoint.isDecimalDigit (.scalar 'e') = false by decide), power]
      simp

/-- Every layout of a decimal denotes its value. -/
theorem parse_write (f : RealFormat) (negative : Bool) (d : Decimal) :
    parse (Text.signed negative (f.write d)) =
      .ok (some (.real (.ofDecimal negative d.digits d.exponent))) := by
  have digits := isDigits_ofNat d.digits
  have value := digitsValue_ofNat d.digits
  have some_digit := List.length_pos_iff.mpr (Text.ofNat_ne_nil d.digits)
  unfold write
  simp only
  generalize Text.ofNat d.digits = t at digits value some_digit ⊢
  obtain ⟨-, all_digits⟩ := isDigits_iff.mp digits
  split
  -- with an exponent
  · rw [parse_scientific f negative digits, value]
    congr 4
    omega
  · split
    · rename_i small
      -- zeros between the point and the digits
      have padded : (List.replicate (-(t.length + d.exponent - 1) - 1).toNat (CodePoint.scalar '0')
          ++ t).all CodePoint.isDecimalDigit = true := by
        rw [List.all_append, all_zeros, all_digits]
        rfl
      have zero : digitsValue [.scalar '0'] = 0 := by decide
      have point := parse_point negative [.scalar '0'] _ (by decide) padded
      rw [digitsValue_append _ padded, digitsValue_append _ all_digits, digitsValue_zeros, zero,
        value, List.length_append, List.length_replicate] at point
      refine point.trans ?_
      congr 4 <;> omega
    · split
      · rename_i _ large whole
        -- zeros between the digits and the point, and one after it
        have padded : isDigits (t ++ List.replicate d.exponent.toNat (.scalar '0')) = true := by
          rw [isDigits_iff, List.all_append, all_zeros, all_digits]
          cases t with
          | nil => cases some_digit
          | cons c rest => exact ⟨rfl, rfl⟩
        have zero : digitsValue [.scalar '0'] = 0 := by decide
        have point := parse_point negative _ [.scalar '0'] padded (by decide)
        rw [digitsValue_append _ (by decide), digitsValue_append _ (all_zeros _),
          digitsValue_zeros, zero, value, List.length_replicate] at point
        refine point.trans ?_
        congr 3
        apply Binary64.ofDecimal_congr
        obtain ⟨n, hn⟩ := Int.eq_ofNat_of_zero_le whole
        rw [hn]
        simp
      · rename_i _ large fractional
        -- the point stands among the digits
        have front : isDigits (t.take (t.length + d.exponent - 1 + 1).toNat) = true := by
          rw [isDigits_iff]
          constructor
          · rw [List.isEmpty_eq_false_iff, ← List.length_pos_iff, List.length_take]
            omega
          · rw [List.all_eq_true] at all_digits ⊢
            exact fun c mem => all_digits c (List.mem_of_mem_take mem)
        have back : (t.drop (t.length + d.exponent - 1 + 1).toNat).all
            CodePoint.isDecimalDigit = true := by
          rw [List.all_eq_true] at all_digits ⊢
          exact fun c mem => all_digits c (List.mem_of_mem_drop mem)
        rw [parse_point negative _ _ front back, List.take_append_drop, value, List.length_drop]
        congr 4
        omega

end RealFormat

/-! ## 3. Written numbers -/

namespace Binary64

/-- The sign takes no part in rounding. -/
theorem ofRat_sign {negative : Bool} {q : ℚ} {significand : Nat} {exponent : Int}
    {canonical : Canonical significand exponent}
    (h : ofRat false q = finite false significand exponent canonical) :
    ofRat negative q = finite negative significand exponent canonical := by
  have packed : ∀ {m : Nat} {e : Int}, pack false m e = finite false significand exponent canonical →
      pack negative m e = finite negative significand exponent canonical := by
    intro m e same
    unfold pack at same ⊢
    split at same
    · rename_i fits
      cases same
      rw [dif_pos fits]
    · cases same
  unfold ofRat at h ⊢
  simp only at h ⊢
  split at h
  · rename_i none
    rw [if_pos none]
    cases h
    rfl
  · rename_i some_num
    rw [if_neg some_num]
    split at h
    · rename_i carry
      rw [if_pos carry]
      exact packed h
    · rename_i fits
      rw [if_neg fits]
      exact packed h

/-- A written floating-point number is read as itself, the two zeros and what is not a number
included. -/
theorem parse_write (x : Binary64) : Number.parse x.write = .ok (some (.real x)) := by
  cases x with
  | nan => decide
  | infinity negative => cases negative <;> decide
  | finite negative significand exponent canonical =>
    show Number.parse (Datum.realFormat.writeFinite negative significand exponent) = _
    unfold RealFormat.writeFinite
    by_cases zero : significand = 0
    · obtain rfl := zero
      obtain rfl : exponent = -1074 := by
        rcases canonical.2.2.2 with leading | least
        · exact absurd leading (by decide)
        · exact least
      have point := Number.parse_point negative [.scalar '0'] [.scalar '0'] (by decide)
        (by decide)
      rw [if_pos rfl]
      exact point
    · have positive : 0 < significand := Nat.pos_of_ne_zero zero
      have found := Decimal.ofDecimal_shortest canonical positive
      rw [pack, dif_pos canonical, ofDecimal_eq_ofRat] at found
      have signed := Datum.realFormat.parse_write negative (Decimal.shortest significand exponent)
      rw [ofDecimal_eq_ofRat, ofRat_sign found] at signed
      rw [if_neg zero]
      exact signed

end Binary64

end LineDirective
