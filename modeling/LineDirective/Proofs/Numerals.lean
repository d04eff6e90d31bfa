import LineDirective.Datum.Writer
import Mathlib.Data.List.Induction
import Mathlib.Tactic.IntervalCases
import Mathlib.Tactic.Ring

/-!
# Reading numerals back

The numeral of a number is made of decimal digits alone and denotes the number, also with zeros put
in front of it. A written integer or ratio is therefore read as the number it was written from
(`Number.parse_integer`, `Number.parse_ratio`): its digits come first after the sign, and what
follows them tells the kinds of numbers apart.
-/

namespace LineDirective

/-! ## 1. Digits -/

theorem CodePoint.decimalDigit?_digit {d : Nat} (small : d < 10) :
    (Text.digit d).decimalDigit? = some d := by
  interval_cases d <;> decide

theorem CodePoint.isDecimalDigit_digit {d : Nat} (small : d < 10) :
    (Text.digit d).isDecimalDigit = true := by
  rw [isDecimalDigit, decimalDigit?_digit small]
  rfl

theorem CodePoint.asciiDigit?_digit {d : Nat} (small : d < 16) :
    (Text.digit d).asciiDigit? = some d := by
  interval_cases d <;> decide

/-! ## 2. Numerals -/

theorem numeralValue_append (base : Nat) (a b : List Nat) :
    numeralValue base (a ++ b) = numeralValue base a * base ^ b.length + numeralValue base b := by
  induction b using List.reverseRecOn with
  | nil => simp [numeralValue]
  | append_singleton b d ih =>
    rw [← List.append_assoc, numeralValue_concat, numeralValue_concat, ih, List.length_append,
      List.length_singleton, Nat.pow_succ]
    ring

theorem numeralDigits_ne_nil {base : Nat} (two : 2 ≤ base) (n : Nat) :
    numeralDigits base n ≠ [] := by
  by_cases h : n < base
  · rw [numeralDigits_of_lt h]
    simp
  · rw [numeralDigits_of_le two (by omega)]
    simp

/-- A number has as many digits as the powers of the base that it reaches. -/
theorem length_numeralDigits_le_iff {base : Nat} (two : 2 ≤ base) (n k : Nat) :
    (numeralDigits base n).length ≤ k + 1 ↔ n < base ^ (k + 1) := by
  induction k generalizing n with
  | zero =>
    rw [Nat.zero_add, Nat.pow_one]
    by_cases h : n < base
    · simp [numeralDigits_of_lt h, h]
    · have some_digit := List.length_pos_iff.mpr (numeralDigits_ne_nil two (n / base))
      rw [numeralDigits_of_le two (by omega), List.length_append, List.length_singleton]
      omega
  | succ k ih =>
    by_cases h : n < base
    · have reached : base ^ 1 ≤ base ^ (k + 1 + 1) := Nat.pow_le_pow_right (by omega) (by omega)
      rw [Nat.pow_one] at reached
      rw [numeralDigits_of_lt h, List.length_singleton]
      omega
    · rw [numeralDigits_of_le two (by omega), List.length_append, List.length_singleton,
        Nat.add_le_add_iff_right, ih, Nat.div_lt_iff_lt_mul (by omega), Nat.pow_succ base (k + 1)]

namespace Text

theorem mem_numeral {base n : Nat} (two : 2 ≤ base) {c : CodePoint} (h : c ∈ numeral base n) :
    ∃ d, d < base ∧ c = digit d := by
  obtain ⟨d, mem, rfl⟩ := List.mem_map.mp h
  exact ⟨d, lt_of_mem_numeralDigits two n mem, rfl⟩

theorem numeral_ne_nil {base : Nat} (two : 2 ≤ base) (n : Nat) : numeral base n ≠ [] := by
  intro h
  exact numeralDigits_ne_nil two n (List.map_eq_nil_iff.mp h)

theorem isDecimalDigit_of_mem_ofNat {n : Nat} {c : CodePoint} (h : c ∈ ofNat n) :
    c.isDecimalDigit = true := by
  obtain ⟨d, small, rfl⟩ := mem_numeral (by decide) h
  exact CodePoint.isDecimalDigit_digit small

theorem all_ofNat (n : Nat) : (ofNat n).all CodePoint.isDecimalDigit = true :=
  List.all_eq_true.mpr fun _ h => isDecimalDigit_of_mem_ofNat h

theorem ofNat_ne_nil (n : Nat) : ofNat n ≠ [] := numeral_ne_nil (by decide) n

theorem length_ofNat_le_iff (n : Nat) {k : Nat} (positive : 0 < k) :
    (ofNat n).length ≤ k ↔ n < 10 ^ k := by
  obtain ⟨k, rfl⟩ := Nat.exists_eq_succ_of_ne_zero positive.ne'
  rw [ofNat, numeral, List.length_map]
  exact length_numeralDigits_le_iff (by decide) n k

def signed (negative : Bool) (t : Text) : Text := if negative then .scalar '-' :: t else t

theorem ofInt_eq_signed (n : Int) : ofInt n = signed (decide (n < 0)) (ofNat n.natAbs) := by
  cases n with
  | ofNat n =>
    have nonneg : ¬ Int.ofNat n < 0 := Int.not_lt.mpr (Int.natCast_nonneg n)
    rw [decide_eq_false nonneg]
    rfl
  | negSucc n =>
    rw [decide_eq_true (Int.negSucc_lt_zero n)]
    rfl

end Text

namespace Number

theorem isDigits_ofNat (n : Nat) : isDigits (Text.ofNat n) = true := by
  have some_digit := Text.ofNat_ne_nil n
  simp [isDigits, Text.all_ofNat, some_digit]

theorem filterMap_numeral {base : Nat} {f : CodePoint → Option Nat}
    (digits : ∀ d, d < base → f (Text.digit d) = some d) (two : 2 ≤ base) (n : Nat) :
    (Text.numeral base n).filterMap f = numeralDigits base n := by
  have below : ∀ d ∈ numeralDigits base n, f (Text.digit d) = some d := fun d mem =>
    digits d (lt_of_mem_numeralDigits two n mem)
  rw [Text.numeral, List.filterMap_map]
  generalize numeralDigits base n = values at below
  induction values with
  | nil => rfl
  | cons d rest ih =>
    have first := below d (List.mem_cons_self ..)
    have others := ih fun x mem => below x (List.mem_cons_of_mem d mem)
    rw [List.filterMap_cons_some (show (f ∘ Text.digit) d = some d from first), others]

/-- The numeral of a number denotes it. -/
theorem digitsValue_ofNat (n : Nat) : digitsValue (Text.ofNat n) = n := by
  rw [digitsValue, Text.ofNat,
    filterMap_numeral (fun _ small => CodePoint.decimalDigit?_digit small) (by decide),
    numeralValue_numeralDigits (by decide)]

theorem length_filterMap_digits {t : Text} (digits : t.all CodePoint.isDecimalDigit = true) :
    (t.filterMap CodePoint.decimalDigit?).length = t.length := by
  induction t with
  | nil => rfl
  | cons c t ih =>
    simp only [List.all_cons, Bool.and_eq_true] at digits
    obtain ⟨d, value⟩ := Option.isSome_iff_exists.mp digits.1
    simp [value, ih digits.2]

/-- Digits after digits shift them up. -/
theorem digitsValue_append (a : Text) {b : Text} (digits : b.all CodePoint.isDecimalDigit = true) :
    digitsValue (a ++ b) = digitsValue a * 10 ^ b.length + digitsValue b := by
  rw [digitsValue, List.filterMap_append, numeralValue_append, length_filterMap_digits digits]
  rfl

theorem digitsValue_zeros (k : Nat) : digitsValue (List.replicate k (.scalar '0')) = 0 := by
  induction k with
  | zero => rfl
  | succ k ih =>
    have zero : digitsValue [.scalar '0'] = 0 := by decide
    rw [List.replicate_succ', digitsValue_append _ (by decide), ih, zero]
    rfl

theorem all_zeros (k : Nat) :
    (List.replicate k (CodePoint.scalar '0')).all CodePoint.isDecimalDigit = true := by
  rw [List.all_replicate]
  have zero : CodePoint.isDecimalDigit (.scalar '0') = true := by decide
  simp [zero]

/-! ## 3. Literals -/

/-- A text that starts with a digit has no sign of its own. -/
theorem splitSign_signed (negative : Bool) {t : Text}
    (leads : t.head?.any CodePoint.isDecimalDigit = true) :
    IntegerLiteral.splitSign (Text.signed negative t) = (negative, t) := by
  cases negative with
  | true => rfl
  | false =>
    cases t with
    | nil => cases leads
    | cons c rest =>
      have digit : c.isDecimalDigit = true := by simpa using leads
      show IntegerLiteral.splitSign (c :: rest) = (false, c :: rest)
      unfold IntegerLiteral.splitSign
      split
      · rename_i same
        cases same
        exact absurd digit (by decide)
      · rename_i same
        cases same
        exact absurd digit (by decide)
      · rfl

/-- A name has a letter where a signed text has a digit. -/
theorem named?_signed (negative : Bool) {t : Text}
    (leads : t.head?.any CodePoint.isDecimalDigit = true) :
    named? (Text.signed negative t) = none := by
  cases t with
  | nil => cases leads
  | cons c rest =>
    have digit : c.isDecimalDigit = true := by simpa using leads
    have other : ∀ x : CodePoint, x.isDecimalDigit = false → c ≠ x := by
      rintro x plain rfl
      rw [digit] at plain
      cases plain
    have letters := other (.scalar 'i') (by decide)
    have letters' := other (.scalar 'n') (by decide)
    have plus := other (.scalar '+') (by decide)
    have minus := other (.scalar '-') (by decide)
    cases negative <;>
      simp [named?, Text.signed, Text.ofString, letters, letters', plus, minus]

theorem isDigits_iff {t : Text} :
    isDigits t = true ↔ t.isEmpty = false ∧ t.all CodePoint.isDecimalDigit = true := by
  simp only [isDigits, Bool.and_eq_true, Bool.not_eq_true']

theorem leads_of_isDigits {whole : Text} (digits : isDigits whole = true) (after : Text) :
    (whole ++ after).head?.any CodePoint.isDecimalDigit = true := by
  obtain ⟨some_digit, all_digits⟩ := isDigits_iff.mp digits
  cases whole with
  | nil => cases some_digit
  | cons c rest =>
    simp only [List.all_cons, Bool.and_eq_true] at all_digits
    simpa using all_digits.1

/-- Where digits end. -/
theorem split_digits {whole : Text} (after : Text) (digits : whole.all CodePoint.isDecimalDigit = true)
    (stops : after.head?.any CodePoint.isDecimalDigit = false) :
    (whole ++ after).takeWhile CodePoint.isDecimalDigit = whole ∧
      (whole ++ after).dropWhile CodePoint.isDecimalDigit = after := by
  have none_left : after.takeWhile CodePoint.isDecimalDigit = [] ∧
      after.dropWhile CodePoint.isDecimalDigit = after := by
    cases after with
    | nil => exact ⟨rfl, rfl⟩
    | cons c rest =>
      have plain : c.isDecimalDigit = false := by simpa using stops
      simp [plain]
  constructor
  · rw [List.takeWhile_append_of_pos (List.all_eq_true.mp digits), none_left.1, List.append_nil]
  · rw [List.dropWhile_append_of_pos (List.all_eq_true.mp digits), none_left.2]

/-- Digits alone are an integer. -/
theorem parse_digits (negative : Bool) {whole : Text} (digits : isDigits whole = true) :
    parse (Text.signed negative whole) = (integerOf negative whole).map (some ∘ .integer) := by
  have leads := leads_of_isDigits digits []
  obtain ⟨some_digit, all_digits⟩ := isDigits_iff.mp digits
  obtain ⟨first, rest⟩ := split_digits [] all_digits rfl
  rw [List.append_nil] at leads first rest
  unfold parse
  simp only [named?_signed negative leads, splitSign_signed negative leads, first, rest,
    some_digit]
  rfl

/-- Digits on both sides of a slash are a ratio. -/
theorem parse_slash (negative : Bool) {numerator denominator : Text}
    (digits : isDigits numerator = true) (digits' : isDigits denominator = true) :
    parse (Text.signed negative (numerator ++ .scalar '/' :: denominator)) =
      (ratioOf negative numerator denominator).map (some ∘ .ratio) := by
  have leads := leads_of_isDigits digits (.scalar '/' :: denominator)
  obtain ⟨some_digit, all_digits⟩ := isDigits_iff.mp digits
  obtain ⟨first, rest⟩ := split_digits (.scalar '/' :: denominator) all_digits
    (show CodePoint.isDecimalDigit (.scalar '/') = false by decide)
  unfold parse
  simp only [named?_signed negative leads, splitSign_signed negative leads, first, rest,
    some_digit, digits']
  rfl

/-- Digits and then a point or an exponent are a decimal. -/
theorem parse_decimal (negative : Bool) {whole rest : Text} {mark : CodePoint}
    (digits : isDigits whole = true) (marked : mark = .scalar '.' ∨ mark = .scalar 'e') :
    parse (Text.signed negative (whole ++ mark :: rest)) =
      .ok ((decimal? negative (whole ++ mark :: rest)).map .real) := by
  have plain : mark.isDecimalDigit = false := by rcases marked with rfl | rfl <;> decide
  have leads := leads_of_isDigits digits (mark :: rest)
  obtain ⟨first, left⟩ := split_digits (mark :: rest) (isDigits_iff.mp digits).2 plain
  unfold parse
  simp only [named?_signed negative leads, splitSign_signed negative leads, first, left]
  rcases marked with rfl | rfl <;> rfl

theorem signed_natAbs (n : Int) :
    IntegerLiteral.signed (decide (n < 0)) n.natAbs = n := by
  unfold IntegerLiteral.signed
  by_cases negative : n < 0
  · simp only [negative, decide_true, if_true]
    omega
  · simp only [negative, decide_false, Bool.false_eq_true, if_false]
    omega

theorem integerOf_ofNat (negative : Bool) {n : Nat}
    (short : (Text.ofNat n).length ≤ maxDecimalDigits) :
    integerOf negative (Text.ofNat n) = .ok (IntegerLiteral.signed negative n) := by
  rw [integerOf, if_neg (Nat.not_lt.mpr short), digitsValue_ofNat]

/-- A written integer is read as itself. -/
theorem parse_integer {n : Int} (short : (Text.ofNat n.natAbs).length ≤ maxDecimalDigits) :
    parse (Text.ofInt n) = .ok (some (.integer n)) := by
  rw [Text.ofInt_eq_signed, parse_digits _ (isDigits_ofNat _), integerOf_ofNat _ short,
    signed_natAbs]
  rfl

/-- A written ratio is read as itself; being in lowest terms, it is not reduced. -/
theorem parse_ratio {q : Rat} (short : (Text.ofNat q.num.natAbs).length ≤ maxDecimalDigits)
    (short' : (Text.ofNat q.den).length ≤ maxDecimalDigits) :
    parse (Text.ofInt q.num ++ .scalar '/' :: Text.ofNat q.den) = .ok (some (.ratio q)) := by
  have same : Text.ofInt q.num ++ .scalar '/' :: Text.ofNat q.den =
      Text.signed (decide (q.num < 0))
        (Text.ofNat q.num.natAbs ++ .scalar '/' :: Text.ofNat q.den) := by
    rw [Text.ofInt_eq_signed]
    cases decide (q.num < 0) <;> rfl
  have nonzero : ((q.den : Nat) : Int) ≠ 0 := by exact_mod_cast q.den_nz
  have ratio : ratioOf (decide (q.num < 0)) (Text.ofNat q.num.natAbs) (Text.ofNat q.den) =
      .ok q := by
    unfold ratioOf
    rw [integerOf_ofNat _ short, integerOf_ofNat _ short', signed_natAbs]
    show (if IntegerLiteral.signed false q.den = 0 then _ else _) = _
    rw [IntegerLiteral.signed, if_neg Bool.false_ne_true, if_neg nonzero, Int.toNat_natCast,
      Rat.mkRat_self]
  rw [same, parse_slash _ (isDigits_ofNat _) (isDigits_ofNat _), ratio]
  rfl

end Number

end LineDirective
