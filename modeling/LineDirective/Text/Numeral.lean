import LineDirective.Text.CodePoint

/-!
# Positional numerals

The digits of a number in a base, most significant first, and the number that digits denote:
`numeralValue_numeralDigits` says that the digits of a number denote it.
-/

namespace LineDirective

/-- The number that digits denote in a base, most significant digit first. -/
def numeralValue (base : Nat) (digits : List Nat) : Nat :=
  digits.foldl (fun value d => value * base + d) 0

def digitsOnto (base n : Nat) (acc : List Nat) : List Nat :=
  if n < base ∨ base < 2 then n :: acc else digitsOnto base (n / base) (n % base :: acc)
termination_by n
decreasing_by exact Nat.div_lt_self (by omega) (by omega)

/-- The digits of a number in a base of at least two, without leading zeros. -/
def numeralDigits (base n : Nat) : List Nat := digitsOnto base n []

/-! ## Digits and values -/

theorem numeralValue_concat (base : Nat) (digits : List Nat) (d : Nat) :
    numeralValue base (digits ++ [d]) = numeralValue base digits * base + d := by
  simp [numeralValue]

theorem digitsOnto_append (base n : Nat) (acc more : List Nat) :
    digitsOnto base n (acc ++ more) = digitsOnto base n acc ++ more := by
  fun_induction digitsOnto base n acc with
  | case1 n acc h => rw [digitsOnto, if_pos h]; rfl
  | case2 n acc h ih =>
    rw [digitsOnto, if_neg h]
    exact ih

theorem numeralDigits_of_lt {base n : Nat} (h : n < base) : numeralDigits base n = [n] := by
  rw [numeralDigits, digitsOnto, if_pos (.inl h)]

theorem numeralDigits_of_le {base n : Nat} (two : 2 ≤ base) (h : base ≤ n) :
    numeralDigits base n = numeralDigits base (n / base) ++ [n % base] := by
  rw [numeralDigits, digitsOnto, if_neg (by omega)]
  exact digitsOnto_append base (n / base) [] [n % base]

/-- The digits of a number denote it. -/
theorem numeralValue_numeralDigits {base : Nat} (two : 2 ≤ base) (n : Nat) :
    numeralValue base (numeralDigits base n) = n := by
  induction n using Nat.strongRecOn with
  | ind n ih =>
    by_cases h : n < base
    · rw [numeralDigits_of_lt h]
      simp [numeralValue]
    · rw [numeralDigits_of_le two (by omega), numeralValue_concat,
        ih _ (Nat.div_lt_self (by omega) two)]
      rw [Nat.mul_comm]
      exact Nat.div_add_mod n base

theorem lt_of_mem_numeralDigits {base : Nat} (two : 2 ≤ base) (n : Nat) {d : Nat}
    (h : d ∈ numeralDigits base n) : d < base := by
  induction n using Nat.strongRecOn with
  | ind n ih =>
    by_cases small : n < base
    · rw [numeralDigits_of_lt small, List.mem_singleton] at h
      omega
    · rw [numeralDigits_of_le two (by omega), List.mem_append, List.mem_singleton] at h
      rcases h with h | h
      · exact ih _ (Nat.div_lt_self (by omega) two) h
      · rw [h]
        exact Nat.mod_lt n (by omega)

/-! ## Texts of numbers -/

namespace Text

def digit (d : Nat) : CodePoint := .scalar (Nat.digitChar d)

def numeral (base n : Nat) : Text := (numeralDigits base n).map digit

def ofNat (n : Nat) : Text := numeral 10 n

/-- The text of an integer in decimal notation, with a minus sign where it is negative. -/
def ofInt : Int → Text
  | .ofNat n => ofNat n
  | .negSucc n => .scalar '-' :: ofNat (n + 1)

end Text

end LineDirective
