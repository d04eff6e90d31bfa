import LineDirective.Text.CodePoint

/-!
# Digits

Decimal digits are the code points of general category Nd as of Unicode 14.0. They come in runs
that count from zero to nine, some runs directly after one another. Hexadecimal digits proper are
ASCII only.
-/

namespace LineDirective

/-- The first code point of each block of decimal digits, with the number of digits in the block. -/
def decimalDigitBlocks : List (Nat × Nat) := [
  (0x30, 10), (0x660, 10), (0x6f0, 10), (0x7c0, 10), (0x966, 10), (0x9e6, 10), (0xa66, 10),
  (0xae6, 10), (0xb66, 10), (0xbe6, 10), (0xc66, 10), (0xce6, 10), (0xd66, 10), (0xde6, 10),
  (0xe50, 10), (0xed0, 10), (0xf20, 10), (0x1040, 10), (0x1090, 10), (0x17e0, 10), (0x1810, 10),
  (0x1946, 10), (0x19d0, 10), (0x1a80, 10), (0x1a90, 10), (0x1b50, 10), (0x1bb0, 10),
  (0x1c40, 10), (0x1c50, 10), (0xa620, 10), (0xa8d0, 10), (0xa900, 10), (0xa9d0, 10),
  (0xa9f0, 10), (0xaa50, 10), (0xabf0, 10), (0xff10, 10), (0x104a0, 10), (0x10d30, 10),
  (0x11066, 10), (0x110f0, 10), (0x11136, 10), (0x111d0, 10), (0x112f0, 10), (0x11450, 10),
  (0x114d0, 10), (0x11650, 10), (0x116c0, 10), (0x11730, 10), (0x118e0, 10), (0x11950, 10),
  (0x11c50, 10), (0x11d50, 10), (0x11da0, 10), (0x16a60, 10), (0x16ac0, 10), (0x16b50, 10),
  (0x1d7ce, 50), (0x1e140, 10), (0x1e2f0, 10), (0x1e950, 10), (0x1fbf0, 10)]

/-- The value of a number's digit in sorted blocks whose digits count up from zero, modulo ten. -/
def digitInBlocks? (n : Nat) : List (Nat × Nat) → Option Nat
  | [] => none
  | (first, count) :: rest =>
    if n < first then none
    else if n < first + count then some ((n - first) % 10)
    else digitInBlocks? n rest

namespace CodePoint

/-- The value of a decimal digit of any script. -/
def decimalDigit? (c : CodePoint) : Option Nat := digitInBlocks? c.toNat decimalDigitBlocks

def isDecimalDigit (c : CodePoint) : Bool := c.decimalDigit?.isSome

/-- The value of an ASCII digit or letter as a digit: letters of either case count from ten. -/
def asciiDigit? : CodePoint → Option Nat
  | .scalar c =>
    if '0' ≤ c ∧ c ≤ '9' then some (c.toNat - '0'.toNat)
    else if 'a' ≤ c ∧ c ≤ 'z' then some (c.toNat - 'a'.toNat + 10)
    else if 'A' ≤ c ∧ c ≤ 'Z' then some (c.toNat - 'A'.toNat + 10)
    else none
  | .surrogate _ => none

def isHexDigit (c : CodePoint) : Bool :=
  match c.asciiDigit? with
  | some d => d < 16
  | none => false

end CodePoint

end LineDirective
