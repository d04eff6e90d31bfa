/-!
# Binary floating-point numbers

The numbers of the 64-bit binary format: a sign and `significand * 2 ^ exponent` in canonical form,
the two infinities, and one value that is not a number. Canonical form makes the representation
unique, so equality of values here is identity, and the two zeros differ.

`ofRat` rounds a rational number to the nearest number of the format, a half to the even
significand.
-/

namespace LineDirective

def leadingBit : Nat := 0x10000000000000

/-- The significands and exponents of the format: 53 bits, the leading one set unless the exponent
is the least. -/
def Canonical (significand : Nat) (exponent : Int) : Prop :=
  significand < 2 * leadingBit ∧ -1074 ≤ exponent ∧ exponent ≤ 971 ∧
    (leadingBit ≤ significand ∨ exponent = -1074)

instance (significand : Nat) (exponent : Int) : Decidable (Canonical significand exponent) := by
  unfold Canonical
  infer_instance

/-- A number of the 64-bit binary floating-point format. -/
inductive Binary64 where
  | nan
  | infinity (negative : Bool)
  | finite (negative : Bool) (significand : Nat) (exponent : Int)
      (canonical : Canonical significand exponent)
deriving DecidableEq, Repr

/-- The integer nearest to `num / den`, a half going to the even one. -/
def roundHalfEven (num den : Nat) : Nat :=
  let quotient := num / den
  let twice := 2 * (num % den)
  if twice < den ∨ (twice = den ∧ quotient % 2 = 0) then quotient else quotient + 1

/-- The ratio `num / den` divided by `base ^ exponent`, as numerator and denominator. -/
def scaleDown (base num den : Nat) (exponent : Int) : Nat × Nat :=
  if 0 ≤ exponent then (num, den * base.pow exponent.toNat)
  else (num * base.pow (-exponent).toNat, den)

/-- The exponent of the greatest power of two that is at most `num / den`. -/
def floorLog2 (num den : Nat) : Int :=
  let estimate : Int := Nat.log2 num - Nat.log2 den
  let (a, b) := scaleDown 2 num den estimate
  if b ≤ a then estimate else estimate - 1

namespace Binary64

def zero (negative : Bool) : Binary64 := finite negative 0 (-1074) (by decide)

/-- The finite number with these parts, or an infinity if they exceed the format. -/
def pack (negative : Bool) (significand : Nat) (exponent : Int) : Binary64 :=
  if h : Canonical significand exponent then finite negative significand exponent h
  else infinity negative

/-- The number nearest to the magnitude of `q`, with the given sign. -/
def ofRat (negative : Bool) (q : Rat) : Binary64 :=
  let num := q.num.natAbs
  if num = 0 then
    zero negative
  else
    let exponent := max (-1074) (floorLog2 num q.den - 52)
    let (a, b) := scaleDown 2 num q.den exponent
    let significand := roundHalfEven a b
    -- rounding up may carry into one bit more than there is room for
    if significand = 2 * leadingBit then pack negative leadingBit (exponent + 1)
    else pack negative significand exponent

def magnitude (base significand : Nat) (exponent : Int) : Rat :=
  if 0 ≤ exponent then mkRat (significand * base.pow exponent.toNat : Nat) 1
  else mkRat significand (base.pow (-exponent).toNat)

/-- The number nearest to `digits * 10 ^ exponent`. Exponents far outside the format are decided
without forming the power. -/
def ofDecimal (negative : Bool) (digits : Nat) (exponent : Int) : Binary64 :=
  if digits = 0 then zero negative
  else if 400 < exponent then infinity negative
  else if exponent < -(401 + Nat.log2 digits) then zero negative
  else ofRat negative (magnitude 10 digits exponent)

def toRat? : Binary64 → Option Rat
  | finite negative significand exponent _ =>
    let m := magnitude 2 significand exponent
    some (if negative then -m else m)
  | _ => none

end Binary64

end LineDirective
