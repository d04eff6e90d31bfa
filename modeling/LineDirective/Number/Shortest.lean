import LineDirective.Text.Numeral
import LineDirective.Number.Binary64

/-!
# The shortest decimal of a floating-point number

A finite number is written with the fewest significant digits that read back as the same number; of
two decimals with that many digits the nearer is taken, and an exact tie goes to the even digit.
Seventeen digits always suffice. The exact decimal expansion stands behind the search, so that what
is found reads back by construction.

`RealFormat` lays the digits out: positionally for middling exponents, otherwise with an exponent.
-/

namespace LineDirective

structure Decimal where
  digits : Nat
  exponent : Int
deriving DecidableEq, Repr

namespace Decimal

/-- The same number without trailing zeros among its digits. -/
def trim (d : Decimal) : Decimal :=
  if d.digits = 0 ∨ d.digits % 10 ≠ 0 then d else trim ⟨d.digits / 10, d.exponent + 1⟩
termination_by d.digits
decreasing_by exact Nat.div_lt_self (by omega) (by omega)

/-- The number `significand * 2 ^ exponent` exactly: a negative power of two is that power of five
over a power of ten. -/
def exact (significand : Nat) (exponent : Int) : Decimal :=
  if 0 ≤ exponent then ⟨significand * Nat.pow 2 exponent.toNat, 0⟩
  else ⟨significand * Nat.pow 5 (-exponent).toNat, exponent⟩

/-- Whether a decimal is read as the positive number with these parts. -/
def readsBack (significand : Nat) (exponent : Int) (d : Decimal) : Bool :=
  Binary64.ofDecimal false d.digits d.exponent = Binary64.pack false significand exponent

def floorLog10 (num den : Nat) : Int :=
  let estimate : Int := (numeralDigits 10 num).length - (numeralDigits 10 den).length
  let (a, b) := scaleDown 10 num den estimate
  if b ≤ a then estimate else estimate - 1

/-- Of the two decimals with `count` digits next to a number, the one that reads back; the nearer if
both do, and the even one if they are equally near. -/
def withDigits? (significand : Nat) (exponent : Int) (count : Nat) : Option Decimal :=
  let value := Binary64.magnitude 2 significand exponent
  let num := value.num.natAbs
  let grid := floorLog10 num value.den - (count - 1)
  let (a, b) := scaleDown 10 num value.den grid
  let below : Decimal := ⟨a / b, grid⟩
  let above : Decimal := ⟨a / b + 1, grid⟩
  match readsBack significand exponent below, readsBack significand exponent above with
  | true, true => some (if roundHalfEven a b = a / b then below else above)
  | true, false => some below
  | false, true => some above
  | false, false => none

/-- The fewest digits that read back as the number `significand * 2 ^ exponent`. -/
def shortest (significand : Nat) (exponent : Int) : Decimal :=
  (((List.range' 1 17).findSome? (withDigits? significand exponent)).getD
    (exact significand exponent)).trim

end Decimal

structure RealFormat where
  /-- The least exponent of the leading digit that is written positionally. -/
  leastPositional : Int
  /-- The greatest exponent of the leading digit that is written positionally. -/
  greatestPositional : Int
  /-- The least number of digits of a written exponent. -/
  exponentDigits : Nat
deriving DecidableEq, Repr

namespace RealFormat

def mantissa : Text → Text
  | [] => []
  | [d] => [d]
  | d :: more => d :: .scalar '.' :: more

def exponentText (f : RealFormat) (exponent : Int) : Text :=
  let digits := Text.ofNat exponent.natAbs
  .scalar (if exponent < 0 then '-' else '+') ::
    (List.replicate (f.exponentDigits - digits.length) (.scalar '0') ++ digits)

/-- The text of a decimal. A whole number written positionally keeps a zero after its point. -/
def write (f : RealFormat) (d : Decimal) : Text :=
  let digits := Text.ofNat d.digits
  let lead := digits.length + d.exponent - 1
  if lead < f.leastPositional ∨ f.greatestPositional < lead then
    mantissa digits ++ .scalar 'e' :: f.exponentText lead
  else if lead < 0 then
    .scalar '0' :: .scalar '.' :: (List.replicate (-lead - 1).toNat (.scalar '0') ++ digits)
  else if 0 ≤ d.exponent then
    digits ++ List.replicate d.exponent.toNat (.scalar '0') ++ [.scalar '.', .scalar '0']
  else
    digits.take (lead + 1).toNat ++ .scalar '.' :: digits.drop (lead + 1).toNat

def writeFinite (f : RealFormat) (negative : Bool) (significand : Nat) (exponent : Int) : Text :=
  let magnitude : Text :=
    if significand = 0 then "0.0" else f.write (Decimal.shortest significand exponent)
  if negative then .scalar '-' :: magnitude else magnitude

end RealFormat

end LineDirective
