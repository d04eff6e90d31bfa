import LineDirective.Fault
import LineDirective.Number.Binary64
import LineDirective.Number.IntegerLiteral

/-!
# Numbers and their literals

A number is an integer, a ratio or a floating-point number. Which one a token denotes is fixed by
its spelling: `4/2` is a ratio although its value is whole. A token that is no number is a symbol,
so the parser answers `none` for it; a ratio over zero and an overlong numeral are faults.
-/

namespace LineDirective

inductive Number where
  | integer (n : Int)
  | ratio (q : Rat)
  | real (x : Binary64)
deriving DecidableEq, Repr

namespace Number

def named? (token : Text) : Option Binary64 :=
  if token = ("+inf.0" : Text) then some (.infinity false)
  else if token = ("-inf.0" : Text) then some (.infinity true)
  else if token = ("+nan.0" : Text) ∨ token = ("-nan.0" : Text) then some .nan
  else none

/-- The value of decimal digits of any script. -/
def digitsValue (digits : Text) : Nat :=
  numeralValue 10 (digits.filterMap CodePoint.decimalDigit?)

def isDigits (t : Text) : Bool := !t.isEmpty && t.all CodePoint.isDecimalDigit

def integerOf (negative : Bool) (digits : Text) : Except Fault Int :=
  if maxDecimalDigits < digits.length then .error (.numeralTooLong digits.length)
  else .ok (IntegerLiteral.signed negative (digitsValue digits))

/-- The ratio of a signed numerator and a denominator, both given by their digits. -/
def ratioOf (negative : Bool) (numerator denominator : Text) : Except Fault Rat := do
  let n ← integerOf negative numerator
  let d ← integerOf false denominator
  if d = 0 then .error (.zeroDenominator n) else .ok (mkRat n d.toNat)

/-- The exponent part of a decimal literal; an absent one is zero. -/
def exponent? : Text → Option Int
  | [] => some 0
  | e :: rest =>
    if e = .scalar 'e' ∨ e = .scalar 'E' then
      let (negative, digits) := IntegerLiteral.splitSign rest
      if isDigits digits then some (IntegerLiteral.signed negative (digitsValue digits)) else none
    else
      none

/-- A decimal literal: digits with at most one point among them and an optional exponent. -/
def decimal? (negative : Bool) (body : Text) : Option Binary64 :=
  let whole := body.takeWhile CodePoint.isDecimalDigit
  let (fraction, after) :=
    match body.dropWhile CodePoint.isDecimalDigit with
    | .scalar '.' :: rest =>
      (rest.takeWhile CodePoint.isDecimalDigit, rest.dropWhile CodePoint.isDecimalDigit)
    | rest => ([], rest)
  if whole.isEmpty && fraction.isEmpty then none
  else (exponent? after).map fun e =>
    .ofDecimal negative (digitsValue (whole ++ fraction)) (e - fraction.length)

/-- The number that a token denotes in decimal notation, if it denotes one. -/
def parse (token : Text) : Except Fault (Option Number) :=
  match named? token with
  | some x => .ok (some (.real x))
  | none =>
    let (negative, body) := IntegerLiteral.splitSign token
    let whole := body.takeWhile CodePoint.isDecimalDigit
    match body.dropWhile CodePoint.isDecimalDigit with
    -- nothing but digits, or digits on both sides of a slash; all else must be a decimal
    | [] =>
      if whole.isEmpty then .ok none else (integerOf negative whole).map (some ∘ .integer)
    | .scalar '/' :: denominator =>
      if !whole.isEmpty && isDigits denominator then
        (ratioOf negative whole denominator).map (some ∘ .ratio)
      else
        .ok none
    | _ => .ok ((decimal? negative body).map .real)

/-- Whether a token is an optional sign and hexadecimal digits. -/
def isRadixToken (token : Text) : Bool :=
  let (_, body) := IntegerLiteral.splitSign token
  !body.isEmpty && body.all CodePoint.isHexDigit

/-- The number that a token denotes in one of the radixes 2, 8, 10 and 16. Only decimal tokens may
denote something other than an integer. -/
def parseRadix (radix : Nat) (token : Text) : Except Fault (Option Number) :=
  if radix = 10 then parse token
  else if isRadixToken token then .ok ((IntegerLiteral.parse? radix token).map .integer)
  else .ok none

end Number

end LineDirective
