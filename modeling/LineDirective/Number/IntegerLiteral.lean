import LineDirective.Text.Digit
import LineDirective.Text.Numeral

/-!
# Integer literals

The liberal notation for integers in hex escapes and radix numbers: an optional sign, an optional
base mark such as `0x` with at most one underscore after it, then digits of the base with single
underscores allowed between them. Decimal digits of every script count as the ASCII digit of the
same value.
-/

namespace LineDirective.IntegerLiteral

/-- The ASCII form of a decimal digit; other code points stay. -/
def asciiForm (c : CodePoint) : CodePoint :=
  match c.decimalDigit? with
  | some d => Text.digit d
  | none => c

/-- Splits off a leading sign; true for minus. -/
def splitSign : Text → Bool × Text
  | .scalar '-' :: rest => (true, rest)
  | .scalar '+' :: rest => (false, rest)
  | t => (false, t)

def isMarkLetter (base : Nat) (c : CodePoint) : Bool :=
  match base with
  | 2 => c = .scalar 'b' || c = .scalar 'B'
  | 8 => c = .scalar 'o' || c = .scalar 'O'
  | 16 => c = .scalar 'x' || c = .scalar 'X'
  | _ => false

def dropUnderscore : Text → Text
  | .scalar '_' :: rest => rest
  | t => t

/-- Removes the mark of a base, a zero and the letter of the base, and one underscore after it. -/
def dropMark (base : Nat) : Text → Text
  | .scalar '0' :: letter :: rest =>
    if isMarkLetter base letter then dropUnderscore rest
    else .scalar '0' :: letter :: rest
  | t => t

def digitBelow? (base : Nat) (c : CodePoint) : Option Nat :=
  c.asciiDigit?.filter (· < base)

/-- The values of at least one digit with single underscores between digits; `afterDigit` says that
the last code point was a digit. -/
def groupedDigits? (base : Nat) : Bool → Text → Option (List Nat)
  | afterDigit, [] => if afterDigit then some [] else none
  | afterDigit, c :: rest =>
    match digitBelow? base c with
    | some d => (groupedDigits? base true rest).map (d :: ·)
    | none =>
      if afterDigit ∧ c = .scalar '_' then groupedDigits? base false rest else none

def signed (negative : Bool) (magnitude : Nat) : Int :=
  if negative then -magnitude else magnitude

/-- The integer that a literal denotes in a base. -/
def parse? (base : Nat) (t : Text) : Option Int :=
  let (negative, body) := splitSign (t.map asciiForm)
  (groupedDigits? base false (dropMark base body)).map fun digits =>
    signed negative (numeralValue base digits)

end LineDirective.IntegerLiteral
