import LineDirective.Text.Quoted

/-!
# Faults

A fault is a failure that is not a complaint about the text being read: a limit is exceeded, a
number has no value, a value cannot be written, or a caller asks for something that is not there.
Faults carry no position.
-/

namespace LineDirective

/-- The causes of failure that carry no position. -/
inductive Fault where
  /-- A ratio literal with denominator zero. -/
  | zeroDenominator (numerator : Int)
  /-- A decimal numeral with more digits than are converted to an integer. -/
  | numeralTooLong (digits : Nat)
  /-- An integer with more decimal digits than are written. -/
  | integerTooLong
  /-- A hex escape whose number does not fit a machine integer. -/
  | codePointOverflow
  /-- A value of the named kind stands where only data can be written. -/
  | notDatum (kind : Text)
  /-- A datum was asked for at the end of the input. -/
  | endOfInput
  /-- A position lies further before the start of a text than the text is long. -/
  | outsideText
  /-- An index does not fit a machine integer. -/
  | indexOverflow
  /-- A directive has no datum at the index asked for. -/
  | noDatumAtIndex
  /-- A handler needs the first word of a directive that has none. -/
  | noFirstWord
  /-- A datum was looked for and is not in the directive. -/
  | absent
  /-- A datum was added to a directive that is already complete. -/
  | alreadyComplete
  /-- The name of a file holds the code point zero. -/
  | nulInName
  /-- The code points of a file name from one place to another have no bytes: they are surrogates,
  the first of which is given. -/
  | surrogatesInName (surrogate : CodePoint) (first last : Nat)
  /-- There is no category of directives with this name. -/
  | noCategory (name : Text)
  /-- The outcome of a run lacks the entry asked for. -/
  | noEntry (name : Text)
  /-- A report was asked for before the settings were known. -/
  | noSettings
deriving DecidableEq, Repr

/-- The largest number of digits in a conversion between decimal text and integer. -/
def maxDecimalDigits : Nat := 4300

def Fault.message : Fault → Text
  | zeroDenominator n => "Fraction(" ++ Text.ofInt n ++ ", 0)"
  | numeralTooLong digits =>
    "Exceeds the limit (" ++ Text.ofNat maxDecimalDigits ++
      " digits) for integer string conversion: value has " ++ Text.ofNat digits ++
      " digits; use sys.set_int_max_str_digits() to increase the limit"
  | integerTooLong =>
    "Exceeds the limit (" ++ Text.ofNat maxDecimalDigits ++
      " digits) for integer string conversion; use sys.set_int_max_str_digits() to increase the limit"
  | codePointOverflow => "Python int too large to convert to C int"
  | notDatum kind => "cannot write " ++ kind ++ " as a datum"
  | endOfInput => "end of input"
  | outsideText => "string index out of range"
  | indexOverflow => "cannot fit 'int' into an index-sized integer"
  | noDatumAtIndex => "tuple index out of range"
  | noFirstWord => "list index out of range"
  | absent => []
  | alreadyComplete => "directive already finalized"
  | nulInName => "embedded null byte"
  | surrogatesInName surrogate first last =>
    let place : Text :=
      if first = last then
        "character " ++ Text.quoted [surrogate] ++ " in position " ++ Text.ofNat first
      else
        "characters in position " ++ Text.ofNat first ++ .scalar '-' :: Text.ofNat last
    "'utf-8' codec can't encode " ++ place ++ ": surrogates not allowed"
  | noCategory name => Text.quoted name ++ " is not a valid DirectiveCategory"
  | noEntry name => Text.quoted name
  | noSettings => "'NoneType' object has no attribute 'whitespace_policy'"

/-- Whether an index fits a machine integer of 64 bits. -/
def fitsIndex (index : Int) : Bool := -0x8000000000000000 ≤ index && index < 0x8000000000000000

end LineDirective
