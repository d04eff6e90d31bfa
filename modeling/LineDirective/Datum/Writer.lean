import LineDirective.Datum.Basic
import LineDirective.Datum.Escape
import LineDirective.Number.Shortest

/-!
# Writing data

The external representation of a datum, which the reader reads back as the same datum. Writing fails
for an integer with too many decimal digits and for a value that is no datum.
-/

namespace LineDirective

/-- An integer in decimal notation, unless it has too many digits. -/
def writeInteger (n : Int) : Except Fault Text :=
  if maxDecimalDigits < (Text.ofNat n.natAbs).length then .error .integerTooLong
  else .ok (Text.ofInt n)

/-- Floating-point numbers are positional from `0.0001` to below `1e16`, and an exponent has at
least two digits. -/
def Datum.realFormat : RealFormat where
  leastPositional := -4
  greatestPositional := 15
  exponentDigits := 2

def Binary64.write : Binary64 → Text
  | nan => "+nan.0"
  | infinity negative => if negative then "-inf.0" else "+inf.0"
  | finite negative significand exponent _ =>
    Datum.realFormat.writeFinite negative significand exponent

def Number.write : Number → Except Fault Text
  | integer n => writeInteger n
  | ratio q => do
    let numerator ← writeInteger q.num
    let denominator ← writeInteger q.den
    return numerator ++ .scalar '/' :: denominator
  | real x => .ok x.write

/-- The code points that cannot start a bare symbol although they are no delimiters. -/
def specialInitials : Text := [.scalar '#', .apostrophe, .graveAccent, .scalar ',']

/-- Whether a symbol must be written between bars: its bare name would not be read as one symbol. -/
def needsBars (name : Text) : Except Fault Bool :=
  if name = [] ∨ name = ("." : Text) then .ok true
  else if name.any CodePoint.isDelimiter then .ok true
  else if name.head?.any specialInitials.contains then .ok true
  else
    match Number.parse name with
    | .ok value => .ok value.isSome
    | .error (.zeroDenominator _) => .ok true
    | .error fault => .error fault

def writeSymbol (name : Text) : Except Fault Text := do
  if ← needsBars name then
    return .scalar '|' :: (Text.escape (.scalar '|') name ++ [.scalar '|'])
  return name

def writeString (content : Text) : Text :=
  .quotationMark :: (Text.escape .quotationMark content ++ [.quotationMark])

/-- The external representation of a character: by name, as itself, or by number. -/
def writeCharacter (c : CodePoint) : Text :=
  match characterName? c with
  | some name => .scalar '#' :: .backslash :: name
  | none =>
    if c.isPrintable && !c.isBlank then [.scalar '#', .backslash, c]
    else .scalar '#' :: .backslash :: .scalar 'x' :: Text.numeral 16 c.toNat

def parenthesized (items : List Text) : Text :=
  .scalar '(' :: (Text.intercalate [.scalar ' '] items ++ [.scalar ')'])

namespace Datum

mutual

def write : Datum → Except Fault Text
  | symbol name => writeSymbol name
  | string content => .ok (writeString content)
  | char c => .ok (writeCharacter c)
  | boolean b => .ok (if b then "#t" else "#f")
  | number n => n.write
  | list items => do return parenthesized (← writeItems items)
  | dotted items tail => do
    let lead := Text.intercalate [.scalar ' '] (← writeItems items)
    return .scalar '(' :: (lead ++ (" . " : Text) ++ (← write tail) ++ [.scalar ')'])
  | vector items => do return .scalar '#' :: parenthesized (← writeItems items)
  | bytes elements =>
    .ok (.scalar '#' :: .scalar 'u' :: .scalar '8' ::
      parenthesized (elements.map fun b => Text.ofNat b.toNat))
  | foreign .notANumber _ => .ok Binary64.nan.write
  | foreign kind _ => .error (.notDatum kind.name)

def writeItems : List Datum → Except Fault (List Text)
  | [] => .ok []
  | d :: ds => do
    let t ← write d
    let ts ← writeItems ds
    return t :: ts

end

/-- A datum as a word: a symbol by its bare name, anything else by its external representation. -/
def word : Datum → Except Fault Text
  | symbol name => .ok name
  | d => d.write

end Datum

end LineDirective
