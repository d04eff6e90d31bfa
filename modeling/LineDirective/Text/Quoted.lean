import LineDirective.Text.Numeral
import LineDirective.Text.Printable

/-!
# Texts quoted in messages

A text between apostrophes, or between quotation marks if it holds an apostrophe and no quotation
mark. The mark and the backslash are escaped, and so is whatever is not printable.
-/

namespace LineDirective

def paddedHex (width n : Nat) : Text :=
  let digits := Text.numeral 16 n
  List.replicate (width - digits.length) (.scalar '0') ++ digits

/-- One code point between the given marks: by a letter escape, plainly, or by its number. -/
def CodePoint.quotedBetween (mark c : CodePoint) : Text :=
  if c = mark ∨ c = .backslash then [.backslash, c]
  else if c = .scalar '\t' then [.backslash, .scalar 't']
  else if c = .lineFeed then [.backslash, .scalar 'n']
  else if c = .carriageReturn then [.backslash, .scalar 'r']
  else if c.isPrintable then [c]
  else if c.toNat < 0x100 then .backslash :: .scalar 'x' :: paddedHex 2 c.toNat
  else if c.toNat < 0x10000 then .backslash :: .scalar 'u' :: paddedHex 4 c.toNat
  else .backslash :: .scalar 'U' :: paddedHex 8 c.toNat

def Text.quoted (t : Text) : Text :=
  let mark : CodePoint :=
    if t.contains .apostrophe && !t.contains .quotationMark then .quotationMark else .apostrophe
  mark :: (t.flatMap (CodePoint.quotedBetween mark) ++ [mark])

end LineDirective
