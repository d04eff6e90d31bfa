import LineDirective.Text.CodePoint
import LineDirective.Text.Range

/-!
# Whitespace, line breaks and delimiters

Whitespace is the white-space property of Unicode together with the four information separators
U+001C to U+001F. Of it only the carriage return and the line feed break a line.
-/

namespace LineDirective

def blankRanges : List (Nat × Nat) :=
  [(0x9, 0xd), (0x1c, 0x20), (0x85, 0x85), (0xa0, 0xa0), (0x1680, 0x1680), (0x2000, 0x200a),
   (0x2028, 0x2029), (0x202f, 0x202f), (0x205f, 0x205f), (0x3000, 0x3000)]

namespace CodePoint

def isBlank (c : CodePoint) : Bool := inRanges c.toNat blankRanges

def isNewline (c : CodePoint) : Bool := c = carriageReturn || c = lineFeed

/-- Whether a code point is whitespace that stays on its line. -/
def isIntralineBlank (c : CodePoint) : Bool := !c.isNewline && c.isBlank

/-- The code points other than whitespace that end a symbol or a number. -/
def delimiters : Text :=
  [.scalar '(', .scalar ')', .scalar '[', .scalar ']', quotationMark, .scalar ';', .scalar '|']

def isDelimiter (c : CodePoint) : Bool := c.isBlank || delimiters.contains c

end CodePoint

/-- Whether the text is at an end or at a delimiter, so that a token may stop here. -/
def Text.atDelimiter (t : Text) : Bool :=
  match t with
  | [] => true
  | c :: _ => c.isDelimiter

theorem Text.atDelimiter_eq (t : Text) : t.atDelimiter = t.head?.all CodePoint.isDelimiter := by
  cases t <;> rfl

end LineDirective
