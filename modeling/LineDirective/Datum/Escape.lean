import LineDirective.Text.Blank
import LineDirective.Text.Numeral
import LineDirective.Text.Printable

/-!
# Character names and escapes

The names of characters after `#\`, the one-letter escapes inside quotes, and the writing of a text
inside quotes.
-/

namespace LineDirective

def characterNames : List (Text × CodePoint) :=
  [("alarm", .scalar '\x07'), ("backspace", .scalar '\x08'), ("delete", .scalar '\x7f'),
   ("escape", .scalar '\x1b'), ("newline", .scalar '\n'), ("null", .scalar '\x00'),
   ("return", .scalar '\r'), ("space", .scalar ' '), ("tab", .scalar '\t')]

def namedCharacter? (name : Text) : Option CodePoint := characterNames.lookup name

def characterName? (c : CodePoint) : Option Text :=
  (characterNames.find? fun entry => entry.2 = c).map Prod.fst

def simpleEscapes : List (CodePoint × CodePoint) :=
  [(.scalar 'a', .scalar '\x07'), (.scalar 'b', .scalar '\x08'), (.scalar 't', .scalar '\t'),
   (.scalar 'n', .scalar '\n'), (.scalar 'r', .scalar '\r'),
   (.quotationMark, .quotationMark), (.backslash, .backslash), (.scalar '|', .scalar '|')]

def simpleEscape? (letter : CodePoint) : Option CodePoint := simpleEscapes.lookup letter

/-- The code points that are always written with a backslash, and the letter after it. -/
def writtenEscapes : List (CodePoint × CodePoint) :=
  [(.backslash, .backslash), (.quotationMark, .quotationMark), (.scalar '\n', .scalar 'n'),
   (.scalar '\t', .scalar 't'), (.scalar '\r', .scalar 'r'), (.scalar '\x07', .scalar 'a'),
   (.scalar '\x08', .scalar 'b')]

/-- One code point as written between quote marks: by its letter, with a backslash if it is the
quote mark itself, as a hex escape if it is not printable, or plainly. -/
def escapeCodePoint (quote c : CodePoint) : Text :=
  match writtenEscapes.lookup c with
  | some letter => [.backslash, letter]
  | none =>
    if c = quote then [.backslash, quote]
    else if c.isPrintable then [c]
    else .backslash :: .scalar 'x' :: (Text.numeral 16 c.toNat ++ [.scalar ';'])

def Text.escape (quote : CodePoint) (t : Text) : Text := t.flatMap (escapeCodePoint quote)

end LineDirective
