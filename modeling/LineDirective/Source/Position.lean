import LineDirective.Text.Blank
import LineDirective.Text.Numeral

/-!
# Positions

A position names a place in a text by line, column and offset. Lines count from one, columns and
offsets from zero. A line feed, a carriage return and the pair of both are one line break each: the
line number moves on the last code point of the break.

The fields are integers, because the position of a directive's marker is two columns before a place
that a caller may choose freely.
-/

namespace LineDirective

structure Position where
  line : Int := 1
  column : Int := 0
  offset : Int := 0
deriving DecidableEq, Repr, Inhabited

namespace Position

def start : Position := {}

/-- The written form of a position, `line:column`. -/
def text (p : Position) : Text :=
  Text.ofInt p.line ++ [.scalar ':'] ++ Text.ofInt p.column

/-- The position after the code point `c`, when `rest` follows it. A carriage return ends its line
only if no line feed comes after it. -/
def after (p : Position) (c : CodePoint) (rest : Text) : Position :=
  if c = .lineFeed ∨ (c = .carriageReturn ∧ rest.head? ≠ some .lineFeed) then
    { line := p.line + 1, column := 0, offset := p.offset + 1 }
  else
    { line := p.line, column := p.column + 1, offset := p.offset + 1 }

@[simp] theorem offset_after (p : Position) (c : CodePoint) (rest : Text) :
    (p.after c rest).offset = p.offset + 1 := by
  unfold after
  split <;> rfl

/-- The position two columns earlier on the same line: where the marker before `p` stands. -/
def beforeMarker (p : Position) : Position :=
  { line := p.line, column := p.column - 2, offset := p.offset - 2 }

end Position

end LineDirective
