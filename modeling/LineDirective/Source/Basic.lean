import LineDirective.Fault
import LineDirective.Source.Cursor

/-!
# Source texts

A source is a text with an optional name. It holds no cursor: callers keep a position and ask the
source what stands there. The lines of a text are numbered from one, and their number at an offset
agrees with the line of the position there.
-/

namespace LineDirective

/-- A text to be read, with the name that error messages give it. -/
structure Source where
  text : Text
  name : Option Text := none
deriving DecidableEq, Repr

/-- The lines of a text without their breaks. Every text has at least one line. -/
def Text.lines : Text → List Text
  | [] => [[]]
  | .carriageReturn :: .lineFeed :: rest => [] :: Text.lines rest
  | c :: rest =>
    if c.isNewline then
      [] :: Text.lines rest
    else
      match Text.lines rest with
      | line :: more => (c :: line) :: more
      | [] => [[c]]

theorem Text.lines_ne_nil (t : Text) : t.lines ≠ [] := by
  fun_cases Text.lines t <;> simp

namespace Source

def length (s : Source) : Nat := s.text.length

def cursor (s : Source) (p : Position) : Cursor :=
  if p.offset < 0 then ⟨[], p⟩ else ⟨s.text.drop p.offset.toNat, p⟩

/-- The code point at a position, or a number of places after it or, if negative, before it. -/
def peek? (s : Source) (p : Position) (ahead : Int := 0) : Option CodePoint :=
  let index := p.offset + ahead
  if index < 0 then none else s.text[index.toNat]?

def atEnd (s : Source) (p : Position) : Bool := s.length ≤ p.offset

/-- The text of a line by its number, without its break; empty if there is no such line. -/
def line (s : Source) (number : Int) : Text :=
  if number < 1 then [] else (s.text.lines[number.toNat - 1]?).getD []

/-! ## Positions that count from the end

Where a place is given by a negative offset it counts from the end of the text. Moving on from there
leads over the end to the start. What is ahead is seen from the start on only, so that before it a
carriage return ends its line whatever follows. -/

/-- The code points that an offset starts with. A negative offset counts from the end of the text;
one that lies before the start even so counts as the start. -/
def suffix (s : Source) (offset : Int) : Text :=
  if offset < 0 then s.text.drop (s.length + offset).toNat else s.text.drop offset.toNat

/-- Whether a text stands at a position. Beyond the end of the text not even the empty text does. -/
def startsWith (s : Source) (p : Position) (lead : Text) : Bool :=
  p.offset ≤ s.length && (s.suffix p.offset).startsWith lead

/-- Whether an offset counts from the end and reaches further back than the start. -/
def precedesText (s : Source) (offset : Int) : Bool := offset < -s.length

def step (s : Source) (p : Position) : Except Fault Position :=
  if !fitsIndex p.offset then .error .indexOverflow
  else if s.precedesText p.offset then .error .outsideText
  else
    match s.suffix p.offset with
    | [] => .error .outsideText
    | c :: _ => .ok (p.after c (s.cursor { p with offset := p.offset + 1 }).rest)

def steps (s : Source) : Nat → Position → Except Fault Position
  | 0, p => .ok p
  | n + 1, p => do s.steps n (← s.step p)

/-- The position a number of code points further on, but not past the end of the text. -/
def advance (s : Source) (p : Position) (count : Int := 1) : Except Fault Position :=
  if p.offset < 0 then s.steps (min (p.offset + count) s.length - p.offset).toNat p
  else .ok ((s.cursor p).advance count.toNat).position

/-- The position after the line break at a position, or the position itself if there is none. -/
def skipNewline (s : Source) (p : Position) : Except Fault Position :=
  if s.startsWith p [.carriageReturn, .lineFeed] then s.advance p 2
  else if (s.peek? p).any CodePoint.isNewline then s.advance p
  else .ok p

/-- In the text a position moves with its cursor. -/
theorem advance_of_nonneg (s : Source) {p : Position} (inside : 0 ≤ p.offset) (count : Int) :
    s.advance p count = .ok ((s.cursor p).advance count.toNat).position := by
  rw [advance, if_neg (Int.not_lt.mpr inside)]

theorem rest_cursor (s : Source) {p : Position} (inside : 0 ≤ p.offset) :
    (s.cursor p).rest = s.suffix p.offset := by
  rw [cursor, suffix, if_neg (Int.not_lt.mpr inside), if_neg (Int.not_lt.mpr inside)]

end Source

end LineDirective
