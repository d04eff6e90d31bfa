import LineDirective.Source.Position

/-!
# Cursors

A cursor is the text that is still to be read, together with the position where that text starts.
Reading never looks behind a cursor, so the outcome of a read depends on the rest of the text alone
and positions are only carried along. `next` is the one way in which a position moves.
-/

namespace LineDirective

/-- A place in a text and everything from there on. -/
structure Cursor where
  rest : Text
  position : Position
deriving DecidableEq, Repr, Inhabited

namespace Cursor

def ofText (t : Text) : Cursor := ⟨t, .start⟩

/-- Moves over one code point; at the end of the text a cursor stays where it is. -/
def next (c : Cursor) : Cursor :=
  match c.rest with
  | [] => c
  | x :: rest => ⟨rest, c.position.after x rest⟩

def atEnd (c : Cursor) : Bool := c.rest.isEmpty

/-- Moves over a number of code points, or to the end of the text if there are fewer. -/
def advance (c : Cursor) : Nat → Cursor
  | 0 => c
  | n + 1 => if c.atEnd then c else c.next.advance n

/-- The code points a given number of places ahead, if the text reaches there. -/
def peek? (c : Cursor) (ahead : Nat := 0) : Option CodePoint := c.rest[ahead]?

def atNewline (c : Cursor) : Bool := c.rest.head?.any CodePoint.isNewline

/-- Whether the line ends here, by a line break or with the text. -/
def atLineEnd (c : Cursor) : Bool := c.atEnd || c.atNewline

def atCloser (c : Cursor) : Bool :=
  c.rest.head?.any fun x => x = .scalar ')' || x = .scalar ']'

def span (c : Cursor) (p : CodePoint → Bool) : Text := c.rest.takeWhile p

def skipWhile (c : Cursor) (p : CodePoint → Bool) : Cursor := c.advance (c.span p).length

/-- Moves over one line break if the cursor is at one. -/
def skipNewline (c : Cursor) : Cursor :=
  match c.rest with
  | .carriageReturn :: .lineFeed :: _ => c.advance 2
  | x :: _ => if x.isNewline then c.next else c
  | [] => c

/-! ## What is left to read -/

@[simp] theorem rest_next (c : Cursor) : c.next.rest = c.rest.drop 1 := by
  unfold next
  split <;> simp_all

theorem offset_next (c : Cursor) :
    c.next.position.offset = c.position.offset + (min 1 c.rest.length : Nat) := by
  unfold next
  split <;> rename_i h <;> simp [h]

theorem next_of_atEnd {c : Cursor} (h : c.atEnd = true) : c.next = c := by
  have nothing : c.rest = [] := List.isEmpty_iff.mp h
  unfold next
  rw [nothing]

theorem advance_of_atEnd {c : Cursor} (h : c.atEnd = true) (n : Nat) : c.advance n = c := by
  cases n with
  | zero => rfl
  | succ n => rw [advance, if_pos h]

/-- Stopping at the end and moving on there come to the same. -/
theorem advance_succ (c : Cursor) (n : Nat) : c.advance (n + 1) = c.next.advance n := by
  by_cases h : c.atEnd = true
  · rw [next_of_atEnd h, advance_of_atEnd h, advance_of_atEnd h]
  · rw [advance, if_neg h]

@[simp] theorem rest_advance (c : Cursor) (n : Nat) : (c.advance n).rest = c.rest.drop n := by
  induction n generalizing c with
  | zero => rfl
  | succ n ih => rw [advance_succ, ih, rest_next, List.drop_drop, Nat.add_comm]

theorem advance_add (c : Cursor) (m n : Nat) : c.advance (m + n) = (c.advance m).advance n := by
  induction m generalizing c with
  | zero => rw [Nat.zero_add]; rfl
  | succ m ih => rw [Nat.succ_add, advance_succ, advance_succ]; exact ih c.next

/-- An offset moves by as much as was read. -/
theorem offset_advance (c : Cursor) (n : Nat) :
    (c.advance n).position.offset = c.position.offset + (min n c.rest.length : Nat) := by
  induction n generalizing c with
  | zero => simp [advance]
  | succ n ih =>
    rw [advance_succ, ih, offset_next, rest_next, List.length_drop]
    omega

theorem rest_skipWhile (c : Cursor) (p : CodePoint → Bool) :
    (c.skipWhile p).rest = c.rest.dropWhile p := by
  have parts : c.rest.takeWhile p ++ c.rest.dropWhile p = c.rest := List.takeWhile_append_dropWhile
  calc (c.skipWhile p).rest
      = c.rest.drop (c.rest.takeWhile p).length := rest_advance c _
    _ = (c.rest.takeWhile p ++ c.rest.dropWhile p).drop (c.rest.takeWhile p).length := by
        rw [parts]
    _ = c.rest.dropWhile p := List.drop_left

end Cursor

end LineDirective
