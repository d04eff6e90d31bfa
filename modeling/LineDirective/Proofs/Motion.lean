import LineDirective.Source.Basic

/-!
# How cursors move

`c.Reaches c'` says that `c'` lies at or after `c` in the same text. The places that a cursor reaches
are told apart by how much is left to read, and how far they lie ahead is the difference of what is
left.

Line numbers never fall, and a cursor leaves its line exactly when it has moved over the whole line
break: between a carriage return and its line feed the line is still the same.
-/

namespace LineDirective

namespace Cursor

/-! ## 1. Places ahead -/

/-- The second cursor lies at or after the first in the same text. -/
def Reaches (c c' : Cursor) : Prop := ∃ n, c' = c.advance n

theorem Reaches.refl (c : Cursor) : c.Reaches c := ⟨0, rfl⟩

theorem reaches_advance (c : Cursor) (n : Nat) : c.Reaches (c.advance n) := ⟨n, rfl⟩

theorem advance_one (c : Cursor) : c.advance 1 = c.next := by
  rw [advance_succ]
  rfl

theorem reaches_next (c : Cursor) : c.Reaches c.next := ⟨1, (advance_one c).symm⟩

theorem Reaches.trans {a b c : Cursor} (hab : a.Reaches b) (hbc : b.Reaches c) : a.Reaches c := by
  obtain ⟨m, rfl⟩ := hab
  obtain ⟨n, rfl⟩ := hbc
  exact ⟨m + n, (advance_add a m n).symm⟩

theorem Reaches.length_le {c c' : Cursor} (h : c.Reaches c') : c'.rest.length ≤ c.rest.length := by
  obtain ⟨n, rfl⟩ := h
  rw [rest_advance, List.length_drop]
  omega

theorem length_advance_succ_le (c : Cursor) (k : Nat) :
    (c.advance (k + 1)).rest.length ≤ (c.advance k).rest.length := by
  rw [advance_add]
  exact ((c.advance k).reaches_advance 1).length_le

/-- Moving further than the text reaches is moving to its end. -/
theorem advance_min (c : Cursor) (n : Nat) : c.advance (min n c.rest.length) = c.advance n := by
  by_cases h : n ≤ c.rest.length
  · rw [Nat.min_eq_left h]
  · have ended : (c.advance c.rest.length).atEnd = true := by simp [atEnd]
    obtain ⟨k, rfl⟩ : ∃ k, n = c.rest.length + k := ⟨n - c.rest.length, by omega⟩
    rw [Nat.min_eq_right (by omega), advance_add, advance_of_atEnd ended]

/-- A place ahead is as far away as what is left has become shorter. -/
theorem Reaches.eq_advance {c c' : Cursor} (h : c.Reaches c') :
    c' = c.advance (c.rest.length - c'.rest.length) := by
  obtain ⟨n, rfl⟩ := h
  rw [rest_advance, List.length_drop, ← advance_min c n]
  congr 1
  omega

/-- Places ahead are told apart by what is left. -/
theorem Reaches.eq_of_length {c a b : Cursor} (ha : c.Reaches a) (hb : c.Reaches b)
    (same : a.rest.length = b.rest.length) : a = b := by
  rw [ha.eq_advance, hb.eq_advance, same]

theorem Reaches.offset {c c' : Cursor} (h : c.Reaches c') :
    c'.position.offset = c.position.offset + (c.rest.length - c'.rest.length : Nat) := by
  have hle := h.length_le
  rw [h.eq_advance, offset_advance]
  simp only [rest_advance, List.length_drop]
  omega

theorem Reaches.offset_le {c a b : Cursor} (ha : c.Reaches a) (hb : c.Reaches b)
    (shorter : b.rest.length ≤ a.rest.length) : a.position.offset ≤ b.position.offset := by
  have := ha.length_le
  have := ha.offset
  have := hb.offset
  omega

theorem Reaches.offset_lt {c a b : Cursor} (ha : c.Reaches a) (hb : c.Reaches b)
    (shorter : b.rest.length < a.rest.length) : a.position.offset < b.position.offset := by
  have := ha.length_le
  have := ha.offset
  have := hb.offset
  omega

theorem rest_eq_drop_of_reaches {c c' : Cursor} (h : c.Reaches c') :
    c'.rest = c.rest.drop (c.rest.length - c'.rest.length) := by
  have := congrArg rest h.eq_advance
  rwa [rest_advance] at this

theorem Reaches.rest_suffix {c c' : Cursor} (h : c.Reaches c') : c'.rest <:+ c.rest := by
  rw [rest_eq_drop_of_reaches h]
  exact List.drop_suffix _ _

theorem Reaches.offset_mono {c c' : Cursor} (h : c.Reaches c') :
    c.position.offset ≤ c'.position.offset :=
  (Reaches.refl c).offset_le h h.length_le

theorem length_next_lt {c : Cursor} {x : CodePoint} {rest : Text} (h : c.rest = x :: rest) :
    c.next.rest.length < c.rest.length := by
  rw [rest_next, h]
  simp

theorem reaches_skipWhile (c : Cursor) (p : CodePoint → Bool) : c.Reaches (c.skipWhile p) :=
  reaches_advance c _

theorem reaches_skipNewline (c : Cursor) : c.Reaches c.skipNewline := by
  unfold skipNewline
  split
  · exact reaches_advance c 2
  · split
    · exact reaches_next c
    · exact Reaches.refl c
  · exact Reaches.refl c

end Cursor

/-! ## 2. Line ends -/

theorem CodePoint.isNewline_eq_false {c : CodePoint} (no_return : c ≠ .carriageReturn)
    (no_feed : c ≠ .lineFeed) : c.isNewline = false := by
  simp [isNewline, no_return, no_feed]

theorem CodePoint.isBlank_of_isNewline {c : CodePoint} (newline : c.isNewline = true) :
    c.isBlank = true := by
  have both : CodePoint.isBlank .carriageReturn = true ∧ CodePoint.isBlank .lineFeed = true := by
    decide
  have either : c = .carriageReturn ∨ c = .lineFeed := by simpa [isNewline] using newline
  rcases either with rfl | rfl
  · exact both.1
  · exact both.2

namespace Text

/-- A line ends where the text starts: with a line break, or with the text. -/
def AtLineEnd (t : Text) : Prop := t.head?.all CodePoint.isNewline = true

theorem AtLineEnd.blank {t : Text} (ends : t.AtLineEnd) :
    t.head?.all CodePoint.isBlank = true := by
  cases t with
  | nil => rfl
  | cons x more =>
    have newline : x.isNewline = true := ends
    exact CodePoint.isBlank_of_isNewline newline

theorem atDelimiter_of_blank {t : Text} (blank : t.head?.all CodePoint.isBlank = true) :
    t.atDelimiter = true := by
  cases t with
  | nil => rfl
  | cons x more =>
    have first : x.isBlank = true := blank
    show x.isDelimiter = true
    rw [CodePoint.isDelimiter, first, Bool.true_or]

theorem AtLineEnd.atDelimiter {t : Text} (ends : t.AtLineEnd) : t.atDelimiter = true :=
  atDelimiter_of_blank ends.blank

theorem AtLineEnd.no_intralineBlank {t : Text} (ends : t.AtLineEnd) :
    t.head?.any CodePoint.isIntralineBlank = false := by
  cases t with
  | nil => rfl
  | cons x more =>
    have newline : x.isNewline = true := ends
    show x.isIntralineBlank = false
    rw [CodePoint.isIntralineBlank, newline]
    rfl

theorem AtLineEnd.ne {x : CodePoint} {more : Text} (ends : AtLineEnd (x :: more))
    {c : CodePoint} (inside : c.isNewline = false) : x ≠ c := by
  rintro rfl
  rw [show x.isNewline = true from ends] at inside
  cases inside

end Text

namespace Cursor

theorem atLineEnd_iff {c : Cursor} : c.atLineEnd = true ↔ c.rest.AtLineEnd := by
  unfold atLineEnd atEnd atNewline Text.AtLineEnd
  cases c.rest with
  | nil => exact Iff.rfl
  | cons x rest => exact Iff.rfl

/-! ## 3. Lines -/

/-- The end of the line: the next line break, or the end of the text. -/
def lineEnd (c : Cursor) : Cursor := c.skipWhile fun x => !x.isNewline

def nextLine (c : Cursor) : Cursor := c.lineEnd.skipNewline

theorem reaches_lineEnd (c : Cursor) : c.Reaches c.lineEnd := reaches_skipWhile c _

theorem reaches_nextLine (c : Cursor) : c.Reaches c.nextLine :=
  c.reaches_lineEnd.trans c.lineEnd.reaches_skipNewline

theorem lineEnd_of_atLineEnd {c : Cursor} (h : c.atLineEnd = true) : c.lineEnd = c := by
  unfold lineEnd skipWhile span
  cases hrest : c.rest with
  | nil => rfl
  | cons x rest =>
    have newline : x.isNewline = true := by simpa [atLineEnd, atEnd, atNewline, hrest] using h
    simp [newline, advance]

theorem lineEnd_next {c : Cursor} {x : CodePoint} {rest : Text} (h : c.rest = x :: rest)
    (inside : x.isNewline = false) : c.next.lineEnd = c.lineEnd := by
  unfold lineEnd skipWhile span
  rw [rest_next, h, List.drop_one, List.tail_cons, List.takeWhile_cons_of_pos (by simp [inside]),
    List.length_cons, advance_succ]

theorem atLineEnd_lineEnd (c : Cursor) : c.lineEnd.atLineEnd = true := by
  unfold atLineEnd atEnd atNewline
  rw [lineEnd, rest_skipWhile]
  cases h : c.rest.dropWhile fun x => !x.isNewline with
  | nil => rfl
  | cons x rest =>
    have stopped := List.head_dropWhile_not (fun x : CodePoint => !x.isNewline) (by rw [h]; simp)
    simp only [h, List.head_cons] at stopped
    simpa using stopped

theorem line_next_of_inside {c : Cursor} {x : CodePoint} {rest : Text} (h : c.rest = x :: rest)
    (inside : x.isNewline = false) : c.next.position.line = c.position.line := by
  have distinct : x ≠ .carriageReturn ∧ x ≠ .lineFeed := by
    simpa [CodePoint.isNewline] using inside
  unfold next
  rw [h]
  simp [Position.after, distinct]

theorem line_le_next (c : Cursor) : c.position.line ≤ c.next.position.line := by
  unfold next
  split
  · exact Int.le_refl _
  · simp only [Position.after]
    split <;> simp only <;> omega

theorem line_le_advance (c : Cursor) (n : Nat) :
    c.position.line ≤ (c.advance n).position.line := by
  induction n generalizing c with
  | zero => exact Int.le_refl _
  | succ n ih =>
    rw [advance_succ]
    exact Int.le_trans (line_le_next c) (ih c.next)

/-- A line break of one code point: the line number moves with it. -/
theorem line_next_of_newline {c : Cursor} {x : CodePoint} {rest : Text} (h : c.rest = x :: rest)
    (newline : x.isNewline = true) (single : x = .carriageReturn → rest.head? ≠ some .lineFeed) :
    c.next.position.line = c.position.line + 1 := by
  have either : x = .carriageReturn ∨ x = .lineFeed := by
    simpa [CodePoint.isNewline] using newline
  unfold next
  rw [h]
  rcases either with rfl | rfl
  · simp [Position.after, single rfl]
  · simp [Position.after]

/-- Between the two code points of a line break the line is still the same. -/
theorem line_next_of_pair {c : Cursor} {rest : Text}
    (h : c.rest = .carriageReturn :: .lineFeed :: rest) :
    c.next.position.line = c.position.line := by
  unfold next
  rw [h]
  simp [Position.after]

/-- What one move does to the line: nothing at the end of the text, nothing inside the line, one line
more over a line break of one code point, and one line more after two moves otherwise. -/
theorem line_next_cases (c : Cursor) :
    c.next = c ∨
    (c.next.position.line = c.position.line ∧ c.next.lineEnd = c.lineEnd) ∨
    (c.lineEnd = c ∧ c.nextLine = c.next ∧ c.next.position.line = c.position.line + 1) ∨
    (∃ rest, c.lineEnd = c ∧ c.rest = .carriageReturn :: .lineFeed :: rest ∧
      c.nextLine = c.next.next ∧ c.next.position.line = c.position.line ∧
      c.next.next.position.line = c.position.line + 1) := by
  cases hrest : c.rest with
  | nil => exact .inl (next_of_atEnd (by simp [atEnd, hrest]))
  | cons x rest =>
    by_cases newline : x.isNewline = true
    · have here : c.lineEnd = c :=
        lineEnd_of_atLineEnd (by simp [atLineEnd, atNewline, hrest, newline])
      -- a carriage return before a line feed does not end the line yet
      by_cases pair : ∃ more, x = .carriageReturn ∧ rest = .lineFeed :: more
      · obtain ⟨more, rfl, rfl⟩ := pair
        have second : c.next.rest = .lineFeed :: more := by rw [rest_next, hrest]; rfl
        have first := line_next_of_pair hrest
        have moved := line_next_of_newline second (by rfl) (by intro h; cases h)
        refine .inr (.inr (.inr ⟨more, here, rfl, ?_, first, by rw [moved, first]⟩))
        unfold nextLine skipNewline
        simp only [here, hrest]
        rw [advance_succ, advance_one]
      · have single : x = .carriageReturn → rest.head? ≠ some .lineFeed := by
          rintro rfl second
          cases rest with
          | nil => cases second
          | cons y more =>
            simp only [List.head?_cons, Option.some.injEq] at second
            exact pair ⟨more, rfl, by rw [second]⟩
        refine .inr (.inr (.inl ⟨here, ?_, line_next_of_newline hrest newline single⟩))
        unfold nextLine skipNewline
        rw [here, hrest]
        split
        · rename_i more same
          cases same
          exact absurd ⟨more, rfl, rfl⟩ pair
        · rename_i y more _ same
          cases same
          rw [if_pos newline]
        · rename_i same
          cases same
    · have inside : x.isNewline = false := by simpa using newline
      exact .inr (.inl ⟨line_next_of_inside hrest inside, lineEnd_next hrest inside⟩)

/-- The places ahead on the same line: before its end, at its end, or between the two code points of
its line break. -/
theorem Reaches.cases_of_line_eq {c c' : Cursor} (h : c.Reaches c')
    (same : c'.position.line = c.position.line) :
    (c'.atLineEnd = false ∧ c'.lineEnd = c.lineEnd) ∨ c' = c.lineEnd ∨
      ∃ rest, c.lineEnd.rest = .carriageReturn :: .lineFeed :: rest ∧ c' = c.lineEnd.next := by
  obtain ⟨n, rfl⟩ := h
  induction n generalizing c with
  | zero =>
    by_cases ended : c.atLineEnd = true
    · exact .inr (.inl (lineEnd_of_atLineEnd ended).symm)
    · exact .inl ⟨by simpa [advance] using ended, rfl⟩
  | succ n ih =>
    rw [advance_succ] at same ⊢
    have later := line_le_advance c.next n
    rcases line_next_cases c with stays | ⟨line, stays⟩ | ⟨-, -, line⟩ | ⟨rest, here, pair, -, -, line⟩
    · rw [stays] at same ⊢
      exact ih same
    · rw [← line] at same
      rw [← stays]
      exact ih same
    · omega
    -- one move ends between the two code points, two moves leave the line
    · cases n with
      | zero => exact .inr (.inr ⟨rest, by rw [here, pair], by rw [here]; rfl⟩)
      | succ n =>
        rw [advance_succ] at same
        have later := line_le_advance c.next.next n
        omega

/-- The end of a line and the place inside its line break both lead to the next line. -/
theorem Reaches.skipNewline_eq_nextLine {c c' : Cursor} (h : c.Reaches c')
    (same : c'.position.line = c.position.line) (ended : c'.atLineEnd = true) :
    c'.skipNewline = c.nextLine := by
  rcases h.cases_of_line_eq same with ⟨open_, -⟩ | rfl | ⟨rest, pair, rfl⟩
  · rw [ended] at open_
    cases open_
  · rfl
  · have twice : c.lineEnd.advance 2 = c.lineEnd.next.next := by
      rw [advance_succ, advance_one]
    unfold nextLine skipNewline
    simp [pair, twice, CodePoint.isNewline]

/-- Where something stands on the line of `c`, the end of that line is still ahead. -/
theorem Reaches.lineEnd_lt {c c' : Cursor} (h : c.Reaches c')
    (same : c'.position.line = c.position.line) (inside : c'.atLineEnd = false) :
    c.lineEnd.rest.length < c'.rest.length := by
  rcases h.cases_of_line_eq same with ⟨-, stays⟩ | rfl | ⟨rest, pair, rfl⟩
  · rw [← stays]
    have ahead := c'.reaches_lineEnd
    -- the end of the line is ahead, and it is not here
    apply Nat.lt_of_le_of_ne ahead.length_le
    intro equal
    have : c'.lineEnd = c' := ahead.eq_of_length (Reaches.refl c') equal
    rw [← this, atLineEnd_lineEnd] at inside
    cases inside
  · rw [atLineEnd_lineEnd] at inside
    cases inside
  · simp [atLineEnd, atNewline, pair, CodePoint.isNewline] at inside

/-- A cursor that has left the line of `c` is at the start of the next line or beyond. -/
theorem Reaches.length_le_nextLine {c c' : Cursor} (h : c.Reaches c')
    (left : c'.position.line ≠ c.position.line) :
    c'.rest.length ≤ c.nextLine.rest.length := by
  obtain ⟨n, rfl⟩ := h
  induction n generalizing c with
  | zero => exact absurd rfl left
  | succ n ih =>
    rw [advance_succ] at left ⊢
    have ahead := (reaches_advance c.next n).length_le
    rcases line_next_cases c with stays | ⟨line, stays⟩ | ⟨-, after, -⟩ | ⟨rest, -, -, after, line, -⟩
    · rw [stays] at left ⊢
      exact ih left
    · rw [← line] at left
      have same : c.nextLine = c.next.nextLine := by unfold nextLine; rw [stays]
      rw [same]
      exact ih left
    · rw [after]
      exact ahead
    · cases n with
      | zero => exact absurd line left
      | succ n =>
        rw [after, advance_succ]
        exact (reaches_advance c.next.next n).length_le

end Cursor

end LineDirective
