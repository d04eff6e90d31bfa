import LineDirective.Proofs.Motion

/-!
# Lines and positions

The lines of a text are cut off its front one by one, whereas positions count breaks on the way. The two
agree: from the column of a cursor on, the line of its number is what is left of the line that the cursor
stands in (`Source.line_of_reaches`). Along a text positions grow, first by line and then by column
(`Cursor.Reaches.precedes`).
-/

namespace LineDirective

/-! ## 1. Lines of a text -/

namespace Text

theorem lines_of_newline {x : CodePoint} {rest : Text} (newline : x.isNewline = true)
    (single : ¬ (x = .carriageReturn ∧ rest.head? = some .lineFeed)) :
    lines (x :: rest) = [] :: lines rest := by
  rw [lines.eq_def]
  split
  · rename_i none_left
    cases none_left
  · rename_i same
    cases same
    exact absurd ⟨rfl, rfl⟩ single
  · rename_i same
    cases same
    rw [if_pos newline]

theorem lines_of_inside {x : CodePoint} {rest : Text} (inside : x.isNewline = false) :
    ∃ line more, lines rest = line :: more ∧ lines (x :: rest) = (x :: line) :: more := by
  cases first : lines rest with
  | nil => exact absurd first (lines_ne_nil rest)
  | cons line more =>
    refine ⟨line, more, rfl, ?_⟩
    rw [lines.eq_def]
    split
    · rename_i none_left
      cases none_left
    · rename_i same
      cases same
      cases inside
    · rename_i same
      cases same
      rw [inside, if_neg Bool.false_ne_true, first]

end Text

/-! ## 2. Cursors in a text -/

/-- A cursor stands in one of the lines of a text: from its column on this line is the first that is
left, and the lines after it are left as well. -/
def Cursor.StandsIn (t : Text) (c : Cursor) : Prop :=
  0 < c.position.line ∧ 0 ≤ c.position.column ∧ ∃ line more,
    t.lines.drop (c.position.line.toNat - 1) = line :: more ∧
      c.rest.lines = line.drop c.position.column.toNat :: more

namespace Cursor

variable {t : Text} {c c' : Cursor}

theorem standsIn_ofText (t : Text) : (ofText t).StandsIn t := by
  cases first : t.lines with
  | nil => exact absurd first t.lines_ne_nil
  | cons line more => exact ⟨Int.one_pos, Int.le_refl 0, line, more, first, first⟩

/-- A break leads to the next line; the first half of one leads nowhere. -/
theorem StandsIn.next (h : c.StandsIn t) : c.next.StandsIn t := by
  obtain ⟨some_line, some_column, line, more, place, left⟩ := h
  cases head : c.rest with
  | nil =>
    rw [next_of_atEnd (by simp [atEnd, head])]
    exact ⟨some_line, some_column, line, more, place, left⟩
  | cons x rest =>
    have moved : c.next = ⟨rest, c.position.after x rest⟩ := by
      unfold Cursor.next
      rw [head]
    rw [head] at left
    rw [moved]
    -- as the place counts it: a carriage return before a line feed is no end of a line yet
    by_cases ends : x = .lineFeed ∨ (x = .carriageReturn ∧ rest.head? ≠ some .lineFeed)
    · have newline : x.isNewline = true := by
        rcases ends with rfl | ⟨rfl, -⟩ <;> rfl
      have single : ¬ (x = .carriageReturn ∧ rest.head? = some .lineFeed) := by
        rintro ⟨rfl, follows⟩
        rcases ends with impossible | ⟨-, other⟩
        · cases impossible
        · exact other follows
      rw [Text.lines_of_newline newline single, List.cons.injEq] at left
      obtain ⟨-, rfl⟩ := left
      cases first : Text.lines rest with
      | nil => exact absurd first (Text.lines_ne_nil rest)
      | cons line' more' =>
        rw [Position.after, if_pos ends]
        refine ⟨show 0 < c.position.line + 1 by omega, Int.le_refl 0, line', more', ?_, first⟩
        have further : (c.position.line + 1).toNat - 1 = c.position.line.toNat - 1 + 1 := by omega
        show t.lines.drop ((c.position.line + 1).toNat - 1) = _
        rw [further, ← List.drop_drop, place, ← first]
        rfl
    · rw [Position.after, if_neg ends]
      refine ⟨some_line, show 0 ≤ c.position.column + 1 by omega, line, more, place, ?_⟩
      have further : (c.position.column + 1).toNat = c.position.column.toNat + 1 := by omega
      show Text.lines rest = line.drop (c.position.column + 1).toNat :: more
      rw [further, ← List.drop_drop]
      -- at the first half of a pair nothing is left of the line, and nothing is after it
      by_cases pair : x = .carriageReturn ∧ rest.head? = some .lineFeed
      · obtain ⟨rfl, follows⟩ := pair
        cases rest with
        | nil => cases follows
        | cons y rest =>
          obtain rfl : y = .lineFeed := Option.some.inj follows
          have first : Text.lines (.carriageReturn :: .lineFeed :: rest) = [] :: Text.lines rest := rfl
          rw [first, List.cons.injEq] at left
          rw [← left.1, ← left.2]
          rfl
      · have inside : x.isNewline = false := by
          apply CodePoint.isNewline_eq_false
          · rintro rfl
            exact ends (.inr ⟨rfl, fun follows => pair ⟨rfl, follows⟩⟩)
          · rintro rfl
            exact ends (.inl rfl)
        obtain ⟨line', more', first, whole⟩ := @Text.lines_of_inside x rest inside
        rw [whole, List.cons.injEq] at left
        rw [first, ← left.1, ← left.2]
        rfl

theorem StandsIn.advance (h : c.StandsIn t) (n : Nat) : (c.advance n).StandsIn t := by
  induction n generalizing c with
  | zero => exact h
  | succ n ih =>
    rw [advance_succ]
    exact ih h.next

end Cursor

/-- From the column of a cursor on, the line of its number is what is left of the cursor's line. -/
theorem Source.line_of_reaches {src : Source} {c : Cursor} (ahead : (src.cursor .start).Reaches c) :
    0 < c.position.line ∧ 0 ≤ c.position.column ∧
      ∃ more, c.rest.lines = (src.line c.position.line).drop c.position.column.toNat :: more := by
  have stands : c.StandsIn src.text := by
    obtain ⟨n, rfl⟩ := ahead
    exact (Cursor.standsIn_ofText src.text).advance n
  obtain ⟨some_line, some_column, line, more, place, left⟩ := stands
  refine ⟨some_line, some_column, more, ?_⟩
  have found : src.text.lines[c.position.line.toNat - 1]? = some line := by
    rw [← List.head?_drop, place]
    rfl
  rw [Source.line, if_neg (by omega), found, left]
  rfl

/-- What stands before a line break stands on one line. -/
theorem Source.startsWith_line {src : Source} {c : Cursor} {lead rest : Text}
    (ahead : (src.cursor .start).Reaches c) (head : c.rest = lead ++ rest)
    (inside : ∀ x ∈ lead, x.isNewline = false) :
    Text.startsWith ((src.line c.position.line).drop c.position.column.toNat) lead = true := by
  have front (lead : Text) (inside : ∀ x ∈ lead, x.isNewline = false) :
      ∃ line more, (lead ++ rest).lines = (lead ++ line) :: more := by
    induction lead with
    | nil =>
      cases first : rest.lines with
      | nil => exact absurd first rest.lines_ne_nil
      | cons line more => exact ⟨line, more, first⟩
    | cons x lead ih =>
      obtain ⟨line, more, first⟩ := ih fun y mem => inside y (List.mem_cons_of_mem x mem)
      obtain ⟨line', more', first', whole⟩ :=
        @Text.lines_of_inside x (lead ++ rest) (inside x (List.mem_cons_self ..))
      rw [first, List.cons.injEq] at first'
      refine ⟨line, more, ?_⟩
      rw [List.cons_append, whole, ← first'.1, ← first'.2]
      rfl
  obtain ⟨-, -, more, left⟩ := Source.line_of_reaches ahead
  obtain ⟨line, more', whole⟩ := front lead inside
  rw [head, whole, List.cons.injEq] at left
  rw [← left.1]
  exact List.isPrefixOf_iff_prefix.mpr ⟨line, rfl⟩

/-! ## 3. The order of positions -/

/-- A position lies before another on the same line, or on an earlier line. -/
def Position.Precedes (p q : Position) : Prop :=
  p.line < q.line ∨ p.line = q.line ∧ p.column < q.column

instance (p q : Position) : Decidable (p.Precedes q) := inferInstanceAs (Decidable (_ ∨ _))

theorem Position.Precedes.trans {p q r : Position} (first : p.Precedes q) (second : q.Precedes r) :
    p.Precedes r := by
  unfold Precedes at *
  omega

theorem Position.precedes_after (p : Position) (x : CodePoint) (rest : Text) :
    p.Precedes (p.after x rest) := by
  unfold after
  split
  · exact .inl (Int.lt_succ p.line)
  · exact .inr ⟨rfl, Int.lt_succ p.column⟩

namespace Cursor

variable {c c' : Cursor}

theorem precedes_next (more : c.rest ≠ []) : c.position.Precedes c.next.position := by
  cases head : c.rest with
  | nil => exact absurd head more
  | cons x rest =>
    unfold next
    rw [head]
    exact c.position.precedes_after x rest

/-- Along a text positions grow. -/
theorem Reaches.precedes (h : c.Reaches c') (shorter : c'.rest.length < c.rest.length) :
    c.position.Precedes c'.position := by
  obtain ⟨n, rfl⟩ := h
  induction n generalizing c with
  | zero => exact absurd shorter (Nat.lt_irrefl _)
  | succ n ih =>
    have more : c.rest ≠ [] := by
      intro nothing
      rw [nothing] at shorter
      exact absurd shorter (Nat.not_lt_zero _)
    rw [advance_succ] at shorter ⊢
    by_cases there : (c.next.advance n).rest.length < c.next.rest.length
    · exact (precedes_next more).trans (ih there)
    · -- the rest of the way leads nowhere
      have stays : c.next.advance n = c.next := by
        apply (c.next.reaches_advance n).eq_of_length (.refl c.next)
        have := (c.next.reaches_advance n).length_le
        omega
      rw [stays]
      exact precedes_next more

end Cursor

end LineDirective
