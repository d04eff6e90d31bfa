import LineDirective.Proofs.Transport

/-!
# Later lines do not matter to a directive

Scans of the same line yield the same data, if both succeed and no datum may leave the line: the cursors
of the two scans stay abreast, before the same rest of the line (`Reads.datums_abreast`). A datum that
stays on the line either ends before the line break, and is fixed by the line alone, or it ends between
the two code points of a line break, and then both line breaks are of this kind.
-/

namespace LineDirective

/-- Where the line of `a` ends, the common part has not been left. -/
theorem Cursor.Abreast.length_le_lineEnd {p : Parting} {y z q : Text} {a b : Cursor}
    (h : Abreast p y z q a b) (ends : y.AtLineEnd) : y.length ≤ a.lineEnd.rest.length := by
  have short := (List.takeWhile_prefix (l := q) fun x => !x.isNewline).length_le
  unfold Cursor.lineEnd Cursor.skipWhile Cursor.span
  rw [rest_advance, List.length_drop, h.left, takeWhile_line_append q ends, List.length_append]
  omega

section Scans

variable {ctx ctx' : Context} {anchor : Int} {y z q : Text} {a a' b b' : Cursor}
  {s s' t t' : ReaderState}

/-- Both scans come to the same place, if the first comes to a place on the line. -/
theorem Reads.intraline_abreast (ends : y.AtLineEnd) (ends' : z.AtLineEnd)
    (abreast : Cursor.Abreast .lineEnd y z q a b) (fold : t.foldCase = s.foldCase)
    (line : a.position.line = anchor)
    (skipped : Reads ctx (.intraline anchor) a s .nothing a' s')
    (same : a'.position.line = anchor) (inside : a'.atLineEnd = false)
    (skipped' : Reads ctx' (.intraline anchor) b t .nothing b' t') :
    ∃ q', Cursor.Abreast .lineEnd y z q' a' b' ∧ t'.foldCase = s'.foldCase ∧ b'.atLineEnd = false := by
  have ahead : a.lineEnd.rest.length < a'.rest.length :=
    skipped.reaches.lineEnd_lt (by rw [same, line]) inside
  have within : y.length ≤ a'.rest.length := by
    have := abreast.length_le_lineEnd ends
    omega
  obtain ⟨q', b₁, t₁, abreast', fold', mirrored⟩ :=
    skipped.congr ends ends' rfl abreast fold within
  obtain ⟨-, rfl, rfl⟩ := mirrored.unique skipped'
  exact ⟨q', abreast', fold', (abreast'.atLineEnd_eq_of_ends ends ends').trans inside⟩

/-- A read that ends on its line but not in the common part ends inside a line break, which is the
first that follows. -/
theorem Cursor.Abreast.splits_pair (ends : y.AtLineEnd) (abreast : Abreast .lineEnd y z q a b)
    (ahead : a.Reaches a') (same : a'.position.line = a.position.line)
    (beyond : a'.rest.length < y.length) :
    ∃ more, y = .carriageReturn :: .lineFeed :: more ∧ a'.rest.length = more.length + 1 := by
  have within := abreast.length_le_lineEnd ends
  rcases ahead.cases_of_line_eq same with ⟨inside, -⟩ | rfl | ⟨more, pair, rfl⟩
  · have := ahead.lineEnd_lt same inside
    omega
  · omega
  · have left : a.lineEnd.next.rest = .lineFeed :: more := by rw [rest_next, pair]; rfl
    have size := congrArg List.length pair
    rw [left, List.length_cons] at beyond ⊢
    rw [List.length_cons, List.length_cons] at size
    have suffix : a.lineEnd.rest <:+ q ++ y := by
      rw [← abreast.left, rest_eq_drop_of_reaches a.reaches_lineEnd]
      exact List.drop_suffix _ _
    have whole : a.lineEnd.rest = y :=
      (List.suffix_of_suffix_length_le suffix (List.suffix_append q y) (by omega)).eq_of_length
        (by omega)
    exact ⟨more, by rw [← whole, pair], rfl⟩

/-- The two data are equal, and the scans go on from abreast. Where a datum ends inside a line break the
common part grows by the carriage return. -/
theorem Reads.datum_abreast (ends : y.AtLineEnd) (ends' : z.AtLineEnd)
    (abreast : Cursor.Abreast .lineEnd y z q a b) {d e : Datum}
    (read : Reads ctx (.datum .directive) a s (.datum d) a' s')
    (stays : a'.position.line = a.position.line)
    (read' : Reads ctx' (.datum .directive) b t (.datum e) b' t')
    (stays' : b'.position.line = b.position.line) (fold : t.foldCase = s.foldCase) :
    d = e ∧ t'.foldCase = s'.foldCase ∧
      ∃ y z q : Text, y.AtLineEnd ∧ z.AtLineEnd ∧ Cursor.Abreast .lineEnd y z q a' b' := by
  by_cases within : y.length ≤ a'.rest.length
  · obtain ⟨q', b₁, t₁, abreast', fold', mirrored⟩ := read.congr ends ends' rfl abreast fold within
    obtain ⟨same, rfl, rfl⟩ := mirrored.unique read'
    cases same
    exact ⟨rfl, fold', y, z, q', ends, ends', abreast'⟩
  · obtain ⟨more, rfl, left⟩ := abreast.splits_pair ends read.reaches stays (by omega)
    -- the other datum cannot end in the common part, or this one would
    have beyond : b'.rest.length < z.length := by
      apply Nat.lt_of_not_le
      intro within'
      obtain ⟨q', a₁, s₁, abreast', -, mirrored⟩ :=
        read'.congr ends' ends rfl abreast.symm fold.symm within'
      obtain ⟨-, rfl, -⟩ := mirrored.unique read
      rw [abreast'.right, List.length_append] at within
      omega
    obtain ⟨more', rfl, -⟩ := abreast.symm.splits_pair ends' read'.reaches stays' beyond
    have feed : Text.AtLineEnd (.lineFeed :: more) := rfl
    have feed' : Text.AtLineEnd (.lineFeed :: more') := rfl
    have same_place : b.position = a.position := abreast.position (.inl rfl)
    have longer : Cursor.Abreast .lineEnd (.lineFeed :: more) (.lineFeed :: more')
        (q ++ [.carriageReturn]) a b := by
      refine ⟨?_, ?_, abreast.offset, fun _ => same_place, fun _ _ => Iff.rfl⟩
      · rw [abreast.left, List.append_assoc]
        rfl
      · rw [abreast.right, List.append_assoc]
        rfl
    obtain ⟨q', b₁, t₁, abreast', fold', mirrored⟩ :=
      read.congr feed feed' rfl longer fold (show more.length + 1 ≤ _ by omega)
    obtain ⟨same, rfl, rfl⟩ := mirrored.unique read'
    cases same
    exact ⟨rfl, fold', _, _, q', feed, feed', abreast'⟩

/-- One of the scans cannot find a datum where the other finds the end of the line. -/
theorem Reads.not_ended_of_inside (ends : y.AtLineEnd) (ends' : z.AtLineEnd)
    (abreast : Cursor.Abreast .lineEnd y z q a b) (fold : t.foldCase = s.foldCase)
    (line : a.position.line = anchor)
    (skipped : Reads ctx (.intraline anchor) a s .nothing a' s')
    (same : a'.position.line = anchor) (inside : a'.atLineEnd = false)
    (skipped' : Reads ctx' (.intraline anchor) b t .nothing b' t') :
    ¬ (b'.position.line ≠ anchor ∨ b'.atLineEnd = true) := by
  obtain ⟨q', abreast', -, inside'⟩ :=
    intraline_abreast ends ends' abreast fold line skipped same inside skipped'
  rintro (left | ended)
  · rw [abreast'.position (.inl rfl)] at left
    exact left same
  · rw [inside'] at ended
    cases ended

end Scans

theorem Reads.datums_abreast {ctx ctx' : Context} {anchor : Int} {y z q : Text} {a a' b b' : Cursor}
    {s s' t t' : ReaderState} {before ds es : List Datum}
    (strict : ctx.policy.lineCrossing = .error) (strict' : ctx'.policy.lineCrossing = .error)
    (ends : y.AtLineEnd) (ends' : z.AtLineEnd) (abreast : Cursor.Abreast .lineEnd y z q a b)
    (line : a.position.line = anchor)
    (scan : Reads ctx (.datums anchor before) a s (.datums ds) a' s')
    (scan' : Reads ctx' (.datums anchor before) b t (.datums es) b' t')
    (fold : t.foldCase = s.foldCase) : ds = es := by
  -- by induction on what is left to read: as no datum leaves the line in either scan, each goes on or
  -- stops, and they do so alike
  cases scan with
  | crossingDatum _ _ _ _ _ allowed =>
    rw [strict] at allowed
    cases allowed
  | lastDatum skipped ended =>
    cases scan' with
    | crossingDatum _ _ _ _ _ allowed =>
      rw [strict'] at allowed
      cases allowed
    | lastDatum _ _ => rfl
    | lineDatum skipped' same' follows' _ _ _ =>
      have line' : b.position.line = anchor := by rw [abreast.position (.inl rfl), line]
      exact absurd ended (not_ended_of_inside ends' ends abreast.symm fold.symm line' skipped' same'
        follows' skipped)
  | lineDatum skipped same follows read stays others =>
    cases scan' with
    | crossingDatum _ _ _ _ _ allowed =>
      rw [strict'] at allowed
      cases allowed
    | lastDatum skipped' ended' =>
      exact absurd ended' (not_ended_of_inside ends ends' abreast fold line skipped same follows
        skipped')
    | lineDatum skipped' same' follows' read' stays' others' =>
      obtain ⟨q₁, abreast₁, fold₁, -⟩ :=
        intraline_abreast ends ends' abreast fold line skipped same follows skipped'
      obtain ⟨rfl, fold₂, y₂, z₂, q₂, ends₂, ends₂', abreast₂⟩ :=
        read.datum_abreast ends ends' abreast₁ (by rw [stays, same]) read' (by rw [stays', same']) fold₁
      have short := skipped.length_le
      have shorter := read.length_lt rfl
      exact datums_abreast strict strict' ends₂ ends₂' abreast₂ stays others others' fold₂
termination_by a.rest.length

/-- What follows the line of a directive does not matter to its data, where no datum may leave the
line: two scans of the same line that both succeed yield the same data, whatever ends the line and
whatever stands on later lines. -/
theorem Directive.datums_eq_of_same_line {ctx ctx' : Context} {src src' : Source}
    {line nl nl' after after' : Text} {s s' t t' : ReaderState} {d d' : Directive}
    {last last' : Cursor} (strict : ctx.policy.lineCrossing = .error)
    (strict' : ctx'.policy.lineCrossing = .error) (fold : s.foldCase = t.foldCase)
    (one_line : ∀ c ∈ line, c ≠ .carriageReturn ∧ c ≠ .lineFeed)
    (ends : Text.EndsLine nl after) (ends' : Text.EndsLine nl' after')
    (text : src.text = directiveMarker ++ (line ++ (nl ++ after)))
    (text' : src'.text = directiveMarker ++ (line ++ (nl' ++ after')))
    (scan : (src.scanDirective ctx ⟨1, 2, 2⟩).Returns s (d, last) s')
    (scan' : (src'.scanDirective ctx' ⟨1, 2, 2⟩).Returns t (d', last') t') :
    d.datums = d'.datums := by
  obtain ⟨ds, stop, scanned, rfl, -⟩ := Reader.returns_scanDirective.mp scan
  obtain ⟨ds', stop', scanned', rfl, -⟩ := Reader.returns_scanDirective.mp scan'
  have left := Source.rest_cursor_after_marker text
  have right := Source.rest_cursor_after_marker text'
  have abreast : Cursor.Abreast .lineEnd (nl ++ after) (nl' ++ after') line (src.cursor ⟨1, 2, 2⟩)
      (src'.cursor ⟨1, 2, 2⟩) := by
    refine ⟨left, right, rfl, fun _ => rfl, ?_⟩
    intro _ last
    exact absurd rfl (one_line _ (List.mem_of_getLast? last)).1
  exact Reads.datums_abreast strict strict' ends.atLineEnd ends'.atLineEnd abreast rfl scanned scanned'
    fold.symm

/-- A comment that starts on the line ends at different places of different later lines. -/
theorem Directive.datums_eq_of_same_line_comment :
    ∃ d d' : Directive,
      (∃ last s, (Source.scanDirective ⟨"#! r6rs #| x\n|# b", none⟩ {} ⟨1, 2, 2⟩).Returns {}
        (d, last) s) ∧
      (∃ last s, (Source.scanDirective ⟨"#! r6rs #| x\r\ny |# \"c\"", none⟩ {} ⟨1, 2, 2⟩).Returns {}
        (d', last) s) ∧ d.datums = d'.datums := by
  have first : ∃ last s, (Source.scanDirective ⟨"#! r6rs #| x\n|# b", none⟩ {} ⟨1, 2, 2⟩).Returns {}
      (⟨[.symbol "r6rs"], some ⟨1, 0, 0⟩⟩, last) s := ⟨_, _, rfl⟩
  have second : ∃ last s, (Source.scanDirective ⟨"#! r6rs #| x\r\ny |# \"c\"", none⟩ {}
      ⟨1, 2, 2⟩).Returns {} (⟨[.symbol "r6rs"], some ⟨1, 0, 0⟩⟩, last) s := ⟨_, _, rfl⟩
  refine ⟨_, _, first, second, ?_⟩
  obtain ⟨last, s, scan⟩ := first
  obtain ⟨last', s', scan'⟩ := second
  have one_line : ∀ c ∈ (" r6rs #| x" : Text), c ≠ .carriageReturn ∧ c ≠ .lineFeed := by decide
  have feed : Text.EndsLine [.lineFeed] "|# b" := .inr (.inl rfl)
  have pair : Text.EndsLine [.carriageReturn, .lineFeed] "y |# \"c\"" := .inr (.inr (.inl rfl))
  refine Directive.datums_eq_of_same_line ?_ ?_ ?_ one_line feed pair ?_ ?_ scan scan'
  · rfl
  · rfl
  · rfl
  · rfl
  · rfl

end LineDirective
