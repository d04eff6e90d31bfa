import LineDirective.Proofs.Extent

/-!
# Data on one line

Where no datum may leave the line of a directive, the line numbers at both ends of each datum are the
same. A line number moves with the last code point of a line break, so the text of the datum holds no
line break, but it may end with the carriage return of a pair. Only a character literal can do that:
after `#\` any code point stands for itself.
-/

namespace LineDirective

/-! ## 1. The text between two places -/

def Cursor.textTo (c c' : Cursor) : Text := c.rest.take (c.rest.length - c'.rest.length)

namespace Cursor

variable {a b c : Cursor}

theorem Reaches.textTo_append (h : a.Reaches b) : a.textTo b ++ b.rest = a.rest := by
  unfold textTo
  rw [rest_eq_drop_of_reaches h, List.length_drop]
  have whole := h.length_le
  rw [show a.rest.length - (a.rest.length - (a.rest.length - b.rest.length)) =
    a.rest.length - b.rest.length by omega]
  exact List.take_append_drop _ _

theorem Reaches.textTo_trans (first : a.Reaches b) (second : b.Reaches c) :
    a.textTo c = a.textTo b ++ b.textTo c := by
  have whole := (first.trans second).textTo_append
  rw [← first.textTo_append, ← second.textTo_append, ← List.append_assoc] at whole
  exact List.append_cancel_right whole

theorem textTo_next {x : CodePoint} {rest : Text} (h : c.rest = x :: rest) :
    c.textTo c.next = [x] := by
  unfold textTo
  rw [rest_next, h]
  simp

theorem textTo_advance (c : Cursor) (n : Nat) : c.textTo (c.advance n) = c.rest.take n := by
  unfold textTo
  rw [rest_advance, List.length_drop]
  by_cases short : n ≤ c.rest.length
  · rw [show c.rest.length - (c.rest.length - n) = n by omega]
  · rw [List.take_of_length_le (by omega), List.take_of_length_le (by omega)]

/-- The text up to the end of the line holds no line break. -/
theorem onOneLine_textTo_lineEnd (c : Cursor) : Text.OnOneLine (c.textTo c.lineEnd) := by
  unfold lineEnd skipWhile span
  rw [textTo_advance]
  have front : c.rest.takeWhile (fun x => !x.isNewline) <+: c.rest := List.takeWhile_prefix _
  rw [← List.prefix_iff_eq_take.mp front]
  exact Text.onOneLine_takeWhile c.rest

/-- On the same line lies what is free of line breaks, or ends with the first half of one. -/
theorem Reaches.textTo_of_line_eq (h : a.Reaches b) (same : b.position.line = a.position.line) :
    (a.textTo b).OnOneLine ∨ ∃ before rest : Text, a.textTo b = before ++ [.carriageReturn] ∧
      before.OnOneLine ∧ b.rest = .lineFeed :: rest := by
  rcases h.cases_of_line_eq same with ⟨-, stays⟩ | rfl | ⟨rest, pair, rfl⟩
  · have ahead := h.textTo_trans b.reaches_lineEnd
    rw [stays] at ahead
    have line := a.onOneLine_textTo_lineEnd
    rw [ahead, Text.onOneLine_append] at line
    exact .inl line.1
  · exact .inl a.onOneLine_textTo_lineEnd
  · refine .inr ⟨a.textTo a.lineEnd, rest, ?_, a.onOneLine_textTo_lineEnd, ?_⟩
    · rw [a.reaches_lineEnd.textTo_trans a.lineEnd.reaches_next, textTo_next pair]
    · rw [rest_next, pair]
      rfl

end Cursor

/-! ## 2. How a datum ends -/

/-- A text that is not empty and ends with whitespace only as a character literal does. -/
def Text.EndsVisibly (t : Text) : Prop :=
  ∃ (before : Text) (x : CodePoint), t = before ++ [x] ∧
    (x.isBlank = true → [.scalar '#', .backslash] <:+ before)

namespace Text

theorem EndsVisibly.append_left {t : Text} (u : Text) (h : t.EndsVisibly) :
    EndsVisibly (u ++ t) := by
  obtain ⟨before, x, rfl, literal⟩ := h
  refine ⟨u ++ before, x, (List.append_assoc ..).symm, ?_⟩
  intro blank
  exact (literal blank).trans (List.suffix_append u before)

theorem endsVisibly_of_visible {before : Text} {x : CodePoint} (visible : x.isBlank = false) :
    EndsVisibly (before ++ [x]) := by
  refine ⟨before, x, rfl, ?_⟩
  intro blank
  rw [visible] at blank
  cases blank

end Text

namespace Lexeme

/-- A token ends with a code point that is no delimiter, and so does what ends with a token. -/
theorem endsVisibly_token {t : Text} (some_token : token t ≠ []) : (token t).EndsVisibly := by
  have plain := plain_of_mem_token (List.getLast_mem some_token)
  rw [← List.dropLast_append_getLast some_token]
  apply Text.endsVisibly_of_visible
  exact (Bool.or_eq_false_iff.mp plain).1

theorem quotedFrom_take {q : Quotation} {skip start : Nat} {t content : Text} {size : Nat}
    (h : quotedFrom q skip start t = .ok (content, size)) :
    ∃ before, t.take (size - start) = before ++ [q.mark] := by
  -- by induction along the text: the last code point is the closing mark
  have bounds := quotedFrom_size h
  fun_induction quotedFrom q skip start t generalizing content size with
  | case1 => cases h
  | case2 skip start x rest ih =>
    obtain ⟨before, found⟩ := ih h (quotedFrom_size h)
    refine ⟨x :: before, ?_⟩
    rw [show size - start = (size - (start + 1)) + 1 by omega, List.take_succ_cons, found]
    rfl
  | case3 start rest =>
    simp only [Except.ok.injEq, Prod.mk.injEq] at h
    refine ⟨[], ?_⟩
    rw [show size - start = 1 by omega]
    rfl
  | case4 => cases h
  | case5 start rest _ meaning n _ ih =>
    obtain ⟨⟨more, _⟩, hrest, same⟩ := map_eq_ok.mp h
    cases same
    obtain ⟨before, found⟩ := ih hrest (quotedFrom_size hrest)
    refine ⟨.backslash :: before, ?_⟩
    rw [show size - start = (size - (start + 1)) + 1 by omega, List.take_succ_cons, found]
    rfl
  | case6 start c rest _ _ ih =>
    obtain ⟨⟨more, _⟩, hrest, same⟩ := map_eq_ok.mp h
    cases same
    obtain ⟨before, found⟩ := ih hrest (quotedFrom_size hrest)
    refine ⟨c :: before, ?_⟩
    rw [show size - start = (size - (start + 1)) + 1 by omega, List.take_succ_cons, found]
    rfl

theorem endsVisibly_quoted {q : Quotation} {t content : Text} {size : Nat}
    (h : quoted q t = .ok (content, size)) : Text.EndsVisibly (t.take size) := by
  have bounds := quoted_size h
  obtain ⟨before, found⟩ := quotedFrom_take h
  have mark : q.mark.isBlank = false := by cases q <;> decide
  have parts : t.take size = t.take 1 ++ (t.drop 1).take (size - 1) := by
    rw [← List.take_add, show 1 + (size - 1) = size by omega]
  rw [parts, found]
  exact (Text.endsVisibly_of_visible mark).append_left _

theorem endsVisibly_character {fold : Bool} {rest : Text} {x : CodePoint} {size : Nat}
    (h : character fold (.scalar '#' :: .backslash :: rest) = .ok (x, size)) :
    Text.EndsVisibly ((.scalar '#' :: .backslash :: rest : Text).take size) := by
  unfold character at h
  cases rest with
  | nil => cases h
  | cons first rest =>
    simp only [List.drop_succ_cons, List.drop_zero] at h
    split at h
    -- one code point, which may be anything
    · cases h
      exact ⟨[.scalar '#', .backslash], _, rfl, fun _ => List.suffix_rfl⟩
    · rename_i some_token
      have long : size = (token rest).length + 3 := by
        simp only [List.length_cons] at h
        split at h
        · cases h; omega
        · split at h
          · split at h
            · cases h
            · cases h
            · cases h; omega
          · cases h
      rw [long, show (token rest).length + 3 = (token rest).length + 1 + 1 + 1 by omega,
        List.take_succ_cons, List.take_succ_cons, List.take_succ_cons, take_token]
      exact (endsVisibly_token some_token).append_left [.scalar '#', .backslash, first]

theorem token_ne_nil_of_hashToken {t : Text} {d : Datum} {size : Nat}
    (h : hashToken t = .ok (d, size)) : token (t.drop 1) ≠ [] := by
  intro nothing
  unfold hashToken at h
  rw [nothing] at h
  simp only at h
  rw [if_neg (by decide), if_neg (by decide)] at h
  cases h

theorem Spells.endsVisibly {fold : Bool} {t : Text} {d : Datum} {size : Nat}
    (h : Spells fold t d size) : Text.EndsVisibly (t.take size) := by
  cases h with
  | string opened read => exact endsVisibly_quoted read
  | symbol opened read => exact endsVisibly_quoted read
  | character opened read =>
    subst opened
    exact endsVisibly_character read
  | hash opened read =>
    obtain ⟨more, rfl⟩ := head_of_startsHashToken opened
    have some_token := token_ne_nil_of_hashToken read
    rw [hashToken_size read, List.drop_one, List.tail_cons, List.take_succ_cons, take_token]
    exact (endsVisibly_token some_token).append_left [.scalar '#']
  | atom opened read =>
    obtain ⟨size_eq, some_token⟩ := atom_size read
    rw [size_eq, take_token]
    exact endsVisibly_token some_token

end Lexeme

def Task.readsDatum : Task → Bool
  | .datum _ | .here _ | .items .. => true
  | .atmosphere _ | .comment _ | .intraline _ | .datums .. => false

theorem Reads.endsVisibly {ctx : Context} {task : Task} {c next : Cursor} {s s' : ReaderState}
    {y : Yield} (h : Reads ctx task c s y next s') (reads : task.readsDatum = true) :
    (c.textTo next).EndsVisibly := by
  -- by induction on the rules: a datum ends as its last part does, and a list with its bracket
  induction h with
  | code skipped read _ ih =>
    rw [skipped.reaches.textTo_trans read.reaches]
    exact (ih rfl).append_left _
  | directive read ih => exact ih rfl
  | @flat mode c s d size spelled =>
    rw [Cursor.textTo_advance]
    exact spelled.endsVisibly
  | @list _ c _ _ _ _ _ _ head opener items ih =>
    rw [c.reaches_next.textTo_trans items.reaches]
    exact (ih rfl).append_left _
  | @abbreviation _ c _ a _ _ _ _ _ mark skipped follows read _ ih =>
    rw [((c.reaches_advance a.mark.length).trans skipped.reaches).textTo_trans read.reaches]
    exact (ih rfl).append_left _
  | @vector _ c _ _ _ _ _ head read ih =>
    rw [(c.reaches_advance 2).textTo_trans read.reaches]
    exact (ih rfl).append_left _
  | @bytevector _ c _ _ _ _ _ _ head read bytes ih =>
    rw [(c.reaches_advance 4).textTo_trans read.reaches]
    exact (ih rfl).append_left _
  | @close _ closer _ _ _ c₁ _ _ skipped head closes ih =>
    have visible : closer.isBlank = false := by
      have which : closer = .scalar ')' ∨ closer = .scalar ']' := by
        simpa [isCloser] using closes
      rcases which with rfl | rfl <;> decide
    rw [skipped.reaches.textTo_trans c₁.reaches_next, Cursor.textTo_next head]
    exact Text.endsVisibly_of_visible visible
  | @dot _ _ _ _ _ c₁ _ _ _ _ _ _ _ _ _ _ skipped head lone some_item skipped₂ follows read others _
      _ _ ih =>
    have ahead := skipped.reaches.trans (c₁.reaches_next.trans (skipped₂.reaches.trans read.reaches))
    rw [ahead.textTo_trans others.reaches]
    exact (ih rfl).append_left _
  | item skipped head open_ no_dot read others _ _ ih =>
    rw [(skipped.reaches.trans read.reaches).textTo_trans others.reaches]
    exact (ih rfl).append_left _
  | blank _ _ _ _ => cases reads
  | remark _ _ _ _ _ => cases reads
  | clear _ _ => cases reads
  | lineComment _ => cases reads
  | blockComment _ _ => cases reads
  | datumComment _ _ _ => cases reads
  | emptyComment _ _ _ _ => cases reads
  | lineDatumComment _ _ _ _ _ _ _ => cases reads
  | marker _ _ => cases reads
  | lineDirective _ _ _ _ _ _ => cases reads
  | intralineBlank _ _ _ _ => cases reads
  | intralineComment _ _ _ _ _ _ => cases reads
  | crossingComment _ _ _ _ => cases reads
  | intralineClear _ _ => cases reads
  | lastDatum _ _ _ => cases reads
  | crossingDatum _ _ _ _ _ _ _ _ => cases reads
  | lineDatum _ _ _ _ _ _ _ _ _ => cases reads

/-! ## 3. The data of a directive -/

def Span.text (span : Span) : Text := span.start.textTo span.stop

/-- The datum ends with the first half of a line break, as the code point of a character literal. -/
def Span.SplitsBreak (span : Span) : Prop :=
  ∃ before rest : Text, span.text = before ++ [.scalar '#', .backslash, .carriageReturn] ∧
    before.OnOneLine ∧ span.stop.rest = .lineFeed :: rest

theorem Span.onOneLine_or_splitsBreak {ctx : Context} {fold : Bool} {span : Span}
    (read : span.IsRead ctx fold) (same : span.stop.position.line = span.start.position.line) :
    span.text.OnOneLine ∨ span.SplitsBreak := by
  have ahead := read.reaches
  obtain ⟨t, t', -, returned⟩ := read
  rcases ahead.textTo_of_line_eq same with line | ⟨before, rest, text, line, pair⟩
  · exact .inl line
  -- a carriage return is whitespace, so a character literal ends here
  · obtain ⟨lead, x, whole, literal⟩ := (Reader.returns_readDatum.mp returned).endsVisibly rfl
    obtain ⟨rfl, same⟩ := List.append_inj' (text.symm.trans whole) rfl
    obtain rfl := List.singleton_inj.mp same
    obtain ⟨front, rfl⟩ := literal (by decide)
    rw [Text.onOneLine_append] at line
    refine .inr ⟨front, rest, ?_, line.1, pair⟩
    rw [Span.text, text, List.append_assoc]
    rfl

/-- Where no datum may leave the line of a directive, the text of each datum that a scan reads holds
no line break and no part of one, unless the datum ends with a character literal whose code point is
the carriage return of a pair. The places where the data are read are those that the trace reports. -/
theorem Directive.data_on_one_line {src : Source} {ctx : Context} {p : Position}
    {s s' : ReaderState} {d : Directive} {last : Cursor}
    (strict : ctx.policy.lineCrossing = .error)
    (scan : (src.scanDirective ctx p).Returns s (d, last) s') :
    ∃ spans : List Span, d.datums = spans.map (·.datum) ∧
      s'.datumStarts = s.datumStarts ++ spans.map (·.start.position) ∧
      ∀ span ∈ spans, (src.cursor p).Reaches span.start ∧ span.IsRead ctx s.foldCase ∧
        (span.text.OnOneLine ∨ span.SplitsBreak) := by
  obtain ⟨ds, stop, scanned, rfl, rfl⟩ :=
    Reader.returns_scanDirective.mp (Source.returns_scanDirective scan)
  obtain ⟨spans, rfl, found, on_line⟩ := scanned.exists_traversal_on_line rfl
  refine ⟨spans, rfl, ?_, ?_⟩
  · rw [found.reported, ReaderState.datumStarts_emit]
    simp [Event.datumStart?]
  · intro span mem
    obtain ⟨ahead, same, -⟩ := found.starts span mem
    have read := found.reads span mem
    have stays := (on_line strict span mem).trans same.symm
    exact ⟨ahead, read, span.onOneLine_or_splitsBreak read stays⟩

/-- Two data before a line break of two code points. -/
theorem Directive.data_on_one_line_list :
    ∃ d last s', (Source.scanDirective ⟨"#! a (b #t)\r\nc", none⟩ {} ⟨1, 2, 2⟩).Returns {}
        (d, last) s' ∧
      d.datums = [.symbol "a", .list [.symbol "b", .boolean true]] ∧
      ∃ spans : List Span, d.datums = spans.map (·.datum) ∧
        ∀ span ∈ spans, span.text.OnOneLine ∨ span.SplitsBreak := by
  have scanned : ∃ d last s', (Source.scanDirective ⟨"#! a (b #t)\r\nc", none⟩ {}
      ⟨1, 2, 2⟩).Returns {} (d, last) s' ∧
      d.datums = [.symbol "a", .list [.symbol "b", .boolean true]] :=
    ⟨_, _, _, rfl, rfl⟩
  obtain ⟨d, last, s', scan, data⟩ := scanned
  obtain ⟨spans, same, -, inside⟩ := Directive.data_on_one_line rfl scan
  exact ⟨d, last, s', scan, data, spans, same, fun span mem => (inside span mem).2.2⟩

/-- A character literal can take up the first half of a line break. -/
theorem Directive.datum_splits_break :
    ∃ d last s' next t t', (Source.scanDirective ⟨"#! #\\\r\nx", none⟩ {} ⟨1, 2, 2⟩).Returns {}
        (d, last) s' ∧
      d.datums = [.char .carriageReturn] ∧ s'.datumStarts = [⟨1, 3, 3⟩] ∧
      (Reader.readDatum {} .directive ⟨"#\\\r\nx", ⟨1, 3, 3⟩⟩).Returns t (.char .carriageReturn, next)
        t' ∧
      Cursor.textTo ⟨"#\\\r\nx", ⟨1, 3, 3⟩⟩ next = "#\\\r" ∧ next.position.line = 1 :=
  ⟨_, _, _, _, {}, _, rfl, rfl, rfl, rfl, rfl, rfl⟩

end LineDirective
