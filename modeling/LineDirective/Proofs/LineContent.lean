import LineDirective.Proofs.Coherence
import LineDirective.Proofs.Concatenation
import LineDirective.Proofs.Locality
import LineDirective.Proofs.Mirroring
import LineDirective.Proofs.Requests

/-!
# The content of a directive as code

A line without `#!` means the same after the marker of a directive as it means as a text of its own.
Two loops read it: a session looks for its items over whitespace and comments of any length, a scan
stays on its line and reads its data inside a directive. What sets the two modes apart is `#!`, which
does not stand on the line, the end of the line, which a text of one line only has at its end, and a
datum comment, which in a directive may comment out nothing. A read as code therefore is a read in a
directive (`Reads.enclosed`), and without datum comments a failure is the same failure
(`Fails.enclosed`).
-/

namespace LineDirective

/-! ## 1. Lines -/

/-- A text of one line without the marker of a directive. -/
structure Text.LineContent (t : Text) : Prop where
  one_line : t.OnOneLine
  no_marker : ¬ directiveMarker <:+: t

/-- A text of one line without the marker of a directive and without datum comments. -/
structure Text.PlainContent (t : Text) : Prop extends Text.LineContent t where
  no_comment : ¬ ("#;" : Text) <:+: t

section Lines

variable {c next : Cursor}

theorem Text.OnOneLine.ahead (h : OnOneLine c.rest) (ahead : c.Reaches next) :
    OnOneLine next.rest :=
  fun x mem => h x (ahead.rest_suffix.subset mem)

theorem Text.LineContent.ahead (h : LineContent c.rest) (ahead : c.Reaches next) :
    LineContent next.rest where
  one_line := h.one_line.ahead ahead
  no_marker found := h.no_marker (found.trans ahead.rest_suffix.isInfix)

theorem Text.PlainContent.ahead (h : PlainContent c.rest) (ahead : c.Reaches next) :
    PlainContent next.rest where
  toLineContent := h.toLineContent.ahead ahead
  no_comment found := h.no_comment (found.trans ahead.rest_suffix.isInfix)

theorem Text.LineContent.head_ne_marker {t rest : Text} (h : LineContent t) :
    t ≠ .scalar '#' :: .scalar '!' :: rest := by
  rintro rfl
  exact h.no_marker ⟨[], rest, rfl⟩

theorem Text.PlainContent.head_ne_comment {t rest : Text} (h : PlainContent t) :
    t ≠ .scalar '#' :: .scalar ';' :: rest := by
  rintro rfl
  exact h.no_comment ⟨[], rest, rfl⟩

/-- Without `#!` the same comments start in code and in a directive, under every policy. -/
theorem Text.LineContent.startsComment_eq {t : Text} (h : LineContent t)
    (policy policy' : WhitespacePolicy) (mode : Mode) :
    startsComment policy' .directive t = startsComment policy mode t := by
  unfold startsComment
  split
  · rfl
  · rfl
  · rfl
  · exact absurd rfl h.head_ne_marker
  · rfl

theorem Cursor.Reaches.line_eq (ahead : c.Reaches next) (one_line : c.rest.OnOneLine) :
    next.position.line = c.position.line := by
  obtain ⟨n, rfl⟩ := ahead
  have there : c.rest = c.rest.take n ++ c.rest.drop n := (List.take_append_drop n c.rest).symm
  have before : Text.OnOneLine (c.rest.take n) := fun x mem => one_line x (List.mem_of_mem_take mem)
  have moved := line_advance_of_onOneLine there before
  rwa [List.length_take, advance_min] at moved

theorem Cursor.atLineEnd_of_onOneLine (one_line : c.rest.OnOneLine) (some_rest : c.rest ≠ []) :
    c.atLineEnd = false := by
  obtain ⟨x, rest, head⟩ := List.exists_cons_of_ne_nil some_rest
  unfold atLineEnd atEnd atNewline
  rw [head] at one_line ⊢
  exact one_line x (List.mem_cons_self ..)

end Lines

/-! ## 2. Reads -/

def Task.inCode : Task → Bool
  | .datum mode | .here mode | .items mode .. | .atmosphere mode | .comment mode => mode = .code
  | .intraline _ | .datums .. => false

/-- A task of code succeeds inside a directive as well and leaves the state as it is. A datum of code
may have atmosphere before it. -/
def ReadsEnclosed (ctx : Context) (t : ReaderState) : Task → Cursor → Yield → Cursor → Prop
  | .datum _, c, y, next => ∃ c₁, Reads ctx (.atmosphere .directive) c t .nothing c₁ t ∧
      Reads ctx (.here .directive) c₁ t y next t
  | .here _, c, y, next => Reads ctx (.here .directive) c t y next t
  | .items _ closer parts, c, y, next => Reads ctx (.items .directive closer parts) c t y next t
  | .atmosphere _, c, y, next => Reads ctx (.atmosphere .directive) c t y next t
  | .comment _, c, y, next => Reads ctx (.comment .directive) c t y next t
  | .intraline _, _, _, _ | .datums .., _, _, _ => True

section Reads

variable {ctx ctx' : Context} {mode : Mode} {task : Task} {c next : Cursor} {s s' t : ReaderState}
  {y : Yield}

/-- Where neither whitespace nor a comment starts the datum is read right there. -/
theorem ReadsEnclosed.at_clear {d : Datum}
    (h : ReadsEnclosed ctx t (.datum mode) c (.datum d) next)
    (clear : Reads ctx (.atmosphere .directive) c t .nothing c t) :
    Reads ctx (.datum .directive) c t (.datum d) next t := by
  obtain ⟨c₁, skipped, read⟩ := h
  obtain ⟨-, rfl, -⟩ := skipped.unique clear
  exact .directive read

/-- After atmosphere there is none. -/
theorem Reads.clear_after (h : Reads ctx (.atmosphere mode) c s y next s')
    (content : c.rest.LineContent) (ctx' : Context) (t : ReaderState) :
    Reads ctx' (.atmosphere .directive) next t .nothing next t := by
  obtain ⟨visible, none_starts⟩ := h.clear_of_atmosphere
  refine .clear visible ?_
  rwa [(content.ahead h.reaches).startsComment_eq ctx.policy.whitespace ctx'.policy.whitespace mode]

/-- On one line atmosphere is skipped without leaving the line. -/
theorem Reads.intraline_of_onOneLine (h : Reads ctx (.atmosphere .directive) c s y next s')
    (one_line : c.rest.OnOneLine) :
    Reads ctx (.intraline c.position.line) c s .nothing next s' := by
  generalize skipping : Task.atmosphere .directive = task at h
  induction h with
  | @blank _ c _ x _ _ _ head white _ ih =>
    have inside : x.isNewline = false := one_line x (by simp [head])
    have others := ih (one_line.ahead c.reaches_next) skipping
    rw [c.reaches_next.line_eq one_line] at others
    exact .intralineBlank head (by simp [CodePoint.isIntralineBlank, white, inside]) others
  | @remark _ c _ c₁ _ _ _ visible skipped _ _ ih =>
    cases skipping
    have same := skipped.reaches.line_eq one_line
    have others := ih (one_line.ahead skipped.reaches) rfl
    rw [same] at others
    exact .intralineComment (intraline_visible visible) skipped same others
  | clear visible none_starts =>
    cases skipping
    exact .intralineClear (intraline_visible visible) none_starts
  | _ => cases skipping

theorem Reads.enclosed (h : Reads ctx task c s y next s') (inside : task.inCode = true)
    (content : c.rest.LineContent) (ctx' : Context) (fold : t.foldCase = s.foldCase) :
    s' = s ∧ ReadsEnclosed ctx' t task c y next := by
  -- by induction on the rules: each of them has its counterpart in a directive, and without markers
  -- and directives none of them changes the state
  induction h with
  | code skipped _ ih₁ ih₂ =>
    obtain ⟨rfl, skip⟩ := ih₁ inside content fold
    obtain ⟨rfl, read⟩ := ih₂ inside (content.ahead skipped.reaches) fold
    exact ⟨rfl, _, skip, read⟩
  | flat spelled => exact ⟨rfl, .flat (fold ▸ spelled)⟩
  | @list _ c _ _ _ _ _ _ head opener _ ih =>
    obtain ⟨rfl, items⟩ := ih inside (content.ahead c.reaches_next) fold
    exact ⟨rfl, .list head opener items⟩
  | @abbreviation mode c _ a _ _ _ _ _ mark skipped follows _ ih₁ ih₂ =>
    have onward := content.ahead (c.reaches_advance a.mark.length)
    obtain ⟨rfl, skip⟩ := ih₁ inside onward fold
    obtain ⟨rfl, read⟩ := ih₂ inside (onward.ahead skipped.reaches) fold
    exact ⟨rfl, .abbreviation mark skip follows (read.at_clear (skipped.clear_after onward ctx' t))⟩
  | @vector _ c _ _ _ _ _ head _ ih =>
    obtain ⟨rfl, items⟩ := ih inside (content.ahead (c.reaches_advance 2)) fold
    exact ⟨rfl, .vector head items⟩
  | @bytevector _ c _ _ _ _ _ _ head _ bytes ih =>
    obtain ⟨rfl, items⟩ := ih inside (content.ahead (c.reaches_advance 4)) fold
    exact ⟨rfl, .bytevector head items bytes⟩
  | close _ head closes ih =>
    obtain ⟨rfl, skip⟩ := ih inside content fold
    exact ⟨rfl, .close skip head closes⟩
  | @dot _ _ _ _ _ c₁ _ _ _ _ _ _ _ _ _ _ skipped head lone some_item skipped₂ follows read _ ih₁ ih₂
      ih₃ ih₄ =>
    have content₁ := content.ahead skipped.reaches
    have content₂ := content₁.ahead c₁.reaches_next
    have content₃ := content₂.ahead skipped₂.reaches
    obtain ⟨rfl, skip⟩ := ih₁ inside content fold
    obtain ⟨rfl, skip₂⟩ := ih₂ inside content₂ fold
    obtain ⟨rfl, datum⟩ := ih₃ inside content₃ fold
    obtain ⟨rfl, others⟩ := ih₄ inside (content₃.ahead read.reaches) fold
    exact ⟨rfl, .dot skip head lone some_item skip₂ follows
      (datum.at_clear (skipped₂.clear_after content₂ ctx' t)) others⟩
  | item skipped head open_ no_dot read _ ih₁ ih₂ ih₃ =>
    have content₁ := content.ahead skipped.reaches
    obtain ⟨rfl, skip⟩ := ih₁ inside content fold
    obtain ⟨rfl, datum⟩ := ih₂ inside content₁ fold
    obtain ⟨rfl, others⟩ := ih₃ inside (content₁.ahead read.reaches) fold
    exact ⟨rfl, .item skip head open_ no_dot
      (datum.at_clear (skipped.clear_after content ctx' t)) others⟩
  | @blank _ c _ _ _ _ _ head white _ ih =>
    obtain ⟨rfl, others⟩ := ih inside (content.ahead c.reaches_next) fold
    exact ⟨rfl, .blank head white others⟩
  | remark visible skipped _ ih₁ ih₂ =>
    obtain ⟨rfl, skip⟩ := ih₁ inside content fold
    obtain ⟨rfl, others⟩ := ih₂ inside (content.ahead skipped.reaches) fold
    exact ⟨rfl, .remark visible skip others⟩
  | clear visible none_starts =>
    exact ⟨rfl, .clear visible ((content.startsComment_eq _ _ _).trans none_starts)⟩
  | lineComment head => exact ⟨rfl, .lineComment head⟩
  | blockComment head ends => exact ⟨rfl, .blockComment head ends⟩
  -- the datum commented out stands on the line, since there is no other
  | @datumComment c _ _ _ _ _ head _ ih =>
    have onward := content.ahead (c.reaches_advance 2)
    obtain ⟨rfl, c₁, skip, read⟩ := ih inside onward fold
    have content₁ := onward.ahead skip.reaches
    have same := ((c.reaches_advance 2).trans skip.reaches).line_eq content.one_line
    have some_rest : c₁.rest ≠ [] := List.ne_nil_of_length_pos (by have := read.length_lt rfl; omega)
    have line := skip.intraline_of_onOneLine onward.one_line
    rw [(c.reaches_advance 2).line_eq content.one_line] at line
    exact ⟨rfl, .lineDatumComment head line same
      (Cursor.atLineEnd_of_onOneLine content₁.one_line some_rest) (.directive read)⟩
  | marker head _ | lineDirective head _ _ _ _ => exact absurd head content.head_ne_marker
  | directive | emptyComment | lineDatumComment | intralineBlank | intralineComment
  | crossingComment | intralineClear | lastDatum | crossingDatum | lineDatum =>
    simp [Task.inCode] at inside

end Reads

/-! ## 3. Failures -/

theorem Context.complaint_congr {ctx ctx' : Context} (named : ctx'.sourceName = ctx.sourceName)
    (cause : Cause) (p : Position) : ctx.complaint cause p = ctx'.complaint cause p := by
  unfold complaint
  rw [named]

theorem Context.blame_congr {ctx ctx' : Context} (named : ctx'.sourceName = ctx.sourceName)
    (c : Cursor) (f : LexemeFailure) : ctx.blame c f = ctx'.blame c f := by
  cases f with
  | malformed cause distance => exact complaint_congr named cause _
  | fault fault => rfl

/-- A task of code fails inside a directive as well, with the same failure, and leaves the state as it
is; a datum of code does so where it starts. -/
def FailsEnclosed (ctx : Context) (t : ReaderState) (opened : Position) (e : Failure) :
    Task → Cursor → Prop
  | .datum _, c => Reads ctx (.atmosphere .directive) c t .nothing c t →
      Fails ctx opened (.datum .directive) c t e t
  | .here _, c => Fails ctx opened (.here .directive) c t e t
  | .items _ closer parts, c => Fails ctx opened (.items .directive closer parts) c t e t
  | .atmosphere _, c => Fails ctx opened (.atmosphere .directive) c t e t
  | .comment _, c => Fails ctx opened (.comment .directive) c t e t
  | .intraline _, _ | .datums .., _ => True

section Fails

variable {ctx ctx' : Context} {mode : Mode} {task : Task} {c next : Cursor} {s s' t : ReaderState}
  {opened : Position} {e : Failure}

theorem Refuses.enclosed {fold : Bool} (h : Refuses ctx mode fold c e)
    (content : c.rest.LineContent) (named : ctx'.sourceName = ctx.sourceName) :
    Refuses ctx' .directive fold c e := by
  cases h with
  | ended nothing => exact Context.complaint_congr named _ _ ▸ .ended nothing
  | closer head closes => exact Context.complaint_congr named _ _ ▸ .closer head closes
  | lexeme misspelled => exact Context.blame_congr named _ _ ▸ .lexeme misspelled
  | nested _ starts =>
    obtain ⟨rest, head, -⟩ := atDirective_iff.mp starts
    exact absurd head content.head_ne_marker
  | marker head _ => exact absurd head content.head_ne_marker

theorem Fails.intraline_of_onOneLine (h : Fails ctx opened (.atmosphere .directive) c s e s')
    (one_line : c.rest.OnOneLine) : Fails ctx opened (.intraline c.position.line) c s e s' := by
  generalize skipping : Task.atmosphere .directive = task at h
  induction h with
  | @blank _ _ c _ x _ _ _ head white _ ih =>
    have inside : x.isNewline = false := one_line x (by simp [head])
    have others := ih (one_line.ahead c.reaches_next) skipping
    rw [c.reaches_next.line_eq one_line] at others
    exact .intralineBlank head (by simp [CodePoint.isIntralineBlank, white, inside]) others
  | remarkSkip visible skip _ =>
    cases skipping
    exact .intralineSkip (intraline_visible visible) skip
  | remark visible skipped _ ih =>
    cases skipping
    have same := skipped.reaches.line_eq one_line
    have others := ih (one_line.ahead skipped.reaches) rfl
    rw [same] at others
    exact .intralineComment (intraline_visible visible) skipped same others
  | _ => cases skipping

theorem Fails.enclosed (h : Fails ctx opened task c s e s') (inside : task.inCode = true)
    (content : c.rest.PlainContent) (named : ctx'.sourceName = ctx.sourceName)
    (fold : t.foldCase = s.foldCase) : FailsEnclosed ctx' t opened e task c := by
  have complain := Context.complaint_congr named
  -- by induction on the rules, as for the reads that have succeeded before
  induction h with
  | codeSkip _ ih =>
    intro clear
    have failed := (Reader.raises_skipAtmosphere _).mpr (ih inside content fold)
    exact absurd failed (Reader.returns_skipAtmosphere.mpr clear).not_raises
  | code skipped _ ih =>
    intro clear
    obtain ⟨rfl, skip⟩ := skipped.enclosed inside content.toLineContent ctx' fold
    obtain ⟨-, rfl, -⟩ := skip.unique clear
    exact .directive (ih inside content fold)
  | refused refuses =>
    exact .refused (fold ▸ refuses.enclosed content.toLineContent named)
  | @list _ _ c _ _ _ _ _ head opener _ ih =>
    exact .list head opener (ih inside (content.ahead c.reaches_next) fold)
  | @abbreviationSkip _ _ c _ a _ _ mark _ ih =>
    exact .abbreviationSkip mark (ih inside (content.ahead (c.reaches_advance a.mark.length)) fold)
  | @missingAbbreviated _ _ c _ a _ _ mark skipped nothing =>
    have onward := content.ahead (c.reaches_advance a.mark.length)
    obtain ⟨rfl, skip⟩ := skipped.enclosed inside onward.toLineContent ctx' fold
    exact complain _ _ ▸ .missingAbbreviated mark skip nothing
  | @abbreviation _ _ c _ a _ _ _ _ mark skipped follows _ ih =>
    have onward := content.ahead (c.reaches_advance a.mark.length)
    obtain ⟨rfl, skip⟩ := skipped.enclosed inside onward.toLineContent ctx' fold
    exact .abbreviation mark skip follows (ih inside (onward.ahead skipped.reaches) fold
      (skipped.clear_after onward.toLineContent ctx' t))
  | @vector _ _ c _ _ _ _ head _ ih =>
    exact .vector head (ih inside (content.ahead (c.reaches_advance 2)) fold)
  | @dottedVector _ _ c _ _ _ _ _ _ head read =>
    have onward := content.ahead (c.reaches_advance 2)
    obtain ⟨rfl, items⟩ := read.enclosed inside onward.toLineContent ctx' fold
    exact complain _ _ ▸ .dottedVector head items
  | @bytevector _ _ c _ _ _ _ head _ ih =>
    exact .bytevector head (ih inside (content.ahead (c.reaches_advance 4)) fold)
  | @badBytevector _ _ c _ _ _ _ _ head read bad =>
    have onward := content.ahead (c.reaches_advance 4)
    obtain ⟨rfl, items⟩ := read.enclosed inside onward.toLineContent ctx' fold
    exact complain _ _ ▸ .badBytevector head items bad
  | itemsSkip _ ih => exact .itemsSkip (ih inside content fold)
  | unterminated skipped nothing =>
    obtain ⟨rfl, skip⟩ := skipped.enclosed inside content.toLineContent ctx' fold
    exact complain _ _ ▸ .unterminated skip nothing
  | wrongCloser skipped head closes other =>
    obtain ⟨rfl, skip⟩ := skipped.enclosed inside content.toLineContent ctx' fold
    exact complain _ _ ▸ .wrongCloser skip head closes other
  | afterTail skipped head open_ =>
    obtain ⟨rfl, skip⟩ := skipped.enclosed inside content.toLineContent ctx' fold
    exact complain _ _ ▸ .afterTail skip head open_
  | leadingDot skipped head lone =>
    obtain ⟨rfl, skip⟩ := skipped.enclosed inside content.toLineContent ctx' fold
    exact complain _ _ ▸ .leadingDot skip head lone
  | @dotSkip _ _ _ _ _ _ c₁ _ _ _ _ skipped head lone some_item _ ih =>
    obtain ⟨rfl, skip⟩ := skipped.enclosed inside content.toLineContent ctx' fold
    have onward := (content.ahead skipped.reaches).ahead c₁.reaches_next
    exact .dotSkip skip head lone some_item (ih inside onward fold)
  | @missingTail _ _ _ _ _ _ c₁ _ _ _ _ skipped head lone some_item skipped₂ nothing =>
    have onward := (content.ahead skipped.reaches).ahead c₁.reaches_next
    obtain ⟨rfl, skip⟩ := skipped.enclosed inside content.toLineContent ctx' fold
    obtain ⟨rfl, skip₂⟩ := skipped₂.enclosed inside onward.toLineContent ctx' fold
    exact complain _ _ ▸ .missingTail skip head lone some_item skip₂ nothing
  | @tail _ _ _ _ _ _ c₁ _ _ _ _ _ _ skipped head lone some_item skipped₂ follows _ ih =>
    have onward := (content.ahead skipped.reaches).ahead c₁.reaches_next
    obtain ⟨rfl, skip⟩ := skipped.enclosed inside content.toLineContent ctx' fold
    obtain ⟨rfl, skip₂⟩ := skipped₂.enclosed inside onward.toLineContent ctx' fold
    exact .tail skip head lone some_item skip₂ follows (ih inside (onward.ahead skipped₂.reaches) fold
      (skipped₂.clear_after onward.toLineContent ctx' t))
  | @dot _ _ _ _ _ _ c₁ _ _ _ _ _ _ _ _ _ skipped head lone some_item skipped₂ follows read _ ih =>
    have onward := (content.ahead skipped.reaches).ahead c₁.reaches_next
    have further := onward.ahead skipped₂.reaches
    obtain ⟨rfl, skip⟩ := skipped.enclosed inside content.toLineContent ctx' fold
    obtain ⟨rfl, skip₂⟩ := skipped₂.enclosed inside onward.toLineContent ctx' fold
    obtain ⟨rfl, datum⟩ := read.enclosed inside further.toLineContent ctx' fold
    exact .dot skip head lone some_item skip₂ follows
      (datum.at_clear (skipped₂.clear_after onward.toLineContent ctx' t))
      (ih inside (further.ahead read.reaches) fold)
  | itemDatum skipped head open_ no_dot _ ih =>
    obtain ⟨rfl, skip⟩ := skipped.enclosed inside content.toLineContent ctx' fold
    exact .itemDatum skip head open_ no_dot (ih inside (content.ahead skipped.reaches) fold
      (skipped.clear_after content.toLineContent ctx' t))
  | item skipped head open_ no_dot read _ ih =>
    have onward := content.ahead skipped.reaches
    obtain ⟨rfl, skip⟩ := skipped.enclosed inside content.toLineContent ctx' fold
    obtain ⟨rfl, datum⟩ := read.enclosed inside onward.toLineContent ctx' fold
    exact .item skip head open_ no_dot
      (datum.at_clear (skipped.clear_after content.toLineContent ctx' t))
      (ih inside (onward.ahead read.reaches) fold)
  | @blank _ _ c _ _ _ _ _ head white _ ih =>
    exact .blank head white (ih inside (content.ahead c.reaches_next) fold)
  | remarkSkip visible _ ih => exact .remarkSkip visible (ih inside content fold)
  | remark visible skipped _ ih =>
    obtain ⟨rfl, skip⟩ := skipped.enclosed inside content.toLineContent ctx' fold
    exact .remark visible skip (ih inside (content.ahead skipped.reaches) fold)
  | blockComment head endless => exact complain _ _ ▸ .blockComment head endless
  | datumComment head _ _ => exact absurd head content.head_ne_comment
  | lineDirective head _ _ _ _ | unrecorded head _ _ _ _ =>
    exact absurd head content.toLineContent.head_ne_marker
  | directive | lineDatumSkip | lineDatumComment | intralineBlank | intralineSkip | intralineComment
  | datumsSkip | lineDatumRead | crossingDatum | lineDatum => simp [Task.inCode] at inside

end Fails

/-! ## 4. Scans -/

section Scans

variable {ctx ctx' : Context} {anchor : Int} {before : List Datum} {c last : Cursor}
  {s s' t : ReaderState} {y : Yield} {x : CodePoint} {rest : Text} {forms : Session.Forms}

theorem Reads.datums_after_blank (head : c.rest = x :: rest) (white : x.isIntralineBlank = true)
    (h : Reads ctx (.datums anchor before) c.next s y last s') :
    Reads ctx (.datums anchor before) c s y last s' := by
  cases h with
  | lastDatum skipped ended => exact .lastDatum (.intralineBlank head white skipped) ended
  | crossingDatum skipped same follows read left allowed =>
    exact .crossingDatum (.intralineBlank head white skipped) same follows read left allowed
  | lineDatum skipped same follows read stays others =>
    exact .lineDatum (.intralineBlank head white skipped) same follows read stays others

theorem Fails.datums_after_blank {opened : Position} {e : Failure} (head : c.rest = x :: rest)
    (white : x.isIntralineBlank = true) (h : Fails ctx opened (.datums anchor before) c.next s e s') :
    Fails ctx opened (.datums anchor before) c s e s' := by
  cases h with
  | datumsSkip skip => exact .datumsSkip (.intralineBlank head white skip)
  | lineDatumRead skipped same follows read =>
    exact .lineDatumRead (.intralineBlank head white skipped) same follows read
  | crossingDatum skipped same follows read left refused =>
    exact .crossingDatum (.intralineBlank head white skipped) same follows read left refused
  | lineDatum skipped same follows read stays others =>
    exact .lineDatum (.intralineBlank head white skipped) same follows read stays others

/-- The atmosphere of code is skipped on the line. -/
theorem Reads.intraline_of_code {next : Cursor}
    (skipped : Reads ctx (.atmosphere .code) c s .nothing next s') (content : c.rest.LineContent)
    (ctx' : Context) (fold : t.foldCase = s.foldCase) :
    s' = s ∧ Reads ctx' (.intraline c.position.line) c t .nothing next t := by
  obtain ⟨rfl, skip⟩ := skipped.enclosed rfl content ctx' fold
  exact ⟨rfl, skip.intraline_of_onOneLine content.one_line⟩

/-- What is read in a directive up to the end of a text is read before a line break as well. -/
theorem Reads.before_break {task : Task} {a a' b : Cursor} {z q : Text}
    (h : Reads ctx task a s y a' s') (inside : task.inDirective = true) (short : task.reserve .lineEnd = 0)
    (ends : z.AtLineEnd) (abreast : Cursor.Abreast .lineEnd [] z q a b) (fold : t.foldCase = s.foldCase) :
    ∃ q' b' t', Cursor.Abreast .lineEnd [] z q' a' b' ∧ t'.foldCase = s'.foldCase ∧
      Reads ctx task b t y b' t' := by
  have open_end : Text.AtLineEnd [] := rfl
  exact h.congr open_end ends inside abreast fold (by simp [short])

theorem ReadsAll.scanned (h : ReadsAll ctx c s forms s') (content : c.rest.LineContent)
    (succeeds : forms.failure = none) (ctx' : Context) {z q : Text} (ends : z.AtLineEnd) {b : Cursor}
    (abreast : Cursor.Abreast .lineEnd [] z q c b) (fold : t.foldCase = s.foldCase) (before : List Datum) :
    ∃ stop last t', Reads ctx' (.datums c.position.line before) b t
        (.datums (before ++ forms.data)) last t' ∧
      c.Reaches stop ∧ Cursor.Abreast .lineEnd [] z [] stop last := by
  -- what the loop reads as code up to the end of the line a scan reads as data of a directive,
  -- whatever ends the line there: by induction on the rules of the loop, each of which is one datum
  induction h generalizing q b t before with
  | @ended c s c₁ s₁ skipped nothing =>
    obtain ⟨rfl, skip⟩ := skipped.intraline_of_code content ctx' fold
    obtain ⟨q₁, b₁, t₁, abreast₁, -, line⟩ := skip.before_break rfl rfl ends abreast rfl
    obtain rfl : q₁ = [] := by simpa [nothing] using abreast₁.left.symm
    have ended : b₁.atLineEnd = true := Cursor.atLineEnd_iff.mpr (by rwa [abreast₁.right])
    have none_left : before ++ Session.Forms.data {} = before := List.append_nil before
    rw [none_left]
    exact ⟨c₁, b₁, _, .lastDatum line (.inr ended), skipped.reaches, abreast₁⟩
  | skipFails | datumFails => cases succeeds
  | @datum c s c₁ s₁ d next s₂ forms s' skipped some_rest read others ih =>
    have content₁ := content.ahead skipped.reaches
    have same := skipped.reaches.line_eq content.one_line
    have stays := (skipped.reaches.trans read.reaches).line_eq content.one_line
    obtain ⟨rfl, skip⟩ := skipped.intraline_of_code content ctx' fold
    obtain ⟨q₁, b₁, t₁, abreast₁, fold₁, line⟩ := skip.before_break rfl rfl ends abreast rfl
    obtain ⟨rfl, datum⟩ := read.enclosed (t := t₁) rfl content₁ ctx' (fold₁.trans fold)
    obtain ⟨q₂, b₂, t₂, abreast₂, fold₂, datum'⟩ :=
      (datum.at_clear (skipped.clear_after content ctx' t₁)).before_break rfl rfl ends abreast₁
        (t := t₁.emit (.phase .skipping .readingDatum b₁.position)) rfl
    obtain ⟨stop, last, t', scan, ahead, abreast'⟩ := ih (content₁.ahead read.reaches) succeeds abreast₂
      (t := (t₂.emit (.datumRead (before.length + 1) b₁.position)).emit
        (.phase .readingDatum .skipping b₂.position)) (fold₂.trans (fold₁.trans fold)) (before ++ [d])
    have follows : b₁.atLineEnd = false := by
      have open_end : Text.AtLineEnd [] := rfl
      rw [abreast₁.atLineEnd_eq_of_ends open_end ends]
      exact Cursor.atLineEnd_of_onOneLine content₁.one_line some_rest
    rw [stays, List.append_assoc] at scan
    refine ⟨stop, last, t', ?_, (skipped.reaches.trans read.reaches).trans ahead, abreast'⟩
    exact .lineDatum line (abreast₁.position (.inl rfl) ▸ same) follows datum' (abreast₂.position (.inl rfl) ▸ stays) scan

/-- Where the loop fails the scan of the line fails with the same failure. -/
theorem ReadsAll.scanFails (h : ReadsAll ctx c s forms s') (content : c.rest.PlainContent)
    {e : Failure} (failed : forms.failure = some e) (named : ctx'.sourceName = ctx.sourceName)
    (fold : t.foldCase = s.foldCase) (before : List Datum) :
    ∃ opened t', Fails ctx' opened (.datums c.position.line before) c t e t' := by
  induction h generalizing t before with
  | ended => cases failed
  | @skipFails opened _ _ _ _ skip =>
    cases failed
    have skip := (skip.enclosed rfl content named fold).intraline_of_onOneLine content.one_line
    exact ⟨opened, t, .datumsSkip skip⟩
  | @datumFails opened c s c₁ s₁ e s' skipped some_rest read =>
    cases failed
    have content₁ := content.ahead skipped.reaches
    have same := skipped.reaches.line_eq content.one_line
    have follows := Cursor.atLineEnd_of_onOneLine content₁.one_line some_rest
    obtain ⟨rfl, line⟩ := skipped.intraline_of_code content.toLineContent ctx' fold
    have datum := read.enclosed (t := t.emit (.phase .skipping .readingDatum c₁.position)) rfl
      content₁ named fold (skipped.clear_after content.toLineContent ctx' _)
    exact ⟨opened, _, .lineDatumRead line same follows datum⟩
  | @datum c s c₁ s₁ d next s₂ forms s' skipped some_rest read others ih =>
    have content₁ := content.ahead skipped.reaches
    have same := skipped.reaches.line_eq content.one_line
    have stays := (skipped.reaches.trans read.reaches).line_eq content.one_line
    have follows := Cursor.atLineEnd_of_onOneLine content₁.one_line some_rest
    obtain ⟨rfl, line⟩ := skipped.intraline_of_code content.toLineContent ctx' fold
    obtain ⟨rfl, datum⟩ := read.enclosed
      (t := t.emit (.phase .skipping .readingDatum c₁.position)) rfl content₁.toLineContent ctx' fold
    have datum := datum.at_clear (skipped.clear_after content.toLineContent ctx' _)
    obtain ⟨opened, t', scan⟩ := ih (content₁.ahead read.reaches) failed (t :=
      ((t.emit (.phase .skipping .readingDatum c₁.position)).emit
        (.datumRead (before.length + 1) c₁.position)).emit
          (.phase .readingDatum .skipping next.position)) fold (before ++ [d])
    rw [stays] at scan
    exact ⟨opened, t', .lineDatum line same follows datum stays scan⟩

end Scans

/-! ## 5. The line after a marker -/

def Failure.shift (n : Int) : Failure → Failure
  | .diagnosed e =>
    .diagnosed { e with
      position := ⟨e.position.line, e.position.column + n, e.position.offset + n⟩ }
  | .fault f => .fault f

/-- On its first line a text is moved along by as many columns as code points. -/
theorem Failure.rebase_eq_shift {n : Int} {e : Failure}
    (first : ∀ error, e.rebase ⟨1, n, n⟩ = .diagnosed error → error.position.line = 1) :
    e.rebase ⟨1, n, n⟩ = e.shift n := by
  cases e with
  | fault f => rfl
  | diagnosed error =>
    have moved : (1 : Int) + error.position.line - 1 = 1 := first _ rfl
    have cause : error.cause.rebase ⟨1, n, n⟩ = error.cause := by
      cases error.cause <;> simp [Cause.rebase, Position.rebaseLine]
    have place : Position.rebase ⟨1, n, n⟩ error.position =
        ⟨error.position.line, error.position.column + n, error.position.offset + n⟩ := by
      simp only [Position.rebase, Position.rebaseLine, Position.mk.injEq]
      refine ⟨by omega, ?_, by omega⟩
      rw [if_pos (by omega)]
      omega
    simp only [rebase, shift, cause, place]

namespace Source

variable {src line : Source} {policy : Policy} {registry : Registry} {fold : Bool} {u : Session}
  {s : ReaderState} {rest nl after : Text}

/-- The session's items are those of the text wherever it stands. -/
theorem readsAll_forms_at (fresh : u = src.sessionWith policy registry fold) (origin : Position) :
    ∃ t t', ReadsAll u.context ⟨src.text, origin⟩ t (u.forms.1.rebase origin) t' ∧
      t.foldCase = fold := by
  have start : u.cursor = ⟨src.text, .start⟩ := by
    rw [fresh]
    rfl
  have fresh_state : ReaderState.Rebased origin [] u.state u.state := by
    rw [fresh]
    exact ⟨rfl, rfl⟩
  have inside : 1 ≤ u.cursor.position.line := by
    rw [start]
    exact Int.le_refl 1
  obtain ⟨t₁, -, reads⟩ := Session.readsAll_forms inside
  obtain ⟨t', reads', -⟩ := reads.rebase inside fresh_state
  refine ⟨u.state, t', ?_, by rw [fresh]; rfl⟩
  rwa [start, Cursor.rebase, Position.rebase_of_start] at reads'

theorem next_cursor_after_marker (text : line.text = directiveMarker ++ .scalar ' ' :: rest) :
    (line.cursor ⟨1, 2, 2⟩).rest = .scalar ' ' :: rest ∧
      (line.cursor ⟨1, 2, 2⟩).next = ⟨rest, ⟨1, 3, 3⟩⟩ := by
  have here := rest_cursor_after_marker text
  refine ⟨here, ?_⟩
  unfold Cursor.next
  rw [here]
  rfl

theorem abreast_of_append (content : src.text.LineContent) (rest : Text) (p : Position) :
    Cursor.Abreast .lineEnd [] rest src.text ⟨src.text, p⟩ ⟨src.text ++ rest, p⟩ := by
  refine ⟨(List.append_nil _).symm, rfl, rfl, fun _ => rfl, ?_⟩
  intro _ last
  have inside := content.one_line _ (List.mem_of_getLast? last)
  cases inside

/-- The scan of the line, of its data and of the break behind them. -/
theorem returns_scanDirective_of_forms (ctx : Context)
    (fresh : u = src.sessionWith policy registry fold) (content : src.text.LineContent)
    (succeeds : u.forms.1.failure = none)
    (text : line.text = directiveMarker ++ .scalar ' ' :: (src.text ++ (nl ++ after)))
    (ends : Text.EndsLine nl after) (same_fold : s.foldCase = fold) :
    ∃ last s', (Reader.scanDirective ctx (line.cursor ⟨1, 2, 2⟩)).Returns s
        (⟨u.forms.1.data, some ⟨1, 0, 0⟩⟩, last) s' ∧
      last.rest = after ∧ last.position.offset = 3 + src.text.length + nl.length := by
  obtain ⟨here, next⟩ := next_cursor_after_marker text
  obtain ⟨t, t', reads, folds⟩ := readsAll_forms_at fresh ⟨1, 3, 3⟩
  have started : (s.emit (.phase .start .skipping ⟨1, 2, 2⟩)).foldCase = t.foldCase :=
    same_fold.trans folds.symm
  have moved : (u.forms.1.rebase ⟨1, 3, 3⟩).failure = none := by
    simp [Session.Forms.rebase, succeeds]
  obtain ⟨stop, last, s', scan, ahead, abreast⟩ := reads.scanned content moved ctx ends.atLineEnd
    (abreast_of_append content (nl ++ after) ⟨1, 3, 3⟩) started []
  rw [← next, List.nil_append, Session.Forms.data_rebase] at scan
  have scan := scan.datums_after_blank here (by decide)
  -- the data end with the text, hence on the line and before the break
  have same := abreast.position (.inl rfl)
  have stop_line : last.position.line = 1 := by
    rw [same]
    exact ahead.line_eq content.one_line
  have stop_offset : last.position.offset = 3 + src.text.length := by
    have moved := ahead.offset
    have left : stop.rest.length = 0 := congrArg List.length abreast.left
    rw [same, moved, left]
    rfl
  have behind : last.afterDirective 1 = last.advance nl.length := by
    rw [Cursor.afterDirective, if_pos stop_line, Cursor.skipNewline_eq_advance, abreast.right,
      List.nil_append, ends.newlineLength_eq]
  refine ⟨last.advance nl.length, s', ?_, ?_, ?_⟩
  · exact Reader.returns_scanDirective.mpr ⟨_, last, scan, rfl, behind.symm⟩
  · rw [Cursor.rest_advance, abreast.right, List.nil_append, List.drop_left]
  · rw [Cursor.offset_advance, abreast.right, stop_offset, List.nil_append, List.length_append]
    omega

theorem raises_scanDirective_of_forms {ctx : Context}
    (fresh : u = src.sessionWith policy registry fold) (content : src.text.PlainContent)
    {e : Failure} (failed : u.forms.1.failure = some e)
    (text : line.text = directiveMarker ++ .scalar ' ' :: src.text)
    (named : ctx.sourceName = src.name) (same_fold : s.foldCase = fold) :
    ∃ s', (Reader.scanDirective ctx (line.cursor ⟨1, 2, 2⟩)).Raises s (e.shift 3) s' := by
  obtain ⟨here, next⟩ := next_cursor_after_marker text
  obtain ⟨t, t', reads, folds⟩ := readsAll_forms_at fresh ⟨1, 3, 3⟩
  have named' : ctx.sourceName = u.context.sourceName := by
    rw [named, fresh]
    rfl
  have started : (s.emit (.phase .start .skipping ⟨1, 2, 2⟩)).foldCase = t.foldCase :=
    same_fold.trans folds.symm
  have moved : (u.forms.1.rebase ⟨1, 3, 3⟩).failure = some (e.rebase ⟨1, 3, 3⟩) := by
    simp [Session.Forms.rebase, failed]
  obtain ⟨opened, s', scan⟩ : ∃ opened s', Fails ctx opened (.datums 1 []) ⟨src.text, ⟨1, 3, 3⟩⟩
      (s.emit (.phase .start .skipping ⟨1, 2, 2⟩)) (e.rebase ⟨1, 3, 3⟩) s' :=
    reads.scanFails content moved named' started []
  rw [← next] at scan
  have scan := (Reader.raises_scanDirective opened).mpr (scan.datums_after_blank here (by decide))
  have one_line : Text.OnOneLine (line.cursor ⟨1, 2, 2⟩).rest := by
    rw [here]
    exact Text.onOneLine_cons.mpr ⟨by decide, content.one_line⟩
  have first : ∀ error, e.rebase ⟨1, 3, 3⟩ = .diagnosed error → error.position.line = 1 := by
    intro error same
    obtain ⟨-, place, ahead, position⟩ :=
      ((Reader.raises_scanDirective (line.cursor ⟨1, 2, 2⟩).position).mp scan).blamed_here error same
    rw [position]
    exact ahead.line_eq one_line
  rw [Failure.rebase_eq_shift first] at scan
  exact ⟨s', scan⟩

/-- The content of a directive means what the same text means as code. Let a text of one line hold no
`#!`, and let a session read it. If the session reads it to its end, then after `#! ` and before any
end of the line it is read as a directive with the same data, which ends behind the end of the line.
And if the text holds no `#;` either, the scan of the text after `#! ` comes out as the session does:
with the same data, or with the same failure three columns further on. The policies of the two do not
matter. -/
theorem directive_of_forms (src : Source) (policy : Policy) (registry : Registry) (fold : Bool)
    {u : Session} (fresh : u = src.sessionWith policy registry fold)
    (one_line : ∀ c ∈ src.text, c ≠ .carriageReturn ∧ c ≠ .lineFeed)
    (no_marker : ¬ directiveMarker <:+: src.text) :
    (u.forms.1.failure = none → ∀ (line : Source) (ctx : Context) (s : ReaderState) (nl after : Text),
      line.text = directiveMarker ++ .scalar ' ' :: (src.text ++ (nl ++ after)) →
      Text.EndsLine nl after → s.foldCase = fold →
      ∃ last s', (line.readDirective? ctx ⟨1, 2, 2⟩).Returns s
          (some (⟨u.forms.1.data, some ⟨1, 0, 0⟩⟩, last)) s' ∧
        last.rest = after ∧ last.position.offset = 3 + src.text.length + nl.length) ∧
    (¬ ("#;" : Text) <:+: src.text → ∀ (line : Source) (ctx : Context) (s : ReaderState),
      line.text = directiveMarker ++ .scalar ' ' :: src.text →
      ctx.sourceName = src.name → s.foldCase = fold →
      (∀ d last s', (line.scanDirective ctx ⟨1, 2, 2⟩).Returns s (d, last) s' →
        u.forms.1.failure = none ∧ u.forms.1.data = d.datums) ∧
      ∀ e s', (line.scanDirective ctx ⟨1, 2, 2⟩).Raises s e s' →
        ∃ e', u.forms.1.failure = some e' ∧ e = e'.shift 3) := by
  have content : src.text.LineContent :=
    ⟨fun c mem => CodePoint.isNewline_eq_false (one_line c mem).1 (one_line c mem).2, no_marker⟩
  constructor
  · intro succeeds line ctx s nl after text ends same_fold
    obtain ⟨last, s', scan, behind⟩ :=
      returns_scanDirective_of_forms ctx fresh content succeeds text ends same_fold
    have starts : LineDirective.startsDirective ctx.policy.whitespace (line.cursor ⟨1, 2, 2⟩).rest =
        true := by
      apply startsDirective_of_blank
      rw [rest_cursor_after_marker text]
      rfl
    exact ⟨last, s', line.returns_readDirective? (by decide) starts scan, behind⟩
  · intro no_comment line ctx s text named same_fold
    have plain : src.text.PlainContent := ⟨content, no_comment⟩
    have bare : line.text = directiveMarker ++ .scalar ' ' :: (src.text ++ ([] ++ [])) := by
      simpa using text
    rw [line.scanDirective_of_nonneg ctx (by decide)]
    cases outcome : u.forms.1.failure with
    | none =>
      obtain ⟨stop, t, scan, -⟩ := returns_scanDirective_of_forms ctx fresh content outcome bare
        (.inl ⟨rfl, rfl⟩) same_fold
      constructor
      · intro d last s' returned
        obtain ⟨same, -⟩ := returned.unique scan
        cases same
        exact ⟨rfl, rfl⟩
      · intro e s' raised
        exact absurd raised scan.not_raises
    | some e' =>
      obtain ⟨t, scan⟩ := raises_scanDirective_of_forms fresh plain outcome text named same_fold
      constructor
      · intro d last s' returned
        exact absurd scan returned.not_raises
      · intro e s' raised
        exact ⟨e', rfl, (raised.unique scan).1⟩

/-- A capital letter with folding and a datum comment before a line break, and a list with the wrong
bracket at its end. -/
theorem directive_of_forms_line :
    (∃ last s', (Source.readDirective? ⟨"#! A #;b (c . \"D\") ; e\r\nx", none⟩ {} ⟨1, 2, 2⟩).Returns
        { foldCase := true }
        (some (⟨[.symbol "a", .dotted [.symbol "c"] (.string "D")], some ⟨1, 0, 0⟩⟩, last)) s' ∧
      last.rest = ("x" : Text) ∧ last.position.offset = 24) ∧
    ∃ e e', (∃ s', (Source.scanDirective ⟨"#! a (b] c", none⟩ {} ⟨1, 2, 2⟩).Raises {} e s') ∧
      (Source.sessionWith ⟨"a (b] c", none⟩ {} .standard false).forms.1.failure = some e' ∧
      e = e'.shift 3 := by
  constructor
  · have code := directive_of_forms ⟨"A #;b (c . \"D\") ; e", none⟩ {} .standard true rfl
      (by decide) (by decide)
    exact code.1 (by decide +kernel) ⟨"#! A #;b (c . \"D\") ; e\r\nx", none⟩ {} { foldCase := true }
      [.carriageReturn, .lineFeed] "x" rfl (.inr (.inr (.inl rfl))) rfl
  · have code := directive_of_forms ⟨"a (b] c", none⟩ {} .standard false rfl (by decide) (by decide)
    have raised : ∃ e s', (Source.scanDirective ⟨"#! a (b] c", none⟩ {} ⟨1, 2, 2⟩).Raises {} e s' :=
      ⟨_, _, rfl⟩
    obtain ⟨e, s', raised⟩ := raised
    obtain ⟨e', failed, shifted⟩ := (code.2 (by decide) ⟨"#! a (b] c", none⟩ {} {} rfl rfl rfl).2 e s'
      raised
    exact ⟨e, e', ⟨s', raised⟩, failed, shifted⟩

end Source

end LineDirective
