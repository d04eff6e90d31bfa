import LineDirective.Proofs.LineBreaks

/-!
# Reading does not depend on line breaks

A text without quoted forms and carriage returns is read in the same way when its lines end with
carriage returns, or with pairs of both: the same data and directives at the same lines and columns, or
the same complaint (`Session.forms_of_respelled`).

The rules for reads and failures are followed from one text to the other (`Reads.respelled`,
`Fails.respelled`). A blank that is a line break may be two blanks in the other text; every other rule
applies as it stands, since the lines that it compares are the same.
-/

namespace LineDirective

/-! ## 1. Lines and columns -/

/-- The place without its distance from the start of the text. -/
def Position.forgetOffset (p : Position) : Position := { p with offset := 0 }

def Directive.forgetOffset (d : Directive) : Directive :=
  { d with position := d.position.map Position.forgetOffset }

def Failure.forgetOffset : Failure → Failure
  | .diagnosed e => .diagnosed { e with position := e.position.forgetOffset }
  | .fault f => .fault f

def Item.forgetOffset : Item → Item
  | .directive d => .directive d.forgetOffset
  | item => item

section Places

variable {p p' : Position} {d d' : Directive}

theorem Position.forgetOffset_eq (line : p'.line = p.line) (column : p'.column = p.column) :
    p'.forgetOffset = p.forgetOffset := by
  rw [forgetOffset, forgetOffset, line, column]

theorem Position.forgetOffset_beforeMarker (same : p'.forgetOffset = p.forgetOffset) :
    p'.beforeMarker.forgetOffset = p.beforeMarker.forgetOffset := by
  simp only [forgetOffset, mk.injEq, and_true] at same
  simp only [forgetOffset, beforeMarker, same.1, same.2]

theorem Cursor.Respelled.place {b : LineBreak} {c c' : Cursor} (h : Respelled b c c') :
    c'.position.forgetOffset = c.position.forgetOffset :=
  Position.forgetOffset_eq h.line h.column

theorem Context.forgetOffset_complaint (ctx : Context) (cause : Cause)
    (same : p'.forgetOffset = p.forgetOffset) :
    (ctx.complaint cause p').forgetOffset = (ctx.complaint cause p).forgetOffset := by
  simp only [complaint, Failure.forgetOffset, same]

/-- A directive is written by its data alone. -/
theorem Directive.write_forgetOffset (d : Directive) : d.forgetOffset.write = d.write := rfl

theorem Directive.write_eq (same : d'.forgetOffset = d.forgetOffset) : d'.write = d.write := by
  rw [← write_forgetOffset d', same, write_forgetOffset]

end Places

/-! ## 2. States -/

/-- Case folding is the same in both states, and so are the directives on record with their lines and
columns. -/
structure ReaderState.SamePlaces (s t : ReaderState) : Prop where
  foldCase : t.foldCase = s.foldCase
  directives : t.directives.map (·.forgetOffset) = s.directives.map (·.forgetOffset)

namespace ReaderState.SamePlaces

variable {s t : ReaderState}

theorem emit (h : SamePlaces s t) (e e' : Event) : SamePlaces (s.emit e) (t.emit e') :=
  ⟨h.foldCase, h.directives⟩

theorem declining (h : SamePlaces s t) (c c' : Cursor) :
    SamePlaces (s.declining c) (t.declining c') :=
  ⟨by simpa using h.foldCase, by simpa using h.directives⟩

theorem reported (h : SamePlaces s t) {e e' : Failure} (same : e'.forgetOffset = e.forgetOffset)
    (p p' : Position) : SamePlaces (e.reported p s) (e'.reported p' t) := by
  cases e <;> cases e'
  · exact h.emit _ _
  · cases same
  · cases same
  · exact h

theorem keep (h : SamePlaces s t) {d d' : Directive} (same : d'.forgetOffset = d.forgetOffset) :
    SamePlaces { s with directives := s.directives ++ [d] }
      { t with directives := t.directives ++ [d'] } := by
  refine ⟨h.foldCase, ?_⟩
  simp only [List.map_append, h.directives, List.map_cons, same, List.map_nil]

end ReaderState.SamePlaces

section Record

variable {ctx : Context} {s s' t : ReaderState} {d d' : Directive}

theorem Context.returns_record_samePlaces (kept : (ctx.record d).Returns s () s')
    (same : d'.forgetOffset = d.forgetOffset) (states : s.SamePlaces t) :
    ∃ t', (ctx.record d').Returns t () t' ∧ s'.SamePlaces t' := by
  apply returns_record_related _ (states.keep same) (fun e e' h => h.emit e e') states kept
  intro text written
  exact ⟨text, (Directive.write_eq same).trans written⟩

theorem Context.raises_record_samePlaces {e : Failure} (failed : (ctx.record d).Raises s e s')
    (same : d'.forgetOffset = d.forgetOffset) (states : s.SamePlaces t) :
    ∃ t', (ctx.record d').Raises t e t' ∧ s'.SamePlaces t' := by
  obtain ⟨t', failed', same', -⟩ :=
    raises_record_related (Directive.write_eq same) (states.keep same) failed
  exact ⟨t', failed', same'⟩

end Record

/-! ## 3. Reads -/

/-- A bracket breaks no line. -/
theorem newline_of_opener {x : CodePoint} (opener : x = .scalar '(' ∨ x = .scalar '[') :
    x.isNewline = false := by
  rcases opener with rfl | rfl <;> decide

theorem newline_of_isCloser {x : CodePoint} (closes : isCloser x = true) : x.isNewline = false := by
  have brackets : x = .scalar ')' ∨ x = .scalar ']' := by simpa [isCloser] using closes
  rcases brackets with rfl | rfl <;> decide

theorem newline_of_isIntralineBlank {x : CodePoint} (white : x.isIntralineBlank = true) :
    x.isNewline = false := by
  simpa using (Bool.and_eq_true_iff.mp white).1

section Reads

variable {ctx : Context} {task : Task} {c c' next : Cursor} {s s' t : ReaderState} {y : Yield}
  {b : LineBreak}

/-- The marker of a directive that is scanned in both texts. -/
theorem forgetOffset_scanned (ds : List Datum) (h : Cursor.Respelled b c c') :
    (Directive.mk ds (some c'.position.beforeMarker)).forgetOffset =
      (Directive.mk ds (some c.position.beforeMarker)).forgetOffset := by
  simp only [Directive.forgetOffset, Option.map_some,
    Position.forgetOffset_beforeMarker h.place]

theorem newline_of_visible {x : CodePoint} (visible : x.isBlank = false) : x.isNewline = false := by
  rw [Bool.eq_false_iff]
  intro newline
  rw [CodePoint.isBlank_of_isNewline newline] at visible
  cases visible

theorem Reads.inside_of_atmosphere {mode : Mode} {x : CodePoint} {rest : Text}
    (h : Reads ctx (.atmosphere mode) c s y next s') (head : next.rest = x :: rest) :
    x.isNewline = false := by
  have visible := h.clear_of_atmosphere.1
  rw [head] at visible
  exact newline_of_visible visible

theorem Reads.respelled (h : Reads ctx task c s y next s') (at_ : Cursor.Respelled b c c')
    (same : s.SamePlaces t) :
    ∃ next' t', Reads ctx task c' t y next' t' ∧ Cursor.Respelled b next next' ∧
      s'.SamePlaces t' := by
  -- by induction on the rules: the same rule applies, twice where a blank has become two
  induction h generalizing c' t with
  | code _ _ ih₁ ih₂ =>
    obtain ⟨c₁', t₁, skipped', at₁, same₁⟩ := ih₁ at_ same
    obtain ⟨next', t', read', at', same'⟩ := ih₂ at₁ same₁
    exact ⟨next', t', .code skipped' read', at', same'⟩
  | directive _ ih =>
    obtain ⟨next', t', read', at', same'⟩ := ih at_ same
    exact ⟨next', t', .directive read', at', same'⟩
  | flat spelled =>
    obtain ⟨q, rest, whole, rfl, one_line⟩ := spelled.on_line at_.unquoted
    have spelled' := spelled.respell b at_.unquoted
    rw [← at_.rest, ← same.foldCase] at spelled'
    exact ⟨_, t, .flat spelled', at_.advance whole one_line, same⟩
  | list head opener _ ih =>
    have inside : CodePoint.isNewline _ = false := newline_of_opener opener
    obtain ⟨next', t', items', at', same'⟩ := ih (at_.next head inside) same
    exact ⟨next', t', .list (at_.head head inside) opener items', at', same'⟩
  | abbreviation mark _ follows _ ih₁ ih₂ =>
    obtain ⟨mark', marked⟩ := at_.abbreviation mark
    obtain ⟨c₁', t₁, skipped', at₁, same₁⟩ := ih₁ marked same
    obtain ⟨next', t', read', at', same'⟩ := ih₂ at₁ same₁
    rw [← at₁.atEnd_eq, ← at₁.atCloser_eq] at follows
    exact ⟨next', t', .abbreviation mark' skipped' follows read', at', same'⟩
  | vector head _ ih =>
    obtain ⟨head', content⟩ := at_.pair head (by decide)
    obtain ⟨next', t', items', at', same'⟩ := ih content same
    exact ⟨next', t', .vector head' items', at', same'⟩
  | bytevector head _ bytes ih =>
    have word : Text.OnOneLine [.scalar '#', .scalar 'u', .scalar '8', .scalar '('] := by decide
    obtain ⟨next', t', items', at', same'⟩ := ih (at_.advance head word) same
    exact ⟨next', t', .bytevector (at_.lead _ head word) items' bytes, at', same'⟩
  | close _ head closes ih =>
    have inside : CodePoint.isNewline _ = false := newline_of_isCloser closes
    obtain ⟨c₁', t₁, skipped', at₁, same₁⟩ := ih at_ same
    exact ⟨_, t₁, .close skipped' (at₁.head head inside) closes, at₁.next head inside, same₁⟩
  | dot _ head lone some_item _ follows _ _ ih₁ ih₂ ih₃ ih₄ =>
    obtain ⟨c₁', t₁, skipped', at₁, same₁⟩ := ih₁ at_ same
    obtain ⟨c₂', t₂, skipped₂', at₂, same₂⟩ := ih₂ (at₁.next head (by decide)) same₁
    obtain ⟨c₃', t₃, read', at₃, same₃⟩ := ih₃ at₂ same₂
    obtain ⟨next', t', others', at', same'⟩ := ih₄ at₃ same₃
    rw [← at₂.atEnd_eq, ← at₂.atCloser_eq] at follows
    exact ⟨next', t', .dot skipped' (at₁.head head (by decide))
      ((Text.atDelimiter_respell b _).trans lone) some_item skipped₂' follows read' others', at', same'⟩
  | item skipped head open_ no_dot _ _ ih₁ ih₂ ih₃ =>
    have inside := skipped.inside_of_atmosphere head
    obtain ⟨c₁', t₁, skipped', at₁, same₁⟩ := ih₁ at_ same
    obtain ⟨c₂', t₂, read', at₂, same₂⟩ := ih₂ at₁ same₁
    obtain ⟨next', t', others', at', same'⟩ := ih₃ at₂ same₂
    rw [← Text.atDelimiter_respell b] at no_dot
    exact ⟨next', t', .item skipped' (at₁.head head inside) open_ no_dot read' others', at', same'⟩
  | blank head white _ ih =>
    obtain ⟨k, at_k, back⟩ := at_.over_blank head white
    obtain ⟨next', t', others', at', same'⟩ := ih at_k same
    -- a line feed may have become two blanks: the rule applies to each of them
    refine ⟨next', t', ?_, at', same'⟩
    exact @back (Reads ctx _ · t _ next' t') (fun head white others => .blank head white others) others'
  | remark visible _ _ ih₁ ih₂ =>
    obtain ⟨c₁', t₁, skipped', at₁, same₁⟩ := ih₁ at_ same
    obtain ⟨next', t', others', at', same'⟩ := ih₂ at₁ same₁
    exact ⟨next', t', .remark ((at_.any_head?_eq (by decide)).trans visible) skipped' others', at',
      same'⟩
  | clear visible none_starts =>
    exact ⟨c', t, .clear ((at_.any_head?_eq (by decide)).trans visible)
      ((at_.startsComment_eq _ _).trans none_starts), at_, same⟩
  | lineComment head =>
    exact ⟨_, t, .lineComment (at_.head head (by decide)), at_.lineEnd, same⟩
  | blockComment head ends =>
    have unquoted := at_.unquoted
    rw [head] at unquoted
    -- a block comment has a bar, and there is none in the text
    exact absurd (by decide) (unquoted (.scalar '|') (by simp))
  | datumComment head _ ih =>
    obtain ⟨head', content⟩ := at_.pair head (by decide)
    obtain ⟨next', t', read', at', same'⟩ := ih content same
    exact ⟨next', t', .datumComment head' read', at', same'⟩
  | emptyComment head _ ended ih =>
    obtain ⟨head', content⟩ := at_.pair head (by decide)
    obtain ⟨c₁', t₁, skipped', at₁, same₁⟩ := ih content same
    rw [← at₁.line, ← at_.line, ← at₁.atLineEnd_eq] at ended
    rw [← at_.line] at skipped'
    exact ⟨c₁', t₁, .emptyComment head' skipped' ended, at₁, same₁⟩
  | lineDatumComment head _ stays follows _ ih₁ ih₂ =>
    obtain ⟨head', content⟩ := at_.pair head (by decide)
    obtain ⟨c₁', t₁, skipped', at₁, same₁⟩ := ih₁ content same
    obtain ⟨next', t', read', at', same'⟩ := ih₂ at₁ same₁
    rw [← at₁.line, ← at_.line] at stays
    rw [← at₁.atLineEnd_eq] at follows
    rw [← at_.line] at skipped'
    exact ⟨next', t', .lineDatumComment head' skipped' stays follows read', at', same'⟩
  | @marker mode c s rest m head found =>
    have one_line : Text.OnOneLine ([.scalar '#', .scalar '!'] ++ m.name) := by cases m <;> decide
    obtain ⟨after, rfl⟩ := NamedMarker.name_of_detect? found
    have front : c.rest = ([.scalar '#', .scalar '!'] ++ m.name) ++ after := by
      rw [head, List.append_assoc]
      rfl
    have onward := at_.advance front one_line
    rw [List.length_append, List.length_cons, List.length_singleton] at onward
    refine ⟨_, _, .marker (at_.pair head (by decide)).1 ?_, onward, ?_⟩
    · exact (NamedMarker.detect?_respell b _).trans found
    · cases mode with
      | code => exact ⟨rfl, same.directives⟩
      | directive => exact same.emit _ _
  | lineDirective head unnamed starts _ kept ih =>
    obtain ⟨head', content⟩ := at_.pair head (by decide)
    obtain ⟨last', t₁, scanned', at₁, same₁⟩ := ih content (same.emit _ (.phase .start .skipping
      (c'.advance 2).position))
    obtain ⟨t', kept', same'⟩ :=
      Context.returns_record_samePlaces kept (forgetOffset_scanned _ content) same₁
    rw [← NamedMarker.detect?_respell b] at unnamed
    rw [← startsDirective_respell b] at starts
    rw [← content.line] at scanned' ⊢
    exact ⟨_, t', .lineDirective head' unnamed starts scanned' kept',
      at₁.afterDirective _, same'⟩
  | intralineBlank head white _ ih =>
    have inside : CodePoint.isNewline _ = false := newline_of_isIntralineBlank white
    obtain ⟨next', t', others', at', same'⟩ := ih (at_.next head inside) same
    exact ⟨next', t', .intralineBlank (at_.head head inside) white others', at', same'⟩
  | intralineComment visible _ stays _ ih₁ ih₂ =>
    obtain ⟨c₁', t₁, skipped', at₁, same₁⟩ := ih₁ at_ same
    obtain ⟨next', t', others', at', same'⟩ := ih₂ at₁ same₁
    rw [← at₁.line] at stays
    exact ⟨next', t', .intralineComment ((at_.any_head?_eq (by decide)).trans visible) skipped' stays
      others', at', same'⟩
  | crossingComment visible _ left ih =>
    obtain ⟨c₁', t₁, skipped', at₁, same₁⟩ := ih at_ same
    rw [← at₁.line] at left
    exact ⟨c₁', t₁, .crossingComment ((at_.any_head?_eq (by decide)).trans visible) skipped' left, at₁,
      same₁⟩
  | intralineClear visible none_starts =>
    exact ⟨c', t, .intralineClear ((at_.any_head?_eq (by decide)).trans visible)
      ((at_.startsComment_eq _ _).trans none_starts), at_, same⟩
  | lastDatum _ ended ih =>
    obtain ⟨c₁', t₁, skipped', at₁, same₁⟩ := ih at_ same
    rw [← at₁.line, ← at₁.atLineEnd_eq] at ended
    exact ⟨c₁', _, .lastDatum skipped' ended, at₁, same₁.emit _ _⟩
  | crossingDatum _ stays follows _ left allowed ih₁ ih₂ =>
    obtain ⟨c₁', t₁, skipped', at₁, same₁⟩ := ih₁ at_ same
    obtain ⟨next', t₂, read', at₂, same₂⟩ := ih₂ at₁ (same₁.emit _ _)
    rw [← at₁.line] at stays
    rw [← at₁.atLineEnd_eq] at follows
    rw [← at₂.line] at left
    exact ⟨next', _, .crossingDatum skipped' stays follows read' left allowed, at₂,
      ((same₂.emit _ _).emit _ _).emit _ _⟩
  | lineDatum _ on_line follows _ stays _ ih₁ ih₂ ih₃ =>
    obtain ⟨c₁', t₁, skipped', at₁, same₁⟩ := ih₁ at_ same
    obtain ⟨c₂', t₂, read', at₂, same₂⟩ := ih₂ at₁ (same₁.emit _ _)
    obtain ⟨next', t', others', at', same'⟩ := ih₃ at₂ ((same₂.emit _ _).emit _ _)
    rw [← at₁.line] at on_line
    rw [← at₁.atLineEnd_eq] at follows
    rw [← at₂.line] at stays
    exact ⟨next', t', .lineDatum skipped' on_line follows read' stays others', at', same'⟩

/-- Where whitespace is no longer skipped no line break stands. -/
theorem inside_of_visible {t : Text} (visible : t.head?.any CodePoint.isBlank = false) :
    t.head?.any CodePoint.isNewline = false := by
  cases t with
  | nil => rfl
  | cons x rest => exact newline_of_visible visible

theorem inside_of_follows (follows : c.atLineEnd = false) :
    c.rest.head?.any CodePoint.isNewline = false := (Bool.or_eq_false_iff.mp follows).2

end Reads

/-! ## 4. Failures -/

/-- A task that is to find a datum where it begins does not begin at a line break. -/
def Task.BeginsInside : Task → Cursor → Prop
  | .here _, c | .datum .directive, c => c.rest.head?.any CodePoint.isNewline = false
  | _, _ => True

theorem Task.beginsInside_datum {mode : Mode} {c : Cursor}
    (visible : c.rest.head?.any CodePoint.isBlank = false) : (Task.datum mode).BeginsInside c := by
  cases mode with
  | code => trivial
  | directive => exact inside_of_visible visible

section Failures

variable {ctx : Context} {mode : Mode} {fold : Bool} {task : Task} {c c' : Cursor}
  {s s' t : ReaderState} {b : LineBreak} {opened opened' : Position} {e : Failure}

theorem Refuses.respelled (h : Refuses ctx mode fold c e) (at_ : Cursor.Respelled b c c')
    (inside : c.rest.head?.any CodePoint.isNewline = false) :
    ∃ e', Refuses ctx mode fold c' e' ∧ e'.forgetOffset = e.forgetOffset := by
  have blamed (cause : Cause) := ctx.forgetOffset_complaint cause at_.place
  cases h with
  | ended nothing => exact ⟨_, .ended (at_.rest_eq_nil.mpr nothing), blamed _⟩
  | closer head closes =>
    exact ⟨_, .closer (at_.head head (newline_of_isCloser closes)) closes, blamed _⟩
  | @lexeme f misspelled =>
    have misspelled' := misspelled.respell b at_.unquoted inside
    rw [← at_.rest] at misspelled'
    refine ⟨_, .lexeme misspelled', ?_⟩
    cases f with
    | fault fault => rfl
    | malformed cause distance =>
      obtain rfl := misspelled.distance_eq_zero at_.unquoted
      exact blamed cause
  | nested mode_eq starts =>
    exact ⟨_, .nested mode_eq ((at_.atDirective_eq _).trans starts), blamed _⟩
  | marker head declined =>
    rw [← at_.atDirective_eq] at declined
    exact ⟨_, .marker (at_.pair head (by decide)).1 declined, blamed _⟩

theorem Fails.respelled (h : Fails ctx opened task c s e s') (begins : task.BeginsInside c)
    (at_ : Cursor.Respelled b c c') (place : opened'.forgetOffset = opened.forgetOffset)
    (same : s.SamePlaces t) :
    ∃ e' t', Fails ctx opened' task c' t e' t' ∧ e'.forgetOffset = e.forgetOffset ∧
      s'.SamePlaces t' := by
  -- the same induction: what has succeeded before succeeds in the other text as well
  induction h generalizing c' t opened' with
  | codeSkip _ ih =>
    obtain ⟨e', t', skip', blame, same'⟩ := ih trivial at_ place same
    exact ⟨e', t', .codeSkip skip', blame, same'⟩
  | code skipped _ ih =>
    obtain ⟨c₁', t₁, skipped', at₁, same₁⟩ := skipped.respelled at_ same
    obtain ⟨e', t', here', blame, same'⟩ :=
      ih (inside_of_visible skipped.clear_of_atmosphere.1) at₁ place same₁
    exact ⟨e', t', .code skipped' here', blame, same'⟩
  | directive _ ih =>
    obtain ⟨e', t', here', blame, same'⟩ := ih begins at_ place same
    exact ⟨e', t', .directive here', blame, same'⟩
  | refused refuses =>
    rw [← same.foldCase] at refuses
    obtain ⟨e', refuses', blame⟩ := refuses.respelled at_ begins
    exact ⟨e', t, .refused refuses', blame, same⟩
  | list head opener _ ih =>
    have inside : CodePoint.isNewline _ = false := newline_of_opener opener
    obtain ⟨e', t', items', blame, same'⟩ := ih trivial (at_.next head inside) at_.place same
    exact ⟨e', t', .list (at_.head head inside) opener items', blame, same'⟩
  | abbreviationSkip mark _ ih =>
    obtain ⟨mark', marked⟩ := at_.abbreviation mark
    obtain ⟨e', t', skip', blame, same'⟩ := ih trivial marked place same
    exact ⟨e', t', .abbreviationSkip mark' skip', blame, same'⟩
  | missingAbbreviated mark skipped nothing =>
    obtain ⟨mark', marked⟩ := at_.abbreviation mark
    obtain ⟨c₁', t₁, skipped', at₁, same₁⟩ := skipped.respelled marked same
    rw [← at₁.atEnd_eq, ← at₁.atCloser_eq] at nothing
    exact ⟨_, t₁, .missingAbbreviated mark' skipped' nothing, ctx.forgetOffset_complaint _ at_.place,
      same₁⟩
  | abbreviation mark skipped follows _ ih =>
    obtain ⟨mark', marked⟩ := at_.abbreviation mark
    obtain ⟨c₁', t₁, skipped', at₁, same₁⟩ := skipped.respelled marked same
    obtain ⟨e', t', read', blame, same'⟩ :=
      ih (Task.beginsInside_datum skipped.clear_of_atmosphere.1) at₁ place same₁
    rw [← at₁.atEnd_eq, ← at₁.atCloser_eq] at follows
    exact ⟨e', t', .abbreviation mark' skipped' follows read', blame, same'⟩
  | vector head _ ih =>
    obtain ⟨head', content⟩ := at_.pair head (by decide)
    -- the items are blamed on the bracket, which is on the same line and column in both texts
    have bracket := at_.next head (by decide)
    rw [← Cursor.advance_one, ← Cursor.advance_one] at bracket
    obtain ⟨e', t', items', blame, same'⟩ := ih trivial content bracket.place same
    exact ⟨e', t', .vector head' items', blame, same'⟩
  | dottedVector head read =>
    obtain ⟨head', content⟩ := at_.pair head (by decide)
    obtain ⟨next', t', read', -, same'⟩ := read.respelled content same
    exact ⟨_, t', .dottedVector head' read', ctx.forgetOffset_complaint _ at_.place,
      same'⟩
  | bytevector head _ ih =>
    have word : Text.OnOneLine [.scalar '#', .scalar 'u', .scalar '8', .scalar '('] := by decide
    have bracket : Cursor.Respelled b _ (c'.advance 3) :=
      at_.advance (q := [.scalar '#', .scalar 'u', .scalar '8']) head (by decide)
    obtain ⟨e', t', items', blame, same'⟩ := ih trivial (at_.advance head word) bracket.place same
    exact ⟨e', t', .bytevector (at_.lead _ head word) items', blame, same'⟩
  | badBytevector head read bad =>
    have word : Text.OnOneLine [.scalar '#', .scalar 'u', .scalar '8', .scalar '('] := by decide
    obtain ⟨next', t', read', -, same'⟩ := read.respelled (at_.advance head word) same
    exact ⟨_, t', .badBytevector (at_.lead _ head word) read' bad,
      ctx.forgetOffset_complaint _ at_.place, same'⟩
  | itemsSkip _ ih =>
    obtain ⟨e', t', skip', blame, same'⟩ := ih trivial at_ place same
    exact ⟨e', t', .itemsSkip skip', blame, same'⟩
  | unterminated skipped nothing =>
    obtain ⟨c₁', t₁, skipped', at₁, same₁⟩ := skipped.respelled at_ same
    exact ⟨_, t₁, .unterminated skipped' (at₁.rest_eq_nil.mpr nothing),
      ctx.forgetOffset_complaint _ place, same₁⟩
  | wrongCloser skipped head closes other =>
    obtain ⟨c₁', t₁, skipped', at₁, same₁⟩ := skipped.respelled at_ same
    exact ⟨_, t₁, .wrongCloser skipped' (at₁.head head (newline_of_isCloser closes)) closes other,
      ctx.forgetOffset_complaint _ at₁.place, same₁⟩
  | afterTail skipped head open_ =>
    obtain ⟨c₁', t₁, skipped', at₁, same₁⟩ := skipped.respelled at_ same
    exact ⟨_, t₁, .afterTail skipped' (at₁.head head (skipped.inside_of_atmosphere head)) open_,
      ctx.forgetOffset_complaint _ at₁.place, same₁⟩
  | leadingDot skipped head lone =>
    obtain ⟨c₁', t₁, skipped', at₁, same₁⟩ := skipped.respelled at_ same
    exact ⟨_, t₁, .leadingDot skipped' (at₁.head head (by decide))
      ((Text.atDelimiter_respell b _).trans lone), ctx.forgetOffset_complaint _ at₁.place, same₁⟩
  | dotSkip skipped head lone some_item _ ih =>
    obtain ⟨c₁', t₁, skipped', at₁, same₁⟩ := skipped.respelled at_ same
    obtain ⟨e', t', skip', blame, same'⟩ := ih trivial (at₁.next head (by decide)) place same₁
    exact ⟨e', t', .dotSkip skipped' (at₁.head head (by decide))
      ((Text.atDelimiter_respell b _).trans lone) some_item skip', blame, same'⟩
  | missingTail skipped head lone some_item skipped₂ nothing =>
    obtain ⟨c₁', t₁, skipped', at₁, same₁⟩ := skipped.respelled at_ same
    obtain ⟨c₂', t₂, skipped₂', at₂, same₂⟩ := skipped₂.respelled (at₁.next head (by decide)) same₁
    rw [← at₂.atEnd_eq, ← at₂.atCloser_eq] at nothing
    exact ⟨_, t₂, .missingTail skipped' (at₁.head head (by decide))
      ((Text.atDelimiter_respell b _).trans lone) some_item skipped₂' nothing,
      ctx.forgetOffset_complaint _ at₂.place, same₂⟩
  | tail skipped head lone some_item skipped₂ follows _ ih =>
    obtain ⟨c₁', t₁, skipped', at₁, same₁⟩ := skipped.respelled at_ same
    obtain ⟨c₂', t₂, skipped₂', at₂, same₂⟩ := skipped₂.respelled (at₁.next head (by decide)) same₁
    obtain ⟨e', t', read', blame, same'⟩ :=
      ih (Task.beginsInside_datum skipped₂.clear_of_atmosphere.1) at₂ place same₂
    rw [← at₂.atEnd_eq, ← at₂.atCloser_eq] at follows
    exact ⟨e', t', .tail skipped' (at₁.head head (by decide))
      ((Text.atDelimiter_respell b _).trans lone) some_item skipped₂' follows read', blame, same'⟩
  | dot skipped head lone some_item skipped₂ follows read _ ih =>
    obtain ⟨c₁', t₁, skipped', at₁, same₁⟩ := skipped.respelled at_ same
    obtain ⟨c₂', t₂, skipped₂', at₂, same₂⟩ := skipped₂.respelled (at₁.next head (by decide)) same₁
    obtain ⟨c₃', t₃, read', at₃, same₃⟩ := read.respelled at₂ same₂
    obtain ⟨e', t', others', blame, same'⟩ := ih trivial at₃ place same₃
    rw [← at₂.atEnd_eq, ← at₂.atCloser_eq] at follows
    exact ⟨e', t', .dot skipped' (at₁.head head (by decide))
      ((Text.atDelimiter_respell b _).trans lone) some_item skipped₂' follows read' others', blame,
      same'⟩
  | itemDatum skipped head open_ no_dot _ ih =>
    obtain ⟨c₁', t₁, skipped', at₁, same₁⟩ := skipped.respelled at_ same
    obtain ⟨e', t', read', blame, same'⟩ :=
      ih (Task.beginsInside_datum skipped.clear_of_atmosphere.1) at₁ place same₁
    rw [← Text.atDelimiter_respell b] at no_dot
    exact ⟨e', t', .itemDatum skipped' (at₁.head head (skipped.inside_of_atmosphere head)) open_ no_dot
      read', blame, same'⟩
  | item skipped head open_ no_dot read _ ih =>
    obtain ⟨c₁', t₁, skipped', at₁, same₁⟩ := skipped.respelled at_ same
    obtain ⟨c₂', t₂, read', at₂, same₂⟩ := read.respelled at₁ same₁
    obtain ⟨e', t', others', blame, same'⟩ := ih trivial at₂ place same₂
    rw [← Text.atDelimiter_respell b] at no_dot
    exact ⟨e', t', .item skipped' (at₁.head head (skipped.inside_of_atmosphere head)) open_ no_dot read'
      others', blame, same'⟩
  | blank head white _ ih =>
    obtain ⟨k, at_k, back⟩ := at_.over_blank head white
    obtain ⟨e', t', others', blame, same'⟩ := ih trivial at_k place same
    refine ⟨e', t', ?_, blame, same'⟩
    exact @back (Fails ctx _ _ · t e' t') (fun head white others => .blank head white others) others'
  | remarkSkip visible _ ih =>
    obtain ⟨e', t', skip', blame, same'⟩ := ih trivial at_ place same
    exact ⟨e', t', .remarkSkip ((at_.any_head?_eq (by decide)).trans visible) skip', blame, same'⟩
  | remark visible skipped _ ih =>
    obtain ⟨c₁', t₁, skipped', at₁, same₁⟩ := skipped.respelled at_ same
    obtain ⟨e', t', others', blame, same'⟩ := ih trivial at₁ place same₁
    exact ⟨e', t', .remark ((at_.any_head?_eq (by decide)).trans visible) skipped' others', blame,
      same'⟩
  | blockComment head endless =>
    have unquoted := at_.unquoted
    rw [head] at unquoted
    exact absurd (by decide) (unquoted (.scalar '|') (by simp))
  | datumComment head _ ih =>
    obtain ⟨head', content⟩ := at_.pair head (by decide)
    obtain ⟨e', t', read', blame, same'⟩ := ih trivial content place same
    exact ⟨e', t', .datumComment head' read', blame, same'⟩
  | lineDatumSkip head _ ih =>
    obtain ⟨head', content⟩ := at_.pair head (by decide)
    obtain ⟨e', t', skip', blame, same'⟩ := ih trivial content place same
    rw [← at_.line] at skip'
    exact ⟨e', t', .lineDatumSkip head' skip', blame, same'⟩
  | lineDatumComment head skipped stays follows _ ih =>
    obtain ⟨head', content⟩ := at_.pair head (by decide)
    obtain ⟨c₁', t₁, skipped', at₁, same₁⟩ := skipped.respelled content same
    obtain ⟨e', t', read', blame, same'⟩ := ih (inside_of_follows follows) at₁ place same₁
    rw [← at₁.line, ← at_.line] at stays
    rw [← at₁.atLineEnd_eq] at follows
    rw [← at_.line] at skipped'
    exact ⟨e', t', .lineDatumComment head' skipped' stays follows read', blame, same'⟩
  | lineDirective head unnamed starts _ ih =>
    obtain ⟨head', content⟩ := at_.pair head (by decide)
    obtain ⟨e', t', scan', blame, same'⟩ := ih trivial content place
      (same.emit _ (.phase .start .skipping (c'.advance 2).position))
    rw [← NamedMarker.detect?_respell b] at unnamed
    rw [← startsDirective_respell b] at starts
    rw [← content.line] at scan'
    exact ⟨e', t', .lineDirective head' unnamed starts scan', blame, same'⟩
  | unrecorded head unnamed starts scanned failed =>
    obtain ⟨head', content⟩ := at_.pair head (by decide)
    obtain ⟨last', t₁, scanned', -, same₁⟩ := scanned.respelled content
      (same.emit _ (.phase .start .skipping (c'.advance 2).position))
    obtain ⟨t', failed', same'⟩ :=
      Context.raises_record_samePlaces failed (forgetOffset_scanned _ content) same₁
    rw [← NamedMarker.detect?_respell b] at unnamed
    rw [← startsDirective_respell b] at starts
    rw [← content.line] at scanned'
    exact ⟨_, t', .unrecorded head' unnamed starts scanned' failed', rfl, same'⟩
  | intralineBlank head white _ ih =>
    have inside : CodePoint.isNewline _ = false := newline_of_isIntralineBlank white
    obtain ⟨e', t', others', blame, same'⟩ := ih trivial (at_.next head inside) place same
    exact ⟨e', t', .intralineBlank (at_.head head inside) white others', blame, same'⟩
  | intralineSkip visible _ ih =>
    obtain ⟨e', t', skip', blame, same'⟩ := ih trivial at_ place same
    exact ⟨e', t', .intralineSkip ((at_.any_head?_eq (by decide)).trans visible) skip', blame, same'⟩
  | intralineComment visible skipped stays _ ih =>
    obtain ⟨c₁', t₁, skipped', at₁, same₁⟩ := skipped.respelled at_ same
    obtain ⟨e', t', others', blame, same'⟩ := ih trivial at₁ place same₁
    rw [← at₁.line] at stays
    exact ⟨e', t', .intralineComment ((at_.any_head?_eq (by decide)).trans visible) skipped' stays
      others', blame, same'⟩
  | datumsSkip _ ih =>
    obtain ⟨e', t', skip', blame, same'⟩ := ih trivial at_ place same
    exact ⟨e', t', .datumsSkip skip', blame, same'⟩
  | lineDatumRead skipped stays follows _ ih =>
    obtain ⟨c₁', t₁, skipped', at₁, same₁⟩ := skipped.respelled at_ same
    obtain ⟨e', t₂, read', blame, same₂⟩ := ih (inside_of_follows follows) at₁ place (same₁.emit _ _)
    rw [← at₁.line] at stays
    rw [← at₁.atLineEnd_eq] at follows
    exact ⟨e', _, .lineDatumRead skipped' stays follows read', blame, same₂.reported blame _ _⟩
  | crossingDatum skipped stays follows read left refused =>
    obtain ⟨c₁', t₁, skipped', at₁, same₁⟩ := skipped.respelled at_ same
    obtain ⟨next', t₂, read', at₂, same₂⟩ := read.respelled at₁ (same₁.emit _ _)
    rw [← at₁.line] at stays
    rw [← at₁.atLineEnd_eq] at follows
    -- the message names the line where the datum ends
    rw [← at₂.line] at left ⊢
    exact ⟨_, _, .crossingDatum skipped' stays follows read' left refused,
      ctx.forgetOffset_complaint _ at₁.place, same₂.emit _ _⟩
  | lineDatum skipped on_line follows read stays _ ih =>
    obtain ⟨c₁', t₁, skipped', at₁, same₁⟩ := skipped.respelled at_ same
    obtain ⟨c₂', t₂, read', at₂, same₂⟩ := read.respelled at₁ (same₁.emit _ _)
    obtain ⟨e', t', others', blame, same'⟩ := ih trivial at₂ place ((same₂.emit _ _).emit _ _)
    rw [← at₁.line] at on_line
    rw [← at₁.atLineEnd_eq] at follows
    rw [← at₂.line] at stays
    exact ⟨e', t', .lineDatum skipped' on_line follows read' stays others', blame, same'⟩

end Failures

/-! ## 5. Items -/

section Items

variable {ctx : Context} {c c' next : Cursor} {item : Item} {s s' t : ReaderState} {e : Failure}
  {b : LineBreak}

theorem Finds.respelled (h : Finds ctx c s item next s') (at_ : Cursor.Respelled b c c')
    (same : s.SamePlaces t) :
    ∃ item' next' t', Finds ctx c' t item' next' t' ∧ item'.forgetOffset = item.forgetOffset ∧
      Cursor.Respelled b next next' ∧ s'.SamePlaces t' := by
  induction h generalizing c' t with
  | ended nothing => exact ⟨_, c', t, .ended (at_.rest_eq_nil.mpr nothing), rfl, at_, same⟩
  | blank head white _ ih =>
    obtain ⟨k, at_k, back⟩ := at_.over_blank head white
    obtain ⟨item', next', t', others', alike, at', same'⟩ := ih at_k same
    refine ⟨item', next', t', ?_, alike, at', same'⟩
    exact @back (Finds ctx · t item' next' t') (fun head white others => .blank head white others)
      others'
  | directive head starts scanned kept =>
    obtain ⟨head', content⟩ := at_.pair head (by decide)
    obtain ⟨last', t₁, scanned', at₁, same₁⟩ := scanned.respelled content
      (same.emit _ (.phase .start .skipping (c'.advance 2).position))
    obtain ⟨t', kept', same'⟩ :=
      Context.returns_record_samePlaces kept (forgetOffset_scanned _ content) same₁
    rw [← startsDirective_respell b] at starts
    rw [← content.line] at scanned' ⊢
    exact ⟨_, _, t', .directive head' starts scanned' kept',
      congrArg Item.directive (forgetOffset_scanned _ content), at₁.afterDirective _, same'⟩
  | comment visible no_directive skipped _ ih =>
    obtain ⟨c₁', t₁, skipped', at₁, same₁⟩ := skipped.respelled at_ (same.declining _ c')
    obtain ⟨item', next', t', others', alike, at', same'⟩ := ih at₁ same₁
    exact ⟨item', next', t', .comment ((at_.any_head?_eq (by decide)).trans visible)
      ((at_.atDirective_eq _).trans no_directive) skipped' others', alike, at', same'⟩
  | datum some_rest visible none_starts read =>
    obtain ⟨next', t', read', at', same'⟩ := read.respelled at_ (same.declining _ c')
    exact ⟨_, next', t', .datum (mt at_.rest_eq_nil.mp some_rest)
      ((at_.any_head?_eq (by decide)).trans visible) ((at_.startsComment_eq _ _).trans none_starts)
      read', rfl, at', same'⟩

theorem Misses.respelled (h : Misses ctx c s e s') (at_ : Cursor.Respelled b c c')
    (same : s.SamePlaces t) :
    ∃ e' t', Misses ctx c' t e' t' ∧ e'.forgetOffset = e.forgetOffset ∧ s'.SamePlaces t' := by
  induction h generalizing c' t with
  | blank head white _ ih =>
    obtain ⟨k, at_k, back⟩ := at_.over_blank head white
    obtain ⟨e', t', others', blame, same'⟩ := ih at_k same
    refine ⟨e', t', ?_, blame, same'⟩
    exact @back (Misses ctx · t e' t') (fun head white others => .blank head white others) others'
  | directive head starts scan =>
    obtain ⟨head', content⟩ := at_.pair head (by decide)
    obtain ⟨e', t', scan', blame, same'⟩ := scan.respelled trivial content at_.place
      (same.emit _ (.phase .start .skipping (c'.advance 2).position))
    rw [← startsDirective_respell b] at starts
    rw [← content.line] at scan'
    exact ⟨e', t', .directive head' starts scan', blame, same'⟩
  | unrecorded head starts scanned failed =>
    obtain ⟨head', content⟩ := at_.pair head (by decide)
    obtain ⟨last', t₁, scanned', -, same₁⟩ := scanned.respelled content
      (same.emit _ (.phase .start .skipping (c'.advance 2).position))
    obtain ⟨t', failed', same'⟩ :=
      Context.raises_record_samePlaces failed (forgetOffset_scanned _ content) same₁
    rw [← startsDirective_respell b] at starts
    rw [← content.line] at scanned'
    exact ⟨_, t', .unrecorded head' starts scanned' failed', rfl, same'⟩
  | commentSkip visible no_directive skip =>
    obtain ⟨e', t', skip', blame, same'⟩ :=
      skip.respelled trivial at_ at_.place (same.declining _ c')
    exact ⟨e', t', .commentSkip ((at_.any_head?_eq (by decide)).trans visible)
      ((at_.atDirective_eq _).trans no_directive) skip', blame, same'⟩
  | comment visible no_directive skipped _ ih =>
    obtain ⟨c₁', t₁, skipped', at₁, same₁⟩ := skipped.respelled at_ (same.declining _ c')
    obtain ⟨e', t', others', blame, same'⟩ := ih at₁ same₁
    exact ⟨e', t', .comment ((at_.any_head?_eq (by decide)).trans visible)
      ((at_.atDirective_eq _).trans no_directive) skipped' others', blame, same'⟩
  | datum some_rest visible none_starts read =>
    obtain ⟨e', t', read', blame, same'⟩ :=
      read.respelled trivial at_ at_.place (same.declining _ c')
    exact ⟨e', t', .datum (mt at_.rest_eq_nil.mp some_rest)
      ((at_.any_head?_eq (by decide)).trans visible) ((at_.startsComment_eq _ _).trans none_starts)
      read', blame, same'⟩

end Items

/-! ## 6. Sessions -/

namespace Session

def Forms.forgetOffsets (f : Forms) : Forms where
  items := f.items.map fun entry => (entry.1.forgetOffset, entry.2.forgetOffset)
  failure := f.failure.map Failure.forgetOffset

@[simp] theorem Forms.data_forgetOffsets (f : Forms) : f.forgetOffsets.data = f.data := by
  unfold data forgetOffsets
  rw [List.filterMap_map]
  congr 1
  funext ⟨item, p⟩
  cases item <;> rfl

theorem Forms.forgetOffsets_cons (item : Item) (p : Position) (f : Forms) :
    Forms.forgetOffsets { f with items := (item, p) :: f.items } =
      { f.forgetOffsets with
        items := (item.forgetOffset, p.forgetOffset) :: f.forgetOffsets.items } := rfl

theorem Forms.forgetOffsets_failure (e : Failure) :
    Forms.forgetOffsets { failure := some e } = { failure := some e.forgetOffset } := rfl

/-- The second session reads the text with other line breaks, and is where the first one is. -/
structure Respelled (b : LineBreak) (s u : Session) : Prop where
  context : u.context = s.context
  cursor : Cursor.Respelled b s.cursor u.cursor
  state : s.state.SamePlaces u.state

variable {b : LineBreak} {s s₁ u : Session}

theorem Respelled.place (h : Respelled b s u) :
    u.position.forgetOffset = s.position.forgetOffset := by
  have same := h.cursor.place
  rwa [position_cursor, position_cursor] at same

theorem Respelled.next (h : Respelled b s u) {item : Item} (found : s.next = (.ok item, s₁)) :
    ∃ item' u₁, u.next = (.ok item', u₁) ∧ item'.forgetOffset = item.forgetOffset ∧
      Respelled b s₁ u₁ := by
  obtain ⟨c, finds, -, here⟩ := finds_of_next found
  obtain ⟨item', c', t', finds', alike, at', same'⟩ := finds.respelled h.cursor h.state
  rw [← h.context] at finds'
  refine ⟨item', _, next_of_finds finds', alike, ?_, ?_, same'⟩
  · exact h.context.trans (context_of_next found).1.symm
  · have here' : u.source.cursor c'.position = c' := Source.cursor_of_reaches finds'.reaches
    rw [here]
    show Cursor.Respelled b c (u.source.cursor c'.position)
    rw [here']
    exact at'

theorem Respelled.next_fails (h : Respelled b s u) {e : Failure} (failed : s.next = (.error e, s₁)) :
    ∃ e' u₁, u.next = (.error e', u₁) ∧ e'.forgetOffset = e.forgetOffset ∧
      s₁.state.SamePlaces u₁.state := by
  obtain ⟨e', t', misses', blame, same'⟩ := (misses_of_next failed).respelled h.cursor h.state
  rw [← h.context] at misses'
  exact ⟨e', _, next_of_misses misses', blame, same'⟩

theorem Item.eq_of_forgetOffset {item item' : Item} (alike : item'.forgetOffset = item.forgetOffset)
    (other : ∀ d, item ≠ .directive d) : item' = item := by
  cases item with
  | directive d => exact absurd rfl (other d)
  | datum d | endOfInput =>
    cases item' <;> cases alike
    rfl

theorem Item.exists_of_forgetOffset {item' : Item} {d : Directive}
    (alike : item'.forgetOffset = (Item.directive d).forgetOffset) :
    ∃ d', item' = .directive d' ∧ d'.forgetOffset = d.forgetOffset := by
  cases item' with
  | directive d' => exact ⟨d', rfl, Item.directive.inj alike⟩
  | datum d' | endOfInput => cases alike

theorem length_lt_of_next {item : Item} (found : s.next = (.ok item, s₁))
    (some_item : item ≠ .endOfInput) : s₁.cursor.rest.length < s.cursor.rest.length := by
  obtain ⟨c, finds, -, rfl⟩ := finds_of_next found
  exact finds.length_lt some_item

theorem formsFor_respelled (wanted : Bool) (limit : Option Nat) {rounds more : Nat}
    (h : Respelled b s u) (enough : s.cursor.rest.length < rounds)
    (as_well : u.cursor.rest.length < more) :
    (formsFor wanted more limit u).1.forgetOffsets = (formsFor wanted rounds limit s).1.forgetOffsets ∧
      (formsFor wanted rounds limit s).2.state.SamePlaces (formsFor wanted more limit u).2.state := by
  -- by induction on the rounds, each of which is one item. The rounds that a text needs are as many
  -- as it has code points, and so not the same for both.
  induction rounds, limit, s using formsFor.induct wanted generalizing u more with
  | case1 => omega
  | case2 =>
    obtain ⟨more, rfl⟩ : ∃ n, more = n + 1 := ⟨more - 1, by omega⟩
    exact ⟨rfl, h.state⟩
  | case3 rounds limit s some_left failure s₁ failed =>
    obtain ⟨more, rfl⟩ : ∃ n, more = n + 1 := ⟨more - 1, by omega⟩
    obtain ⟨e', u₁, failed', blame, same⟩ := h.next_fails failed
    simp only [formsFor, failed, failed']
    exact ⟨by rw [Forms.forgetOffsets_failure, Forms.forgetOffsets_failure, blame], same⟩
  | case4 rounds limit s some_left s₁ found =>
    obtain ⟨more, rfl⟩ : ∃ n, more = n + 1 := ⟨more - 1, by omega⟩
    obtain ⟨item', u₁, found', alike, at₁⟩ := h.next found
    obtain rfl := Item.eq_of_forgetOffset alike (by simp)
    simp only [formsFor, found, found']
    exact ⟨trivial, at₁.state⟩
  | case5 rounds limit s some_left d s₁ found ih =>
    obtain ⟨more, rfl⟩ : ∃ n, more = n + 1 := ⟨more - 1, by omega⟩
    obtain ⟨item', u₁, found', alike, at₁⟩ := h.next found
    obtain rfl := Item.eq_of_forgetOffset alike (by simp)
    have shorter := length_lt_of_next found (by simp)
    have shorter' := length_lt_of_next found' (by simp)
    obtain ⟨others, same⟩ := ih s₁ at₁ (by omega) (by omega : u₁.cursor.rest.length < more)
    simp only [formsFor, found, found', Forms.forgetOffsets_cons, at₁.place, others]
    exact ⟨trivial, same⟩
  | case6 rounds limit s some_left d s₁ found wants ih =>
    obtain ⟨more, rfl⟩ : ∃ n, more = n + 1 := ⟨more - 1, by omega⟩
    obtain ⟨item', u₁, found', alike, at₁⟩ := h.next found
    obtain ⟨d', rfl, marked⟩ := Item.exists_of_forgetOffset alike
    have shorter := length_lt_of_next found (by simp)
    have shorter' := length_lt_of_next found' (by simp)
    obtain ⟨others, same⟩ := ih s₁ at₁ (by omega) (by omega : u₁.cursor.rest.length < more)
    simp only [formsFor, found, found', if_pos wants, Forms.forgetOffsets_cons, at₁.place, others,
      Item.forgetOffset, marked]
    exact ⟨trivial, same⟩
  | case7 rounds limit s some_left d s₁ found unwanted _ ih =>
    obtain ⟨more, rfl⟩ : ∃ n, more = n + 1 := ⟨more - 1, by omega⟩
    obtain ⟨item', u₁, found', alike, at₁⟩ := h.next found
    obtain ⟨d', rfl, -⟩ := Item.exists_of_forgetOffset alike
    have shorter := length_lt_of_next found (by simp)
    have shorter' := length_lt_of_next found' (by simp)
    have others := ih at₁ (by omega) (by omega : u₁.cursor.rest.length < more)
    simp only [formsFor, found, found', if_neg unwanted]
    exact others

/-- A text without carriage returns, quotation marks, bars and backslashes is read in the same way
whichever line break stands for its line feeds: the same items at the same lines and columns, and, if the
reading fails, the same complaint about the same line and column. The same directives are on record, at
the same lines and columns and with the same specifications, and case folding comes out the same. -/
theorem forms_of_respelled (b : LineBreak) (name : Option Text) (text : Text) (policy : Policy)
    (registry : Registry) (foldCase wanted : Bool) (limit : Option Nat) {s u : Session}
    (of_feeds : s = (Source.mk text name).sessionWith policy registry foldCase)
    (of_breaks : u = (Source.mk (text.respell b) name).sessionWith policy registry foldCase)
    (unquoted : text.Unquoted) :
    (u.forms wanted limit).1.forgetOffsets = (s.forms wanted limit).1.forgetOffsets ∧
    (u.forms wanted limit).1.data = (s.forms wanted limit).1.data ∧
    (u.forms wanted limit).2.log.map (fun entry => (entry.1.forgetOffset, entry.2)) =
      (s.forms wanted limit).2.log.map (fun entry => (entry.1.forgetOffset, entry.2)) ∧
    (u.forms wanted limit).2.state.foldCase = (s.forms wanted limit).2.state.foldCase := by
  have start : Respelled b s u := by
    rw [of_feeds, of_breaks]
    exact ⟨rfl, ⟨unquoted, rfl, rfl, rfl⟩, rfl, rfl⟩
  have registries : u.registry = s.registry := by rw [of_feeds, of_breaks]; rfl
  obtain ⟨alike, same⟩ := formsFor_respelled wanted limit start
    (Nat.lt_succ_self _) (Nat.lt_succ_self _)
  refine ⟨alike, ?_, ?_, same.foldCase⟩
  · have data := congrArg Forms.data alike
    rwa [Forms.data_forgetOffsets, Forms.data_forgetOffsets] at data
  · have logged (v : Session) : (v.forms wanted limit).2.log.map
        (fun entry => (entry.1.forgetOffset, entry.2)) =
          ((v.forms wanted limit).2.state.directives.map (·.forgetOffset)).map
            fun d => (d, v.registry.find? d) := by
      -- a directive is classified by its data alone
      unfold log forms
      rw [registry_formsFor, List.map_map, List.map_map]
      rfl
    rw [logged, logged, registries]
    exact congrArg _ same.directives

/-- A directive that ends with an empty datum comment, a list with a directive in it, and a closing
bracket too many; lines end with pairs. -/
theorem forms_of_respelled_closer :
    ∃ s u : Session,
      s = (Source.mk "#! x #;\n(a #! y\n) ; c\n ]" none).sessionWith {} .standard true ∧
      u = (Source.mk "#! x #;\r\n(a #! y\r\n) ; c\r\n ]" none).sessionWith {} .standard true ∧
      (s.forms true).1.items.length = 2 ∧ (s.forms true).2.log.length = 2 ∧
      (s.forms true).1.failure = some (.diagnosed ⟨.unexpectedCloser (.scalar ']'), ⟨4, 1, 23⟩, none⟩) ∧
      (u.forms true).1.forgetOffsets = (s.forms true).1.forgetOffsets ∧
      (u.forms true).2.log.map (fun entry => (entry.1.forgetOffset, entry.2)) =
        (s.forms true).2.log.map (fun entry => (entry.1.forgetOffset, entry.2)) := by
  have breaks : Text.respell .both ("#! x #;\n(a #! y\n) ; c\n ]" : Text) =
      "#! x #;\r\n(a #! y\r\n) ; c\r\n ]" := by decide +kernel
  obtain ⟨alike, -, logs, -⟩ := forms_of_respelled .both none "#! x #;\n(a #! y\n) ; c\n ]" {} .standard
    true true none rfl rfl (by decide +kernel)
  rw [breaks] at alike logs
  exact ⟨_, _, rfl, rfl, by decide +kernel, by decide +kernel, by decide +kernel, alike, logs⟩

end Session

end LineDirective
