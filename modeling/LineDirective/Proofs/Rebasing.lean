import LineDirective.Proofs.Failures

/-!
# Texts at another place

A text that stands further on in another text is read there as it is read by itself: the same data are
found, and every place is moved along (`Reads.rebase`, `Fails.rebase`). `origin.rebase p` is where the
place `p` of a text lies, if the text stands from `origin` on: lines and offsets are added up, columns
only on the first line. Line numbers are compared with each other and with nothing else, so that all
comparisons come out alike.

A text moved to its own start is the text itself. In this case the statements say that nothing in the
state matters to a read but case folding.
-/

namespace LineDirective

/-! ## 1. Places -/

namespace Position

/-- The number that a line of a text has, where the text stands from `origin` on. -/
def rebaseLine (origin : Position) (line : Int) : Int := origin.line + line - 1

/-- The place of a position of a text, where the text stands from `origin` on. -/
def rebase (origin p : Position) : Position where
  line := origin.rebaseLine p.line
  column := if p.line = 1 then origin.column + p.column else p.column
  offset := origin.offset + p.offset

@[simp] theorem line_rebase (origin p : Position) :
    (origin.rebase p).line = origin.rebaseLine p.line := rfl

@[simp] theorem rebaseLine_start (line : Int) : start.rebaseLine line = line := by
  show (1 : Int) + line - 1 = line
  omega

@[simp] theorem rebase_start (p : Position) : start.rebase p = p := by
  unfold rebase
  rw [rebaseLine_start]
  simp [start]

@[simp] theorem rebase_of_start (origin : Position) : origin.rebase start = origin := by
  simp [rebase, rebaseLine, start]

@[simp] theorem rebaseLine_inj {origin : Position} {l m : Int} :
    origin.rebaseLine l = origin.rebaseLine m ↔ l = m := by
  unfold rebaseLine
  omega

theorem after_rebase (origin : Position) {p : Position} (inside : 1 ≤ p.line) (c : CodePoint)
    (rest : Text) : (origin.rebase p).after c rest = origin.rebase (p.after c rest) := by
  unfold after
  split
  · -- the next line is not the first one
    have later : p.line + 1 ≠ 1 := by omega
    simp only [rebase, rebaseLine, if_neg later, mk.injEq, true_and]
    omega
  · simp only [rebase, rebaseLine, mk.injEq, true_and]
    split <;> omega

theorem beforeMarker_rebase (origin p : Position) :
    (origin.rebase p).beforeMarker = origin.rebase p.beforeMarker := by
  simp only [beforeMarker, rebase, mk.injEq, true_and]
  split <;> omega

end Position

namespace Cursor

def rebase (origin : Position) (c : Cursor) : Cursor := ⟨c.rest, origin.rebase c.position⟩

variable (origin : Position) (c : Cursor)

@[simp] theorem rest_rebase : (c.rebase origin).rest = c.rest := rfl

@[simp] theorem position_rebase : (c.rebase origin).position = origin.rebase c.position := rfl

@[simp] theorem rebase_start : c.rebase .start = c := by simp [rebase]

@[simp] theorem atLineEnd_rebase : (c.rebase origin).atLineEnd = c.atLineEnd := rfl

variable {c}

theorem Reaches.line_le {c' : Cursor} (h : c.Reaches c') : c.position.line ≤ c'.position.line := by
  obtain ⟨n, rfl⟩ := h
  exact c.line_le_advance n

theorem next_rebase (inside : 1 ≤ c.position.line) :
    (c.rebase origin).next = c.next.rebase origin := by
  unfold next
  simp only [rest_rebase]
  split
  · rfl
  · rw [position_rebase, Position.after_rebase origin inside]
    rfl

theorem advance_rebase (inside : 1 ≤ c.position.line) (n : Nat) :
    (c.rebase origin).advance n = (c.advance n).rebase origin := by
  induction n generalizing c with
  | zero => rfl
  | succ n ih =>
    have onward := c.reaches_next.line_le
    rw [advance_succ, advance_succ, next_rebase origin inside, ih (by omega)]

theorem lineEnd_rebase (inside : 1 ≤ c.position.line) :
    (c.rebase origin).lineEnd = c.lineEnd.rebase origin :=
  advance_rebase origin inside _

theorem skipNewline_rebase (inside : 1 ≤ c.position.line) :
    (c.rebase origin).skipNewline = c.skipNewline.rebase origin := by
  unfold skipNewline
  simp only [rest_rebase]
  split
  · exact advance_rebase origin inside 2
  · split
    · exact next_rebase origin inside
    · rfl
  · rfl

theorem afterDirective_rebase (inside : 1 ≤ c.position.line) (anchor : Int) :
    (c.rebase origin).afterDirective (origin.rebaseLine anchor) =
      (c.afterDirective anchor).rebase origin := by
  unfold afterDirective
  simp only [position_rebase, Position.line_rebase, Position.rebaseLine_inj]
  split
  · exact skipNewline_rebase origin inside
  · rfl

end Cursor

def Directive.rebase (origin : Position) (d : Directive) : Directive :=
  { d with position := d.position.map origin.rebase }

@[simp] theorem Directive.rebase_start (d : Directive) : d.rebase .start = d := by
  obtain ⟨datums, position⟩ := d
  cases position <;> simp [rebase]

@[simp] theorem Directive.write_rebase (origin : Position) (d : Directive) :
    (d.rebase origin).write = d.write := rfl

/-- The complaint about a text that stands from `origin` on. A line number is moved along. -/
def Cause.rebase (origin : Position) : Cause → Cause
  | .crossesLine line => .crossesLine (origin.rebaseLine line)
  | cause => cause

def Failure.rebase (origin : Position) : Failure → Failure
  | .diagnosed e =>
    .diagnosed { e with cause := e.cause.rebase origin, position := origin.rebase e.position }
  | .fault f => .fault f

@[simp] theorem Cause.rebase_start (cause : Cause) : cause.rebase .start = cause := by
  cases cause <;> simp [rebase]

@[simp] theorem Failure.rebase_start (e : Failure) : e.rebase .start = e := by
  cases e <;> simp [rebase]

theorem Cause.rebase_of_malformed (origin : Position) {cause : Cause}
    (malformed : cause.kind = .malformedDatum) : cause.rebase origin = cause := by
  cases cause <;> first | rfl | cases malformed

/-! ## 2. Spellings -/

namespace Lexeme

theorem malformed_of_escape {q : Quotation} {start n : Nat} {t : Text} {cause : Cause}
    (h : escape q start t = .error (.malformed cause n)) : cause.kind = .malformedDatum := by
  have unknown (letter : Text) : (q.unknownEscape letter).kind = .malformedDatum := by
    cases q <;> rfl
  unfold escape at h
  split at h
  · cases h
    exact unknown _
  · split at h
    · cases h
    · split at h
      · simp only at h
        split at h
        · cases h
          rfl
        · split at h
          · cases h
          · cases h
            rfl
          · cases h
      · split at h
        · split at h
          · cases h
            rfl
          · cases h
        · cases h
          exact unknown _

theorem malformed_of_quotedFrom {q : Quotation} {skip start n : Nat} {t : Text} {cause : Cause}
    (h : quotedFrom q skip start t = .error (.malformed cause n)) :
    cause.kind = .malformedDatum := by
  fun_induction quotedFrom q skip start t with
  | case1 =>
    cases h
    cases q <;> rfl
  | case2 skip start x rest ih => exact ih h
  | case3 => cases h
  | case4 start rest _ escaped _ =>
    cases h
    exact malformed_of_escape escaped
  | case5 start rest _ meaning n _ ih => exact ih (map_eq_error.mp h)
  | case6 start c rest _ _ ih => exact ih (map_eq_error.mp h)

theorem malformed_of_character {fold : Bool} {n : Nat} {t : Text} {cause : Cause}
    (h : character fold t = .error (.malformed cause n)) : cause.kind = .malformedDatum := by
  unfold character at h
  split at h
  · cases h
    rfl
  · simp only at h
    split at h
    · cases h
    · split at h
      · cases h
      · split at h
        · split at h
          · cases h
          · cases h
            rfl
          · cases h
        · cases h
          rfl

theorem malformed_of_hashToken {n : Nat} {t : Text} {cause : Cause}
    (h : hashToken t = .error (.malformed cause n)) : cause.kind = .malformedDatum := by
  unfold hashToken at h
  simp only at h
  split at h
  · cases h
  · split at h
    · cases h
    · split at h
      · split at h
        · unfold radixNumber at h
          split at h
          · cases h
          · cases h
          · cases h
            rfl
        · cases h
          rfl
      · cases h
        rfl

theorem malformed_of_atom {fold : Bool} {n : Nat} {t : Text} {cause : Cause}
    (h : atom fold t = .error (.malformed cause n)) : cause.kind = .malformedDatum := by
  unfold atom at h
  split at h
  · cases h
    rfl
  · cases h
    rfl
  · split at h
    · cases h
      rfl
    · split at h
      · cases h
        rfl
      · cases h
      · cases h
      · cases h

/-- A spelling that is complained about is a malformed datum. -/
theorem Misspells.malformed {fold : Bool} {n : Nat} {t : Text} {cause : Cause}
    (h : Misspells fold t (.malformed cause n)) : cause.kind = .malformedDatum := by
  cases h with
  | string _ failed | symbol _ failed => exact malformed_of_quotedFrom failed
  | character _ failed => exact malformed_of_character failed
  | hash _ failed => exact malformed_of_hashToken failed
  | atom _ failed => exact malformed_of_atom failed

end Lexeme

/-! ## 3. States -/

def Task.rebase (origin : Position) : Task → Task
  | .intraline anchor => .intraline (origin.rebaseLine anchor)
  | .datums anchor before => .datums (origin.rebaseLine anchor) before
  | task => task

/-- The second state is that of a reader of a text that stands from `origin` on, where the directives
`front` stand before it. -/
structure ReaderState.Rebased (origin : Position) (front : List Directive) (s t : ReaderState) :
    Prop where
  foldCase : t.foldCase = s.foldCase
  directives : t.directives = front ++ s.directives.map (·.rebase origin)

namespace ReaderState.Rebased

variable {origin : Position} {front : List Directive} {s t : ReaderState}

theorem emit (h : Rebased origin front s t) (e e' : Event) :
    Rebased origin front (s.emit e) (t.emit e') :=
  ⟨h.foldCase, h.directives⟩

theorem reported (h : Rebased origin front s t) (e : Failure) (p p' : Position) :
    Rebased origin front (e.reported p s) ((e.rebase origin).reported p' t) := by
  cases e with
  | diagnosed e => exact h.emit _ _
  | fault fault => exact h

theorem keep (h : Rebased origin front s t) (d : Directive) :
    Rebased origin front { s with directives := s.directives ++ [d] }
      { t with directives := t.directives ++ [d.rebase origin] } := by
  refine ⟨h.foldCase, ?_⟩
  simp [h.directives]

end ReaderState.Rebased

section Record

variable {ctx : Context} {origin : Position} {front : List Directive} {s s' t : ReaderState}
  {d d' : Directive} {R : ReaderState → ReaderState → Prop}

/-- Handing over two directives keeps every relation that keeping them and reporting it keep, if the
second can be written where the first can. -/
theorem Context.returns_record_related
    (writable : ∀ {text}, d.write = .ok text → ∃ text', d'.write = .ok text')
    (keep : R { s with directives := s.directives ++ [d] }
      { t with directives := t.directives ++ [d'] })
    (emit : ∀ {u v : ReaderState} (e e' : Event), R u v → R (u.emit e) (v.emit e'))
    (same : R s t) (kept : (ctx.record d).Returns s () s') :
    ∃ t', (ctx.record d').Returns t () t' ∧ R s' t' := by
  unfold record at kept ⊢
  cases sink : ctx.sink with
  | discard =>
    simp only [sink, ReadM.returns_pure] at kept ⊢
    exact ⟨t, ⟨trivial, rfl⟩, kept.2 ▸ same⟩
  | collect =>
    simp only [sink, ReadM.returns_modify] at kept ⊢
    exact ⟨_, rfl, kept ▸ keep⟩
  | announce label =>
    simp only [sink] at kept ⊢
    cases written : d.write with
    | error fault => simp [written, ReadM.liftFault] at kept
    | ok text =>
      obtain ⟨text', written'⟩ := writable written
      simp only [written, written', ReadM.liftFault, ReadM.returns_bind, ReadM.returns_modify,
        ReadM.returns_pure, ReadM.returns_emit] at kept ⊢
      obtain ⟨-, -, rfl, -, -, ⟨-, rfl⟩, rfl⟩ := kept
      exact ⟨_, ⟨(), _, rfl, text', _, ⟨rfl, rfl⟩, rfl⟩, emit _ _ keep⟩

/-- What fails is only that a directive on record cannot be written. -/
theorem Context.raises_record_related {e : Failure} (written : d'.write = d.write)
    (keep : R { s with directives := s.directives ++ [d] }
      { t with directives := t.directives ++ [d'] })
    (failed : (ctx.record d).Raises s e s') :
    ∃ t', (ctx.record d').Raises t e t' ∧ R s' t' ∧ ∃ fault, e = .fault fault := by
  unfold record at failed ⊢
  cases sink : ctx.sink with
  | discard => simp [sink] at failed
  | collect => simp [sink] at failed
  | announce label =>
    simp only [sink, written] at failed ⊢
    cases written : d.write with
    | ok text => simp [written, ReadM.liftFault] at failed
    | error fault =>
      simp only [written, ReadM.liftFault, ReadM.raises_bind, ReadM.raises_modify,
        ReadM.returns_modify, ReadM.raises_throw, ReadM.returns_throw, false_or, false_and,
        exists_false, or_false] at failed ⊢
      obtain ⟨-, -, rfl, rfl, rfl⟩ := failed
      exact ⟨_, ⟨(), _, rfl, rfl, rfl⟩, keep, fault, rfl⟩

theorem Context.returns_record_rebase (kept : (ctx.record d).Returns s () s')
    (same : ReaderState.Rebased origin front s t) :
    ∃ t', (ctx.record (d.rebase origin)).Returns t () t' ∧
      ReaderState.Rebased origin front s' t' := by
  apply returns_record_related _ (same.keep d) (fun e e' h => h.emit e e') same kept
  intro text written
  exact ⟨text, written⟩

theorem Context.raises_record_rebase {e : Failure} (failed : (ctx.record d).Raises s e s')
    (same : ReaderState.Rebased origin front s t) :
    ∃ t', (ctx.record (d.rebase origin)).Raises t (e.rebase origin) t' ∧
      ReaderState.Rebased origin front s' t' := by
  obtain ⟨t', failed', same', fault, rfl⟩ :=
    raises_record_related (d.write_rebase origin) (same.keep d) failed
  exact ⟨t', failed', same'⟩

end Record

/-! ## 4. Reads -/

variable {ctx : Context} {task : Task} {c next : Cursor} {s s' t : ReaderState} {y : Yield}
  {origin : Position} {front : List Directive}

theorem Reads.rebase (h : Reads ctx task c s y next s') (inside : 1 ≤ c.position.line)
    (same : ReaderState.Rebased origin front s t) :
    ∃ t', Reads ctx (task.rebase origin) (c.rebase origin) t y (next.rebase origin) t' ∧
      ReaderState.Rebased origin front s' t' := by
  -- by induction on the rules: the same rule applies, and a comparison of lines comes out the same
  induction h generalizing t with
  | code skipped _ ih₁ ih₂ =>
    have onward := skipped.reaches.line_le
    obtain ⟨t₁, skipped', same₁⟩ := ih₁ inside same
    obtain ⟨t', read', same'⟩ := ih₂ (by omega) same₁
    exact ⟨t', .code skipped' read', same'⟩
  | directive _ ih =>
    obtain ⟨t', read', same'⟩ := ih inside same
    exact ⟨t', .directive read', same'⟩
  | @flat mode c s d size spelled =>
    rw [← Cursor.advance_rebase origin inside]
    -- a lexeme is spelled by the text and the folding alone, not by its place
    rw [← same.foldCase] at spelled
    exact ⟨t, .flat spelled, same⟩
  | @list _ c _ _ _ _ _ _ head opener _ ih =>
    have onward := c.reaches_next.line_le
    obtain ⟨t', items', same'⟩ := ih (by omega) same
    rw [← Cursor.next_rebase origin inside] at items'
    exact ⟨t', .list head opener items', same'⟩
  | @abbreviation _ c _ a _ _ _ _ _ mark skipped follows _ ih₁ ih₂ =>
    have onward := (c.reaches_advance a.mark.length).line_le
    have further := skipped.reaches.line_le
    obtain ⟨t₁, skipped', same₁⟩ := ih₁ (by omega) same
    obtain ⟨t', read', same'⟩ := ih₂ (by omega) same₁
    rw [← Cursor.advance_rebase origin inside] at skipped'
    exact ⟨t', .abbreviation mark skipped' follows read', same'⟩
  | @vector _ c _ _ _ _ _ head _ ih =>
    have onward := (c.reaches_advance 2).line_le
    obtain ⟨t', items', same'⟩ := ih (by omega) same
    rw [← Cursor.advance_rebase origin inside] at items'
    exact ⟨t', .vector head items', same'⟩
  | @bytevector _ c _ _ _ _ _ _ head _ bytes ih =>
    have onward := (c.reaches_advance 4).line_le
    obtain ⟨t', items', same'⟩ := ih (by omega) same
    rw [← Cursor.advance_rebase origin inside] at items'
    exact ⟨t', .bytevector head items' bytes, same'⟩
  | close skipped head closes ih =>
    have onward := skipped.reaches.line_le
    obtain ⟨t₁, skipped', same₁⟩ := ih inside same
    rw [← Cursor.next_rebase origin (by omega)]
    exact ⟨t₁, .close skipped' head closes, same₁⟩
  | @dot _ _ _ _ _ c₁ _ _ _ _ _ _ _ _ _ _ skipped head lone some_item skipped₂ follows read _ ih₁
      ih₂ ih₃ ih₄ =>
    -- lines only grow along the parts, so each of them starts at line 1 or later as well
    have onward := skipped.reaches.line_le
    have onward₁ := c₁.reaches_next.line_le
    have onward₂ := skipped₂.reaches.line_le
    have onward₃ := read.reaches.line_le
    obtain ⟨t₁, skipped', same₁⟩ := ih₁ inside same
    obtain ⟨t₂, skipped₂', same₂⟩ := ih₂ (by omega) same₁
    obtain ⟨t₃, read', same₃⟩ := ih₃ (by omega) same₂
    obtain ⟨t', others', same'⟩ := ih₄ (by omega) same₃
    rw [← Cursor.next_rebase origin (by omega)] at skipped₂'
    exact ⟨t', .dot skipped' head lone some_item skipped₂' follows read' others', same'⟩
  | item skipped head open_ no_dot read _ ih₁ ih₂ ih₃ =>
    have onward := skipped.reaches.line_le
    have further := read.reaches.line_le
    obtain ⟨t₁, skipped', same₁⟩ := ih₁ inside same
    obtain ⟨t₂, read', same₂⟩ := ih₂ (by omega) same₁
    obtain ⟨t', others', same'⟩ := ih₃ (by omega) same₂
    exact ⟨t', .item skipped' head open_ no_dot read' others', same'⟩
  | @blank _ c _ _ _ _ _ head white _ ih =>
    have onward := c.reaches_next.line_le
    obtain ⟨t', others', same'⟩ := ih (by omega) same
    rw [← Cursor.next_rebase origin inside] at others'
    exact ⟨t', .blank head white others', same'⟩
  | remark visible skipped _ ih₁ ih₂ =>
    have onward := skipped.reaches.line_le
    obtain ⟨t₁, skipped', same₁⟩ := ih₁ inside same
    obtain ⟨t', others', same'⟩ := ih₂ (by omega) same₁
    exact ⟨t', .remark visible skipped' others', same'⟩
  | clear visible none_starts => exact ⟨t, .clear visible none_starts, same⟩
  | lineComment head =>
    rw [← Cursor.lineEnd_rebase origin inside]
    exact ⟨t, .lineComment head, same⟩
  | blockComment head ends =>
    rw [← Cursor.advance_rebase origin inside]
    exact ⟨t, .blockComment head ends, same⟩
  | @datumComment c _ _ _ _ _ head _ ih =>
    have onward := (c.reaches_advance 2).line_le
    obtain ⟨t', read', same'⟩ := ih (by omega) same
    rw [← Cursor.advance_rebase origin inside] at read'
    exact ⟨t', .datumComment head read', same'⟩
  | @emptyComment c _ _ _ _ head _ ended ih =>
    have onward := (c.reaches_advance 2).line_le
    obtain ⟨t₁, skipped', same₁⟩ := ih (by omega) same
    rw [← Cursor.advance_rebase origin inside] at skipped'
    exact ⟨t₁, .emptyComment head skipped' (by simpa using ended), same₁⟩
  | @lineDatumComment c _ _ _ _ _ _ _ head skipped stays follows _ ih₁ ih₂ =>
    have onward := (c.reaches_advance 2).line_le
    have further := skipped.reaches.line_le
    obtain ⟨t₁, skipped', same₁⟩ := ih₁ (by omega) same
    obtain ⟨t', read', same'⟩ := ih₂ (by omega) same₁
    rw [← Cursor.advance_rebase origin inside] at skipped'
    exact ⟨t', .lineDatumComment head skipped' (by simpa using stays) follows read', same'⟩
  | @marker mode c s _ m head found =>
    rw [← Cursor.advance_rebase origin inside]
    refine ⟨_, .marker head found, ?_⟩
    cases mode with
    -- in code the marker sets the folding, in a directive it is only reported
    | code => exact ⟨rfl, same.directives⟩
    | directive => exact same.emit _ _
  | @lineDirective c _ _ _ last _ _ head unnamed starts scanned kept ih =>
    have onward := (c.reaches_advance 2).line_le
    have further := scanned.reaches.line_le
    -- the trace is no part of the relation, so the scan may be reported at its new place
    obtain ⟨t₁, scanned', same₁⟩ := ih (by omega) (same.emit _ (.phase .start .skipping
      ((c.rebase origin).advance 2).position))
    obtain ⟨t', kept', same'⟩ := Context.returns_record_rebase kept same₁
    rw [← Cursor.afterDirective_rebase origin (by omega)]
    simp only [Task.rebase, ← Position.line_rebase, ← Cursor.position_rebase,
      ← Cursor.advance_rebase origin inside] at scanned' ⊢
    refine ⟨t', .lineDirective head unnamed starts scanned' ?_, same'⟩
    rw [Cursor.advance_rebase origin inside, Cursor.position_rebase, Position.beforeMarker_rebase]
    exact kept'
  | @intralineBlank _ c _ _ _ _ _ head white _ ih =>
    have onward := c.reaches_next.line_le
    obtain ⟨t', others', same'⟩ := ih (by omega) same
    rw [← Cursor.next_rebase origin inside] at others'
    exact ⟨t', .intralineBlank head white others', same'⟩
  | intralineComment visible skipped stays _ ih₁ ih₂ =>
    have onward := skipped.reaches.line_le
    obtain ⟨t₁, skipped', same₁⟩ := ih₁ inside same
    obtain ⟨t', others', same'⟩ := ih₂ (by omega) same₁
    exact ⟨t', .intralineComment visible skipped' (by simpa using stays) others', same'⟩
  | crossingComment visible _ left ih =>
    obtain ⟨t₁, skipped', same₁⟩ := ih inside same
    exact ⟨t₁, .crossingComment visible skipped' (by simpa using left), same₁⟩
  | intralineClear visible none_starts => exact ⟨t, .intralineClear visible none_starts, same⟩
  | lastDatum _ ended ih =>
    obtain ⟨t₁, skipped', same₁⟩ := ih inside same
    exact ⟨_, .lastDatum skipped' (by simpa using ended), same₁.emit _ _⟩
  | crossingDatum skipped stays follows _ left allowed ih₁ ih₂ =>
    have onward := skipped.reaches.line_le
    obtain ⟨t₁, skipped', same₁⟩ := ih₁ inside same
    obtain ⟨t₂, read', same₂⟩ := ih₂ (by omega) (same₁.emit _ _)
    exact ⟨_, .crossingDatum skipped' (by simpa using stays) follows read' (by simpa using left)
      allowed, ((same₂.emit _ _).emit _ _).emit _ _⟩
  | lineDatum skipped same_line follows read stays _ ih₁ ih₂ ih₃ =>
    have onward := skipped.reaches.line_le
    have further := read.reaches.line_le
    obtain ⟨t₁, skipped', same₁⟩ := ih₁ inside same
    obtain ⟨t₂, read', same₂⟩ := ih₂ (by omega) (same₁.emit _ _)
    obtain ⟨t', others', same'⟩ := ih₃ (by omega) ((same₂.emit _ _).emit _ _)
    exact ⟨t', .lineDatum skipped' (by simpa using same_line) follows read' (by simpa using stays)
      others', same'⟩

/-! ## 5. Failures -/

theorem Refuses.rebase {mode : Mode} {fold : Bool} {e : Failure} (h : Refuses ctx mode fold c e)
    (inside : 1 ≤ c.position.line) :
    Refuses ctx mode fold (c.rebase origin) (e.rebase origin) := by
  cases h with
  | ended nothing => exact .ended nothing
  | closer head closes => exact .closer head closes
  | @lexeme f misspelled =>
    cases f with
    | fault fault => exact Refuses.lexeme (c := c.rebase origin) misspelled
    | malformed cause distance =>
      have refused : Refuses ctx mode _ (c.rebase origin) _ := .lexeme misspelled
      rw [Context.blame, Cursor.advance_rebase origin inside, Cursor.position_rebase,
        ← Cause.rebase_of_malformed origin misspelled.malformed] at refused
      exact refused
  | nested mode_eq starts => exact .nested mode_eq starts
  | marker head declined => exact .marker head declined

theorem Fails.rebase {opened : Position} {e : Failure} (h : Fails ctx opened task c s e s')
    (inside : 1 ≤ c.position.line) (same : ReaderState.Rebased origin front s t) :
    ∃ t', Fails ctx (origin.rebase opened) (task.rebase origin) (c.rebase origin) t (e.rebase origin)
        t' ∧ ReaderState.Rebased origin front s' t' := by
  -- the same induction: what has succeeded before succeeds there as well
  induction h generalizing t with
  | codeSkip _ ih =>
    obtain ⟨t', skip', same'⟩ := ih inside same
    exact ⟨t', .codeSkip skip', same'⟩
  | code skipped _ ih =>
    have onward := skipped.reaches.line_le
    obtain ⟨t₁, skipped', same₁⟩ := skipped.rebase inside same
    obtain ⟨t', here', same'⟩ := ih (by omega) same₁
    exact ⟨t', .code skipped' here', same'⟩
  | directive _ ih =>
    obtain ⟨t', here', same'⟩ := ih inside same
    exact ⟨t', .directive here', same'⟩
  | refused refuses =>
    rw [← same.foldCase] at refuses
    exact ⟨t, .refused (refuses.rebase inside), same⟩
  | @list _ _ c _ _ _ _ _ head opener _ ih =>
    have onward := c.reaches_next.line_le
    obtain ⟨t', items', same'⟩ := ih (by omega) same
    rw [← Cursor.next_rebase origin inside] at items'
    exact ⟨t', .list head opener items', same'⟩
  | @abbreviationSkip _ _ c _ a _ _ mark _ ih =>
    have onward := (c.reaches_advance a.mark.length).line_le
    obtain ⟨t', skip', same'⟩ := ih (by omega) same
    rw [← Cursor.advance_rebase origin inside] at skip'
    exact ⟨t', .abbreviationSkip mark skip', same'⟩
  | @missingAbbreviated _ _ c _ a _ _ mark skipped nothing =>
    have onward := (c.reaches_advance a.mark.length).line_le
    obtain ⟨t₁, skipped', same₁⟩ := skipped.rebase (by omega) same
    rw [← Cursor.advance_rebase origin inside] at skipped'
    exact ⟨t₁, .missingAbbreviated mark skipped' nothing, same₁⟩
  | @abbreviation _ _ c _ a _ _ _ _ mark skipped follows _ ih =>
    have onward := (c.reaches_advance a.mark.length).line_le
    have further := skipped.reaches.line_le
    obtain ⟨t₁, skipped', same₁⟩ := skipped.rebase (by omega) same
    obtain ⟨t', read', same'⟩ := ih (by omega) same₁
    rw [← Cursor.advance_rebase origin inside] at skipped'
    exact ⟨t', .abbreviation mark skipped' follows read', same'⟩
  | @vector _ _ c _ _ _ _ head _ ih =>
    have onward := (c.reaches_advance 2).line_le
    obtain ⟨t', items', same'⟩ := ih (by omega) same
    -- the items are blamed on the bracket, whose place is moved with the rest
    rw [← Cursor.advance_rebase origin inside, ← Cursor.position_rebase,
      ← Cursor.advance_rebase origin inside] at items'
    exact ⟨t', .vector head items', same'⟩
  | @dottedVector _ _ c _ _ _ _ _ _ head read =>
    have onward := (c.reaches_advance 2).line_le
    obtain ⟨t', read', same'⟩ := read.rebase (by omega) same
    rw [← Cursor.advance_rebase origin inside] at read'
    exact ⟨t', .dottedVector head read', same'⟩
  | @bytevector _ _ c _ _ _ _ head _ ih =>
    have onward := (c.reaches_advance 4).line_le
    obtain ⟨t', items', same'⟩ := ih (by omega) same
    rw [← Cursor.advance_rebase origin inside, ← Cursor.position_rebase,
      ← Cursor.advance_rebase origin inside] at items'
    exact ⟨t', .bytevector head items', same'⟩
  | @badBytevector _ _ c _ _ _ _ _ head read bad =>
    have onward := (c.reaches_advance 4).line_le
    obtain ⟨t', read', same'⟩ := read.rebase (by omega) same
    rw [← Cursor.advance_rebase origin inside] at read'
    exact ⟨t', .badBytevector head read' bad, same'⟩
  | itemsSkip _ ih =>
    obtain ⟨t', skip', same'⟩ := ih inside same
    exact ⟨t', .itemsSkip skip', same'⟩
  | unterminated skipped nothing =>
    obtain ⟨t₁, skipped', same₁⟩ := skipped.rebase inside same
    exact ⟨t₁, .unterminated skipped' nothing, same₁⟩
  | wrongCloser skipped head closes other =>
    obtain ⟨t₁, skipped', same₁⟩ := skipped.rebase inside same
    exact ⟨t₁, .wrongCloser skipped' head closes other, same₁⟩
  | afterTail skipped head open_ =>
    obtain ⟨t₁, skipped', same₁⟩ := skipped.rebase inside same
    exact ⟨t₁, .afterTail skipped' head open_, same₁⟩
  | leadingDot skipped head lone =>
    obtain ⟨t₁, skipped', same₁⟩ := skipped.rebase inside same
    exact ⟨t₁, .leadingDot skipped' head lone, same₁⟩
  | @dotSkip _ _ _ _ _ _ c₁ _ _ _ _ skipped head lone some_item _ ih =>
    have onward := skipped.reaches.line_le
    have further := c₁.reaches_next.line_le
    obtain ⟨t₁, skipped', same₁⟩ := skipped.rebase inside same
    obtain ⟨t', skip', same'⟩ := ih (by omega) same₁
    rw [← Cursor.next_rebase origin (by omega)] at skip'
    exact ⟨t', .dotSkip skipped' head lone some_item skip', same'⟩
  | @missingTail _ _ _ _ _ _ c₁ _ _ _ _ skipped head lone some_item skipped₂ nothing =>
    have onward := skipped.reaches.line_le
    have further := c₁.reaches_next.line_le
    obtain ⟨t₁, skipped', same₁⟩ := skipped.rebase inside same
    obtain ⟨t₂, skipped₂', same₂⟩ := skipped₂.rebase (by omega) same₁
    rw [← Cursor.next_rebase origin (by omega)] at skipped₂'
    exact ⟨t₂, .missingTail skipped' head lone some_item skipped₂' nothing, same₂⟩
  | @tail _ _ _ _ _ _ c₁ _ _ _ _ _ _ skipped head lone some_item skipped₂ follows _ ih =>
    have onward := skipped.reaches.line_le
    have onward₁ := c₁.reaches_next.line_le
    have onward₂ := skipped₂.reaches.line_le
    obtain ⟨t₁, skipped', same₁⟩ := skipped.rebase inside same
    obtain ⟨t₂, skipped₂', same₂⟩ := skipped₂.rebase (by omega) same₁
    obtain ⟨t', read', same'⟩ := ih (by omega) same₂
    rw [← Cursor.next_rebase origin (by omega)] at skipped₂'
    exact ⟨t', .tail skipped' head lone some_item skipped₂' follows read', same'⟩
  | @dot _ _ _ _ _ _ c₁ _ _ _ _ _ _ _ _ _ skipped head lone some_item skipped₂ follows read _ ih =>
    have onward := skipped.reaches.line_le
    have onward₁ := c₁.reaches_next.line_le
    have onward₂ := skipped₂.reaches.line_le
    have onward₃ := read.reaches.line_le
    obtain ⟨t₁, skipped', same₁⟩ := skipped.rebase inside same
    obtain ⟨t₂, skipped₂', same₂⟩ := skipped₂.rebase (by omega) same₁
    obtain ⟨t₃, read', same₃⟩ := read.rebase (by omega) same₂
    obtain ⟨t', others', same'⟩ := ih (by omega) same₃
    rw [← Cursor.next_rebase origin (by omega)] at skipped₂'
    exact ⟨t', .dot skipped' head lone some_item skipped₂' follows read' others', same'⟩
  | itemDatum skipped head open_ no_dot _ ih =>
    have onward := skipped.reaches.line_le
    obtain ⟨t₁, skipped', same₁⟩ := skipped.rebase inside same
    obtain ⟨t', read', same'⟩ := ih (by omega) same₁
    exact ⟨t', .itemDatum skipped' head open_ no_dot read', same'⟩
  | item skipped head open_ no_dot read _ ih =>
    have onward := skipped.reaches.line_le
    have further := read.reaches.line_le
    obtain ⟨t₁, skipped', same₁⟩ := skipped.rebase inside same
    obtain ⟨t₂, read', same₂⟩ := read.rebase (by omega) same₁
    obtain ⟨t', others', same'⟩ := ih (by omega) same₂
    exact ⟨t', .item skipped' head open_ no_dot read' others', same'⟩
  | @blank _ _ c _ _ _ _ _ head white _ ih =>
    have onward := c.reaches_next.line_le
    obtain ⟨t', others', same'⟩ := ih (by omega) same
    rw [← Cursor.next_rebase origin inside] at others'
    exact ⟨t', .blank head white others', same'⟩
  | remarkSkip visible _ ih =>
    obtain ⟨t', skip', same'⟩ := ih inside same
    exact ⟨t', .remarkSkip visible skip', same'⟩
  | remark visible skipped _ ih =>
    have onward := skipped.reaches.line_le
    obtain ⟨t₁, skipped', same₁⟩ := skipped.rebase inside same
    obtain ⟨t', others', same'⟩ := ih (by omega) same₁
    exact ⟨t', .remark visible skipped' others', same'⟩
  | blockComment head endless => exact ⟨t, .blockComment head endless, same⟩
  | @datumComment _ c _ _ _ _ head _ ih =>
    have onward := (c.reaches_advance 2).line_le
    obtain ⟨t', read', same'⟩ := ih (by omega) same
    rw [← Cursor.advance_rebase origin inside] at read'
    exact ⟨t', .datumComment head read', same'⟩
  | @lineDatumSkip _ c _ _ _ _ head _ ih =>
    have onward := (c.reaches_advance 2).line_le
    obtain ⟨t', skip', same'⟩ := ih (by omega) same
    rw [← Cursor.advance_rebase origin inside] at skip'
    exact ⟨t', .lineDatumSkip head skip', same'⟩
  | @lineDatumComment _ c _ _ _ _ _ _ head skipped stays follows _ ih =>
    have onward := (c.reaches_advance 2).line_le
    have further := skipped.reaches.line_le
    obtain ⟨t₁, skipped', same₁⟩ := skipped.rebase (by omega) same
    obtain ⟨t', read', same'⟩ := ih (by omega) same₁
    rw [← Cursor.advance_rebase origin inside] at skipped'
    exact ⟨t', .lineDatumComment head skipped' (by simpa using stays) follows read', same'⟩
  | @lineDirective _ c _ _ _ _ head unnamed starts _ ih =>
    have onward := (c.reaches_advance 2).line_le
    obtain ⟨t', scan', same'⟩ := ih (by omega) (same.emit _ (.phase .start .skipping
      ((c.rebase origin).advance 2).position))
    simp only [Task.rebase, ← Position.line_rebase, ← Cursor.position_rebase,
      ← Cursor.advance_rebase origin inside] at scan'
    exact ⟨t', .lineDirective head unnamed starts scan', same'⟩
  | @unrecorded _ c _ _ _ _ _ _ _ head unnamed starts scanned failed =>
    have onward := (c.reaches_advance 2).line_le
    obtain ⟨t₁, scanned', same₁⟩ := scanned.rebase (by omega) (same.emit _ (.phase .start .skipping
      ((c.rebase origin).advance 2).position))
    obtain ⟨t', failed', same'⟩ := Context.raises_record_rebase failed same₁
    simp only [Task.rebase, ← Position.line_rebase, ← Cursor.position_rebase,
      ← Cursor.advance_rebase origin inside] at scanned'
    refine ⟨t', .unrecorded head unnamed starts scanned' ?_, same'⟩
    rw [Cursor.advance_rebase origin inside, Cursor.position_rebase, Position.beforeMarker_rebase]
    exact failed'
  | @intralineBlank _ _ c _ _ _ _ _ head white _ ih =>
    have onward := c.reaches_next.line_le
    obtain ⟨t', others', same'⟩ := ih (by omega) same
    rw [← Cursor.next_rebase origin inside] at others'
    exact ⟨t', .intralineBlank head white others', same'⟩
  | intralineSkip visible _ ih =>
    obtain ⟨t', skip', same'⟩ := ih inside same
    exact ⟨t', .intralineSkip visible skip', same'⟩
  | intralineComment visible skipped stays _ ih =>
    have onward := skipped.reaches.line_le
    obtain ⟨t₁, skipped', same₁⟩ := skipped.rebase inside same
    obtain ⟨t', others', same'⟩ := ih (by omega) same₁
    exact ⟨t', .intralineComment visible skipped' (by simpa using stays) others', same'⟩
  | datumsSkip _ ih =>
    obtain ⟨t', skip', same'⟩ := ih inside same
    exact ⟨t', .datumsSkip skip', same'⟩
  | lineDatumRead skipped stays follows _ ih =>
    have onward := skipped.reaches.line_le
    obtain ⟨t₁, skipped', same₁⟩ := skipped.rebase inside same
    obtain ⟨t₂, read', same₂⟩ := ih (by omega) (same₁.emit _ _)
    exact ⟨_, .lineDatumRead skipped' (by simpa using stays) follows read', same₂.reported _ _ _⟩
  | crossingDatum skipped stays follows read left refused =>
    have onward := skipped.reaches.line_le
    obtain ⟨t₁, skipped', same₁⟩ := skipped.rebase inside same
    obtain ⟨t₂, read', same₂⟩ := read.rebase (by omega) (same₁.emit _ _)
    exact ⟨_, .crossingDatum skipped' (by simpa using stays) follows read' (by simpa using left)
      refused, same₂.emit _ _⟩
  | lineDatum skipped same_line follows read stays _ ih =>
    have onward := skipped.reaches.line_le
    have further := read.reaches.line_le
    obtain ⟨t₁, skipped', same₁⟩ := skipped.rebase inside same
    obtain ⟨t₂, read', same₂⟩ := read.rebase (by omega) (same₁.emit _ _)
    obtain ⟨t', others', same'⟩ := ih (by omega) ((same₂.emit _ _).emit _ _)
    exact ⟨t', .lineDatum skipped' (by simpa using same_line) follows read' (by simpa using stays)
      others', same'⟩

end LineDirective
