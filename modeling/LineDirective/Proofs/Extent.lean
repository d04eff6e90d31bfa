import LineDirective.Proofs.Adequacy
import LineDirective.Proofs.DirectiveRoundTrip
import LineDirective.Proofs.LexemeLocality
import LineDirective.Proofs.LineEffects

/-!
# How far the scan of a directive goes

A scan takes up the whole of its line and starts no datum beyond it. Beyond the line break it goes
only with a comment that starts on the line, which must be a block comment or a datum comment, or
with its last datum, and then it ends where this comment or this datum ends.

The data of a directive are followed as spans, from the place where the read of a datum starts to the
place where it ends (`Reads.exists_traversal_on_line`).
-/

namespace LineDirective

/-! ## 1. Comments that leave their line -/

theorem Cursor.line_lineEnd (c : Cursor) : c.lineEnd.position.line = c.position.line := by
  have parts := (List.takeWhile_append_dropWhile (p := fun x => !x.isNewline) (l := c.rest)).symm
  exact line_advance_of_onOneLine parts (Text.onOneLine_takeWhile c.rest)

def startsLongComment : Text → Bool
  | .scalar '#' :: .scalar '|' :: _ => true
  | .scalar '#' :: .scalar ';' :: _ => true
  | _ => false

theorem Cursor.inside_of_startsLongComment {c : Cursor} (opens : startsLongComment c.rest = true) :
    c.atLineEnd = false := by
  unfold atLineEnd atEnd atNewline
  generalize c.rest = t at opens ⊢
  fun_cases startsLongComment t with
  | case1 rest => rfl
  | case2 rest => rfl
  | case3 t no_block no_datum =>
    rw [startsLongComment.eq_3 t no_block no_datum] at opens
    cases opens

/-- A line comment stops before the line break, and a named marker holds none. -/
theorem Reads.startsLongComment_of_crossing {ctx : Context} {c next : Cursor} {s s' : ReaderState}
    (skipped : Reads ctx (.comment .directive) c s .nothing next s')
    (left : next.position.line ≠ c.position.line) : startsLongComment c.rest = true := by
  cases skipped with
  | lineComment head => exact absurd c.line_lineEnd left
  | blockComment head ends =>
    rw [head]
    rfl
  | emptyComment head _ _ =>
    rw [head]
    rfl
  | lineDatumComment head _ _ _ _ =>
    rw [head]
    rfl
  | @marker _ _ _ rest m head found =>
    obtain ⟨more, rfl⟩ := NamedMarker.name_of_detect? found
    have names : ∀ m : NamedMarker, Text.OnOneLine (directiveMarker ++ m.name) := by
      intro m
      unfold Text.OnOneLine
      cases m <;> decide
    have stays := Cursor.line_advance_of_onOneLine (c := c) (w := directiveMarker ++ m.name) head
      (names m)
    rw [List.length_append] at stays
    exact absurd stays left

/-- A block comment or a datum comment takes up what lies between two places. -/
structure LongComment (ctx : Context) (fold : Bool) (start stop : Cursor) : Prop where
  opens : startsLongComment start.rest = true
  skipped : ∃ t t' : ReaderState, t.foldCase = fold ∧
    (Reader.skipComment ctx .directive start).Returns t (some stop) t'

theorem Reads.exists_longComment {ctx : Context} {anchor : Int} {c next : Cursor}
    {s s' : ReaderState} (skipped : Reads ctx (.intraline anchor) c s .nothing next s')
    (line : c.position.line = anchor) (left : next.position.line ≠ anchor) :
    ∃ start, c.Reaches start ∧ start.position.line = anchor ∧
      LongComment ctx s.foldCase start next := by
  -- by induction on what is left to read: the comment that leaves the line is the last one skipped
  cases skipped with
  | @intralineBlank _ _ _ x rest _ _ head white others =>
    have inside : x.isNewline = false := by
      rw [CodePoint.isIntralineBlank, Bool.and_eq_true] at white
      simpa using white.1
    have shorter := Cursor.length_next_lt head
    have same : c.next.position.line = anchor := by rw [Cursor.line_next_of_inside head inside, line]
    obtain ⟨start, ahead, on_line, comment⟩ := exists_longComment others same left
    exact ⟨start, c.reaches_next.trans ahead, on_line, comment⟩
  | intralineComment visible first same others =>
    have shorter := first.length_lt rfl
    obtain ⟨start, ahead, on_line, comment⟩ := exists_longComment others same left
    rw [(first.onlyMarkers rfl).foldCase] at comment
    exact ⟨start, first.reaches.trans ahead, on_line, comment⟩
  | crossingComment visible last crossed =>
    rw [← line] at crossed
    exact ⟨c, .refl c, line, last.startsLongComment_of_crossing crossed, s, s', rfl,
      Reader.returns_skipComment.mpr last⟩
  | intralineClear _ _ => exact absurd line left
termination_by c.rest.length

/-! ## 2. The data as spans -/

structure Span where
  datum : Datum
  start : Cursor
  stop : Cursor

/-- The datum of the span is what is read there in a directive. -/
def Span.IsRead (ctx : Context) (fold : Bool) (span : Span) : Prop :=
  ∃ t t' : ReaderState, t.foldCase = fold ∧
    (Reader.readDatum ctx .directive span.start).Returns t (span.datum, span.stop) t'

theorem Reads.isRead {ctx : Context} {c next : Cursor} {t t' : ReaderState} {d : Datum}
    (read : Reads ctx (.datum .directive) c t (.datum d) next t') :
    Span.IsRead ctx t.foldCase ⟨d, c, next⟩ :=
  ⟨t, t', rfl, Reader.returns_readDatum.mpr read⟩

theorem Span.IsRead.reaches {ctx : Context} {fold : Bool} {span : Span}
    (read : span.IsRead ctx fold) : span.start.Reaches span.stop := by
  obtain ⟨t, t', -, returned⟩ := read
  exact (Reader.returns_readDatum.mp returned).reaches

theorem Span.IsRead.offset_lt {ctx : Context} {fold : Bool} {span : Span}
    (read : span.IsRead ctx fold) : span.start.position.offset < span.stop.position.offset := by
  have ahead := read.reaches
  obtain ⟨t, t', -, returned⟩ := read
  have shorter := (Reader.returns_readDatum.mp returned).length_lt rfl
  exact (Cursor.Reaches.refl _).offset_lt ahead shorter

def Event.datumStart? : Event → Option Position
  | .datumRead _ position => some position
  | _ => none

def ReaderState.datumStarts (s : ReaderState) : List Position :=
  s.trace.toList.filterMap Event.datumStart?

@[simp] theorem ReaderState.datumStarts_emit (s : ReaderState) (e : Event) :
    (s.emit e).datumStarts = s.datumStarts ++ e.datumStart?.toList := by
  rw [datumStarts, trace_emit, Array.toList_push, List.filterMap_append]
  rfl

theorem ReaderState.OnlyMarkers.datumStarts {s s' : ReaderState} (h : s.OnlyMarkers s') :
    s'.datumStarts = s.datumStarts := by
  obtain ⟨events, trace, markers⟩ := h.trace
  have none : events.filterMap Event.datumStart? = [] := by
    rw [List.filterMap_eq_nil_iff]
    intro e mem
    obtain ⟨m, p, rfl⟩ := markers e mem
    rfl
  rw [ReaderState.datumStarts, trace, List.filterMap_append, none, List.append_nil]
  rfl

/-- A scan that starts at `c` on the line `anchor` reads the data of the spans one after another and
ends at `last`: at the end of the line, or beyond the line with a comment or with the last datum. -/
structure Traversal (ctx : Context) (anchor : Int) (c : Cursor) (s : ReaderState)
    (spans : List Span) (last : Cursor) (s' : ReaderState) : Prop where
  starts : ∀ span ∈ spans, c.Reaches span.start ∧ span.start.position.line = anchor ∧
    span.start.atLineEnd = false
  reads : ∀ span ∈ spans, span.IsRead ctx s.foldCase
  ordered : spans.Pairwise fun a b => a.stop.Reaches b.start
  reported : s'.datumStarts = s.datumStarts ++ spans.map (·.start.position)
  ahead : c.Reaches last
  exit : (last.position.line = anchor ∧ last.atLineEnd = true) ∨
    (last.position.line ≠ anchor ∧
      ((∃ start, c.Reaches start ∧ start.position.line = anchor ∧
          LongComment ctx s.foldCase start last) ∨
        (ctx.policy.lineCrossing = .truncate ∧ ∃ span, spans.getLast? = some span ∧
          span.stop = last)))

namespace Traversal

variable {ctx : Context} {anchor : Int} {c last : Cursor} {s s' : ReaderState} {spans : List Span}

theorem cons {span : Span} {t : ReaderState} (rest : Traversal ctx anchor span.stop t spans last s')
    (ahead : c.Reaches span.start) (same : span.start.position.line = anchor)
    (inside : span.start.atLineEnd = false) (read : span.IsRead ctx s.foldCase)
    (fold : t.foldCase = s.foldCase)
    (reported : t.datumStarts = s.datumStarts ++ [span.start.position]) :
    Traversal ctx anchor c s (span :: spans) last s' := by
  have onward : c.Reaches span.stop := ahead.trans read.reaches
  constructor
  · refine List.forall_mem_cons.mpr ⟨⟨ahead, same, inside⟩, ?_⟩
    intro other mem
    obtain ⟨later, on_line⟩ := rest.starts other mem
    exact ⟨onward.trans later, on_line⟩
  · refine List.forall_mem_cons.mpr ⟨read, ?_⟩
    rw [← fold]
    exact rest.reads
  · exact List.pairwise_cons.mpr ⟨fun other mem => (rest.starts other mem).1, rest.ordered⟩
  · rw [rest.reported, reported, List.append_assoc]
    rfl
  · exact onward.trans rest.ahead
  · rcases rest.exit with stays | ⟨left, ⟨start, later, on_line, comment⟩ | ⟨allowed, final, ends⟩⟩
    · exact .inl stays
    · rw [fold] at comment
      exact .inr ⟨left, .inl ⟨start, onward.trans later, on_line, comment⟩⟩
    · refine .inr ⟨left, .inr ⟨allowed, final, ?_, ends.2⟩⟩
      rw [List.getLast?_cons, ends.1]
      rfl

end Traversal

theorem Reads.exists_traversal_on_line {ctx : Context} {anchor : Int} {c last : Cursor}
    {s s' : ReaderState} {before ds : List Datum}
    (scan : Reads ctx (.datums anchor before) c s (.datums ds) last s')
    (line : c.position.line = anchor) :
    ∃ spans : List Span, ds = before ++ spans.map (·.datum) ∧
      Traversal ctx anchor c s spans last s' ∧
      (ctx.policy.lineCrossing = .error → ∀ span ∈ spans, span.stop.position.line = anchor) := by
  -- by induction on what is left to read, one span for each datum. Where no datum may leave the
  -- line, each span ends on it.
  cases scan with
  | @lastDatum _ _ _ _ _ s₁ skipped ended =>
    have quiet := skipped.onlyMarkers rfl
    refine ⟨[], (List.append_nil before).symm,
      ⟨by simp, by simp, .nil, ?_, skipped.reaches, ?_⟩, by simp⟩
    · rw [ReaderState.datumStarts_emit, quiet.datumStarts]
      rfl
    -- off the line the scan has come with a comment, since it has read no datum
    · by_cases same : last.position.line = anchor
      · rcases ended with left | ended
        · exact absurd same left
        · exact .inl ⟨same, ended⟩
      · exact .inr ⟨same, .inl (skipped.exists_longComment line same)⟩
  | @crossingDatum _ _ _ _ c₁ s₁ d _ s₂ skipped same follows read left allowed =>
    have quiet := skipped.onlyMarkers rfl
    have quiet' := read.onlyMarkers rfl
    have is_read := read.isRead
    rw [ReaderState.foldCase_emit, quiet.foldCase] at is_read
    refine ⟨[⟨d, c₁, last⟩], rfl, ⟨?_, ?_, ?_, ?_, ?_, ?_⟩, ?_⟩
    · simp [skipped.reaches, same, follows]
    · simpa using is_read
    · exact List.pairwise_singleton _ _
    · simp [quiet'.datumStarts, quiet.datumStarts, Event.datumStart?]
    · exact skipped.reaches.trans read.reaches
    · exact .inr ⟨left, .inr ⟨allowed, _, rfl, rfl⟩⟩
    · intro strict
      rw [strict] at allowed
      cases allowed
  | @lineDatum _ _ _ _ c₁ s₁ d next s₂ _ _ _ skipped same follows read stays others =>
    have shorter := skipped.length_le
    have shorter' := read.length_lt rfl
    have quiet := skipped.onlyMarkers rfl
    have quiet' := read.onlyMarkers rfl
    have is_read := read.isRead
    rw [ReaderState.foldCase_emit, quiet.foldCase] at is_read
    obtain ⟨spans, rfl, rest, on_line⟩ := exists_traversal_on_line others stays
    refine ⟨⟨d, c₁, next⟩ :: spans, by simp, ?_, ?_⟩
    · refine Traversal.cons rest skipped.reaches same follows is_read ?_ ?_
      · exact quiet'.foldCase.trans quiet.foldCase
      · simp [quiet'.datumStarts, quiet.datumStarts, Event.datumStart?]
    · intro strict
      exact List.forall_mem_cons.mpr ⟨stays, on_line strict⟩
termination_by c.rest.length

theorem Reads.exists_traversal {ctx : Context} {anchor : Int} {c last : Cursor}
    {s s' : ReaderState} {before ds : List Datum}
    (scan : Reads ctx (.datums anchor before) c s (.datums ds) last s')
    (line : c.position.line = anchor) :
    ∃ spans : List Span, ds = before ++ spans.map (·.datum) ∧
      Traversal ctx anchor c s spans last s' := by
  obtain ⟨spans, same, found, -⟩ := scan.exists_traversal_on_line line
  exact ⟨spans, same, found⟩

/-! ## 3. The extent of a scan -/

/-- Before the start of a text no scan succeeds. -/
theorem Source.returns_scanDirective {src : Source} {ctx : Context} {p : Position}
    {s s' : ReaderState} {d : Directive} {last : Cursor}
    (h : (src.scanDirective ctx p).Returns s (d, last) s') :
    (Reader.scanDirective ctx (src.cursor p)).Returns s (d, last) s' := by
  unfold scanDirective at h
  split at h
  · simp [scanBeforeText] at h
  · exact h

/-- A scan that succeeds at a position takes up the whole line there and starts no datum beyond it.
Each datum is read at a place before the end of the line, where the trace reports it, and not before
the end of the datum before it. The scan ends at the start of the next line or later; and later only
where a block comment or a datum comment ends that started on the line, or where the last datum ends,
if data may leave the line. -/
theorem Directive.extent_of_scan {src : Source} {ctx : Context} {p : Position} {s s' : ReaderState}
    {d : Directive} {last : Cursor} (scan : (src.scanDirective ctx p).Returns s (d, last) s') :
    ∃ spans : List Span, d.datums = spans.map (·.datum) ∧
      s'.datumStarts = s.datumStarts ++ spans.map (·.start.position) ∧
      (∀ span ∈ spans, (src.cursor p).Reaches span.start ∧ span.IsRead ctx s.foldCase ∧
        span.start.position.offset < (src.cursor p).lineEnd.position.offset) ∧
      (spans.Pairwise fun a b => a.start.position.offset < b.start.position.offset ∧
        a.stop.position.offset ≤ b.start.position.offset) ∧
      (src.cursor p).nextLine.position.offset ≤ last.position.offset ∧
      ((src.cursor p).nextLine.position.offset < last.position.offset →
        (∃ start, (src.cursor p).Reaches start ∧
          start.position.offset < (src.cursor p).lineEnd.position.offset ∧
          LongComment ctx s.foldCase start last) ∨
        (ctx.policy.lineCrossing = .truncate ∧
          ∃ span, spans.getLast? = some span ∧ span.stop = last)) := by
  obtain ⟨ds, stop, scanned, rfl, rfl⟩ :=
    Reader.returns_scanDirective.mp (Source.returns_scanDirective scan)
  generalize src.cursor p = c at scanned ⊢
  obtain ⟨spans, rfl, found⟩ := scanned.exists_traversal rfl
  -- every place on the line where something stands is before its end
  have before_end : ∀ {start : Cursor}, c.Reaches start →
      start.position.line = c.position.line → start.atLineEnd = false →
      start.position.offset < c.lineEnd.position.offset := by
    intro start ahead same inside
    exact ahead.offset_lt c.reaches_lineEnd (ahead.lineEnd_lt same inside)
  refine ⟨spans, rfl, ?_, ?_, ?_, ?_⟩
  · rw [found.reported, ReaderState.datumStarts_emit]
    simp [Event.datumStart?]
  · intro span mem
    obtain ⟨ahead, same, inside⟩ := found.starts span mem
    exact ⟨ahead, found.reads span mem, before_end ahead same inside⟩
  · refine found.ordered.imp_of_mem ?_
    intro a b mem _ follows
    have first := (found.reads a mem).offset_lt
    have second := (Cursor.Reaches.refl a.stop).offset_le follows follows.length_le
    exact ⟨by omega, second⟩
  · unfold Cursor.afterDirective
    rcases found.exit with ⟨same, ended⟩ | ⟨left, ways⟩
    -- on the line the scan has taken the rest of the line break along
    · rw [if_pos same, found.ahead.skipNewline_eq_nextLine same ended]
      exact ⟨Int.le_refl _, fun beyond => absurd beyond (Int.lt_irrefl _)⟩
    · rw [if_neg left]
      refine ⟨c.reaches_nextLine.offset_le found.ahead (found.ahead.length_le_nextLine left), ?_⟩
      intro _
      rcases ways with ⟨start, ahead, same, comment⟩ | truncated
      · have inside := Cursor.inside_of_startsLongComment comment.opens
        exact .inl ⟨start, ahead, before_end ahead same inside, comment⟩
      · exact .inr truncated

/-- A list that starts on the line and ends on the next one. -/
theorem Directive.extent_of_scan_truncated :
    ∃ d last s', (Source.scanDirective ⟨"#! a (b\nc) d", none⟩
        { policy := { lineCrossing := .truncate } } ⟨1, 2, 2⟩).Returns {} (d, last) s' ∧
      d.datums = [.symbol "a", .list [.symbol "b", .symbol "c"]] ∧ last.position.offset = 10 ∧
      ∃ spans : List Span, d.datums = spans.map (·.datum) ∧
        (∀ span ∈ spans, span.start.position.offset < 7) ∧
        spans.Pairwise fun a b => a.start.position.offset < b.start.position.offset ∧
          a.stop.position.offset ≤ b.start.position.offset := by
  have scanned : ∃ d last s', (Source.scanDirective ⟨"#! a (b\nc) d", none⟩
        { policy := { lineCrossing := .truncate } } ⟨1, 2, 2⟩).Returns {} (d, last) s' ∧
      d.datums = [.symbol "a", .list [.symbol "b", .symbol "c"]] ∧ last.position.offset = 10 :=
    ⟨_, _, _, rfl, rfl, rfl⟩
  obtain ⟨d, last, s', scan, data, stop⟩ := scanned
  obtain ⟨spans, same, -, inside, ordered, -⟩ := Directive.extent_of_scan scan
  exact ⟨d, last, s', scan, data, stop, spans, same, fun span mem => (inside span mem).2.2, ordered⟩

end LineDirective
