import LineDirective.Proofs.Nesting
import LineDirective.Proofs.Requests

/-!
# The directives on record

Along a run the record grows by the directives of successive scans: each begins at a marker after the
place where the one before it has ended (`Logged`). A run that succeeds has all of them behind it, and
the trace tells how far each of them reaches (`LoggedTo`). So the record of a session lists disjoint
stretches of the text in order, all before the place where the next item is looked for; a search that
fails adds only directives from there on.
-/

namespace LineDirective

/-! ## 1. Scans in the trace -/

/-- Follows the scans of directives along a trace: the place after the marker of the scan under way,
and for every scan that has come to its end that place and the one where its data end. -/
def contentProgress (progress : Option Position × List (Position × Position)) :
    Event → Option Position × List (Position × Position)
  | .phase .start _ p => (some p, progress.2)
  | .phase _ .done q => (none, progress.2 ++ (progress.1.map fun p => (p, q)).toList)
  | _ => progress

namespace ReaderState

def contents (s : ReaderState) : Option Position × List (Position × Position) :=
  s.trace.toList.foldl contentProgress (none, [])

@[simp] theorem contents_emit (s : ReaderState) (e : Event) :
    (s.emit e).contents = contentProgress s.contents e := by
  simp [contents]

theorem OnlyMarkers.contents {s s' : ReaderState} (h : s.OnlyMarkers s') :
    s'.contents = s.contents := by
  obtain ⟨events, trace, markers⟩ := h.trace
  unfold ReaderState.contents
  rw [trace, List.foldl_append, foldl_markers (fun _ _ _ => rfl) markers]

end ReaderState

/-- A stretch of a source that a directive takes up, from its marker to the place where its scan
ended. -/
structure Extent where
  start : Position
  stop : Position
deriving DecidableEq, Repr

def Session.extents (s : Session) : List Extent :=
  s.state.contents.2.map fun content =>
    ⟨content.1.beforeMarker, ((s.source.cursor content.2).afterDirective content.1.line).position⟩

/-- A scan that comes to its end reports the end of its data. -/
theorem Reads.scan_contents {ctx : Context} {anchor : Int} {before : List Datum} {c last : Cursor}
    {s s' : ReaderState} {y : Yield} {p : Position}
    (h : Reads ctx (.datums anchor before) c s y last s') (under_way : s.contents.1 = some p) :
    s'.contents.2 = s.contents.2 ++ [(p, last.position)] := by
  generalize scan : Task.datums anchor before = task at h
  induction h generalizing before with
  | lastDatum skipped _ =>
    have skip := (skipped.onlyMarkers rfl).contents
    simp [skip, contentProgress, under_way]
  | crossingDatum skipped _ _ read _ _ =>
    have skip := (skipped.onlyMarkers rfl).contents
    have datum := (read.onlyMarkers rfl).contents
    simp [datum, skip, contentProgress, under_way]
  | lineDatum skipped _ _ read _ _ _ _ ih =>
    have skip := (skipped.onlyMarkers rfl).contents
    have datum := (read.onlyMarkers rfl).contents
    cases scan
    simp only [ReaderState.contents_emit, datum, skip, contentProgress, under_way,
      forall_const] at ih
    exact ih rfl
  | _ => cases scan

theorem Context.contents_record (ctx : Context) (d : Directive) (s : ReaderState) :
    ((ctx.record d).final s).contents = s.contents := by
  unfold record
  split
  · rfl
  · rfl
  · cases d.write with
    | error fault => rfl
    | ok text =>
      show (ReaderState.emit _ _).contents = _
      rw [ReaderState.contents_emit]
      rfl

/-! ## 2. Scans along a run -/

/-- The scan of a directive in code: where its marker stands, where its data end, and the data. -/
structure Scan where
  marker : Cursor
  last : Cursor
  datums : List Datum

namespace Scan

def content (scan : Scan) : Cursor := scan.marker.advance 2

def stop (scan : Scan) : Cursor := scan.last.afterDirective scan.content.position.line

def directive (scan : Scan) : Directive := ⟨scan.datums, some scan.content.position.beforeMarker⟩

def Runs (ctx : Context) (scan : Scan) : Prop :=
  atDirective ctx.policy.whitespace scan.marker = true ∧
    ∃ t t' : ReaderState, Reads ctx (.datums scan.content.position.line []) scan.content
      (t.emit (.phase .start .skipping scan.content.position)) (.datums scan.datums) scan.last t'

variable {ctx : Context} {scan : Scan}

theorem Runs.reaches_last (runs : scan.Runs ctx) : scan.content.Reaches scan.last := by
  obtain ⟨-, t, t', scanned⟩ := runs
  exact scanned.reaches

theorem reaches_stop (scan : Scan) : scan.last.Reaches scan.stop :=
  scan.last.reaches_afterDirective _

theorem Runs.marker_lt_content (runs : scan.Runs ctx) :
    scan.content.rest.length < scan.marker.rest.length := by
  obtain ⟨starts, -⟩ := runs
  obtain ⟨rest, head, -⟩ := atDirective_iff.mp starts
  exact Cursor.length_advance_lt (by omega) (by simp [head])

theorem Runs.reaches (runs : scan.Runs ctx) : scan.marker.Reaches scan.stop :=
  (scan.marker.reaches_advance 2).trans (runs.reaches_last.trans scan.reaches_stop)

theorem Runs.offset_lt (runs : scan.Runs ctx) :
    scan.marker.position.offset < scan.stop.position.offset := by
  have shorter := runs.marker_lt_content
  have ahead := (runs.reaches_last.trans scan.reaches_stop).length_le
  exact (Cursor.Reaches.refl _).offset_lt runs.reaches (by omega)

theorem Runs.position_marker (runs : scan.Runs ctx) :
    scan.content.position.beforeMarker = scan.marker.position := by
  obtain ⟨starts, -⟩ := runs
  obtain ⟨rest, head, -⟩ := atDirective_iff.mp starts
  exact Cursor.position_beforeMarker head

theorem Runs.returns (runs : scan.Runs ctx) :
    ∃ t t', (Reader.scanDirective ctx scan.content).Returns t (scan.directive, scan.stop) t' := by
  obtain ⟨-, t, t', scanned⟩ := runs
  exact ⟨t, t', Reader.returns_scanDirective.mpr ⟨scan.datums, scan.last, scanned, rfl, rfl⟩⟩

end Scan

/-- Between the two states the directives of the scans were put on record. The scans begin from the
cursor on, each at or after the end of the one before it. -/
structure Logged (ctx : Context) (c : Cursor) (s : ReaderState) (scans : List Scan)
    (s' : ReaderState) : Prop where
  directives : s'.directives = s.directives ++ scans.map (·.directive)
  runs : ∀ scan ∈ scans, c.Reaches scan.marker ∧ scan.Runs ctx
  ordered : scans.Pairwise fun a b => a.stop.Reaches b.marker

/-- The scans also end before the second cursor, and the trace tells of them. -/
structure LoggedTo (ctx : Context) (c : Cursor) (s : ReaderState) (scans : List Scan) (next : Cursor)
    (s' : ReaderState) : Prop extends Logged ctx c s scans s' where
  ends : ∀ scan ∈ scans, scan.stop.Reaches next
  contents : s'.contents.2 =
    s.contents.2 ++ scans.map fun scan => (scan.content.position, scan.last.position)

section Composition

variable {ctx : Context} {c c₁ c₂ next next' : Cursor} {s s₁ s' : ReaderState}
  {scans more : List Scan}

theorem Logged.behind (h : Logged ctx c₁ s scans s') (ahead : c.Reaches c₁) :
    Logged ctx c s scans s' :=
  ⟨h.directives, fun scan mem => ⟨ahead.trans (h.runs scan mem).1, (h.runs scan mem).2⟩, h.ordered⟩

theorem LoggedTo.behind (h : LoggedTo ctx c₁ s scans next s') (ahead : c.Reaches c₁) :
    LoggedTo ctx c s scans next s' :=
  ⟨h.toLogged.behind ahead, h.ends, h.contents⟩

theorem LoggedTo.further (h : LoggedTo ctx c s scans next s') (ahead : next.Reaches next') :
    LoggedTo ctx c s scans next' s' :=
  ⟨h.toLogged, fun scan mem => (h.ends scan mem).trans ahead, h.contents⟩

theorem LoggedTo.of_silent (c next : Cursor) (directives : s'.directives = s.directives)
    (contents : s'.contents.2 = s.contents.2) : LoggedTo ctx c s [] next s' :=
  ⟨⟨by simp [directives], by simp, .nil⟩, by simp, by simp [contents]⟩

theorem LoggedTo.logged (first : LoggedTo ctx c s scans c₁ s₁) (ahead : c.Reaches c₁)
    (second : Logged ctx c₁ s₁ more s') : Logged ctx c s (scans ++ more) s' := by
  refine ⟨?_, ?_, ?_⟩
  · rw [second.directives, first.directives, List.map_append, List.append_assoc]
  · intro scan mem
    rcases List.mem_append.mp mem with mem | mem
    · exact first.runs scan mem
    · exact (second.behind ahead).runs scan mem
  · rw [List.pairwise_append]
    refine ⟨first.ordered, second.ordered, ?_⟩
    intro a mem_a b mem_b
    exact (first.ends a mem_a).trans (second.runs b mem_b).1

theorem LoggedTo.trans (first : LoggedTo ctx c s scans c₁ s₁) (ahead : c.Reaches c₁)
    (second : LoggedTo ctx c₁ s₁ more next s') (further : c₁.Reaches next) :
    LoggedTo ctx c s (scans ++ more) next s' := by
  refine ⟨first.logged ahead second.toLogged, ?_, ?_⟩
  · intro scan mem
    rcases List.mem_append.mp mem with mem | mem
    · exact (first.ends scan mem).trans further
    · exact second.ends scan mem
  · rw [second.contents, first.contents, List.map_append, List.append_assoc]

end Composition

section Runs

variable {ctx : Context} {c next last : Cursor} {s s₁ s' : ReaderState} {rest : Text}
  {ds : List Datum}

/-- A scan that comes to its end adds one entry. -/
theorem Logged.of_scan (keeps : ctx.sink ≠ .discard)
    (head : c.rest = .scalar '#' :: .scalar '!' :: rest)
    (starts : startsDirective ctx.policy.whitespace rest = true)
    (scanned : Reads ctx (.datums (c.advance 2).position.line []) (c.advance 2)
      (s.emit (.phase .start .skipping (c.advance 2).position)) (.datums ds) last s₁)
    (handed : s' = (ctx.record ⟨ds, some (c.advance 2).position.beforeMarker⟩).final s₁) :
    Logged ctx c s [⟨c, last, ds⟩] s' := by
  have kept := (ctx.final_record keeps ⟨ds, some (c.advance 2).position.beforeMarker⟩ s₁).1
  rw [← handed, (scanned.untouched rfl).directives] at kept
  refine ⟨kept, ?_, by simp⟩
  intro scan mem
  obtain rfl := List.mem_singleton.mp mem
  exact ⟨.refl c, atDirective_iff.mpr ⟨rest, head, starts⟩, s, s₁, scanned⟩

theorem LoggedTo.of_scan (keeps : ctx.sink ≠ .discard)
    (head : c.rest = .scalar '#' :: .scalar '!' :: rest)
    (starts : startsDirective ctx.policy.whitespace rest = true)
    (scanned : Reads ctx (.datums (c.advance 2).position.line []) (c.advance 2)
      (s.emit (.phase .start .skipping (c.advance 2).position)) (.datums ds) last s₁)
    (handed : s' = (ctx.record ⟨ds, some (c.advance 2).position.beforeMarker⟩).final s₁) :
    LoggedTo ctx c s [⟨c, last, ds⟩] (last.afterDirective (c.advance 2).position.line) s' := by
  refine ⟨.of_scan keeps head starts scanned handed, ?_, ?_⟩
  · intro scan mem
    obtain rfl := List.mem_singleton.mp mem
    exact .refl _
  · have content := scanned.scan_contents (p := (c.advance 2).position) (by simp [contentProgress])
    rw [handed, Context.contents_record, content]
    simp [contentProgress, Scan.content]

theorem Reads.logged (keeps : ctx.sink ≠ .discard) {task : Task} {y : Yield}
    (h : Reads ctx task c s y next s') (outside : task.isScan = false) :
    ∃ scans, LoggedTo ctx c s scans next s' := by
  -- by induction on the rules: only a directive in code adds an entry, and the parts of a read
  -- follow one another
  induction h with
  | code skipped read ih₁ ih₂ =>
    obtain ⟨scans, first⟩ := ih₁ rfl
    obtain ⟨more, second⟩ := ih₂ rfl
    exact ⟨_, first.trans skipped.reaches second read.reaches⟩
  | directive _ ih | crossingComment _ _ _ ih => exact ih rfl
  | flat | clear | lineComment | blockComment | intralineClear =>
    exact ⟨[], .of_silent _ _ rfl rfl⟩
  | list _ _ _ ih | blank _ _ _ ih | intralineBlank _ _ _ ih =>
    obtain ⟨scans, log⟩ := ih rfl
    exact ⟨scans, log.behind (Cursor.reaches_next _)⟩
  | vector _ _ ih | bytevector _ _ _ ih | datumComment _ _ ih | emptyComment _ _ _ ih =>
    obtain ⟨scans, log⟩ := ih rfl
    exact ⟨scans, log.behind (Cursor.reaches_advance _ _)⟩
  | close _ _ _ ih =>
    obtain ⟨scans, log⟩ := ih rfl
    exact ⟨scans, log.further (Cursor.reaches_next _)⟩
  | abbreviation _ skipped _ read ih₁ ih₂ | lineDatumComment _ skipped _ _ read ih₁ ih₂ =>
    obtain ⟨scans, first⟩ := ih₁ rfl
    obtain ⟨more, second⟩ := ih₂ rfl
    exact ⟨_, (first.trans skipped.reaches second read.reaches).behind (Cursor.reaches_advance _ _)⟩
  | dot skipped _ _ _ skipped₂ _ read others ih₁ ih₂ ih₃ ih₄ =>
    obtain ⟨scans₁, log₁⟩ := ih₁ rfl
    obtain ⟨scans₂, log₂⟩ := ih₂ rfl
    obtain ⟨scans₃, log₃⟩ := ih₃ rfl
    obtain ⟨scans₄, log₄⟩ := ih₄ rfl
    have tail := log₃.trans read.reaches log₄ others.reaches
    have after := log₂.trans skipped₂.reaches tail (read.reaches.trans others.reaches)
    have ahead := Cursor.reaches_next _ |>.trans
      (skipped₂.reaches.trans (read.reaches.trans others.reaches))
    exact ⟨_, log₁.trans skipped.reaches (after.behind (Cursor.reaches_next _)) ahead⟩
  | item skipped _ _ _ read others ih₁ ih₂ ih₃ =>
    obtain ⟨scans₁, log₁⟩ := ih₁ rfl
    obtain ⟨scans₂, log₂⟩ := ih₂ rfl
    obtain ⟨scans₃, log₃⟩ := ih₃ rfl
    have after := log₂.trans read.reaches log₃ others.reaches
    exact ⟨_, log₁.trans skipped.reaches after (read.reaches.trans others.reaches)⟩
  | remark _ skipped others ih₁ ih₂ | intralineComment _ skipped _ others ih₁ ih₂ =>
    obtain ⟨scans, first⟩ := ih₁ rfl
    obtain ⟨more, second⟩ := ih₂ rfl
    exact ⟨_, first.trans skipped.reaches second others.reaches⟩
  | @marker mode c s _ m _ _ =>
    refine ⟨[], .of_silent _ _ ?_ ?_⟩
    · cases mode <;> rfl
    · rw [ReaderState.contents_emit]
      cases mode <;> rfl
  | lineDirective head _ starts scanned kept _ =>
    exact ⟨_, .of_scan keeps head starts scanned kept.final.symm⟩
  | lastDatum | crossingDatum | lineDatum => cases outside

theorem Fails.logged (keeps : ctx.sink ≠ .discard) {opened : Position} {task : Task} {e : Failure}
    (h : Fails ctx opened task c s e s') (outside : task.isScan = false) :
    ∃ scans, Logged ctx c s scans s' := by
  have unchanged {c : Cursor} {s s' : ReaderState} (same : s'.directives = s.directives) :
      ∃ scans, Logged ctx c s scans s' := ⟨[], by simp [same], by simp, .nil⟩
  have behind {c c' : Cursor} {s s' : ReaderState} (ahead : c.Reaches c')
      (log : ∃ scans, Logged ctx c' s scans s') : ∃ scans, Logged ctx c s scans s' := by
    obtain ⟨scans, log⟩ := log
    exact ⟨scans, log.behind ahead⟩
  have after {c c₁ : Cursor} {s s₁ s' : ReaderState} {task : Task} {y : Yield}
      (read : Reads ctx task c s y c₁ s₁) (outside : task.isScan = false)
      (log : ∃ scans, Logged ctx c₁ s₁ scans s') : ∃ scans, Logged ctx c s scans s' := by
    obtain ⟨scans, first⟩ := read.logged keeps outside
    obtain ⟨more, second⟩ := log
    exact ⟨_, first.logged read.reaches second⟩
  have all {c next : Cursor} {s s' : ReaderState} {task : Task} {y : Yield}
      (read : Reads ctx task c s y next s') (outside : task.isScan = false) :
      ∃ scans, Logged ctx c s scans s' := by
    obtain ⟨scans, log⟩ := read.logged keeps outside
    exact ⟨scans, log.toLogged⟩
  induction h with
  | codeSkip _ ih | directive _ ih | itemsSkip _ ih | remarkSkip _ _ ih | intralineSkip _ _ ih =>
    exact ih rfl
  | refused | blockComment => exact unchanged rfl
  | code skipped _ ih | itemDatum skipped _ _ _ _ ih | remark _ skipped _ ih
  | intralineComment _ skipped _ _ ih => exact after skipped rfl (ih rfl)
  | list _ _ _ ih | blank _ _ _ ih | intralineBlank _ _ _ ih =>
    exact behind (Cursor.reaches_next _) (ih rfl)
  | abbreviationSkip _ _ ih | vector _ _ ih | bytevector _ _ ih | datumComment _ _ ih
  | lineDatumSkip _ _ ih => exact behind (Cursor.reaches_advance _ _) (ih rfl)
  | missingAbbreviated _ skipped _ | dottedVector _ skipped | badBytevector _ skipped _ =>
    exact behind (Cursor.reaches_advance _ _) (all skipped rfl)
  | unterminated skipped _ | wrongCloser skipped _ _ _ | afterTail skipped _ _
  | leadingDot skipped _ _ => exact all skipped rfl
  | abbreviation _ skipped _ _ ih | lineDatumComment _ skipped _ _ _ ih =>
    exact behind (Cursor.reaches_advance _ _) (after skipped rfl (ih rfl))
  | dotSkip skipped _ _ _ _ ih =>
    exact after skipped rfl (behind (Cursor.reaches_next _) (ih rfl))
  | missingTail skipped _ _ _ skipped₂ _ =>
    exact after skipped rfl (behind (Cursor.reaches_next _) (all skipped₂ rfl))
  | tail skipped _ _ _ skipped₂ _ _ ih =>
    exact after skipped rfl (behind (Cursor.reaches_next _) (after skipped₂ rfl (ih rfl)))
  | dot skipped _ _ _ skipped₂ _ read _ ih =>
    exact after skipped rfl
      (behind (Cursor.reaches_next _) (after skipped₂ rfl (after read rfl (ih rfl))))
  | item skipped _ _ _ read _ ih => exact after skipped rfl (after read rfl (ih rfl))
  | lineDirective _ _ _ scan _ => exact unchanged (scan.silent rfl).directives
  | unrecorded head _ starts scanned failed =>
    exact ⟨_, .of_scan keeps head starts scanned failed.final.symm⟩
  | datumsSkip | lineDatumRead | crossingDatum | lineDatum => cases outside

theorem contents_declining (c : Cursor) (s : ReaderState) :
    (s.declining c).contents = s.contents := by
  unfold ReaderState.declining
  split
  · rw [ReaderState.contents_emit]
    rfl
  · rfl

theorem loggedTo_declining (c : Cursor) (s : ReaderState) :
    LoggedTo ctx c s [] c (s.declining c) :=
  .of_silent c c (by simp) (by rw [contents_declining])

theorem Finds.logged (keeps : ctx.sink ≠ .discard) {item : Item}
    (h : Finds ctx c s item next s') : ∃ scans, LoggedTo ctx c s scans next s' := by
  induction h with
  | ended => exact ⟨[], .of_silent _ _ rfl rfl⟩
  | blank _ _ _ ih =>
    obtain ⟨scans, log⟩ := ih
    exact ⟨scans, log.behind (Cursor.reaches_next _)⟩
  | directive head starts scanned kept =>
    exact ⟨_, .of_scan keeps head starts scanned kept.final.symm⟩
  | @comment c s _ _ _ _ _ _ _ skipped others ih =>
    obtain ⟨scans, first⟩ := skipped.logged keeps rfl
    obtain ⟨more, second⟩ := ih
    have log := first.trans skipped.reaches second others.reaches
    exact ⟨_, (loggedTo_declining c s).trans (.refl c) log (skipped.reaches.trans others.reaches)⟩
  | @datum c s _ _ _ _ _ _ read =>
    obtain ⟨scans, log⟩ := read.logged keeps rfl
    exact ⟨_, (loggedTo_declining c s).trans (.refl c) log read.reaches⟩

theorem Misses.logged (keeps : ctx.sink ≠ .discard) {e : Failure} (h : Misses ctx c s e s') :
    ∃ scans, Logged ctx c s scans s' := by
  induction h with
  | blank _ _ _ ih =>
    obtain ⟨scans, log⟩ := ih
    exact ⟨scans, log.behind (Cursor.reaches_next _)⟩
  | directive _ _ scan =>
    have same := (scan.silent rfl).directives
    exact ⟨[], by simpa using same, by simp, .nil⟩
  | unrecorded head starts scanned failed =>
    exact ⟨_, .of_scan keeps head starts scanned failed.final.symm⟩
  | @commentSkip c s _ _ _ _ skip =>
    obtain ⟨scans, log⟩ := skip.logged keeps rfl
    exact ⟨_, (loggedTo_declining c s).logged (.refl c) log⟩
  | @comment c s _ _ _ _ _ _ skipped _ ih =>
    obtain ⟨scans, first⟩ := skipped.logged keeps rfl
    obtain ⟨more, second⟩ := ih
    exact ⟨_, (loggedTo_declining c s).logged (.refl c) (first.logged skipped.reaches second)⟩
  | @datum c s _ _ _ _ _ read =>
    obtain ⟨scans, log⟩ := read.logged keeps rfl
    exact ⟨_, (loggedTo_declining c s).logged (.refl c) log⟩

end Runs

/-! ## 3. The record of a session -/

namespace Session

theorem keeps (s : Session) : s.context.sink ≠ .discard := nofun

/-- What a run of items puts on record, from what one item does. -/
theorem Takes.logged {s s' : Session} {items : List Item} (h : Takes s items s') :
    s'.context = s.context ∧ s'.source = s.source ∧ s.cursor.Reaches s'.cursor ∧
      ∃ scans, LoggedTo s.context s.cursor s.state scans s'.cursor s'.state := by
  induction h with
  | none => exact ⟨rfl, rfl, .refl _, [], .of_silent _ _ rfl rfl⟩
  | @next s item s₁ items s' found _ ih =>
    obtain ⟨context, source, further, more, second⟩ := ih
    obtain ⟨context₁, source₁⟩ := context_of_next found
    obtain ⟨c, finds, -, rfl⟩ := finds_of_next found
    obtain ⟨scans, first⟩ := finds.logged s.keeps
    rw [context₁] at second
    exact ⟨context.trans context₁, source.trans source₁, finds.reaches.trans further, _,
      first.trans finds.reaches second further⟩

end Session

/-- The scan from behind the marker at the start of the stretch returns the directive, and ends where
the stretch ends. -/
def Extent.Holds (src : Source) (ctx : Context) (d : Directive) (e : Extent) : Prop :=
  d.position = some e.start ∧ ∃ p c t t', p.beforeMarker = e.start ∧ c.position = e.stop ∧
    (src.scanDirective ctx p).Returns t (d, c) t'

def Scan.extent (scan : Scan) : Extent := ⟨scan.marker.position, scan.stop.position⟩

namespace Scan

variable {src : Source} {ctx : Context} {scan : Scan}

theorem Runs.holds (runs : scan.Runs ctx) (ahead : (src.cursor .start).Reaches scan.marker) :
    scan.extent.Holds src ctx scan.directive := by
  obtain ⟨t, t', returned⟩ := runs.returns
  have content : (src.cursor .start).Reaches scan.content :=
    ahead.trans (scan.marker.reaches_advance 2)
  have inside : ¬ scan.content.position.offset < 0 := by
    have onward := content.offset_mono
    exact Int.not_lt.mpr onward
  refine ⟨congrArg some runs.position_marker, scan.content.position, scan.stop, t, t',
    runs.position_marker, rfl, ?_⟩
  unfold Source.scanDirective
  rw [if_neg inside, Source.cursor_of_reaches content]
  exact returned

theorem Runs.startsWith (runs : scan.Runs ctx) (ahead : (src.cursor .start).Reaches scan.marker) :
    src.startsWith scan.marker.position directiveMarker = true := by
  obtain ⟨starts, -⟩ := runs
  obtain ⟨rest, head, -⟩ := atDirective_iff.mp starts
  have inside : 0 ≤ scan.marker.position.offset := ahead.offset_mono
  have within : scan.marker.position.offset ≤ src.length := by
    have moved := ahead.offset
    have text : (src.cursor .start).rest.length = src.length := rfl
    have origin : (src.cursor .start).position.offset = 0 := rfl
    omega
  unfold Source.startsWith
  rw [← Source.rest_cursor src inside, Source.cursor_of_reaches ahead, Bool.and_eq_true]
  exact ⟨by simpa using within, startsWith_directiveMarker.mpr ⟨rest, head⟩⟩

end Scan

/-- A place that is reached from the start is found again by its offset. -/
theorem Source.advance_of_reaches {src : Source} {c : Cursor} (ahead : (src.cursor .start).Reaches c) :
    src.advance .start c.position.offset = .ok c.position := by
  have moved := ahead.offset
  have origin : (src.cursor .start).position.offset = 0 := rfl
  rw [src.advance_of_nonneg (by exact Int.le_refl 0), ahead.eq_advance]
  congr 3
  rw [← ahead.eq_advance]
  omega

namespace Session

variable {s s' : Session}

/-- The stretches that the trace tells of are those of the scans. -/
theorem extents_of_logged {scans : List Scan} {src : Source} {ctx : Context} (source : s'.source = src)
    (fresh : s.state.contents.2 = [])
    (log : LoggedTo ctx (src.cursor .start) s.state scans s'.cursor s'.state) :
    s'.extents = scans.map Scan.extent := by
  unfold extents
  rw [log.contents, fresh, List.nil_append, List.map_map]
  apply List.map_congr_left
  intro scan mem
  obtain ⟨ahead, runs⟩ := log.runs scan mem
  have last : (src.cursor .start).Reaches scan.last :=
    (ahead.trans (scan.marker.reaches_advance 2)).trans runs.reaches_last
  show (⟨_, ((s'.source.cursor scan.last.position).afterDirective _).position⟩ : Extent) = scan.extent
  rw [source, Source.cursor_of_reaches last]
  show (⟨scan.content.position.beforeMarker, scan.stop.position⟩ : Extent) = scan.extent
  rw [runs.position_marker]
  rfl

theorem holds_of_logged {scans : List Scan} {src : Source} {ctx : Context} (source : s'.source = src)
    (fresh : s.state.directives = [] ∧ s.state.contents.2 = [])
    (log : LoggedTo ctx (src.cursor .start) s.state scans s'.cursor s'.state) :
    List.Forall₂ (Extent.Holds src ctx) s'.state.directives s'.extents := by
  rw [log.directives, fresh.1, List.nil_append, extents_of_logged source fresh.2 log,
    List.forall₂_map_left_iff, List.forall₂_map_right_iff, List.forall₂_same]
  intro scan mem
  exact (log.runs scan mem).2.holds (log.runs scan mem).1

/-- As long as nothing fails, the directives on record stand one after another in the text: each was
returned by a scan from behind a marker at its position, the scans take up disjoint stretches in
order, and all of them end before the session's position. A search that fails leaves the position as
it was and adds only directives from there on, in order. -/
theorem log_in_order (src : Source) (policy : Policy) (registry : Registry) (foldCase : Bool) :
    (∀ requests answers s',
      (src.sessionWith policy registry foldCase).askAll requests = (.ok answers, s') →
      List.Forall₂ (Extent.Holds src s'.context) s'.state.directives s'.extents ∧
      (∀ e ∈ s'.extents, src.advance .start e.start.offset = .ok e.start ∧
        src.startsWith e.start directiveMarker = true ∧
        e.start.offset < e.stop.offset ∧ e.stop.offset ≤ s'.position.offset) ∧
      s'.extents.Pairwise fun a b =>
        a.start.offset < b.start.offset ∧ a.stop.offset ≤ b.start.offset) ∧
    ∀ (s : Session) e s', s.next = (.error e, s') → s'.position = s.position ∧
      ∃ (more : List Directive) (markers : List Position),
        s'.state.directives = s.state.directives ++ more ∧
        more.map (·.position) = markers.map some ∧
        (markers.Pairwise fun a b => a.offset < b.offset) ∧
        ∀ p ∈ markers, s.position.offset ≤ p.offset := by
  constructor
  · intro requests answers s' asked
    -- a run that succeeds starts with an empty record, so all of it is what the run has added
    obtain ⟨segments, -, -, takes⟩ := takes_of_askAll asked
    obtain ⟨context, source, -, scans, log⟩ := takes.logged
    have start : (src.sessionWith policy registry foldCase).cursor = src.cursor .start := rfl
    rw [start, ← context] at log
    have extents := extents_of_logged source rfl log
    refine ⟨holds_of_logged source ⟨rfl, rfl⟩ log, ?_, ?_⟩
    · intro e listed
      rw [extents] at listed
      obtain ⟨scan, mem, rfl⟩ := List.mem_map.mp listed
      obtain ⟨ahead, runs⟩ := log.runs scan mem
      refine ⟨Source.advance_of_reaches ahead, runs.startsWith ahead, runs.offset_lt, ?_⟩
      rw [← position_cursor s']
      exact (log.ends scan mem).offset_mono
    · rw [extents, List.pairwise_map]
      refine log.ordered.imp_of_mem ?_
      intro a b mem _ follows
      -- each scan ends at or before the next marker
      have first := (log.runs a mem).2.offset_lt
      have second := follows.offset_mono
      show a.marker.position.offset < b.marker.position.offset ∧
        a.stop.position.offset ≤ b.marker.position.offset
      omega
  · intro s e s' raised
    -- of a search that fails the same is known of what it has added behind the session's position
    obtain ⟨scans, log⟩ := (misses_of_next raised).logged s.keeps
    refine ⟨position_of_raised raised, scans.map (·.directive), scans.map (·.marker.position),
      log.directives, ?_, ?_, ?_⟩
    · rw [List.map_map, List.map_map]
      apply List.map_congr_left
      intro scan mem
      exact congrArg some (log.runs scan mem).2.position_marker
    · rw [List.pairwise_map]
      refine log.ordered.imp_of_mem ?_
      intro a b mem _ follows
      have first := (log.runs a mem).2.offset_lt
      have second := follows.offset_mono
      show a.marker.position.offset < b.marker.position.offset
      omega
    · intro p listed
      obtain ⟨scan, mem, rfl⟩ := List.mem_map.mp listed
      rw [← position_cursor s]
      exact (log.runs scan mem).1.offset_mono

/-- A directive before a list and one in it; and a list that does not end, with a directive in it. -/
theorem log_in_order_list :
    (∃ (src : Source) (answers : List Answer) (s' : Session),
      src = ⟨"#! a\n(b #! c\n d) e", none⟩ ∧
      (src.sessionWith {} .standard false).askAll [.item, .datum] = (.ok answers, s') ∧
      s'.extents = [⟨⟨1, 0, 0⟩, ⟨2, 0, 5⟩⟩, ⟨⟨2, 3, 8⟩, ⟨3, 0, 13⟩⟩] ∧
      List.Forall₂ (Extent.Holds src s'.context) s'.state.directives s'.extents) ∧
    ∃ (e : Failure) (s' : Session),
      ((Source.mk "(#! a\n" none).sessionWith {} .standard false).next = (.error e, s') ∧
      s'.state.directives.length = 1 ∧ s'.position = .start := by
  constructor
  · have asked : ∃ answers s', ((Source.mk "#! a\n(b #! c\n d) e" none).sessionWith {} .standard
        false).askAll [.item, .datum] = (.ok answers, s') ∧
        s'.extents = [⟨⟨1, 0, 0⟩, ⟨2, 0, 5⟩⟩, ⟨⟨2, 3, 8⟩, ⟨3, 0, 13⟩⟩] := ⟨_, _, rfl, rfl⟩
    obtain ⟨answers, s', asked, extents⟩ := asked
    have held := ((log_in_order _ {} .standard false).1 _ _ _ asked).1
    exact ⟨_, answers, s', rfl, asked, extents, held⟩
  · have raised : ∃ e s', ((Source.mk "(#! a\n" none).sessionWith {} .standard false).next =
        (.error e, s') ∧ s'.state.directives.length = 1 := ⟨_, _, rfl, rfl⟩
    obtain ⟨e, s', raised, one⟩ := raised
    exact ⟨e, s', raised, one, ((log_in_order ⟨"(#! a\n", none⟩ {} .standard false).2 _ e s' raised).1⟩

end Session

end LineDirective
