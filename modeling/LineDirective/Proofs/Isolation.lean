import LineDirective.Proofs.Items
import LineDirective.Proofs.LineEffects
import LineDirective.Reader.Position

/-!
# Directive content has no effect outside the directive

Inside a directive neither case folding nor the record of directives changes, whether a read there
succeeds or fails. So the only directives on record are those that stand in code: every scan of one
that comes to its end is followed by exactly one entry, for the directive that was scanned. The trace
tells which scans came to an end (`ReaderState.accepted`), and along every run in code the record
grows by as many directives, with the same markers in the same order (`Recorded`).
-/

namespace LineDirective

/-! ## 1. Scans in the trace -/

/-- Follows the scans of directives along a trace: the marker of the scan under way, and those of the
scans that have come to their end. -/
def scanProgress (progress : Option Position × List Position) : Event →
    Option Position × List Position
  | .phase .start _ p => (some p.beforeMarker, progress.2)
  | .phase _ .done _ => (none, progress.2 ++ progress.1.toList)
  | _ => progress

namespace ReaderState

def scans (s : ReaderState) : Option Position × List Position :=
  s.trace.toList.foldl scanProgress (none, [])

def accepted (s : ReaderState) : List Position := s.scans.2

@[simp] theorem scans_emit (s : ReaderState) (e : Event) :
    (s.emit e).scans = scanProgress s.scans e := by
  simp [scans]

/-- Case folding and the directives on record are the same in both states. -/
structure Untouched (s s' : ReaderState) : Prop where
  foldCase : s'.foldCase = s.foldCase
  directives : s'.directives = s.directives

/-- Nor has a scan begun or ended between the states. -/
structure Silent (s s' : ReaderState) : Prop extends Untouched s s' where
  scans : s'.scans = s.scans

theorem Silent.refl (s : ReaderState) : s.Silent s := ⟨⟨rfl, rfl⟩, rfl⟩

theorem Untouched.trans {s t u : ReaderState} (first : s.Untouched t) (second : t.Untouched u) :
    s.Untouched u :=
  ⟨second.foldCase.trans first.foldCase, second.directives.trans first.directives⟩

theorem Silent.trans {s t u : ReaderState} (first : s.Silent t) (second : t.Silent u) :
    s.Silent u :=
  ⟨first.toUntouched.trans second.toUntouched, second.scans.trans first.scans⟩

theorem Untouched.emit (s : ReaderState) (e : Event) : s.Untouched (s.emit e) := ⟨rfl, rfl⟩

theorem Silent.emit {s : ReaderState} {e : Event}
    (other : scanProgress s.scans e = s.scans) : s.Silent (s.emit e) :=
  ⟨.emit s e, by rw [scans_emit, other]⟩

/-- What is made of a trace does not change with events that are passed over. -/
theorem foldl_markers {σ : Type} {step : σ → Event → σ}
    (passes : ∀ (progress : σ) (m : NamedMarker) (p : Position), step progress (.marker m p) = progress)
    {events : List Event} (markers : ∀ e ∈ events, ∃ m p, e = .marker m p) (progress : σ) :
    events.foldl step progress = progress := by
  induction events with
  | nil => rfl
  | cons e events ih =>
    obtain ⟨m, p, rfl⟩ := markers e (by simp)
    rw [List.foldl_cons, passes]
    exact ih fun e mem => markers e (by simp [mem])

theorem OnlyMarkers.silent {s s' : ReaderState} (h : s.OnlyMarkers s') : s.Silent s' := by
  obtain ⟨events, trace, markers⟩ := h.trace
  refine ⟨⟨h.foldCase, h.directives⟩, ?_⟩
  unfold ReaderState.scans
  rw [trace, List.foldl_append, foldl_markers (fun _ _ _ => rfl) markers]

end ReaderState

/-! ## 2. Inside a directive -/

/-- The parts of the reader that work inside a directive, the scan of its data included. -/
def Task.ofDirective : Task → Bool
  | .datums .. => true
  | task => task.inDirective

/-- A scan that comes to its end is reported as done, and does nothing else. -/
theorem Reads.scan_ends {ctx : Context} {anchor : Int} {before : List Datum} {c last : Cursor}
    {s s' : ReaderState} {y : Yield} (h : Reads ctx (.datums anchor before) c s y last s') :
    s.Untouched s' ∧ s'.scans = (none, s.accepted ++ s.scans.1.toList) := by
  generalize scan : Task.datums anchor before = task at h
  induction h generalizing before with
  | lastDatum skipped _ =>
    have skip := (skipped.onlyMarkers rfl).silent
    exact ⟨skip.toUntouched.trans (.emit _ _), by
      rw [ReaderState.scans_emit, skip.scans]; rfl⟩
  | crossingDatum skipped _ _ read _ _ =>
    have skip := (skipped.onlyMarkers rfl).silent
    have datum := (read.onlyMarkers rfl).silent
    refine ⟨skip.toUntouched.trans ⟨datum.foldCase, datum.directives⟩, ?_⟩
    simp only [ReaderState.scans_emit, datum.scans, skip.scans]
    rfl
  | lineDatum skipped _ _ read _ _ _ _ ih =>
    have skip := (skipped.onlyMarkers rfl).silent
    have datum := (read.onlyMarkers rfl).silent
    cases scan
    obtain ⟨untouched, ends⟩ := ih rfl
    refine ⟨skip.toUntouched.trans (.trans ⟨datum.foldCase, datum.directives⟩
      ⟨untouched.foldCase, untouched.directives⟩), ?_⟩
    simp only [ReaderState.accepted, ReaderState.scans_emit, datum.scans, skip.scans] at ends
    exact ends
  | _ => cases scan

theorem Reads.untouched {ctx : Context} {task : Task} {c next : Cursor} {s s' : ReaderState}
    {y : Yield} (h : Reads ctx task c s y next s') (inside : task.ofDirective = true) :
    s.Untouched s' := by
  cases task with
  | datums anchor before => exact h.scan_ends.1
  | _ => exact (h.onlyMarkers inside).silent.toUntouched

theorem Failure.silent_reported (p : Position) (s : ReaderState) (e : Failure) :
    s.Silent (e.reported p s) := by
  cases e with
  | diagnosed error => exact .emit rfl
  | fault fault => exact .refl s

theorem Fails.silent {ctx : Context} {opened : Position} {task : Task} {c : Cursor}
    {s s' : ReaderState} {e : Failure} (h : Fails ctx opened task c s e s')
    (inside : task.ofDirective = true) : s.Silent s' := by
  -- by induction on the rules: a read inside a directive that fails has reported markers at most,
  -- and a scan that fails is not reported as done
  induction h with
  | codeSkip | code | datumComment | lineDirective | unrecorded =>
    simp [Task.ofDirective, Task.inDirective] at inside
  | directive _ ih | list _ _ _ ih | abbreviationSkip _ _ ih | vector _ _ ih | bytevector _ _ ih
  | itemsSkip _ ih | blank _ _ _ ih | remarkSkip _ _ ih => exact ih inside
  | lineDatumSkip _ _ ih | intralineBlank _ _ _ ih | intralineSkip _ _ ih | datumsSkip _ ih =>
    exact ih rfl
  | refused | blockComment => exact .refl _
  | missingAbbreviated _ skipped _ | dottedVector _ skipped | badBytevector _ skipped _
  | unterminated skipped _ | wrongCloser skipped _ _ _ | afterTail skipped _ _
  | leadingDot skipped _ _ => exact (skipped.onlyMarkers inside).silent
  | abbreviation _ skipped _ _ ih | itemDatum skipped _ _ _ _ ih | dotSkip skipped _ _ _ _ ih
  | remark _ skipped _ ih => exact (skipped.onlyMarkers inside).silent.trans (ih inside)
  | lineDatumComment _ skipped _ _ _ ih | intralineComment _ skipped _ _ ih =>
    exact (skipped.onlyMarkers rfl).silent.trans (ih rfl)
  | missingTail skipped _ _ _ skipped₂ _ =>
    exact (skipped.onlyMarkers inside).silent.trans (skipped₂.onlyMarkers inside).silent
  | tail skipped _ _ _ skipped₂ _ _ ih =>
    exact ((skipped.onlyMarkers inside).silent.trans (skipped₂.onlyMarkers inside).silent).trans
      (ih inside)
  | dot skipped _ _ _ skipped₂ _ read _ ih =>
    exact ((skipped.onlyMarkers inside).silent.trans (skipped₂.onlyMarkers inside).silent).trans
      ((read.onlyMarkers inside).silent.trans (ih inside))
  | item skipped _ _ _ read _ ih =>
    exact ((skipped.onlyMarkers inside).silent.trans (read.onlyMarkers inside).silent).trans
      (ih inside)
  | lineDatumRead skipped _ _ _ ih =>
    exact ((skipped.onlyMarkers rfl).silent.trans (.emit rfl)).trans
      ((ih rfl).trans (Failure.silent_reported _ _ _))
  | crossingDatum skipped _ _ read _ _ =>
    exact ((skipped.onlyMarkers rfl).silent.trans (.emit rfl)).trans
      ((read.onlyMarkers rfl).silent.trans (.emit rfl))
  | lineDatum skipped _ _ read _ _ ih =>
    exact ((skipped.onlyMarkers rfl).silent.trans (.emit rfl)).trans
      ((read.onlyMarkers rfl).silent.trans ((ReaderState.Silent.emit rfl).trans
        ((ReaderState.Silent.emit rfl).trans (ih rfl))))

/-! ## 3. The operations inside a directive -/

namespace Reader

variable (ctx : Context) (c : Cursor) (s : ReaderState)

theorem untouched_readDatum : s.Untouched ((readDatum ctx .directive c).final s) := by
  apply ReadM.final_of_ends
  · rintro ⟨d, next⟩ s' returned
    exact (returns_readDatum.mp returned).untouched rfl
  · intro e s' raised
    exact ((raises_readDatum c.position).mp raised).silent rfl |>.toUntouched

theorem untouched_skipComment : s.Untouched ((skipComment ctx .directive c).final s) := by
  apply ReadM.final_of_ends
  · intro r s' returned
    have skip := skips_of_skipComment returned
    cases r with
    | some next => exact Reads.untouched skip rfl
    | none => exact skip.2 ▸ ⟨rfl, rfl⟩
  · intro e s' raised
    exact ((raises_skipComment c.position).mp raised).silent rfl |>.toUntouched

theorem untouched_skipAtmosphere : s.Untouched ((skipAtmosphere ctx .directive c).final s) := by
  apply ReadM.final_of_ends
  · intro next s' returned
    exact (returns_skipAtmosphere.mp returned).untouched rfl
  · intro e s' raised
    exact ((raises_skipAtmosphere c.position).mp raised).silent rfl |>.toUntouched

theorem untouched_skipIntraline (anchor : Int) :
    s.Untouched ((skipIntraline ctx anchor c).final s) := by
  apply ReadM.final_of_ends
  · intro next s' returned
    exact (returns_skipIntraline.mp returned).untouched rfl
  · intro e s' raised
    exact ((raises_skipIntraline c.position).mp raised).silent rfl |>.toUntouched

theorem untouched_scanDirective : s.Untouched ((scanDirective ctx c).final s) := by
  apply ReadM.final_of_ends
  · rintro ⟨d, next⟩ s' returned
    obtain ⟨ds, last, scanned, -⟩ := returns_scanDirective.mp returned
    exact (ReaderState.Untouched.emit s _).trans (scanned.untouched rfl)
  · intro e s' raised
    have failed := (raises_scanDirective c.position).mp raised
    exact (ReaderState.Untouched.emit s _).trans (failed.silent rfl).toUntouched

end Reader

namespace Source

variable (src : Source) (ctx : Context) (p : Position) (s : ReaderState)

theorem untouched_scanDirective : s.Untouched ((src.scanDirective ctx p).final s) := by
  unfold scanDirective
  split
  · exact ⟨rfl, rfl⟩
  · exact Reader.untouched_scanDirective ctx (src.cursor p) s

/-- In the text a scan is the one at the cursor. -/
theorem scanDirective_of_nonneg {p : Position} (inside : 0 ≤ p.offset) :
    src.scanDirective ctx p = Reader.scanDirective ctx (src.cursor p) := by
  rw [scanDirective, if_neg (Int.not_lt.mpr inside)]

theorem untouched_readDirective? : s.Untouched ((src.readDirective? ctx p).final s) := by
  unfold readDirective?
  cases src.startsDirective ctx.policy.whitespace p with
  | error fault => exact ⟨rfl, rfl⟩
  | ok starts =>
    cases starts with
    | false => exact ⟨rfl, rfl⟩
    | true =>
      show s.Untouched ((some <$> src.scanDirective ctx p).final s)
      rw [ReadM.final_map]
      exact src.untouched_scanDirective ctx p s

end Source

/-! ## 4. The record of a run in code -/

/-- Handing a directive over puts it on record once, also if it cannot be reported. -/
theorem Context.final_record {ctx : Context} (keeps : ctx.sink ≠ .discard) (d : Directive)
    (s : ReaderState) :
    ((ctx.record d).final s).directives = s.directives ++ [d] ∧
      ((ctx.record d).final s).scans = s.scans := by
  unfold record
  split
  · rename_i discards
    exact absurd discards keeps
  · exact ⟨rfl, rfl⟩
  · cases d.write with
    | error fault => exact ⟨rfl, rfl⟩
    | ok text =>
      refine ⟨rfl, ?_⟩
      show (ReaderState.emit _ _).scans = _
      rw [ReaderState.scans_emit]
      rfl

/-- The directives put on record between two states are those that the trace reports as read to their
end, in order, and each is what its scan returns at a place from the cursor on. -/
def Recorded (ctx : Context) (c : Cursor) (s s' : ReaderState) : Prop :=
  ∃ ds : List Directive, s'.directives = s.directives ++ ds ∧
    s'.accepted.map some = s.accepted.map some ++ ds.map (·.position) ∧
    ∀ d ∈ ds, ∃ place last t t', c.Reaches place ∧
      atDirective ctx.policy.whitespace place = true ∧
      (Reader.scanDirective ctx (place.advance 2)).Returns t (d, last) t'

namespace Recorded

variable {ctx : Context} {c c' : Cursor} {s s₁ s' : ReaderState}

theorem of_silent (h : s.Silent s') : Recorded ctx c s s' :=
  ⟨[], by simp [h.directives], by simp [ReaderState.accepted, h.scans], by simp⟩

theorem refl (c : Cursor) (s : ReaderState) : Recorded ctx c s s := .of_silent (.refl s)

theorem behind (h : Recorded ctx c' s s') (ahead : c.Reaches c') : Recorded ctx c s s' := by
  obtain ⟨ds, directives, markers, scanned⟩ := h
  refine ⟨ds, directives, markers, fun d mem => ?_⟩
  obtain ⟨place, last, t, t', further, rest⟩ := scanned d mem
  exact ⟨place, last, t, t', ahead.trans further, rest⟩

theorem trans (first : Recorded ctx c s s₁) (ahead : c.Reaches c') (second : Recorded ctx c' s₁ s') :
    Recorded ctx c s s' := by
  obtain ⟨ds₁, directives₁, markers₁, scanned₁⟩ := first
  obtain ⟨ds₂, directives₂, markers₂, scanned₂⟩ := second.behind ahead
  refine ⟨ds₁ ++ ds₂, ?_, ?_, ?_⟩
  · rw [directives₂, directives₁, List.append_assoc]
  · rw [markers₂, markers₁, List.map_append, List.append_assoc]
  · intro d mem
    rcases List.mem_append.mp mem with mem | mem
    · exact scanned₁ d mem
    · exact scanned₂ d mem

/-- A directive that is read and handed over adds one entry, with its marker. -/
theorem of_scan {rest : Text} {ds : List Datum} {last : Cursor} (keeps : ctx.sink ≠ .discard)
    (head : c.rest = .scalar '#' :: .scalar '!' :: rest)
    (starts : startsDirective ctx.policy.whitespace rest = true)
    (scanned : Reads ctx (.datums (c.advance 2).position.line []) (c.advance 2)
      (s.emit (.phase .start .skipping (c.advance 2).position)) (.datums ds) last s₁)
    (handed : s' = (ctx.record ⟨ds, some (c.advance 2).position.beforeMarker⟩).final s₁) :
    Recorded ctx c s s' := by
  obtain ⟨untouched, ends⟩ := scanned.scan_ends
  obtain ⟨directives, scans⟩ :=
    ctx.final_record keeps ⟨ds, some (c.advance 2).position.beforeMarker⟩ s₁
  rw [← handed] at directives scans
  refine ⟨[⟨ds, some (c.advance 2).position.beforeMarker⟩], ?_, ?_, ?_⟩
  · rw [directives, untouched.directives]
    rfl
  · unfold ReaderState.accepted at ends ⊢
    rw [scans, ends, ReaderState.scans_emit]
    simp [scanProgress]
  · intro d mem
    obtain rfl := List.mem_singleton.mp mem
    exact ⟨c, _, s, s₁, .refl c, atDirective_iff.mpr ⟨rest, head, starts⟩,
      Reader.returns_scanDirective.mpr ⟨ds, last, scanned, rfl, rfl⟩⟩

/-- A scan that fails adds none. -/
theorem of_failed_scan {opened : Position} {e : Failure}
    (scan : Fails ctx opened (.datums (c.advance 2).position.line []) (c.advance 2)
      (s.emit (.phase .start .skipping (c.advance 2).position)) e s') : Recorded ctx c s s' := by
  have silent := scan.silent rfl
  refine ⟨[], ?_, ?_, by simp⟩
  · rw [silent.directives]
    simp
  · unfold ReaderState.accepted
    rw [silent.scans, ReaderState.scans_emit]
    simp [scanProgress]

end Recorded

/-- The scan of a directive's data, which hands nothing over itself. -/
def Task.isScan : Task → Bool
  | .datums .. => true
  | _ => false

theorem Reads.recorded {ctx : Context} (keeps : ctx.sink ≠ .discard) {task : Task}
    {c next : Cursor} {s s' : ReaderState} {y : Yield} (h : Reads ctx task c s y next s')
    (outside : task.isScan = false) : Recorded ctx c s s' := by
  induction h with
  | code skipped _ ih₁ ih₂ => exact (ih₁ rfl).trans skipped.reaches (ih₂ rfl)
  | directive _ ih | close _ _ _ ih | crossingComment _ _ _ ih => exact ih rfl
  | flat | clear | lineComment | blockComment | intralineClear => exact .refl _ _
  | list _ _ _ ih | blank _ _ _ ih | intralineBlank _ _ _ ih =>
    exact (ih rfl).behind (Cursor.reaches_next _)
  | vector _ _ ih | bytevector _ _ _ ih | datumComment _ _ ih | emptyComment _ _ _ ih =>
    exact (ih rfl).behind (Cursor.reaches_advance _ _)
  | abbreviation _ skipped _ _ ih₁ ih₂ | lineDatumComment _ skipped _ _ _ ih₁ ih₂ =>
    exact ((ih₁ rfl).trans skipped.reaches (ih₂ rfl)).behind (Cursor.reaches_advance _ _)
  | dot skipped _ _ _ skipped₂ _ read _ ih₁ ih₂ ih₃ ih₄ =>
    exact (ih₁ rfl).trans skipped.reaches
      (((ih₂ rfl).trans skipped₂.reaches ((ih₃ rfl).trans read.reaches (ih₄ rfl))).behind
        (Cursor.reaches_next _))
  | item skipped _ _ _ read _ ih₁ ih₂ ih₃ =>
    exact (ih₁ rfl).trans skipped.reaches ((ih₂ rfl).trans read.reaches (ih₃ rfl))
  | remark _ skipped _ ih₁ ih₂ | intralineComment _ skipped _ _ ih₁ ih₂ =>
    exact (ih₁ rfl).trans skipped.reaches (ih₂ rfl)
  | @marker mode c s _ m _ _ =>
    refine ⟨[], ?_, ?_, by simp⟩
    · cases mode <;> simp
    · unfold ReaderState.accepted
      rw [ReaderState.scans_emit]
      cases mode <;> simp [scanProgress, ReaderState.scans]
  | lineDirective head _ starts scanned kept _ =>
    exact .of_scan keeps head starts scanned kept.final.symm
  | lastDatum | crossingDatum | lineDatum => cases outside

theorem Fails.recorded {ctx : Context} (keeps : ctx.sink ≠ .discard) {opened : Position}
    {task : Task} {c : Cursor} {s s' : ReaderState} {e : Failure}
    (h : Fails ctx opened task c s e s') (outside : task.isScan = false) :
    Recorded ctx c s s' := by
  induction h with
  | codeSkip _ ih | directive _ ih | itemsSkip _ ih | remarkSkip _ _ ih | intralineSkip _ _ ih =>
    exact ih rfl
  | refused | blockComment => exact .refl _ _
  | code skipped _ ih | itemDatum skipped _ _ _ _ ih | remark _ skipped _ ih
  | intralineComment _ skipped _ _ ih =>
    exact (skipped.recorded keeps rfl).trans skipped.reaches (ih rfl)
  | list _ _ _ ih | blank _ _ _ ih | intralineBlank _ _ _ ih =>
    exact (ih rfl).behind (Cursor.reaches_next _)
  | abbreviationSkip _ _ ih | vector _ _ ih | bytevector _ _ ih | datumComment _ _ ih
  | lineDatumSkip _ _ ih => exact (ih rfl).behind (Cursor.reaches_advance _ _)
  | missingAbbreviated _ skipped _ | dottedVector _ skipped | badBytevector _ skipped _ =>
    exact (skipped.recorded keeps rfl).behind (Cursor.reaches_advance _ _)
  | unterminated skipped _ | wrongCloser skipped _ _ _ | afterTail skipped _ _
  | leadingDot skipped _ _ => exact skipped.recorded keeps rfl
  | abbreviation _ skipped _ _ ih | lineDatumComment _ skipped _ _ _ ih =>
    exact ((skipped.recorded keeps rfl).trans skipped.reaches (ih rfl)).behind
      (Cursor.reaches_advance _ _)
  | dotSkip skipped _ _ _ _ ih =>
    exact (skipped.recorded keeps rfl).trans skipped.reaches
      ((ih rfl).behind (Cursor.reaches_next _))
  | missingTail skipped _ _ _ skipped₂ _ =>
    exact (skipped.recorded keeps rfl).trans skipped.reaches
      ((skipped₂.recorded keeps rfl).behind (Cursor.reaches_next _))
  | tail skipped _ _ _ skipped₂ _ _ ih =>
    exact (skipped.recorded keeps rfl).trans skipped.reaches
      (((skipped₂.recorded keeps rfl).trans skipped₂.reaches (ih rfl)).behind
        (Cursor.reaches_next _))
  | dot skipped _ _ _ skipped₂ _ read _ ih =>
    exact (skipped.recorded keeps rfl).trans skipped.reaches
      (((skipped₂.recorded keeps rfl).trans skipped₂.reaches
        ((read.recorded keeps rfl).trans read.reaches (ih rfl))).behind (Cursor.reaches_next _))
  | item skipped _ _ _ read _ ih =>
    exact (skipped.recorded keeps rfl).trans skipped.reaches
      ((read.recorded keeps rfl).trans read.reaches (ih rfl))
  | lineDirective _ _ _ scan _ => exact .of_failed_scan scan
  | unrecorded head _ starts scanned failed =>
    exact .of_scan keeps head starts scanned failed.final.symm
  | datumsSkip | lineDatumRead | crossingDatum | lineDatum => cases outside

theorem recorded_declining {ctx : Context} (c : Cursor) (s : ReaderState) :
    Recorded ctx c s (s.declining c) := by
  unfold ReaderState.declining
  split
  · exact .of_silent (.emit rfl)
  · exact .refl c s

theorem Finds.recorded {ctx : Context} (keeps : ctx.sink ≠ .discard) {c next : Cursor} {item : Item}
    {s s' : ReaderState} (h : Finds ctx c s item next s') : Recorded ctx c s s' := by
  induction h with
  | ended => exact .refl _ _
  | blank _ _ _ ih => exact ih.behind (Cursor.reaches_next _)
  | directive head starts scanned kept => exact .of_scan keeps head starts scanned kept.final.symm
  | @comment c s _ _ _ _ _ _ _ skipped _ ih =>
    exact (recorded_declining c s).trans (.refl c)
      ((skipped.recorded keeps rfl).trans skipped.reaches ih)
  | @datum c s _ _ _ _ _ _ read =>
    exact (recorded_declining c s).trans (.refl c) (read.recorded keeps rfl)

theorem Misses.recorded {ctx : Context} (keeps : ctx.sink ≠ .discard) {c : Cursor}
    {s s' : ReaderState} {e : Failure} (h : Misses ctx c s e s') : Recorded ctx c s s' := by
  induction h with
  | blank _ _ _ ih => exact ih.behind (Cursor.reaches_next _)
  | directive _ _ scan => exact .of_failed_scan scan
  | unrecorded head starts scanned failed =>
    exact .of_scan keeps head starts scanned failed.final.symm
  | @commentSkip c s _ _ _ _ skip =>
    exact (recorded_declining c s).trans (.refl c) (skip.recorded keeps rfl)
  | @comment c s _ _ _ _ _ _ skipped _ ih =>
    exact (recorded_declining c s).trans (.refl c)
      ((skipped.recorded keeps rfl).trans skipped.reaches ih)
  | @datum c s _ _ _ _ _ read =>
    exact (recorded_declining c s).trans (.refl c) (read.recorded keeps rfl)

/-! ## 5. One entry for each directive in code -/

theorem detect?_of_startsDirective {policy : WhitespacePolicy} {t : Text}
    (h : startsDirective policy t = true) : NamedMarker.detect? t = none := by
  unfold startsDirective at h
  split at h
  · cases h
  · rename_i unnamed
    simpa using unnamed

/-- In code the skip over a directive is its scan and one entry. -/
theorem Reader.final_skipComment_of_scan {ctx : Context} {c last : Cursor} {s s₁ : ReaderState}
    {d : Directive} (starts : atDirective ctx.policy.whitespace c = true)
    (scan : (scanDirective ctx (c.advance 2)).Returns s (d, last) s₁) :
    (skipComment ctx .code c).final s = (ctx.record d).final s₁ := by
  obtain ⟨rest, head, starts⟩ := atDirective_iff.mp starts
  obtain ⟨ds, stop, scanned, rfl, rfl⟩ := returns_scanDirective.mp scan
  have unnamed := detect?_of_startsDirective starts
  rcases (ctx.record ⟨ds, some (c.advance 2).position.beforeMarker⟩).returns_or_raises s₁ with
    ⟨⟨⟩, s', kept⟩ | ⟨e, s', failed⟩
  · have skipped := Reads.lineDirective head unnamed starts scanned kept
    exact (returns_skipComment.mpr skipped).final.trans kept.final.symm
  · have unrecorded : Fails ctx c.position (.comment .code) c s e s' :=
      .unrecorded head unnamed starts scanned failed
    exact ((raises_skipComment c.position).mpr unrecorded).final.trans failed.final.symm

theorem final_nextItem_of_scan {ctx : Context} {c last : Cursor} {s s₁ : ReaderState}
    {d : Directive} (starts : atDirective ctx.policy.whitespace c = true)
    (scan : (Reader.scanDirective ctx (c.advance 2)).Returns s (d, last) s₁) :
    (nextItem ctx c).final s = (ctx.record d).final s₁ := by
  obtain ⟨rest, head, starts⟩ := atDirective_iff.mp starts
  unfold nextItem
  rw [nextItemFor_of_directive head starts]
  rcases (ctx.record d).returns_or_raises s₁ with ⟨⟨⟩, s', kept⟩ | ⟨e, s', failed⟩
  · refine ReadM.Returns.final (a := (.directive d, last)) ?_ |>.trans kept.final.symm
    exact ReadM.returns_bind.mpr ⟨_, _, scan, ReadM.returns_bind.mpr ⟨(), s', kept, by simp⟩⟩
  · refine ReadM.Raises.final (e := e) ?_ |>.trans failed.final.symm
    exact ReadM.raises_bind.mpr (.inr ⟨_, _, scan, ReadM.raises_bind.mpr (.inl failed)⟩)

/-- Reading inside a directive and scanning one change neither case folding nor the record, whatever
the end. In code a directive that is read to its end is put on record once, at the place where it is
met; and all that a run in code puts on record are the directives that were read to their end, in
order. -/
theorem Reader.directive_content_isolated (ctx : Context) :
    (∀ (c : Cursor) (s : ReaderState), s.Untouched ((readDatum ctx .directive c).final s) ∧
      s.Untouched ((skipComment ctx .directive c).final s) ∧
      s.Untouched ((skipAtmosphere ctx .directive c).final s) ∧
      ∀ anchor, s.Untouched ((skipIntraline ctx anchor c).final s)) ∧
    (∀ (src : Source) (p : Position) (s : ReaderState),
      s.Untouched ((src.scanDirective ctx p).final s) ∧
      s.Untouched ((src.readDirective? ctx p).final s)) ∧
    (ctx.sink ≠ .discard → ∀ (c : Cursor) (s : ReaderState),
      (∀ d last s₁, atDirective ctx.policy.whitespace c = true →
        (scanDirective ctx (c.advance 2)).Returns s (d, last) s₁ →
        ((skipComment ctx .code c).final s).directives = s.directives ++ [d] ∧
        ((nextItem ctx c).final s).directives = s.directives ++ [d]) ∧
      Recorded ctx c s ((readDatum ctx .code c).final s) ∧
      Recorded ctx c s ((skipComment ctx .code c).final s) ∧
      Recorded ctx c s ((skipAtmosphere ctx .code c).final s) ∧
      Recorded ctx c s ((nextItem ctx c).final s)) := by
  refine ⟨?_, ?_, ?_⟩
  · intro c s
    exact ⟨untouched_readDatum ctx c s, untouched_skipComment ctx c s,
      untouched_skipAtmosphere ctx c s, untouched_skipIntraline ctx c s⟩
  · intro src p s
    exact ⟨src.untouched_scanDirective ctx p s, src.untouched_readDirective? ctx p s⟩
  · intro keeps c s
    refine ⟨?_, ?_, ?_, ?_, ?_⟩
    · -- the scan leaves the record alone, and then the directive is handed over
      intro d last s₁ starts scan
      have untouched : s.Untouched s₁ := scan.final ▸ untouched_scanDirective ctx (c.advance 2) s
      have once := (ctx.final_record keeps d s₁).1
      rw [final_skipComment_of_scan starts scan, final_nextItem_of_scan starts scan, once,
        untouched.directives]
      exact ⟨rfl, rfl⟩
    · apply ReadM.final_of_ends
      · rintro ⟨d, next⟩ s' returned
        exact (returns_readDatum.mp returned).recorded keeps rfl
      · intro e s' raised
        exact ((raises_readDatum c.position).mp raised).recorded keeps rfl
    · apply ReadM.final_of_ends
      · intro r s' returned
        have skip := skips_of_skipComment returned
        cases r with
        | some next => exact Reads.recorded keeps skip rfl
        | none => exact skip.2.symm ▸ .refl c s
      · intro e s' raised
        exact ((raises_skipComment c.position).mp raised).recorded keeps rfl
    · apply ReadM.final_of_ends
      · intro next s' returned
        exact (returns_skipAtmosphere.mp returned).recorded keeps rfl
      · intro e s' raised
        exact ((raises_skipAtmosphere c.position).mp raised).recorded keeps rfl
    · apply ReadM.final_of_ends
      · rintro ⟨item, next⟩ s' returned
        exact (finds_of_nextItem returned).recorded keeps
      · intro e s' raised
        exact (misses_of_nextItem raised).recorded keeps

/-- A directive with a named marker in it: it is on record once, and nothing after it is folded. -/
theorem Reader.directive_content_isolated_marker :
    ∃ c d last s₁, c = Cursor.ofText "#! #!fold-case A\nB" ∧
      (scanDirective {} (c.advance 2)).Returns {} (d, last) s₁ ∧ s₁.foldCase = false ∧
      d.datums = [.symbol "A"] ∧ ((nextItem {} c).final {}).directives = [d] ∧
      Recorded {} c {} ((nextItem {} c).final {}) := by
  have scanned : ∃ d last s₁,
      (scanDirective {} ((Cursor.ofText "#! #!fold-case A\nB").advance 2)).Returns {} (d, last) s₁ ∧
      s₁.foldCase = false ∧ d.datums = [.symbol "A"] := ⟨_, _, _, rfl, rfl, rfl⟩
  obtain ⟨d, last, s₁, scan, unfolded, data⟩ := scanned
  obtain ⟨once, -, -, -, all⟩ := (directive_content_isolated {}).2.2 nofun
    (Cursor.ofText "#! #!fold-case A\nB") {}
  exact ⟨_, d, last, s₁, rfl, scan, unfolded, data, (once d last s₁ rfl scan).2, all⟩

end LineDirective
