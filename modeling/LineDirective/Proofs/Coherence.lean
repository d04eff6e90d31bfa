import LineDirective.Proofs.DirectiveLog

/-!
# Coherent positions

Line and column are carried along with the offset, moved over one, two or more code points at a time
and, for the marker of a directive, moved back by two. They stay those of the offset: a position that
is reached from the start of a source is the one that `Source.advance` gives for its offset, however
the way there was cut into steps.

Whatever the reader returns, records or complains about is a place ahead of where it was started. For
successful reads this is known (`Reads.reaches`); for failures it is shown here, by induction on the
rules (`Fails.blamed`). So all positions that come out of a source are coherent, and a complaint is
about a place from the start of the read on.
-/

namespace LineDirective

/-! ## 1. Positions of a source -/

namespace Source

/-- Line and column of a position are those that its offset has in the source. -/
def Coherent (src : Source) (p : Position) : Prop :=
  0 ≤ p.offset ∧ p.offset ≤ src.length ∧ src.advance .start p.offset = .ok p

variable {src : Source} {p : Position}

/-- Two moves one after the other are one move over as many code points. -/
theorem advance_advance (inside : 0 ≤ p.offset) (a b : Nat) :
    ∃ q, src.advance p a = .ok q ∧ src.advance q b = src.advance p (a + b : Nat) := by
  have ahead := (src.cursor p).reaches_advance a
  have onward := ahead.offset_mono
  rw [position_cursor] at onward
  refine ⟨((src.cursor p).advance a).position, src.advance_of_nonneg inside a, ?_⟩
  rw [src.advance_of_nonneg (Int.le_trans inside onward), src.advance_of_nonneg inside,
    cursor_of_reaches ahead, Int.toNat_natCast, Int.toNat_natCast, Cursor.advance_add]

theorem coherent_of_reaches_start {c : Cursor} (ahead : (src.cursor .start).Reaches c) :
    src.Coherent c.position := by
  have moved := ahead.offset
  have origin : (src.cursor .start).position.offset = 0 := rfl
  have text : (src.cursor .start).rest.length = src.length := rfl
  exact ⟨by omega, by omega, advance_of_reaches ahead⟩

theorem coherent_start (src : Source) : src.Coherent .start :=
  coherent_of_reaches_start (c := src.cursor .start) (.refl _)

theorem Coherent.advance_eq (h : src.Coherent p) :
    (src.cursor .start).advance p.offset.toNat = src.cursor p := by
  have moved := h.2.2
  rw [src.advance_of_nonneg (Int.le_refl 0)] at moved
  have again := cursor_of_reaches ((src.cursor .start).reaches_advance p.offset.toNat)
  rwa [Except.ok.inj moved, eq_comm] at again

theorem Coherent.reaches (h : src.Coherent p) : (src.cursor .start).Reaches (src.cursor p) :=
  ⟨_, h.advance_eq.symm⟩

/-- What lies ahead of a coherent position is coherent. -/
theorem Coherent.ahead {c : Cursor} (h : src.Coherent p) (ahead : (src.cursor p).Reaches c) :
    src.Coherent c.position :=
  coherent_of_reaches_start (h.reaches.trans ahead)

def AfterMarker (src : Source) (p : Position) : Prop :=
  2 ≤ p.offset ∧ src.startsWith p.beforeMarker directiveMarker = true

/-- The marker holds no line break, so that the place two columns earlier is its own. -/
theorem Coherent.beforeMarker (h : src.Coherent p) (marked : src.AfterMarker p) :
    src.Coherent p.beforeMarker := by
  obtain ⟨beyond, marked⟩ := marked
  have before : p.beforeMarker.offset = p.offset - 2 := rfl
  -- the place of the marker, found from the start
  have ahead := (src.cursor .start).reaches_advance (p.offset.toNat - 2)
  obtain ⟨rest, head⟩ : ∃ rest, ((src.cursor .start).advance (p.offset.toNat - 2)).rest =
      .scalar '#' :: .scalar '!' :: rest := by
    have there : src.suffix p.beforeMarker.offset = src.text.drop (p.offset.toNat - 2) := by
      rw [suffix, if_neg (by omega), before]
      congr 1
      omega
    rw [startsWith, Bool.and_eq_true, there] at marked
    rw [Cursor.rest_advance]
    exact startsWith_directiveMarker.mp marked.2
  have place := Cursor.position_beforeMarker head
  have two : p.offset.toNat - 2 + 2 = p.offset.toNat := by omega
  rw [← Cursor.advance_add, two, h.advance_eq, position_cursor] at place
  rw [place]
  exact coherent_of_reaches_start ahead

end Source

/-! ## 2. The places of complaints -/

/-- A position is that of the cursor or of a place ahead of it. -/
def Cursor.Sees (c : Cursor) (p : Position) : Prop := ∃ place, c.Reaches place ∧ p = place.position

theorem Cursor.Reaches.sees {c place : Cursor} (ahead : c.Reaches place) : c.Sees place.position :=
  ⟨place, ahead, rfl⟩

/-- A complaint names the source that is read and a place from the cursor on. -/
def Failure.BlamedFrom (ctx : Context) (c : Cursor) (e : Failure) : Prop :=
  ∀ error, e = .diagnosed error → error.sourceName = ctx.sourceName ∧ c.Sees error.position

section Blame

variable {ctx : Context} {c c' origin : Cursor} {s s' : ReaderState} {e : Failure}

theorem Failure.BlamedFrom.behind (h : e.BlamedFrom ctx c') (ahead : c.Reaches c') :
    e.BlamedFrom ctx c := by
  intro error same
  obtain ⟨name, place, further, position⟩ := h error same
  exact ⟨name, place, ahead.trans further, position⟩

theorem Failure.blamedFrom_fault (ctx : Context) (c : Cursor) (fault : Fault) :
    (Failure.fault fault).BlamedFrom ctx c := by
  rintro error same
  cases same

theorem Context.blamedFrom_complaint {p : Position} (cause : Cause) (seen : c.Sees p) :
    (ctx.complaint cause p).BlamedFrom ctx c := by
  rintro error same
  cases same
  exact ⟨rfl, seen⟩

theorem Context.blamedFrom_blame (ctx : Context) (c : Cursor) (f : LexemeFailure) :
    (ctx.blame c f).BlamedFrom ctx c := by
  cases f with
  | malformed cause distance =>
    exact Context.blamedFrom_complaint cause (c.reaches_advance distance).sees
  | fault fault => exact Failure.blamedFrom_fault ctx c fault

/-- Only writing a directive for the report can fail when it is handed over. -/
theorem Context.blamedFrom_record {d : Directive} (h : (ctx.record d).Raises s e s') :
    e.BlamedFrom ctx c := by
  unfold record at h
  split at h
  · simp at h
  · simp at h
  · obtain failed | ⟨_, s₁, -, rest⟩ := ReadM.raises_bind.mp h
    · simp at failed
    · obtain failed | ⟨_, _, -, reported⟩ := ReadM.raises_bind.mp rest
      · obtain ⟨fault, -, rfl, -⟩ := ReadM.raises_liftFault.mp failed
        exact Failure.blamedFrom_fault ctx c fault
      · simp at reported

theorem Refuses.blamed {mode : Mode} {fold : Bool} (h : Refuses ctx mode fold c e) :
    e.BlamedFrom ctx c := by
  have here : c.Sees c.position := (Cursor.Reaches.refl c).sees
  cases h with
  | ended | closer | nested | marker => exact Context.blamedFrom_complaint _ here
  | lexeme => exact ctx.blamedFrom_blame c _

theorem Fails.blamed {opened : Position} {task : Task} (h : Fails ctx opened task c s e s')
    (ahead : origin.Reaches c) (bracket : origin.Sees opened) : e.BlamedFrom ctx origin := by
  -- by induction on the rules. A list without an end is blamed on its bracket, which lies behind
  -- the cursor: so the places are seen from the start of the whole read, and the bracket with them.
  induction h with
  | codeSkip _ ih | directive _ ih | itemsSkip _ ih | remarkSkip _ _ ih | intralineSkip _ _ ih
  | datumsSkip _ ih => exact ih ahead bracket
  | refused refuses => exact refuses.blamed.behind ahead
  | code skipped _ ih | itemDatum skipped _ _ _ _ ih | remark _ skipped _ ih
  | intralineComment _ skipped _ _ ih | lineDatumRead skipped _ _ _ ih =>
    exact ih (ahead.trans skipped.reaches) bracket
  | list _ _ _ ih => exact ih (ahead.trans (Cursor.reaches_next _)) ahead.sees
  | blank _ _ _ ih | intralineBlank _ _ _ ih => exact ih (ahead.trans (Cursor.reaches_next _)) bracket
  | vector _ _ ih | bytevector _ _ ih =>
    exact ih (ahead.trans (Cursor.reaches_advance _ _)) (ahead.trans (Cursor.reaches_advance _ _)).sees
  | abbreviationSkip _ _ ih | datumComment _ _ ih | lineDatumSkip _ _ ih
  | lineDirective _ _ _ _ ih => exact ih (ahead.trans (Cursor.reaches_advance _ _)) bracket
  | missingAbbreviated | dottedVector | badBytevector | blockComment =>
    exact Context.blamedFrom_complaint _ ahead.sees
  | unterminated => exact Context.blamedFrom_complaint _ bracket
  | wrongCloser skipped _ _ _ | afterTail skipped _ _ | leadingDot skipped _ _
  | crossingDatum skipped _ _ _ _ _ =>
    exact Context.blamedFrom_complaint _ (ahead.trans skipped.reaches).sees
  | missingTail skipped _ _ _ skipped₂ _ =>
    exact Context.blamedFrom_complaint _
      (ahead.trans (skipped.reaches.trans ((Cursor.reaches_next _).trans skipped₂.reaches))).sees
  | abbreviation _ skipped _ _ ih | lineDatumComment _ skipped _ _ _ ih =>
    exact ih (ahead.trans ((Cursor.reaches_advance _ _).trans skipped.reaches)) bracket
  | dotSkip skipped _ _ _ _ ih =>
    exact ih (ahead.trans (skipped.reaches.trans (Cursor.reaches_next _))) bracket
  | tail skipped _ _ _ skipped₂ _ _ ih =>
    exact ih (ahead.trans (skipped.reaches.trans ((Cursor.reaches_next _).trans skipped₂.reaches)))
      bracket
  | dot skipped _ _ _ skipped₂ _ read _ ih =>
    have dotted := (Cursor.reaches_next _).trans (skipped₂.reaches.trans read.reaches)
    exact ih (ahead.trans (skipped.reaches.trans dotted)) bracket
  | item skipped _ _ _ read _ ih | lineDatum skipped _ _ read _ _ ih =>
    exact ih (ahead.trans (skipped.reaches.trans read.reaches)) bracket
  | unrecorded _ _ _ _ failed => exact Context.blamedFrom_record failed

theorem Fails.blamed_here {task : Task} (h : Fails ctx c.position task c s e s') :
    e.BlamedFrom ctx c :=
  h.blamed (.refl c) (Cursor.Reaches.refl c).sees

theorem Misses.blamed (h : Misses ctx c s e s') : e.BlamedFrom ctx c := by
  induction h with
  | blank _ _ _ ih => exact ih.behind (Cursor.reaches_next _)
  | directive _ _ scan => exact scan.blamed (Cursor.reaches_advance _ _) (Cursor.Reaches.refl _).sees
  | unrecorded _ _ _ failed => exact Context.blamedFrom_record failed
  | commentSkip _ _ skip => exact skip.blamed_here
  | comment _ _ skipped _ ih => exact ih.behind skipped.reaches
  | datum _ _ _ read => exact read.blamed_here

end Blame

/-! ## 3. The record -/

/-- Between the two states directives were put on record whose markers have coherent positions. -/
def ReaderState.GainsIn (src : Source) (s s' : ReaderState) : Prop :=
  ∃ ds, s'.directives = s.directives ++ ds ∧ ∀ d ∈ ds, ∃ q, d.position = some q ∧ src.Coherent q

section Record

variable {src : Source} {ctx : Context} {p : Position} {c next : Cursor} {s s₁ s' : ReaderState}
  {task : Task} {y : Yield}

theorem ReaderState.GainsIn.of_eq (same : s'.directives = s.directives) : s.GainsIn src s' :=
  ⟨[], by simp [same], by simp⟩

theorem ReaderState.GainsIn.trans (first : s.GainsIn src s₁) (second : s₁.GainsIn src s') :
    s.GainsIn src s' := by
  obtain ⟨ds, directives, placed⟩ := first
  obtain ⟨more, directives', placed'⟩ := second
  refine ⟨ds ++ more, by rw [directives', directives, List.append_assoc], ?_⟩
  intro d mem
  exact (List.mem_append.mp mem).elim (placed d) (placed' d)

theorem Logged.gainsIn {scans : List Scan} (log : Logged ctx (src.cursor p) s scans s')
    (coherent : src.Coherent p) : s.GainsIn src s' := by
  refine ⟨_, log.directives, ?_⟩
  intro d mem
  obtain ⟨scan, among, rfl⟩ := List.mem_map.mp mem
  obtain ⟨ahead, runs⟩ := log.runs scan among
  exact ⟨_, congrArg some runs.position_marker, coherent.ahead ahead⟩

/-- A directive that is handed over to nobody leaves no trace on the record. -/
theorem Context.final_record_of_discard (discards : ctx.sink = .discard) (d : Directive)
    (s : ReaderState) : (ctx.record d).final s = s := by
  unfold record
  rw [discards]
  rfl

theorem Reads.directives_of_discard (discards : ctx.sink = .discard)
    (h : Reads ctx task c s y next s') : s'.directives = s.directives := by
  induction h with
  | @marker mode => cases mode <;> rfl
  | @lineDirective _ _ _ _ _ s₁ _ _ _ _ _ kept ih =>
    rw [← kept.final, Context.final_record_of_discard discards, ih]
    rfl
  | _ => simp_all

theorem Fails.directives_of_discard (discards : ctx.sink = .discard) {opened : Position}
    {e : Failure} (h : Fails ctx opened task c s e s') : s'.directives = s.directives := by
  have unchanged {task : Task} {c next : Cursor} {s s' : ReaderState} {y : Yield}
      (read : Reads ctx task c s y next s') := read.directives_of_discard discards
  induction h with
  | refused | blockComment => rfl
  | codeSkip _ ih | directive _ ih | list _ _ _ ih | abbreviationSkip _ _ ih | vector _ _ ih
  | bytevector _ _ ih | itemsSkip _ ih | blank _ _ _ ih | remarkSkip _ _ ih | datumComment _ _ ih
  | lineDatumSkip _ _ ih | lineDirective _ _ _ _ ih | intralineBlank _ _ _ ih
  | intralineSkip _ _ ih | datumsSkip _ ih => exact ih
  | missingAbbreviated _ skipped _ | dottedVector _ skipped | badBytevector _ skipped _
  | unterminated skipped _ | wrongCloser skipped _ _ _ | afterTail skipped _ _
  | leadingDot skipped _ _ => exact unchanged skipped
  | code skipped _ ih | abbreviation _ skipped _ _ ih | dotSkip skipped _ _ _ _ ih
  | itemDatum skipped _ _ _ _ ih | remark _ skipped _ ih | lineDatumComment _ skipped _ _ _ ih
  | intralineComment _ skipped _ _ ih => exact ih.trans (unchanged skipped)
  | missingTail skipped _ _ _ skipped₂ _ => exact (unchanged skipped₂).trans (unchanged skipped)
  | tail skipped _ _ _ skipped₂ _ _ ih =>
    exact ih.trans ((unchanged skipped₂).trans (unchanged skipped))
  | dot skipped _ _ _ skipped₂ _ read _ ih =>
    exact (ih.trans (unchanged read)).trans ((unchanged skipped₂).trans (unchanged skipped))
  | item skipped _ _ _ read _ ih => exact (ih.trans (unchanged read)).trans (unchanged skipped)
  | lineDatum skipped _ _ read _ _ ih =>
    have datum := unchanged read
    have skip := unchanged skipped
    exact (ih.trans datum).trans skip
  | crossingDatum skipped _ _ read _ _ =>
    have datum := unchanged read
    have skip := unchanged skipped
    exact datum.trans skip
  | lineDatumRead skipped _ _ _ ih =>
    have skip := unchanged skipped
    rw [Failure.directives_reported]
    exact ih.trans skip
  | unrecorded _ _ _ scanned failed =>
    have scan := unchanged scanned
    rw [← failed.final, Context.final_record_of_discard discards]
    exact scan

theorem Reads.gainsIn {p : Position} (coherent : src.Coherent p)
    (h : Reads ctx task (src.cursor p) s y next s') (outside : task.isScan = false) :
    s.GainsIn src s' := by
  by_cases keeps : ctx.sink = .discard
  · exact .of_eq (h.directives_of_discard keeps)
  · obtain ⟨scans, log⟩ := h.logged keeps outside
    exact log.gainsIn coherent

theorem Fails.gainsIn {p opened : Position} {e : Failure} (coherent : src.Coherent p)
    (h : Fails ctx opened task (src.cursor p) s e s') (outside : task.isScan = false) :
    s.GainsIn src s' := by
  by_cases keeps : ctx.sink = .discard
  · exact .of_eq (h.directives_of_discard keeps)
  · obtain ⟨scans, log⟩ := h.logged keeps outside
    exact log.gainsIn coherent

end Record

/-! ## 4. Single operations -/

/-- A complaint names the source and a coherent position from the given one on. -/
def Failure.PlacedIn (src : Source) (p : Position) (e : Failure) : Prop :=
  ∀ error, e = .diagnosed error →
    error.sourceName = src.name ∧ src.Coherent error.position ∧ p.offset ≤ error.position.offset

theorem Failure.placedIn_fault (src : Source) (p : Position) (fault : Fault) :
    (Failure.fault fault).PlacedIn src p := by
  rintro error same
  cases same

/-- However an action ends that was started at a position, the positions are coherent that come out
of it: in what it returns, in what it raises, and in what it puts on record. -/
structure ReadM.KeepsCoherent {α : Type} (src : Source) (p : Position) (places : α → List Position)
    (m : ReadM α) (s : ReaderState) : Prop where
  returned : ∀ a s', m.Returns s a s' → ∀ q ∈ places a, src.Coherent q
  raised : ∀ e s', m.Raises s e s' → e.PlacedIn src p
  recorded : s.GainsIn src (m.final s)

section Operations

variable {src : Source} {ctx : Context} {p : Position} {s : ReaderState}

theorem Failure.BlamedFrom.placedIn {e : Failure} (h : e.BlamedFrom ctx (src.cursor p))
    (coherent : src.Coherent p) (named : ctx.sourceName = src.name) : e.PlacedIn src p := by
  intro error same
  obtain ⟨name, place, ahead, position⟩ := h error same
  have onward := ahead.offset_mono
  rw [Source.position_cursor] at onward
  rw [position]
  exact ⟨name.trans named, coherent.ahead ahead, onward⟩

/-- An operation that carries out one task, or finds nothing to do. -/
theorem ReadM.KeepsCoherent.of_task {α : Type} {places : α → List Position} {m : ReadM α}
    (task : Task) (coherent : src.Coherent p) (named : ctx.sourceName = src.name)
    (outside : task.isScan = false)
    (returned : ∀ a s', m.Returns s a s' →
      (∃ y next, Reads ctx task (src.cursor p) s y next s' ∧ places a = [next.position]) ∨
        (places a = [] ∧ s' = s))
    (raised : ∀ e s', m.Raises s e s' → Fails ctx p task (src.cursor p) s e s') :
    m.KeepsCoherent src p places s := by
  refine ⟨?_, ?_, ?_⟩
  · intro a s' done q mem
    obtain ⟨y, next, reads, place⟩ | ⟨none_, -⟩ := returned a s' done
    · rw [place, List.mem_singleton] at mem
      exact mem ▸ coherent.ahead reads.reaches
    · rw [none_] at mem
      cases mem
  · intro e s' failed
    have opened : (src.cursor p).Sees p := ⟨_, .refl _, (src.position_cursor p).symm⟩
    exact ((raised e s' failed).blamed (.refl _) opened).placedIn coherent named
  · apply final_of_ends
    · intro a s' done
      obtain ⟨y, next, reads, -⟩ | ⟨-, rfl⟩ := returned a s' done
      · exact reads.gainsIn coherent outside
      · exact .of_eq rfl
    · intro e s' failed
      exact (raised e s' failed).gainsIn coherent outside

namespace Reader

theorem keepsCoherent_readDatum (coherent : src.Coherent p) (named : ctx.sourceName = src.name)
    (mode : Mode) :
    (readDatum ctx mode (src.cursor p)).KeepsCoherent src p (fun r => [r.2.position]) s := by
  apply ReadM.KeepsCoherent.of_task (.datum mode) coherent named rfl
  · rintro ⟨d, next⟩ s' done
    exact .inl ⟨_, _, returns_readDatum.mp done, rfl⟩
  · intro e s' failed
    exact (raises_readDatum p).mp failed

theorem keepsCoherent_skipComment (coherent : src.Coherent p) (named : ctx.sourceName = src.name)
    (mode : Mode) :
    (skipComment ctx mode (src.cursor p)).KeepsCoherent src p
      (fun r => (r.map Cursor.position).toList) s := by
  apply ReadM.KeepsCoherent.of_task (.comment mode) coherent named rfl
  · intro r s' done
    cases r with
    | some next => exact .inl ⟨_, _, returns_skipComment.mp done, rfl⟩
    | none => exact .inr ⟨rfl, (skips_of_skipComment done).2⟩
  · intro e s' failed
    exact (raises_skipComment p).mp failed

theorem keepsCoherent_skipAtmosphere (coherent : src.Coherent p)
    (named : ctx.sourceName = src.name) (mode : Mode) :
    (skipAtmosphere ctx mode (src.cursor p)).KeepsCoherent src p (fun r => [r.position]) s := by
  apply ReadM.KeepsCoherent.of_task (.atmosphere mode) coherent named rfl
  · intro next s' done
    exact .inl ⟨_, _, returns_skipAtmosphere.mp done, rfl⟩
  · intro e s' failed
    exact (raises_skipAtmosphere p).mp failed

theorem keepsCoherent_skipIntraline (coherent : src.Coherent p)
    (named : ctx.sourceName = src.name) (anchor : Int) :
    (skipIntraline ctx anchor (src.cursor p)).KeepsCoherent src p (fun r => [r.position]) s := by
  apply ReadM.KeepsCoherent.of_task (.intraline anchor) coherent named rfl
  · intro next s' done
    exact .inl ⟨_, _, returns_skipIntraline.mp done, rfl⟩
  · intro e s' failed
    exact (raises_skipIntraline p).mp failed

end Reader

/-- The directive that is returned carries the position of its marker, behind the start of the scan. -/
theorem Source.keepsCoherent_scanDirective (coherent : src.Coherent p)
    (named : ctx.sourceName = src.name) (marked : src.AfterMarker p) :
    (src.scanDirective ctx p).KeepsCoherent src p
      (fun r => r.2.position :: r.1.position.toList) s := by
  have untouched := src.untouched_scanDirective ctx p s
  rw [src.scanDirective_of_nonneg ctx coherent.1] at untouched ⊢
  refine ⟨?_, ?_, .of_eq untouched.directives⟩
  · rintro ⟨d, next⟩ s' done q mem
    obtain ⟨ds, last, reads, rfl, rfl⟩ := Reader.returns_scanDirective.mp done
    rw [position_cursor] at mem
    rcases List.mem_cons.mp mem with rfl | mem
    · exact coherent.ahead (reads.reaches.trans (last.reaches_afterDirective _))
    · rw [List.mem_singleton.mp mem]
      exact coherent.beforeMarker marked
  · intro e s' failed
    have fails := (Reader.raises_scanDirective (src.cursor p).position).mp failed
    exact fails.blamed_here.placedIn coherent named

end Operations

/-! ## 5. Sessions -/

def Item.places : Item → List Position
  | .directive d => d.position.toList
  | _ => []

theorem Finds.sees {ctx : Context} {c next : Cursor} {item : Item} {s s' : ReaderState}
    (h : Finds ctx c s item next s') : ∀ q ∈ item.places, c.Sees q := by
  have behind {c c' : Cursor} {item : Item} (ahead : c.Reaches c')
      (seen : ∀ q ∈ item.places, c'.Sees q) : ∀ q ∈ item.places, c.Sees q := by
    intro q mem
    obtain ⟨place, further, position⟩ := seen q mem
    exact ⟨place, ahead.trans further, position⟩
  induction h with
  | ended | datum => simp [Item.places]
  | blank _ _ _ ih => exact behind (Cursor.reaches_next _) ih
  | @directive c _ _ _ _ _ _ head _ _ _ =>
    intro q mem
    obtain rfl := List.mem_singleton.mp mem
    rw [Cursor.position_beforeMarker head]
    exact (Cursor.Reaches.refl c).sees
  | comment _ _ skipped _ ih => exact behind skipped.reaches ih

/-- The positions in the result of a call are coherent; a complaint is about a place from the given
position on. -/
def Source.CoherentResult {α : Type} (src : Source) (p : Position) (places : α → List Position) :
    Except Failure α → Prop
  | .ok a => ∀ q ∈ places a, src.Coherent q
  | .error e => e.PlacedIn src p

namespace Session

/-- A session has gone on from a coherent position of its source to another one. -/
structure Continues (s s' : Session) : Prop where
  source : s'.source = s.source
  coherent : s.source.Coherent s'.position
  onward : s.position.offset ≤ s'.position.offset
  recorded : s.state.GainsIn s.source s'.state

variable {s s₁ s' : Session}

theorem Continues.refl (coherent : s.source.Coherent s.position) : s.Continues s :=
  ⟨rfl, coherent, Int.le_refl _, .of_eq rfl⟩

theorem Continues.trans (first : s.Continues s₁) (second : s₁.Continues s') : s.Continues s' := by
  refine ⟨second.source.trans first.source, ?_, Int.le_trans first.onward second.onward, ?_⟩
  · exact first.source ▸ second.coherent
  · exact first.recorded.trans (first.source ▸ second.recorded)

theorem Continues.here (h : s.Continues s') : s'.source.Coherent s'.position :=
  h.source ▸ h.coherent

/-- What one search for an item keeps. -/
theorem coherent_of_next {r : Except Failure Item} (coherent : s.source.Coherent s.position)
    (h : s.next = (r, s')) :
    s.Continues s' ∧ s.source.CoherentResult s'.position Item.places r := by
  cases r with
  | ok item =>
    obtain ⟨c, finds, source, here⟩ := finds_of_next h
    obtain ⟨scans, log⟩ := finds.logged s.keeps
    have position : s'.position = c.position := by rw [← here, position_cursor]
    have onward := finds.reaches.offset_mono
    rw [position_cursor] at onward
    refine ⟨⟨source, ?_, ?_, log.gainsIn coherent⟩, ?_⟩
    · exact position ▸ coherent.ahead finds.reaches
    · exact position ▸ onward
    · intro q mem
      obtain ⟨place, ahead, rfl⟩ := finds.sees q mem
      exact coherent.ahead ahead
  | error e =>
    have misses := misses_of_next h
    have stays := position_of_raised h
    obtain ⟨scans, log⟩ := misses.logged s.keeps
    refine ⟨⟨(context_of_next h).2, ?_, ?_, log.gainsIn coherent⟩, ?_⟩
    · exact stays ▸ coherent
    · exact Int.le_of_eq (by rw [stays])
    · exact stays ▸ misses.blamed.placedIn coherent rfl

theorem coherent_of_readDatumFor {rounds : Nat} {r : Except Failure Datum}
    (coherent : s.source.Coherent s.position) (h : readDatumFor rounds s = (r, s')) :
    s.Continues s' ∧ s.source.CoherentResult s'.position (fun _ => []) r := by
  induction rounds generalizing s with
  | zero =>
    cases h
    exact ⟨.refl coherent, Failure.placedIn_fault _ _ _⟩
  | succ rounds ih =>
    unfold readDatumFor at h
    split at h
    · rename_i failure s₁ failed
      cases h
      exact coherent_of_next coherent failed
    · rename_i s₁ found
      cases h
      exact ⟨(coherent_of_next coherent found).1, Failure.placedIn_fault _ _ _⟩
    · rename_i d s₁ found
      cases h
      exact ⟨(coherent_of_next coherent found).1, List.forall_mem_nil _⟩
    · rename_i d s₁ found
      obtain ⟨goes, -⟩ := coherent_of_next coherent found
      obtain ⟨further, result⟩ := ih goes.here h
      exact ⟨goes.trans further, goes.source ▸ result⟩

theorem coherent_of_formsFor {wanted : Bool} {rounds : Nat} {limit : Option Nat} {forms : Forms}
    (coherent : s.source.Coherent s.position) (h : formsFor wanted rounds limit s = (forms, s')) :
    s.Continues s' ∧
      (∀ entry ∈ forms.items, ∀ q ∈ entry.2 :: entry.1.places, s.source.Coherent q) ∧
      ∀ e, forms.failure = some e → e.PlacedIn s.source s'.position := by
  induction rounds, limit, s using formsFor.induct wanted generalizing forms with
  | case1 =>
    cases h
    exact ⟨.refl coherent, List.forall_mem_nil _, fun _ failed => by cases failed⟩
  | case2 =>
    cases h
    exact ⟨.refl coherent, List.forall_mem_nil _, fun _ failed => by cases failed⟩
  | case3 rounds limit s some_left failure s₁ failed =>
    simp only [formsFor, failed] at h
    cases h
    obtain ⟨goes, placed⟩ := coherent_of_next coherent failed
    refine ⟨goes, List.forall_mem_nil _, ?_⟩
    rintro e same
    cases same
    exact placed
  | case4 rounds limit s some_left s₁ found =>
    simp only [formsFor, found] at h
    cases h
    exact ⟨(coherent_of_next coherent found).1, List.forall_mem_nil _, fun _ failed => by cases failed⟩
  | case5 rounds limit s some_left d s₁ found ih =>
    simp only [formsFor, found] at h
    cases h
    obtain ⟨goes, places⟩ := coherent_of_next coherent found
    obtain ⟨further, entries, placed⟩ := ih s₁ goes.here rfl
    rw [goes.source] at entries placed
    have first := List.forall_mem_cons.mpr ⟨goes.coherent, places⟩
    exact ⟨goes.trans further, List.forall_mem_cons.mpr ⟨first, entries⟩, placed⟩
  | case6 rounds limit s some_left d s₁ found wants ih =>
    simp only [formsFor, found, if_pos wants] at h
    cases h
    obtain ⟨goes, places⟩ := coherent_of_next coherent found
    obtain ⟨further, entries, placed⟩ := ih s₁ goes.here rfl
    rw [goes.source] at entries placed
    have first := List.forall_mem_cons.mpr ⟨goes.coherent, places⟩
    exact ⟨goes.trans further, List.forall_mem_cons.mpr ⟨first, entries⟩, placed⟩
  | case7 rounds limit s some_left d s₁ found unwanted _ ih =>
    simp only [formsFor, found, if_neg unwanted] at h
    obtain ⟨goes, -⟩ := coherent_of_next coherent found
    obtain ⟨further, entries, placed⟩ := ih goes.here h
    rw [goes.source] at entries placed
    exact ⟨goes.trans further, entries, placed⟩

def Answer.places : Answer → List Position
  | .item found => found.places
  | .forms found => found.flatMap Item.places
  | .datum _ => []
  | .exhausted => []

/-- What one request keeps. -/
theorem coherent_of_ask {request : Request} {r : Except Failure Answer}
    (coherent : s.source.Coherent s.position) (h : s.ask request = (r, s')) :
    s.Continues s' ∧ s.source.CoherentResult s'.position Answer.places r := by
  cases request with
  | item =>
    simp only [ask] at h
    split at h
    · rename_i item s₁ found
      cases h
      exact coherent_of_next coherent found
    · rename_i e s₁ failed
      cases h
      exact coherent_of_next coherent failed
  | datum =>
    simp only [ask] at h
    split at h
    · rename_i d s₁ found
      cases h
      exact coherent_of_readDatumFor coherent found
    · rename_i s₁ ended
      cases h
      exact ⟨(coherent_of_readDatumFor coherent ended).1, List.forall_mem_nil _⟩
    · rename_i e s₁ _ failed
      cases h
      exact coherent_of_readDatumFor coherent failed
  | forms wanted limit =>
    simp only [ask] at h
    split at h
    · rename_i items s₁ outcome
      cases h
      obtain ⟨goes, entries, -⟩ := coherent_of_formsFor coherent outcome
      refine ⟨goes, fun q mem => ?_⟩
      obtain ⟨item, among, place⟩ := List.mem_flatMap.mp mem
      obtain ⟨entry, yielded, rfl⟩ := List.mem_map.mp among
      exact entries entry yielded q (List.mem_cons_of_mem _ place)
    · rename_i items e s₁ outcome
      cases h
      obtain ⟨goes, -, placed⟩ := coherent_of_formsFor coherent outcome
      exact ⟨goes, placed e rfl⟩

/-- What a run of requests keeps, from what one request keeps. -/
theorem coherent_of_askAll {requests : List Request} {r : Except Failure (List Answer)}
    (coherent : s.source.Coherent s.position) (h : s.askAll requests = (r, s')) :
    s.Continues s' ∧ s.source.CoherentResult s'.position (List.flatMap Answer.places) r := by
  induction requests generalizing s r with
  | nil =>
    cases h
    exact ⟨.refl coherent, List.forall_mem_nil _⟩
  | cons request requests ih =>
    unfold askAll at h
    split at h
    · rename_i e s₁ failed
      cases h
      exact coherent_of_ask coherent failed
    · rename_i answer s₁ asked
      obtain ⟨goes, places⟩ := coherent_of_ask coherent asked
      split at h
      · rename_i e s₂ failed
        cases h
        obtain ⟨further, placed⟩ := ih goes.here failed
        exact ⟨goes.trans further, goes.source ▸ placed⟩
      · rename_i more s₂ others
        cases h
        obtain ⟨further, places'⟩ := ih goes.here others
        rw [goes.source] at places'
        refine ⟨goes.trans further, fun q mem => ?_⟩
        rw [List.flatMap_cons, List.mem_append] at mem
        exact mem.elim (places q) (places' q)

end Session

/-! ## 6. Whatever comes out of a source -/

/-- Moves over a source may be cut into steps at will. So what is started at a coherent position
stays with coherent positions: every operation of the reader, and a session however it is asked, in
what they return, raise and put on record. A complaint names the source and a place that is not
before the start. -/
theorem Source.positions_coherent (src : Source) :
    (∀ p : Position, 0 ≤ p.offset → p.offset ≤ src.length → ∀ a b : Nat,
      ∃ q, src.advance p a = .ok q ∧ src.advance q b = src.advance p (a + b : Nat)) ∧
    (∀ (ctx : Context) (p : Position) (s : ReaderState), ctx.sourceName = src.name →
      src.Coherent p →
      (∀ mode, (Reader.readDatum ctx mode (src.cursor p)).KeepsCoherent src p
        (fun r => [r.2.position]) s) ∧
      (∀ mode, (Reader.skipComment ctx mode (src.cursor p)).KeepsCoherent src p
        (fun r => (r.map Cursor.position).toList) s) ∧
      (∀ mode, (Reader.skipAtmosphere ctx mode (src.cursor p)).KeepsCoherent src p
        (fun r => [r.position]) s) ∧
      (∀ anchor, (Reader.skipIntraline ctx anchor (src.cursor p)).KeepsCoherent src p
        (fun r => [r.position]) s) ∧
      (src.AfterMarker p → (src.scanDirective ctx p).KeepsCoherent src p
        (fun r => r.2.position :: r.1.position.toList) s)) ∧
    ∀ s : Session, s.source = src → src.Coherent s.position →
      (∀ requests r s', s.askAll requests = (r, s') →
        s.Continues s' ∧ src.CoherentResult s'.position (List.flatMap Session.Answer.places) r) ∧
      ∀ wanted limit, ∀ entry ∈ (s.forms wanted limit).1.items,
        ∀ q ∈ entry.2 :: entry.1.places, src.Coherent q := by
  refine ⟨?_, ?_, ?_⟩
  · intro p inside _ a b
    exact advance_advance inside a b
  · intro ctx p s named coherent
    refine ⟨?_, ?_, ?_, ?_, ?_⟩
    · exact Reader.keepsCoherent_readDatum coherent named
    · exact Reader.keepsCoherent_skipComment coherent named
    · exact Reader.keepsCoherent_skipAtmosphere coherent named
    · exact Reader.keepsCoherent_skipIntraline coherent named
    · exact keepsCoherent_scanDirective coherent named
  · rintro s rfl coherent
    refine ⟨?_, ?_⟩
    · intro requests r s' asked
      exact Session.coherent_of_askAll coherent asked
    · intro wanted limit
      exact (Session.coherent_of_formsFor coherent rfl).2.1

/-- A wrong bracket two lines further on, with a directive on the way. -/
theorem Source.positions_coherent_bracket :
    ∃ (src : Source) (s' : Session) (e : ReadError) (q : Position),
      src = ⟨"x\r\n(a #! b\r\n ]", some "file"⟩ ∧
      src.session.askAll [.item, .item] = (.error (.diagnosed e), s') ∧
      (e.sourceName = some "file" ∧ e.position = ⟨3, 1, 13⟩ ∧ src.Coherent e.position) ∧
      (s'.position = ⟨1, 1, 1⟩ ∧ src.Coherent s'.position) ∧
      s'.state.directives = [⟨[.symbol "b"], some q⟩] ∧ q = ⟨2, 3, 6⟩ ∧ src.Coherent q := by
  obtain ⟨s', asked, position, recorded⟩ : ∃ s',
      (Source.mk "x\r\n(a #! b\r\n ]" (some "file")).session.askAll [.item, .item] =
        (.error (.diagnosed ⟨.wrongCloser (.scalar ')'), ⟨3, 1, 13⟩, some "file"⟩), s') ∧
      s'.position = ⟨1, 1, 1⟩ ∧ s'.state.directives = [⟨[.symbol "b"], some ⟨2, 3, 6⟩⟩] :=
    ⟨_, rfl, rfl, rfl⟩
  obtain ⟨-, -, sessions⟩ := positions_coherent ⟨"x\r\n(a #! b\r\n ]", some "file"⟩
  obtain ⟨goes, placed⟩ := (sessions _ rfl (coherent_start _)).1 _ _ _ asked
  obtain ⟨named, place, -⟩ := placed _ rfl
  obtain ⟨ds, gained, coherent⟩ := goes.recorded
  obtain ⟨q, same, there⟩ := coherent ⟨[.symbol "b"], some ⟨2, 3, 6⟩⟩ (by
    have gained : s'.state.directives = ds := gained
    simp [← gained, recorded])
  cases same
  exact ⟨_, s', _, _, rfl, asked, ⟨named, rfl, place⟩, ⟨position, goes.coherent⟩, recorded, rfl, there⟩

end LineDirective
