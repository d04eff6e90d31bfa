import LineDirective.Proofs.LineContent

/-!
# The space after a marker

Where the policy allows it the data of a directive may follow `#!` at once. Then a space in between makes
no difference, whatever stands on the line and however the line goes on: the rest of the text is scanned
as it is by itself, at one place or at the next (`Source.space_optional`). What is read is the same, and
what is complained about as well, one code point further on.
-/

namespace LineDirective

/-! ## 1. One code point further on -/

/-- The second of two positions lies one code point further on. On a given line it lies one column
further on as well; other lines count their columns from their own start. -/
structure Position.FurtherOn (line : Int) (p q : Position) : Prop where
  same_line : q.line = p.line
  column : q.column = if p.line = line then p.column + 1 else p.column
  offset : q.offset = p.offset + 1

theorem Position.FurtherOn.eq {line : Int} {p q : Position} (h : p.FurtherOn line q) :
    q = ⟨p.line, if p.line = line then p.column + 1 else p.column, p.offset + 1⟩ := by
  obtain ⟨same_line, column, offset⟩ := h
  rw [← column, ← same_line, ← offset]

/-- The second of two failures is the same complaint one code point further on, or the same fault. -/
inductive Failure.FurtherOn (line : Int) : Failure → Failure → Prop
  | diagnosed {cause : Cause} {p q : Position} {name : Option Text} (further : p.FurtherOn line q) :
      FurtherOn line (.diagnosed ⟨cause, p, name⟩) (.diagnosed ⟨cause, q, name⟩)
  | fault (fault : Fault) : FurtherOn line (.fault fault) (.fault fault)

def Position.afterSpace (p : Position) : Position := ⟨p.line, p.column + 1, p.offset + 1⟩

/-- A text that stands after a space is moved by one column on its first line, and by no line. -/
theorem Position.furtherOn_rebase (origin p : Position) :
    (origin.rebase p).FurtherOn origin.line (origin.afterSpace.rebase p) := by
  have first : origin.rebaseLine p.line = origin.line ↔ p.line = 1 := by
    unfold rebaseLine
    omega
  refine ⟨rfl, ?_, ?_⟩
  · simp only [rebase, afterSpace, first]
    split <;> omega
  · simp only [rebase, afterSpace]
    omega

theorem Failure.furtherOn_rebase (origin : Position) (e : Failure) :
    (e.rebase origin).FurtherOn origin.line (e.rebase origin.afterSpace) := by
  cases e with
  | fault fault => exact .fault fault
  | diagnosed e =>
    have same : e.cause.rebase origin.afterSpace = e.cause.rebase origin := by cases e.cause <;> rfl
    rw [rebase, rebase, same]
    exact .diagnosed (Position.furtherOn_rebase origin e.position)

/-! ## 2. A line at any place -/

theorem Position.rebaseLine_one (origin : Position) : origin.rebaseLine 1 = origin.line := by
  unfold rebaseLine
  omega

/-- What the scan of a text comes to is the same at all places and in all states that fold alike: the
same data up to the same cursor, or the same failure, moved along with the text. -/
theorem scan_anywhere (ctx : Context) (fold : Bool) (t : Text) :
    (∃ (ds : List Datum) (last : Cursor), 1 ≤ last.position.line ∧
      ∀ (origin : Position) (s : ReaderState), s.foldCase = fold → ∃ s',
        Reads ctx (.datums origin.line []) ⟨t, origin⟩ s (.datums ds) (last.rebase origin) s') ∨
    ∃ e : Failure, ∀ (origin : Position) (s : ReaderState), s.foldCase = fold → ∃ opened s',
      Fails ctx opened (.datums origin.line []) ⟨t, origin⟩ s (e.rebase origin) s' := by
  -- a scan of the text by itself, with nothing on record
  let fresh : ReaderState := { foldCase := fold }
  have moved (origin : Position) (s : ReaderState) (same : s.foldCase = fold) :
      ReaderState.Rebased origin s.directives (fresh.emit (.phase .start .skipping .start)) s :=
    ⟨same, (List.append_nil _).symm⟩
  have place (origin : Position) : (Cursor.ofText t).rebase origin = ⟨t, origin⟩ := by
    rw [Cursor.rebase, Cursor.ofText, Position.rebase_of_start]
  have task (origin : Position) : (Task.datums 1 []).rebase origin = .datums origin.line [] := by
    rw [Task.rebase, Position.rebaseLine_one]
  rcases (Reader.scanDirective ctx (.ofText t)).returns_or_raises fresh with
    ⟨⟨d, next⟩, s₁, returned⟩ | ⟨e, s₁, raised⟩
  · obtain ⟨ds, last, scanned, -, -⟩ := Reader.returns_scanDirective.mp returned
    refine .inl ⟨ds, last, scanned.reaches.line_le, ?_⟩
    intro origin s same
    obtain ⟨s', scanned', -⟩ := scanned.rebase (Int.le_refl 1) (moved origin s same)
    rw [place] at scanned'
    exact ⟨s', task origin ▸ scanned'⟩
  · have scanned := (Reader.raises_scanDirective .start).mp raised
    refine .inr ⟨e, ?_⟩
    intro origin s same
    obtain ⟨s', scanned', -⟩ := scanned.rebase (Int.le_refl 1) (moved origin s same)
    rw [place] at scanned'
    exact ⟨_, s', task origin ▸ scanned'⟩

/-- The scan of a text comes out alike at a place and, after a space, at the next. -/
theorem Reader.scanDirective_after_space (ctx : Context) (line : Text) (p : Position)
    {s t : ReaderState} (same_fold : s.foldCase = t.foldCase) :
    (∃ d next next' s' t', (scanDirective ctx ⟨line, p⟩).Returns s (d, next) s' ∧
        (scanDirective ctx ⟨.scalar ' ' :: line, p⟩).Returns t (d, next') t' ∧
        d.position = some p.beforeMarker ∧ next'.rest = next.rest ∧
        next.position.FurtherOn p.line next'.position) ∨
      ∃ e e' s' t', (scanDirective ctx ⟨line, p⟩).Raises s e s' ∧
        (scanDirective ctx ⟨.scalar ' ' :: line, p⟩).Raises t e' t' ∧ e.FurtherOn p.line e' := by
  have after_space : (Cursor.mk (.scalar ' ' :: line) p).next = ⟨line, p.afterSpace⟩ := rfl
  rcases scan_anywhere ctx s.foldCase line with ⟨ds, last, inside, scanned⟩ | ⟨e, scanned⟩
  · obtain ⟨s', bare⟩ := scanned p (s.emit (.phase .start .skipping p)) rfl
    obtain ⟨t', spaced⟩ := scanned p.afterSpace (t.emit (.phase .start .skipping p)) same_fold.symm
    rw [← after_space] at spaced
    have spaced := spaced.datums_after_blank rfl (by decide)
    have ends (origin : Position) : (last.rebase origin).afterDirective origin.line =
        (last.afterDirective 1).rebase origin := by
      rw [← origin.rebaseLine_one, Cursor.afterDirective_rebase origin inside]
    refine .inl ⟨_, _, _, s', t', returns_scanDirective.mpr ⟨ds, _, bare, rfl, (ends p).symm⟩,
      returns_scanDirective.mpr ⟨ds, _, spaced, rfl, (ends p.afterSpace).symm⟩, rfl, rfl, ?_⟩
    exact Position.furtherOn_rebase p _
  · obtain ⟨opened, s', bare⟩ := scanned p (s.emit (.phase .start .skipping p)) rfl
    obtain ⟨opened', t', spaced⟩ :=
      scanned p.afterSpace (t.emit (.phase .start .skipping p)) same_fold.symm
    rw [← after_space] at spaced
    have spaced := spaced.datums_after_blank rfl (by decide)
    exact .inr ⟨_, _, s', t', (raises_scanDirective opened).mpr bare,
      (raises_scanDirective opened').mpr spaced, Failure.furtherOn_rebase p e⟩

/-! ## 3. After a marker -/

theorem Position.after_congr (p : Position) (x : CodePoint) {t u : Text} (first : t.head? = u.head?) :
    p.after x t = p.after x u := by
  unfold after
  rw [first]

/-- The place after a marker does not depend on what follows. -/
theorem Cursor.advance_marker (front : Text) (p : Position) :
    ∃ q, ∀ rest, (Cursor.mk (front ++ (directiveMarker ++ rest)) p).advance (front.length + 2) =
      ⟨rest, q⟩ := by
  induction front generalizing p with
  | nil => exact ⟨⟨p.line, p.column + 1 + 1, p.offset + 1 + 1⟩, fun rest => rfl⟩
  | cons x front ih =>
    obtain ⟨q, ahead⟩ := ih (p.after x (front ++ directiveMarker))
    refine ⟨q, fun rest => ?_⟩
    have first : (front ++ (directiveMarker ++ rest)).head? = (front ++ directiveMarker).head? := by
      cases front <;> rfl
    rw [← ahead rest, ← p.after_congr x first]
    exact Cursor.advance_succ _ _

namespace Source

/-- Where `#!` needs no space after it, a space there makes no difference, wherever the marker stands and
unless it is that of a named marker. With and without the space the same directive is read and the same
text is left; or the same complaint is made. The places that this ends at or complains about differ by one
code point, and by one column on the line of the marker. -/
theorem space_optional (front line : Text) (name : Option Text) (ctx : Context) {s t : ReaderState}
    (unnamed : NamedMarker.detect? line = none) (lenient : ctx.policy.whitespace = .allowSpace)
    (same_fold : s.foldCase = t.foldCase) :
    let bare : Source := ⟨front ++ (directiveMarker ++ line), name⟩
    let spaced : Source := ⟨front ++ (directiveMarker ++ .scalar ' ' :: line), name⟩
    ∃ p, bare.advance .start (front.length + 2 : Nat) = .ok p ∧
      spaced.advance .start (front.length + 2 : Nat) = .ok p ∧
      ((∃ d next next' s' t', (bare.readDirective? ctx p).Returns s (some (d, next)) s' ∧
          (spaced.readDirective? ctx p).Returns t (some (d, next')) t' ∧
          d.position = some p.beforeMarker ∧ next'.rest = next.rest ∧
          next.position.FurtherOn p.line next'.position) ∨
        ∃ e e' s' t', (bare.readDirective? ctx p).Raises s e s' ∧
          (spaced.readDirective? ctx p).Raises t e' t' ∧ e.FurtherOn p.line e') := by
  intro bare spaced
  obtain ⟨p, ahead⟩ := Cursor.advance_marker front .start
  have place (src : Source) (rest : Text) (text : src.text = front ++ (directiveMarker ++ rest)) :
      src.advance .start (front.length + 2 : Nat) = .ok p ∧ 0 ≤ p.offset ∧ src.cursor p = ⟨rest, p⟩ := by
    have start : src.cursor .start = ⟨front ++ (directiveMarker ++ rest), .start⟩ := by
      rw [← text]
      rfl
    have reached := (src.cursor .start).reaches_advance (front.length + 2)
    rw [start, ahead rest, ← start] at reached
    have coherent := coherent_of_reaches_start reached
    refine ⟨?_, coherent.1, cursor_of_reaches reached⟩
    rw [src.advance_of_nonneg (Int.le_refl 0), Int.toNat_natCast, start, ahead rest]
  obtain ⟨moved, inside, here⟩ := place bare line rfl
  obtain ⟨moved', -, here'⟩ := place spaced (.scalar ' ' :: line) rfl
  refine ⟨p, moved, moved', ?_⟩
  have starts : LineDirective.startsDirective ctx.policy.whitespace (bare.cursor p).rest = true := by
    rw [here, LineDirective.startsDirective.eq_def, unnamed, lenient]
    cases line with
    | nil => rfl
    | cons x line => exact Bool.or_true _
  have starts' : LineDirective.startsDirective ctx.policy.whitespace (spaced.cursor p).rest = true := by
    rw [here']
    exact startsDirective_of_blank _ rfl
  rcases Reader.scanDirective_after_space ctx line p same_fold with
    ⟨d, next, next', s', t', scan, scan', marker⟩ | ⟨e, e', s', t', failed, failed', further⟩
  · rw [← here] at scan
    rw [← here'] at scan'
    exact .inl ⟨d, next, next', s', t', bare.returns_readDirective? inside starts scan,
      spaced.returns_readDirective? inside starts' scan', marker⟩
  · rw [← here] at failed
    rw [← here'] at failed'
    exact .inr ⟨e, e', s', t', raises_readDirective? inside starts failed,
      raises_readDirective? inside starts' failed', further⟩

/-- Behind a line that a carriage return ends: a list that runs onto the next line, after which the
columns are the same, and a list without an end. -/
theorem space_optional_crossing :
    let ctx : Context := { policy := ⟨.allowSpace, .truncate⟩ }
    (∃ t', (Source.readDirective? ⟨"x\r#! (a\n b) y", none⟩ ctx ⟨2, 2, 4⟩).Returns {}
        (some (⟨[.list [.symbol "a", .symbol "b"]], some ⟨2, 0, 2⟩⟩, ⟨" y", ⟨3, 3, 11⟩⟩)) t') ∧
      ∃ t', (Source.readDirective? ⟨"x\r#! (a\n b", none⟩ ctx ⟨2, 2, 4⟩).Raises {}
        (.diagnosed ⟨.unterminatedList, ⟨2, 3, 5⟩, none⟩) t' := by
  intro ctx
  have place (line : Text) {p : Position}
      (moved : Source.advance ⟨"x\r" ++ (directiveMarker ++ line), none⟩ .start 4 = .ok p) :
      p = ⟨2, 2, 4⟩ := Except.ok.inj (moved.symm.trans rfl)
  constructor
  · have bare : ∃ u, (Source.readDirective? ⟨"x\r#!(a\n b) y", none⟩ ctx ⟨2, 2, 4⟩).Returns {}
        (some (⟨[.list [.symbol "a", .symbol "b"]], some ⟨2, 0, 2⟩⟩, ⟨" y", ⟨3, 3, 10⟩⟩)) u := ⟨_, rfl⟩
    obtain ⟨u, bare⟩ := bare
    obtain ⟨p, moved, -, outcome⟩ :=
      space_optional "x\r" "(a\n b) y" none ctx (s := {}) (t := {}) (by decide) rfl rfl
    obtain rfl := place _ moved
    obtain ⟨d, next, ⟨rest, q⟩, s', t', bare', spaced, -, left, further⟩ | ⟨e, -, s', -, failed, -⟩ :=
      outcome
    · obtain ⟨same, -⟩ := bare.unique bare'
      cases same
      obtain rfl : rest = " y" := left
      obtain rfl : q = ⟨3, 3, 11⟩ := further.eq
      exact ⟨t', spaced⟩
    · exact absurd failed bare.not_raises
  · have bare : ∃ u, (Source.readDirective? ⟨"x\r#!(a\n b", none⟩ ctx ⟨2, 2, 4⟩).Raises {}
        (.diagnosed ⟨.unterminatedList, ⟨2, 2, 4⟩, none⟩) u := ⟨_, rfl⟩
    obtain ⟨u, bare⟩ := bare
    obtain ⟨p, moved, -, outcome⟩ :=
      space_optional "x\r" "(a\n b" none ctx (s := {}) (t := {}) (by decide) rfl rfl
    obtain rfl := place _ moved
    obtain ⟨d, next, next', s', t', bare', -⟩ | ⟨e, e', s', t', bare', spaced, further⟩ := outcome
    · exact absurd bare bare'.not_raises
    · obtain ⟨rfl, -⟩ := bare.unique bare'
      cases further with
      | @diagnosed _ _ q _ further =>
        obtain rfl : q = ⟨2, 3, 5⟩ := further.eq
        exact ⟨t', spaced⟩
end Source

end LineDirective
