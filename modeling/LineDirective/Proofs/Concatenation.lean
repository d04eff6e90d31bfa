import LineDirective.Proofs.Abreast
import LineDirective.Proofs.Mirroring
import LineDirective.Proofs.Requests

/-!
# Texts one after the other

Two texts with a line break between them are read one after the other. Whatever may stand at the end
of a text may stand at the end of a line as well: `Cursor.Extends` relates the places of the first
text to those of the joined one, and a read of the first text is a read of the joined text
(`Reads.extended`), where the atmosphere at the end goes on into the second text. The second text is
read there as it is read by itself, a number of lines further down (`ReadsAll.rebase`). All that the
first text leaves behind for the second is case folding.
-/

namespace LineDirective

/-! ## 1. What starts in front of a line end -/

section Starts

variable {q y : Text}

theorem startsDirective_append (policy : WhitespacePolicy) (ends : y.AtLineEnd) :
    startsDirective policy (q ++ y) = startsDirective policy q := by
  unfold startsDirective
  rw [NamedMarker.detect?_append ends]
  split
  · rfl
  · cases q with
    | cons c q => rfl
    | nil =>
      cases y with
      | nil => rfl
      | cons c y =>
        have newline : c.isNewline = true := ends
        simp [CodePoint.isBlank_of_isNewline newline]

theorem startsComment_code (policy : WhitespacePolicy) (c : Cursor) :
    startsComment policy .code c.rest =
      (startsComment policy .directive c.rest || atDirective policy c) := by
  unfold startsComment atDirective
  split <;> simp_all

theorem startsComment_append_code (policy : WhitespacePolicy) (some_text : q ≠ [])
    (ends : y.AtLineEnd) : startsComment policy .code (q ++ y) = startsComment policy .code q := by
  have directive : atDirective policy (.ofText (q ++ y)) = atDirective policy (.ofText q) := by
    rw [Bool.eq_iff_iff, atDirective_iff, atDirective_iff]
    show (∃ rest, q ++ y = _ ∧ _) ↔ ∃ rest, q = _ ∧ _
    match q, some_text with
    | [a], _ =>
      constructor
      · rintro ⟨rest, head, -⟩
        obtain ⟨-, second⟩ := List.cons.inj head
        cases y with
        | nil => cases second
        | cons b y =>
          obtain ⟨marked, -⟩ := List.cons.inj second
          exact absurd marked (ends.ne (by decide))
      · rintro ⟨rest, head, -⟩
        cases head
    | a :: b :: q, _ =>
      constructor
      · rintro ⟨rest, head, starts⟩
        obtain ⟨rfl, tail⟩ := List.cons.inj head
        obtain ⟨rfl, rfl⟩ := List.cons.inj tail
        exact ⟨q, rfl, (startsDirective_append policy ends).symm.trans starts⟩
      · rintro ⟨rest, head, starts⟩
        cases head
        exact ⟨q ++ y, rfl, by rwa [startsDirective_append policy ends]⟩
  have whole := startsComment_code policy (.ofText (q ++ y))
  have part := startsComment_code policy (.ofText q)
  rw [directive] at whole
  exact whole.trans ((congrArg (· || _) (startsComment_append policy some_text ends)).trans part.symm)

end Starts

theorem Cursor.skipNewline_of_pair {c : Cursor} {rest : Text}
    (head : c.rest = .carriageReturn :: .lineFeed :: rest) : c.skipNewline = c.next.next := by
  unfold skipNewline
  simp only [head]
  rw [advance_succ, advance_one]

theorem Cursor.skipNewline_of_single {c : Cursor} {x : CodePoint} {rest : Text}
    (head : c.rest = x :: rest) (single : x = .carriageReturn → rest.head? ≠ some .lineFeed) :
    c.skipNewline = if x.isNewline then c.next else c := by
  unfold skipNewline
  split
  · rename_i more same
    rw [head] at same
    cases same
    exact absurd rfl (single rfl)
  · rename_i y more _ same
    rw [head] at same
    cases same
    rfl
  · rename_i same
    rw [head] at same
    cases same

theorem Cursor.position_advance_marker {c : Cursor} {rest : Text}
    (head : c.rest = .scalar '#' :: .scalar '!' :: rest) :
    (c.advance 2).position =
      ⟨c.position.line, c.position.column + 1 + 1, c.position.offset + 1 + 1⟩ := by
  obtain ⟨text, position⟩ := c
  obtain rfl : text = _ := head
  rfl

theorem Cursor.some_rest_of_inside {c : Cursor} (inside : c.atLineEnd = false) : c.rest ≠ [] := by
  rintro nothing
  simp [atLineEnd, atEnd, nothing] at inside

theorem Reads.some_rest {ctx : Context} {mode : Mode} {c next : Cursor} {s s' : ReaderState}
    {y : Yield} (h : Reads ctx (.comment mode) c s y next s') : c.rest ≠ [] := by
  rintro nothing
  have shorter := h.length_lt rfl
  simp [nothing] at shorter

/-! ## 2. Places of the first text -/

/-- The second cursor stands in the joined text, which starts at `w`, where the first stands in the
first text. A carriage return at the end of the first text ends a line there, and does not yet do so
in the joined text. -/
structure Cursor.Extends (w : Cursor) (more : Text) (a b : Cursor) : Prop
    extends Cursor.Abreast .anywhere [] (.lineFeed :: more) a.rest a b where
  ahead : w.Reaches b
  line_le : b.position.line ≤ a.position.line

namespace Cursor.Extends

variable {w a b : Cursor} {more rest : Text} {x : CodePoint}

theorem position_eq (h : Extends w more a b) (some_rest : a.rest ≠ []) : b.position = a.position :=
  h.position (.inr some_rest)

theorem head (h : Extends w more a b) (head : a.rest = x :: rest) :
    b.rest = x :: (rest ++ .lineFeed :: more) := by
  rw [h.right, head]
  rfl

theorem head_pair {x' : CodePoint} (h : Extends w more a b) (head : a.rest = x :: x' :: rest) :
    b.rest = x :: x' :: (rest ++ .lineFeed :: more) :=
  h.head head

theorem rest_of_ended (h : Extends w more a b) (nothing : a.rest = []) :
    b.rest = .lineFeed :: more := by
  rw [h.right, nothing]
  rfl

theorem next (h : Extends w more a b) (head : a.rest = x :: rest) :
    Extends w more a.next b.next := by
  have both := h.toAbreast
  have left : a.next.rest = rest := by rw [rest_next, head]; rfl
  rw [head] at both
  have onward := both.next
  refine ⟨left.symm ▸ onward, h.ahead.trans b.reaches_next, ?_⟩
  by_cases nothing : rest = []
  · -- what follows matters only to a carriage return at the end
    have same := h.position_eq (by simp [head])
    unfold Cursor.next
    rw [head, h.head head, same, nothing]
    by_cases last : x = .carriageReturn
    · simp [Position.after, last]
    · simp [Position.after, last]
  · rw [onward.position (.inr nothing)]

theorem advance {n : Nat} (h : Extends w more a b) (inside : n ≤ a.rest.length) :
    Extends w more (a.advance n) (b.advance n) := by
  induction n generalizing a b with
  | zero => exact h
  | succ n ih =>
    have some_rest : a.rest ≠ [] := by
      rintro nothing
      simp [nothing] at inside
    obtain ⟨x, rest, head⟩ := List.exists_cons_of_ne_nil some_rest
    rw [advance_succ, advance_succ]
    refine ih (h.next head) ?_
    rw [rest_next, List.length_drop]
    omega

theorem lineEnd (h : Extends w more a b) : Extends w more a.lineEnd b.lineEnd := by
  unfold Cursor.lineEnd Cursor.skipWhile Cursor.span
  rw [h.right, takeWhile_line_append a.rest (show Text.AtLineEnd (.lineFeed :: more) from rfl)]
  exact h.advance (List.takeWhile_prefix _).length_le

theorem atLineEnd_eq (h : Extends w more a b) : b.atLineEnd = a.atLineEnd :=
  h.atLineEnd_eq_of_ends rfl rfl

/-- What is at the end of its line, or beyond, is so in the joined text. -/
theorem ended {anchor : Int} (h : Extends w more a b)
    (ended : a.position.line ≠ anchor ∨ a.atLineEnd = true) :
    b.position.line ≠ anchor ∨ b.atLineEnd = true := by
  rw [h.atLineEnd_eq]
  by_cases nothing : a.rest = []
  · exact .inr (by simp [Cursor.atLineEnd, Cursor.atEnd, nothing])
  · rwa [h.position_eq nothing]

theorem line_eq {anchor : Int} (h : Extends w more a b) (later : anchor ≤ b.position.line)
    (on_line : a.position.line = anchor) : b.position.line = anchor := by
  have before := h.line_le
  omega

/-- A line that is left in the first text only is left with the end of that text. -/
theorem feed_of_left {anchor : Int} (h : Extends w more a b) (left : a.position.line ≠ anchor)
    (stays : b.position.line = anchor) : b.rest = .lineFeed :: more := by
  by_cases nothing : a.rest = []
  · exact h.rest_of_ended nothing
  · rw [h.position_eq nothing] at stays
    exact absurd stays left

theorem position_after_marker (h : Extends w more a b)
    (head : a.rest = .scalar '#' :: .scalar '!' :: rest) :
    (b.advance 2).position = (a.advance 2).position := by
  have here := h.position_eq (by simp [head])
  rw [Cursor.position_advance_marker head, Cursor.position_advance_marker (h.head_pair head), here]

/-- Where atmosphere ends before the end of the first text, it ends in the joined text as well. -/
theorem clear {ctx : Context} {mode : Mode} {s s' t : ReaderState} {y : Yield} {c : Cursor}
    (h : Extends w more a b) (some_rest : a.rest ≠ [])
    (skipped : Reads ctx (.atmosphere mode) c s y a s') :
    Reads ctx (.atmosphere mode) b t .nothing b t := by
  obtain ⟨visible, none_starts⟩ := skipped.clear_of_atmosphere
  have ends : Text.AtLineEnd (.lineFeed :: more) := rfl
  refine .clear ?_ ?_
  · rw [h.head?_eq some_rest]
    exact visible
  · rw [h.right]
    cases mode with
    | code => rwa [startsComment_append_code _ some_rest ends]
    | directive => rwa [startsComment_append _ some_rest ends]

/-- The end of a directive. At the end of the first text it may take the line break along, or the part
of it that the first text lacks. -/
theorem afterDirective (h : Extends w more a b) (anchor : Int) :
    ∃ b', Extends w more (a.afterDirective anchor) b' ∧
      (b.afterDirective anchor = b' ∨
        (b'.rest = .lineFeed :: more ∧ b.afterDirective anchor = b'.next)) := by
  unfold Cursor.afterDirective
  cases head : a.rest with
  | nil =>
    have stays : a.skipNewline = a := by rw [skipNewline, head]
    have feed := h.rest_of_ended head
    rw [stays, ite_self]
    refine ⟨b, h, ?_⟩
    split
    · exact .inr ⟨feed, skipNewline_of_single feed nofun⟩
    · exact .inl rfl
  | cons x rest =>
    have head' := h.head head
    rw [h.position_eq (by simp [head])]
    split
    · by_cases single : x = .carriageReturn → rest.head? ≠ some .lineFeed
      · rw [skipNewline_of_single head single]
        by_cases last : x = .carriageReturn ∧ rest = []
        · obtain ⟨rfl, rfl⟩ := last
          refine ⟨b.next, h.next head, .inr ⟨?_, skipNewline_of_pair head'⟩⟩
          rw [rest_next, head']
          rfl
        · have single' : x = .carriageReturn → (rest ++ .lineFeed :: more).head? ≠ some .lineFeed := by
            intro return_
            cases rest with
            | nil => exact absurd ⟨return_, rfl⟩ last
            | cons y rest => exact single return_
          rw [skipNewline_of_single head' single']
          split
          · exact ⟨b.next, h.next head, .inl rfl⟩
          · exact ⟨b, h, .inl rfl⟩
      · simp only [not_forall, ne_eq, Decidable.not_not] at single
        obtain ⟨rfl, feed⟩ := single
        obtain ⟨rest, rfl⟩ : ∃ more, rest = .lineFeed :: more := by
          cases rest with
          | nil => cases feed
          | cons y rest => exact ⟨rest, by simpa using feed⟩
        have second : a.next.rest = .lineFeed :: rest := by
          rw [rest_next, head]
          rfl
        rw [skipNewline_of_pair head, skipNewline_of_pair head']
        exact ⟨_, (h.next head).next second, .inl rfl⟩
    · exact ⟨b, h, .inl rfl⟩

end Cursor.Extends

/-! ## 3. Reads of the first text -/

/-- A part of a directive starts on its line or later. -/
def Task.StartsOn (line : Int) : Task → Prop
  | .intraline anchor | .datums anchor _ => anchor ≤ line
  | _ => True

theorem ReaderState.Untouched.emits {s t : ReaderState} (h : s.Untouched t) (e e' : Event) :
    (s.emit e).Untouched (t.emit e') :=
  ⟨h.foldCase, h.directives⟩

theorem Context.returns_record_untraced {ctx : Context} {d : Directive} {s s' t : ReaderState}
    (kept : (ctx.record d).Returns s () s') (same : s.Untouched t) :
    ∃ t', (ctx.record d).Returns t () t' ∧ s'.Untouched t' := by
  obtain ⟨t', kept', same'⟩ := returns_record_rebase kept same.rebased
  exact ⟨t', by simpa using kept', same'.untouched⟩

theorem Reads.extended {ctx : Context} {task : Task} {a a' w : Cursor} {s s' : ReaderState} {y : Yield}
    {more : Text} (h : Reads ctx task a s y a' s') {b : Cursor} {t : ReaderState}
    (ext : Cursor.Extends w more a b) (same : s.Untouched t)
    (anchored : task.StartsOn b.position.line) :
    ∃ b' t', Cursor.Extends w more a' b' ∧ s'.Untouched t' ∧ Proceeds ctx task b t y b' t' := by
  have ends : Text.AtLineEnd (.lineFeed :: more) := rfl
  -- by induction on the rules. Only a character that is the carriage return at the end of the first
  -- text leaves its line there and not in the joined text; whatever of a directive has left its
  -- line so is at the end of the line instead.
  induction h generalizing b t with
  | code skipped read ih₁ ih₂ =>
    obtain ⟨b₁, t₁, ext₁, same₁, skip⟩ := ih₁ ext same trivial
    obtain ⟨b', t', ext', same', read'⟩ := ih₂ ext₁ same₁ trivial
    -- skipping goes no further in the joined text: a datum starts where it stopped
    have clear : Reads ctx (.atmosphere .code) b₁ t₁ .nothing b₁ t₁ :=
      Reads.clear_of_startsDatum (Reads.startsDatum read')
    exact ⟨b', t', ext', same', .code (skip.atmosphere clear) read'⟩
  | directive _ ih =>
    obtain ⟨b', t', ext', same', read'⟩ := ih ext same trivial
    exact ⟨b', t', ext', same', .directive read'⟩
  | @flat mode c s d size spelled =>
    have bounds := spelled.size
    rw [← same.foldCase] at spelled
    have spelled' : Lexeme.Spells t.foldCase (c.rest ++ .lineFeed :: more) d size :=
      Lexeme.Spells.within (fun _ => ends.atDelimiter)
        (show Lexeme.Spells _ (c.rest ++ []) d size by simpa using spelled) bounds.2
    rw [← ext.right] at spelled'
    exact ⟨_, t, ext.advance bounds.2, same, .flat spelled'⟩
  | list head opener _ ih =>
    obtain ⟨b', t', ext', same', items'⟩ := ih (ext.next head) same trivial
    exact ⟨b', t', ext', same', .list (ext.head head) opener items'⟩
  | @abbreviation mode c s a c₁ s₁ d next s' mark skipped follows read ih₁ ih₂ =>
    have some_mark := (abbreviation?_mark mark).1
    have some_rest : c₁.rest ≠ [] := by
      rintro nothing
      simp [Cursor.atEnd, nothing] at follows
    have positive := List.length_pos_iff.mpr some_rest
    have skip := skipped.length_le
    rw [Cursor.rest_advance, List.length_drop] at skip
    obtain ⟨b₁, t₁, ext₁, same₁, skip'⟩ := ih₁ (ext.advance (by omega)) same trivial
    obtain ⟨b', t', ext', same', read'⟩ := ih₂ ext₁ same₁ trivial
    have mark' : abbreviation? (c.rest ++ .lineFeed :: more) = some a := by
      rw [abbreviation?_congr (y := []) (by omega), List.append_nil]
      exact mark
    rw [← ext.right] at mark'
    rw [← ext₁.follows_eq some_rest] at follows
    exact ⟨b', t', ext', same',
      .abbreviation mark' (skip'.atmosphere (ext₁.clear some_rest skipped)) follows read'⟩
  | vector head _ ih =>
    obtain ⟨b', t', ext', same', read'⟩ := ih (ext.advance (by simp [head])) same trivial
    exact ⟨b', t', ext', same', .vector (ext.head_pair head) read'⟩
  | bytevector head _ bytes ih =>
    obtain ⟨b', t', ext', same', read'⟩ := ih (ext.advance (by simp [head])) same trivial
    exact ⟨b', t', ext', same', .bytevector (ext.head_pair head) read' bytes⟩
  | close skipped head closes ih =>
    obtain ⟨b₁, t₁, ext₁, same₁, skip⟩ := ih ext same trivial
    have clear := ext₁.clear (t := t₁) (by simp [head]) skipped
    exact ⟨_, t₁, ext₁.next head, same₁, .close (skip.atmosphere clear) (ext₁.head head) closes⟩
  | @dot mode closer items c s c₁ s₁ rest c₂ s₂ d next s₃ parts last s' skipped head lone some_item
      skipped₂ follows read others ih₁ ih₂ ih₃ ih₄ =>
    have some_rest : c₂.rest ≠ [] := by
      rintro nothing
      simp [Cursor.atEnd, nothing] at follows
    obtain ⟨b₁, t₁, ext₁, same₁, skip₁⟩ := ih₁ ext same trivial
    obtain ⟨b₂, t₂, ext₂, same₂, skip₂⟩ := ih₂ (ext₁.next head) same₁ trivial
    obtain ⟨b₃, t₃, ext₃, same₃, read'⟩ := ih₃ ext₂ same₂ trivial
    obtain ⟨b', t', ext', same', others'⟩ := ih₄ ext₃ same₃ trivial
    have clear₁ := ext₁.clear (t := t₁) (by simp [head]) skipped
    have clear₂ := ext₂.clear (t := t₂) some_rest skipped₂
    rw [← Text.atDelimiter_append ends] at lone
    rw [← ext₂.follows_eq some_rest] at follows
    exact ⟨b', t', ext', same', .dot (skip₁.atmosphere clear₁) (ext₁.head head) lone some_item
      (skip₂.atmosphere clear₂) follows read' others'⟩
  | item skipped head open_ no_dot _ _ ih₁ ih₂ ih₃ =>
    obtain ⟨b₁, t₁, ext₁, same₁, skip⟩ := ih₁ ext same trivial
    obtain ⟨b₂, t₂, ext₂, same₂, read'⟩ := ih₂ ext₁ same₁ trivial
    obtain ⟨b', t', ext', same', others'⟩ := ih₃ ext₂ same₂ trivial
    have clear := ext₁.clear (t := t₁) (by simp [head]) skipped
    rw [← Text.atDelimiter_append ends] at no_dot
    exact ⟨b', t', ext', same',
      .item (skip.atmosphere clear) (ext₁.head head) open_ no_dot read' others'⟩
  | blank head white _ ih =>
    obtain ⟨b', t', ext', same', others'⟩ := ih (ext.next head) same trivial
    exact ⟨b', t', ext', same',
      ReadM.ContinuesAs.trans (Reader.continues_blank t (ext.head head) white) others'⟩
  | @remark mode c s c₁ s₁ next s' visible skipped _ ih₁ ih₂ =>
    have some_rest := skipped.some_rest
    obtain ⟨b₁, t₁, ext₁, same₁, remark⟩ := ih₁ ext same trivial
    obtain ⟨b', t', ext', same', others'⟩ := ih₂ ext₁ same₁ trivial
    rw [← ext.head?_eq some_rest] at visible
    exact ⟨b', t', ext', same', ReadM.ContinuesAs.trans (remark.remark visible) others'⟩
  | clear => exact ⟨b, t, ext, same, rfl⟩
  | lineComment head =>
    exact ⟨_, t, ext.lineEnd, same, .of_comment (.lineComment (ext.head head))⟩
  | @blockComment mode c s rest size head closed =>
    have bound := Lexeme.blockComment_size closed
    have closed' := Lexeme.blockComment_congr (y := []) (q := c.rest) (by simpa using closed) bound
      (.lineFeed :: more)
    rw [← ext.right] at closed'
    exact ⟨_, t, ext.advance bound, same, .of_comment (.blockComment (ext.head_pair head) closed')⟩
  | datumComment head _ ih =>
    obtain ⟨b', t', ext', same', read'⟩ := ih (ext.advance (by simp [head])) same trivial
    exact ⟨b', t', ext', same', .of_comment (.datumComment (ext.head_pair head) read')⟩
  | @emptyComment c s rest c₁ s₁ head _ ended ih =>
    have here := congrArg Position.line (ext.position_eq (by simp [head]))
    have onward := (b.reaches_advance 2).line_le
    obtain ⟨b', t', ext', same', skipped'⟩ := ih (ext.advance (by simp [head])) same
      (show c.position.line ≤ _ by omega)
    rw [← here] at ended skipped'
    exact ⟨b', t', ext', same', .emptyComment (ext.head_pair head) skipped' (ext'.ended ended)⟩
  | @lineDatumComment c s rest c₁ s₁ d next s' head _ on_line follows _ ih₁ ih₂ =>
    have here := congrArg Position.line (ext.position_eq (by simp [head]))
    have onward := (b.reaches_advance 2).line_le
    obtain ⟨b₁, t₁, ext₁, same₁, skipped'⟩ := ih₁ (ext.advance (by simp [head])) same
      (show c.position.line ≤ _ by omega)
    obtain ⟨b', t', ext', same', read'⟩ := ih₂ ext₁ same₁ trivial
    rw [← here] at on_line skipped'
    rw [← ext₁.position_eq (Cursor.some_rest_of_inside follows)] at on_line
    rw [← ext₁.atLineEnd_eq] at follows
    exact ⟨b', t', ext', same', .lineDatumComment (ext.head_pair head) skipped' on_line follows read'⟩
  | @marker mode c s rest m head found =>
    have bound := (NamedMarker.name_of_detect? found).length_le
    rw [← NamedMarker.detect?_append ends] at found
    have here := ext.position_eq (by simp [head])
    have marked := @Reads.marker ctx mode b t _ m (ext.head_pair head) found
    refine ⟨_, _, ext.advance ?_, ?_, .of_comment marked⟩
    · rw [head, List.length_cons, List.length_cons]
      omega
    · apply ReaderState.Untouched.emits
      split
      · exact ⟨rfl, same.directives⟩
      · exact same
  | @lineDirective c s rest ds last s₁ s' head unnamed starts _ kept ih =>
    have content := ext.position_after_marker head
    obtain ⟨b₁, t₁, ext₁, same₁, scanned'⟩ := ih (ext.advance (by simp [head])) (same.emits _
      (.phase .start .skipping (b.advance 2).position)) (show _ ≤ _ by rw [content])
    obtain ⟨t', kept', same'⟩ := Context.returns_record_untraced kept same₁
    rw [← content] at scanned' kept' ⊢
    rw [← NamedMarker.detect?_append ends] at unnamed
    rw [← startsDirective_append _ ends] at starts
    have remark : Reads ctx (.comment .code) b t .nothing _ t' :=
      .lineDirective (ext.head_pair head) unnamed starts scanned' kept'
    obtain ⟨b', ext', onward⟩ := ext₁.afterDirective (b.advance 2).position.line
    refine ⟨b', t', ext', same', ?_⟩
    have skip := Reader.continues_remark remark.visible_of_comment remark
    rcases onward with here | ⟨feed, beyond⟩
    · rwa [here] at skip
    · -- skipping from the line break goes the same way
      rw [beyond] at skip
      exact skip.trans (Reader.continues_blank t' feed (by decide)).symm
  | intralineBlank head white _ ih =>
    have onward := b.reaches_next.line_le
    obtain ⟨b', t', ext', same', others'⟩ := ih (ext.next head) same
      (Int.le_trans anchored onward)
    exact ⟨b', t', ext', same', .intralineBlank (ext.head head) white others'⟩
  | @intralineComment anchor c s c₁ s₁ next s' visible skipped on_line _ ih₁ ih₂ =>
    have some_rest := skipped.some_rest
    obtain ⟨b₁, t₁, ext₁, same₁, skipped'⟩ := ih₁ ext same trivial
    have stays := ext₁.line_eq (Int.le_trans anchored (Reads.reaches skipped').line_le) on_line
    obtain ⟨b', t', ext', same', others'⟩ := ih₂ ext₁ same₁ (Int.le_of_eq stays.symm)
    rw [← ext.head?_eq some_rest] at visible
    exact ⟨b', t', ext', same', .intralineComment visible skipped' stays others'⟩
  | @crossingComment anchor c s c₁ s₁ visible skipped left ih =>
    have some_rest := skipped.some_rest
    obtain ⟨b₁, t₁, ext₁, same₁, skipped'⟩ := ih ext same trivial
    rw [← ext.head?_eq some_rest] at visible
    refine ⟨b₁, t₁, ext₁, same₁, ?_⟩
    -- the comment may have left the line only by the carriage return at the end of the first text
    by_cases stays : b₁.position.line = anchor
    · have feed := ext₁.feed_of_left left stays
      exact .intralineComment visible skipped' stays (intraline_at_newline ctx anchor t₁ feed rfl).1
    · exact .crossingComment visible skipped' stays
  | @intralineClear anchor c s visible none_starts =>
    refine ⟨b, t, ext, same, ?_⟩
    -- at the end of the first text stands the line break of the joined one
    by_cases nothing : c.rest = []
    · exact (intraline_at_newline ctx anchor t (ext.rest_of_ended nothing) rfl).1
    · rw [← ext.head?_eq nothing] at visible
      rw [← startsComment_append _ nothing ends, ← ext.right] at none_starts
      exact .intralineClear visible none_starts
  | lastDatum _ ended ih =>
    obtain ⟨b₁, t₁, ext₁, same₁, skipped'⟩ := ih ext same anchored
    exact ⟨b₁, _, ext₁, same₁.emits _ _, .lastDatum skipped' (ext₁.ended ended)⟩
  | @crossingDatum anchor before c s c₁ s₁ d next s₂ _ on_line follows _ left allowed ih₁ ih₂ =>
    obtain ⟨b₁, t₁, ext₁, same₁, skipped'⟩ := ih₁ ext same anchored
    obtain ⟨b₂, t₂, ext₂, same₂, read'⟩ := ih₂ ext₁
      (same₁.emits _ (.phase .skipping .readingDatum b₁.position)) trivial
    rw [← ext₁.position_eq (Cursor.some_rest_of_inside follows)] at on_line
    rw [← ext₁.atLineEnd_eq] at follows
    -- if the datum is still on the line there, only the line break is ahead, which ends the directive
    by_cases stays : b₂.position.line = anchor
    · obtain ⟨skipped₂, ended⟩ :=
        intraline_at_newline ctx anchor ((t₂.emit (.datumRead (before.length + 1) b₁.position)).emit
          (.phase .readingDatum .skipping b₂.position)) (ext₂.feed_of_left left stays) rfl
      refine ⟨b₂, _, ext₂, ?_, .lineDatum skipped' on_line follows read' stays
        (.lastDatum skipped₂ (.inr ended))⟩
      exact ((same₂.emits _ _).emits _ _).emits _ _
    · refine ⟨b₂, _, ext₂, ?_, .crossingDatum skipped' on_line follows read' stays allowed⟩
      exact ((same₂.emits _ _).emits _ _).emits _ _
  | @lineDatum anchor before c s c₁ s₁ d next s₂ ds last s' _ on_line follows _ stays _ ih₁ ih₂ ih₃ =>
    obtain ⟨b₁, t₁, ext₁, same₁, skipped'⟩ := ih₁ ext same anchored
    obtain ⟨b₂, t₂, ext₂, same₂, read'⟩ := ih₂ ext₁
      (same₁.emits _ (.phase .skipping .readingDatum b₁.position)) trivial
    have here := congrArg Position.line (ext₁.position_eq (Cursor.some_rest_of_inside follows))
    have onward := (Reads.reaches read').line_le
    have stays' : b₂.position.line = anchor := ext₂.line_eq (by omega) stays
    obtain ⟨b', t', ext', same', others'⟩ := ih₃ ext₂
      ((same₂.emits _ (.datumRead (before.length + 1) b₁.position)).emits _
        (.phase .readingDatum .skipping b₂.position)) (Int.le_of_eq stays'.symm)
    rw [← here] at on_line
    rw [← ext₁.atLineEnd_eq] at follows
    exact ⟨b', t', ext', same', .lineDatum skipped' on_line follows read' stays' others'⟩

/-- A read of the whole first text goes on with the second one. -/
theorem ReadsAll.extended {ctx : Context} {a b w : Cursor} {s s' t : ReaderState}
    {forms : Session.Forms} {more : Text} (h : ReadsAll ctx a s forms s')
    (succeeds : forms.failure = none) (ext : Cursor.Extends w more a b) (same : s.Untouched t) :
    ∃ c t', w.Reaches c ∧ c.rest = more ∧ s'.Untouched t' ∧
      ∀ others u, ReadsAll ctx c t' others u → ∃ joined : Session.Forms, ReadsAll ctx b t joined u ∧
        joined.data = forms.data ++ others.data ∧ joined.failure = others.failure := by
  induction h generalizing b t with
  | ended skipped nothing =>
    obtain ⟨b₁, t₁, ext₁, same₁, skip⟩ := skipped.extended ext same trivial
    have feed := ext₁.rest_of_ended nothing
    refine ⟨b₁.next, t₁, ext₁.ahead.trans b₁.reaches_next, ?_, same₁, ?_⟩
    · rw [Cursor.rest_next, feed]
      rfl
    · intro others u reads
      have onward := ReadM.ContinuesAs.trans skip (Reader.continues_blank t₁ feed (by decide))
      exact ⟨others, reads.of_continues onward, rfl, rfl⟩
  | skipFails | datumFails => cases succeeds
  | datum skipped some_rest read _ ih =>
    obtain ⟨b₁, t₁, ext₁, same₁, skip⟩ := skipped.extended ext same trivial
    obtain ⟨b₂, t₂, ext₂, same₂, read'⟩ := read.extended ext₁ same₁ trivial
    obtain ⟨c, t', ahead, rest, same', onward⟩ := ih succeeds ext₂ same₂
    refine ⟨c, t', ahead, rest, same', ?_⟩
    intro others u reads
    obtain ⟨joined, reads', data, failure⟩ := onward others u reads
    have some_rest' : b₁.rest ≠ [] := by simp [ext₁.right]
    refine ⟨_, (ReadsAll.datum (ext₁.clear some_rest skipped) some_rest' read' reads').of_continues
      skip, ?_, failure⟩
    exact congrArg (_ :: ·) data

/-! ## 4. The place of the second text -/

def Text.lineBreaks (t : Text) : Nat := t.lines.length - 1

theorem Cursor.line_advance {c : Cursor} {q rest : Text} (head : c.rest = q ++ rest)
    (whole : q.getLast? = some .carriageReturn → rest.head? ≠ some .lineFeed) :
    (c.advance q.length).position.line + 1 = c.position.line + q.lines.length := by
  -- by the recursion that splits a text into lines: every break moves the line number by one
  fun_induction Text.lines q generalizing c with
  | case1 => rfl
  | case2 q ih =>
    have first := line_next_of_pair head
    have second : c.next.rest = .lineFeed :: (q ++ rest) := by
      rw [rest_next, head]
      rfl
    have moved := line_next_of_newline second (by rfl) nofun
    have counted := ih (c := c.next.next) (by rw [rest_next, second]; rfl) (by
      intro last
      exact whole (by rw [List.getLast?_cons_cons, List.getLast?_cons, last]; rfl))
    rw [List.length_cons, List.length_cons, advance_succ, advance_succ, List.length_cons]
    omega
  | case3 x q no_pair newline ih =>
    have single : x = .carriageReturn → (q ++ rest).head? ≠ some .lineFeed := by
      rintro rfl feed
      cases q with
      | nil => exact whole rfl feed
      | cons y q => exact no_pair q rfl (by simpa using feed)
    have moved := line_next_of_newline head newline single
    have counted := ih (c := c.next) (by rw [rest_next, head]; rfl) (by
      intro last
      exact whole (by rw [List.getLast?_cons, last]; rfl))
    rw [List.length_cons, List.length_cons, advance_succ]
    omega
  | case4 x q no_pair inside line lines split ih =>
    have stays := line_next_of_inside head (by simpa using inside)
    have counted := ih (c := c.next) (by rw [rest_next, head]; rfl) (by
      intro last
      exact whole (by rw [List.getLast?_cons, last]; rfl))
    rw [split] at counted
    rw [List.length_cons, advance_succ]
    simp only [List.length_cons] at counted ⊢
    omega
  | case5 x q no_pair inside split ih => exact absurd split (Text.lines_ne_nil q)

/-- Where a text starts that stands after another one and a line break. -/
def Text.placeAfter (t : Text) : Position where
  line := 1 + Text.lineBreaks (t ++ [.lineFeed])
  column := 0
  offset := t.length + 1

theorem Text.rebase_placeAfter (t : Text) (p : Position) :
    t.placeAfter.rebase p =
      ⟨p.line + Text.lineBreaks (t ++ [.lineFeed]), p.column, p.offset + (t.length + 1)⟩ := by
  simp only [Position.rebase, Position.rebaseLine, placeAfter, Position.mk.injEq]
  refine ⟨by omega, ?_, by omega⟩
  split <;> omega

theorem Cause.rebase_placeAfter (t : Text) (cause : Cause) :
    (cause.rebase t.placeAfter).kind = cause.kind ∧
      (cause.rebase t.placeAfter = cause ∨ ∃ line, cause = .crossesLine line ∧
        cause.rebase t.placeAfter = .crossesLine (line + Text.lineBreaks (t ++ [.lineFeed]))) := by
  cases cause with
  | crossesLine line =>
    refine ⟨rfl, .inr ⟨line, rfl, ?_⟩⟩
    simp only [rebase, Position.rebaseLine, Text.placeAfter, crossesLine.injEq]
    omega
  | _ => exact ⟨rfl, .inl rfl⟩

theorem Cursor.position_after_line (t more : Text) :
    ((ofText (t ++ .lineFeed :: more)).advance (t.length + 1)).position = t.placeAfter := by
  have text : (ofText (t ++ .lineFeed :: more)).rest = (t ++ [.lineFeed]) ++ more := by
    simp [ofText]
  have size : (t ++ [CodePoint.lineFeed]).length = t.length + 1 := by simp
  have line := line_advance text (by simp)
  have some_line := List.length_pos_iff.mpr (Text.lines_ne_nil (t ++ [.lineFeed]))
  have offset := (ofText (t ++ .lineFeed :: more)).offset_advance (t.length + 1)
  have feed : ((ofText (t ++ .lineFeed :: more)).advance t.length).rest = .lineFeed :: more := by
    simp [ofText]
  have column : ((ofText (t ++ .lineFeed :: more)).advance (t.length + 1)).position.column = 0 := by
    rw [advance_add, advance_one, next, feed]
    simp [Position.after]
  rw [size] at line
  rw [text, List.length_append, size, Nat.min_eq_left (Nat.le_add_right _ _)] at offset
  generalize (ofText (t ++ .lineFeed :: more)).advance (t.length + 1) = c at line offset column
  obtain ⟨_, ⟨l, k, o⟩⟩ := c
  change l + 1 = 1 + ((t ++ [CodePoint.lineFeed]).lines.length : Int) at line
  change o = 0 + ((t.length + 1 : Nat) : Int) at offset
  simp only [Text.placeAfter, Text.lineBreaks, Position.mk.injEq]
  exact ⟨by omega, column, by omega⟩

/-! ## 5. The joined text -/

@[simp] theorem Session.Forms.data_rebase (origin : Position) (f : Session.Forms) :
    (f.rebase origin).data = f.data := by
  unfold data rebase
  rw [List.filterMap_map]
  congr 1
  funext ⟨item, p⟩
  cases item <;> rfl

namespace Session

theorem registry_next (s : Session) : s.next.2.registry = s.registry := by
  unfold next
  split <;> rfl

theorem registry_formsFor (wanted : Bool) (rounds : Nat) (limit : Option Nat) (s : Session) :
    (formsFor wanted rounds limit s).2.registry = s.registry := by
  have kept {s s' : Session} {r : Except Failure Item} (h : s.next = (r, s')) :
      s'.registry = s.registry := by
    have := s.registry_next
    rwa [h] at this
  induction rounds, limit, s using formsFor.induct wanted with
  | case1 | case2 => rfl
  | case3 rounds limit s _ failure s₁ failed =>
    simp only [formsFor, failed]
    exact kept failed
  | case4 rounds limit s _ s₁ found =>
    simp only [formsFor, found]
    exact kept found
  | case5 rounds limit s _ d s₁ found ih =>
    simp only [formsFor, found]
    exact (ih s₁).trans (kept found)
  | case6 rounds limit s _ d s₁ found wants ih =>
    simp only [formsFor, found, if_pos wants]
    exact (ih s₁).trans (kept found)
  | case7 rounds limit s _ d s₁ found unwanted _ ih =>
    simp only [formsFor, found, if_neg unwanted]
    exact ih.trans (kept found)

theorem log_forms (s : Session) :
    s.forms.2.log = s.forms.2.state.directives.map fun d => (d, s.registry.find? d) := by
  unfold log forms
  rw [registry_formsFor]

/-- Where a text is read to its end, the text with a line break and another text after it is read as
the two one after the other. The second text is read as by a session that starts with the case folding
that the first one has left; its directives and its failure, if there is one, lie further down by the
lines and code points of the first text. So does the line number in the complaint that a datum leaves
its line, and the complaint is the same otherwise. -/
theorem forms_of_joined (name : Option Text) (first second : Text) (policy : Policy)
    (registry : Registry) (foldCase : Bool) {s₁ s₂ s : Session}
    (of_first : s₁ = (Source.mk first name).sessionWith policy registry foldCase)
    (of_second : s₂ = (Source.mk second name).sessionWith policy registry s₁.forms.2.state.foldCase)
    (of_joined : s = (Source.mk (first ++ .lineFeed :: second) name).sessionWith policy registry
      foldCase)
    (succeeds : s₁.forms.1.failure = none) :
    s.forms.1.data = s₁.forms.1.data ++ s₂.forms.1.data ∧
    s.forms.1.failure = s₂.forms.1.failure.map (·.rebase first.placeAfter) ∧
    s.forms.2.log = s₁.forms.2.log ++
      s₂.forms.2.log.map (fun entry => (entry.1.rebase first.placeAfter, entry.2)) ∧
    s.forms.2.state.foldCase = s₂.forms.2.state.foldCase ∧
    (∀ p, first.placeAfter.rebase p =
      ⟨p.line + Text.lineBreaks (first ++ [.lineFeed]), p.column, p.offset + (first.length + 1)⟩) ∧
    ∀ cause : Cause, (cause.rebase first.placeAfter).kind = cause.kind ∧
      (cause.rebase first.placeAfter = cause ∨ ∃ line, cause = .crossesLine line ∧
        cause.rebase first.placeAfter =
          .crossesLine (line + Text.lineBreaks (first ++ [.lineFeed]))) := by
  have inside (t : Text) : 1 ≤ (Cursor.ofText t).position.line := Int.le_refl 1
  have cursor₁ : s₁.cursor = .ofText first := by rw [of_first]; rfl
  have cursor₂ : s₂.cursor = .ofText second := by rw [of_second]; rfl
  have cursor : s.cursor = .ofText (first ++ .lineFeed :: second) := by rw [of_joined]; rfl
  obtain ⟨t₁, same₁, reads₁⟩ := readsAll_forms (s := s₁) (by rw [cursor₁]; exact inside _)
  obtain ⟨t₂, same₂, reads₂⟩ := readsAll_forms (s := s₂) (by rw [cursor₂]; exact inside _)
  obtain ⟨t, same, reads⟩ := readsAll_forms (s := s) (by rw [cursor]; exact inside _)
  have context₁ : s₁.context = s.context := by rw [of_first, of_joined]; rfl
  have context₂ : s₂.context = s.context := by rw [of_second, of_joined]; rfl
  rw [cursor₁, context₁] at reads₁
  rw [cursor₂, context₂] at reads₂
  rw [cursor] at reads
  -- the first text, up to the start of the second
  have start : Cursor.Extends (.ofText (first ++ .lineFeed :: second)) second (.ofText first)
      (.ofText (first ++ .lineFeed :: second)) := by
    have both := Cursor.Abreast.start [] (.lineFeed :: second) first
    rw [List.append_nil] at both
    exact ⟨both, .refl _, Int.le_refl 1⟩
  have fresh : s₁.state.Untouched s.state := by rw [of_first, of_joined]; exact ⟨rfl, rfl⟩
  obtain ⟨c, t', ahead, rest, same', onward⟩ := reads₁.extended succeeds start fresh
  have place : c = (Cursor.ofText second).rebase first.placeAfter := by
    have here := ahead.eq_of_length (Cursor.reaches_advance _ (first.length + 1))
      (by simp [rest, Cursor.ofText])
    have position := Cursor.position_after_line first second
    rw [← here] at position
    obtain ⟨text, p⟩ := c
    obtain rfl : text = second := rest
    obtain rfl : p = first.placeAfter := position
    show (⟨text, first.placeAfter⟩ : Cursor) = ⟨text, first.placeAfter.rebase .start⟩
    rw [Position.rebase_of_start]
  -- the second text, from there on
  have moved : ReaderState.Rebased first.placeAfter t'.directives s₂.state t' := by
    refine ⟨?_, ?_⟩
    · rw [same'.foldCase, same₁.foldCase, of_second]
      rfl
    · rw [of_second]
      exact (List.append_nil _).symm
  obtain ⟨u, reads₂', moved'⟩ := reads₂.rebase (inside _) moved
  rw [← place] at reads₂'
  obtain ⟨joined, reads', data, failure⟩ := onward _ u reads₂'
  obtain ⟨whole, rfl⟩ := reads.unique reads'
  refine ⟨?_, ?_, ?_, ?_, first.rebase_placeAfter, Cause.rebase_placeAfter first⟩
  · rw [whole, data, Forms.data_rebase]
  · rw [whole, failure]
    rfl
  · have registry₁ : s₁.registry = s.registry := by rw [of_first, of_joined]; rfl
    have registry₂ : s₂.registry = s.registry := by rw [of_second, of_joined]; rfl
    rw [log_forms, log_forms, log_forms, ← same.directives, moved'.directives, same'.directives,
      same₁.directives, same₂.directives, registry₁, registry₂, List.map_append, List.map_map,
      List.map_map]
    rfl
  · rw [← same.foldCase, moved'.foldCase, same₂.foldCase]

/-- The first text ends with a carriage return in a directive and switches case folding on; the second
fails in its second line. -/
theorem forms_of_joined_return :
    ∃ s₁ s₂ s : Session, s₁ = (Source.mk "#!fold-case A #! b\r" none).sessionWith {} .standard false ∧
      s₂ = (Source.mk "C #! d\n)" none).sessionWith {} .standard true ∧
      s = (Source.mk "#!fold-case A #! b\r\nC #! d\n)" none).sessionWith {} .standard false ∧
      s.forms.1.data.map Datum.write = [.ok "a", .ok "c"] ∧ s.forms.1.failure.isSome = true ∧
      s.forms.1.data = s₁.forms.1.data ++ s₂.forms.1.data ∧
      s.forms.1.failure = s₂.forms.1.failure.map
        (·.rebase (Text.placeAfter "#!fold-case A #! b\r")) := by
  have folds : ((Source.mk "#!fold-case A #! b\r" none).sessionWith {} .standard
      false).forms.2.state.foldCase = true := by decide +kernel
  obtain ⟨data, failure, -⟩ := forms_of_joined none "#!fold-case A #! b\r" "C #! d\n)" {} .standard false
    rfl rfl rfl (by decide +kernel)
  have joined : ("#!fold-case A #! b\r" : Text) ++ .lineFeed :: ("C #! d\n)" : Text) =
      "#!fold-case A #! b\r\nC #! d\n)" := by decide +kernel
  rw [folds, joined] at data failure
  exact ⟨_, _, _, rfl, rfl, rfl, by decide +kernel, by decide +kernel, data, failure⟩

end Session

end LineDirective
