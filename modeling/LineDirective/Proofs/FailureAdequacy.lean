import LineDirective.Proofs.Adequacy
import LineDirective.Proofs.Failures

/-!
# The rules describe how the reader fails

The operations of the namespace `Reader` fail exactly as the rules of `Fails` say, as they succeed
exactly as those of `Reads` say. Soundness goes by induction on the depth of a grammar and on the
rounds of its loops, completeness by induction on the rules, with the bounds of the module
`Adequacy`.
-/

namespace LineDirective

/-! ## 1. Soundness -/

/-- Whatever a grammar does from cursors with fewer than `n` code points left is derivable. -/
structure Grammar.FaithfulBelow (ctx : Context) (g : Grammar) (n : Nat) : Prop
    extends g.SoundBelow ctx n where
  datumFails : ∀ {opened mode c s e s'}, c.rest.length < n →
    (g.readDatum mode c).Raises s e s' → Fails ctx opened (.datum mode) c s e s'
  commentFails : ∀ {opened mode c s e s'}, c.rest.length < n →
    (g.skipComment mode c).Raises s e s' → Fails ctx opened (.comment mode) c s e s'

section Soundness

variable {ctx : Context} {g : Grammar} {n : Nat} {opened : Position} {e : Failure}

theorem skipAtmosphereFor_fails {skip : Cursor → ReadM (Option Cursor)} {mode : Mode}
    (sound : ∀ {c s r s'}, c.rest.length ≤ n → (skip c).Returns s r s' → Skips ctx mode c s r s')
    (fails : ∀ {c s e s'}, c.rest.length ≤ n → (skip c).Raises s e s' →
      Fails ctx opened (.comment mode) c s e s')
    {rounds : Nat} {c : Cursor} {s s' : ReaderState} (fits : c.rest.length ≤ n)
    (enough : c.rest.length < rounds) (h : (skipAtmosphereFor skip rounds c).Raises s e s') :
    Fails ctx opened (.atmosphere mode) c s e s' := by
  induction rounds generalizing c s with
  | zero => omega
  | succ rounds ih =>
    unfold skipAtmosphereFor at h
    split at h
    · rename_i white
      obtain ⟨x, rest, head, blank⟩ := exists_cons_of_head?_any white
      have shorter := Cursor.length_next_lt head
      exact .blank head blank (ih (by omega) (by omega) h)
    · rename_i visible
      rcases ReadM.raises_bind.mp h with failed | ⟨r, s₁, skipped, h⟩
      · exact .remarkSkip (by simpa using visible) (fails fits failed)
      · have answer := sound fits skipped
        cases r with
        | none => exact absurd h (by simp)
        | some c₁ =>
          have shorter := answer.length_lt rfl
          exact .remark (by simpa using visible) answer (ih (by omega) (by omega) h)

theorem skipIntralineFor_fails {skip : Cursor → ReadM (Option Cursor)}
    (sound : ∀ {c s r s'}, c.rest.length ≤ n → (skip c).Returns s r s' →
      Skips ctx .directive c s r s')
    (fails : ∀ {c s e s'}, c.rest.length ≤ n → (skip c).Raises s e s' →
      Fails ctx opened (.comment .directive) c s e s')
    {anchor : Int} {rounds : Nat} {c : Cursor} {s s' : ReaderState} (fits : c.rest.length ≤ n)
    (enough : c.rest.length < rounds)
    (h : (skipIntralineFor skip anchor rounds c).Raises s e s') :
    Fails ctx opened (.intraline anchor) c s e s' := by
  induction rounds generalizing c s with
  | zero => omega
  | succ rounds ih =>
    unfold skipIntralineFor at h
    split at h
    · rename_i white
      obtain ⟨x, rest, head, blank⟩ := exists_cons_of_head?_any white
      have shorter := Cursor.length_next_lt head
      exact .intralineBlank head blank (ih (by omega) (by omega) h)
    · rename_i visible
      rcases ReadM.raises_bind.mp h with failed | ⟨r, s₁, skipped, h⟩
      · exact .intralineSkip (by simpa using visible) (fails fits failed)
      · have answer := sound fits skipped
        cases r with
        | none => exact absurd h (by simp)
        | some c₁ =>
          have shorter := answer.length_lt rfl
          simp only at h
          split at h
          · exact absurd h (by simp)
          · rename_i stays
            exact .intralineComment (by simpa using visible) answer (by simpa using stays)
              (ih (by omega) (by omega) h)

theorem skipIntralineBy_fails (faithful : g.FaithfulBelow ctx n) {anchor : Int} {c : Cursor}
    {s s' : ReaderState} (fits : c.rest.length < n)
    (h : (skipIntralineBy (g.skipComment .directive) anchor c).Raises s e s') :
    Fails ctx opened (.intraline anchor) c s e s' :=
  skipIntralineFor_fails (n := c.rest.length) (fun shorter => faithful.comment (by omega))
    (fun shorter => faithful.commentFails (by omega)) (Nat.le_refl _) (Nat.lt_succ_self _) h

/-- What the handler makes of a failure of a directive's datum. -/
theorem raises_handled {cause : Failure} {p : Position} {t s' : ReaderState} :
    ((do
      match cause with
      | .diagnosed _ => ReadM.emit (.phase .readingDatum .error p)
      | .fault _ => pure ()
      throw cause : ReadM (Datum × Cursor))).Raises t e s' ↔
      e = cause ∧ s' = cause.reported p t := by
  cases cause with
  | diagnosed error => simp [Failure.reported]
  | fault fault => simp [Failure.reported]

/-- The datum of a directive fails with the grammar, or because it leaves the line; a complaint is
reported before it is passed on. -/
theorem raises_readDirectiveDatum {anchor : Int} {c : Cursor} {s s' : ReaderState} :
    (readDirectiveDatum ctx g anchor c).Raises s e s' ↔
      (∃ s₁, (g.readDatum .directive c).Raises s e s₁ ∧ s' = e.reported c.position s₁) ∨
      ∃ d next s₁, (g.readDatum .directive c).Returns s (d, next) s₁ ∧
        next.position.line ≠ anchor ∧ ctx.policy.lineCrossing = .error ∧
        e = ctx.complaint (.crossesLine next.position.line) c.position ∧
        s' = s₁.emit (.phase .readingDatum .error c.position) := by
  unfold readDirectiveDatum
  simp only
  rw [ReadM.raises_tryCatch]
  constructor
  · rintro ⟨cause, t, failed, passed⟩
    obtain ⟨rfl, rfl⟩ := raises_handled.mp passed
    rcases ReadM.raises_bind.mp failed with failed | ⟨⟨d, next⟩, s₁, read, h⟩
    · exact .inl ⟨t, failed, rfl⟩
    · simp only at h
      split at h
      · rename_i left
        split at h
        · rename_i policy
          have refused : e = ctx.complaint (.crossesLine next.position.line) c.position ∧ t = s₁ := by
            simpa using h
          obtain ⟨rfl, rfl⟩ := refused
          exact .inr ⟨d, next, t, read, left, policy, rfl, rfl⟩
        · simp at h
      · simp at h
  · rintro (⟨s₁, failed, rfl⟩ | ⟨d, next, s₁, read, left, policy, rfl, rfl⟩)
    · exact ⟨e, s₁, ReadM.raises_bind.mpr (.inl failed), raises_handled.mpr ⟨rfl, rfl⟩⟩
    · refine ⟨_, s₁, ReadM.raises_bind.mpr (.inr ⟨_, _, read, ?_⟩), raises_handled.mpr ⟨rfl, rfl⟩⟩
      simp [left, policy]

theorem scanDatumsFor_fails (faithful : g.FaithfulBelow ctx n) {anchor : Int} {rounds : Nat}
    {before : List Datum} {c : Cursor} {s s' : ReaderState} (fits : c.rest.length < n)
    (enough : c.rest.length < rounds)
    (h : (scanDatumsFor ctx g anchor rounds before c).Raises s e s') :
    Fails ctx opened (.datums anchor before) c s e s' := by
  induction rounds generalizing before c s with
  | zero => omega
  | succ rounds ih =>
    unfold scanDatumsFor at h
    rcases ReadM.raises_bind.mp h with failed | ⟨c₁, s₁, returned, h⟩
    · exact .datumsSkip (skipIntralineBy_fails faithful fits failed)
    · have skipped := skipIntralineBy_sound faithful.toSoundBelow fits returned
      have ahead := skipped.length_le
      split at h
      · exact absurd h (by simp)
      · rename_i inside
        simp only [ne_eq, not_or, Classical.not_not, Bool.not_eq_true] at inside
        rcases ReadM.raises_bind.mp h with failed | ⟨u, s₂, reported, h⟩
        · exact absurd failed (by simp)
        · obtain rfl := ReadM.returns_emit.mp reported
          rcases ReadM.raises_bind.mp h with failed | ⟨⟨d, next⟩, s₃, checked, h⟩
          · rcases raises_readDirectiveDatum.mp failed with
              ⟨s₂, unread, rfl⟩ | ⟨d, next, s₂, returned, left, policy, rfl, rfl⟩
            · exact .lineDatumRead skipped inside.1 inside.2 (faithful.datumFails (by omega) unread)
            · exact .crossingDatum skipped inside.1 inside.2 (faithful.datum (by omega) returned) left
                policy
          · obtain ⟨s₄, returned, crossing⟩ := returns_readDirectiveDatum.mp checked
            have read := faithful.datum (by omega) returned
            have shorter := read.length_lt rfl
            simp only [List.length_append, List.length_singleton] at h
            rcases ReadM.raises_bind.mp h with failed | ⟨u, s₅, reported, h⟩
            · exact absurd failed (by simp)
            · obtain rfl := ReadM.returns_emit.mp reported
              rcases crossing with ⟨stays, rfl⟩ | ⟨left, policy, rfl⟩
              · rw [if_neg (by simpa using stays)] at h
                rcases ReadM.raises_bind.mp h with failed | ⟨u, s₆, reported, h⟩
                · exact absurd failed (by simp)
                · obtain rfl := ReadM.returns_emit.mp reported
                  exact .lineDatum skipped inside.1 inside.2 read stays
                    (ih (by omega) (by omega) h)
              -- once the policy has let the datum leave the line nothing can fail any more
              · rw [if_pos left] at h
                exact absurd h (by simp)

/-- The scan of a directive fails where the reading of its data does. -/
theorem raises_scanDirectiveBy {c : Cursor} {s s' : ReaderState} :
    (scanDirectiveBy ctx g c).Raises s e s' ↔
      (scanDatumsFor ctx g c.position.line (c.rest.length + 1) [] c).Raises
        (s.emit (.phase .start .skipping c.position)) e s' := by
  unfold scanDirectiveBy
  simp

theorem skipDatumComment_fails (faithful : g.FaithfulBelow ctx n) {mode : Mode} {c : Cursor}
    {rest : Text} {s s' : ReaderState} (fits : c.rest.length ≤ n)
    (head : c.rest = .scalar '#' :: .scalar ';' :: rest)
    (h : (skipDatumComment g mode c).Raises s e s') :
    Fails ctx opened (.comment mode) c s e s' := by
  have shorter := Cursor.length_advance_lt (c := c) (n := 2) (by omega) (by simp [head])
  unfold skipDatumComment at h
  cases mode with
  | code =>
    rcases ReadM.raises_bind.mp h with failed | ⟨r, s₁, read, h⟩
    · exact .datumComment head (faithful.datumFails (by omega) failed)
    · exact absurd h (by simp)
  | directive =>
    rcases ReadM.raises_bind.mp h with failed | ⟨c₁, s₁, returned, h⟩
    · exact .lineDatumSkip head (skipIntralineBy_fails faithful (by omega) failed)
    · have skipped := skipIntralineBy_sound faithful.toSoundBelow (by omega) returned
      have ahead := skipped.length_le
      split at h
      · exact absurd h (by simp)
      · rename_i inside
        simp only [ne_eq, not_or, Classical.not_not, Bool.not_eq_true] at inside
        rcases ReadM.raises_bind.mp h with failed | ⟨r, s₂, read, h⟩
        · exact .lineDatumComment head skipped inside.1 inside.2
            (faithful.datumFails (by omega) failed)
        · exact absurd h (by simp)

theorem skipMarker_fails (faithful : g.FaithfulBelow ctx n) {mode : Mode} {c : Cursor}
    {rest : Text} {s s' : ReaderState} (fits : c.rest.length ≤ n)
    (head : c.rest = .scalar '#' :: .scalar '!' :: rest)
    (h : (skipMarker ctx g mode c).Raises s e s') : Fails ctx opened (.comment mode) c s e s' := by
  have shorter := Cursor.length_advance_lt (c := c) (n := 2) (by omega) (by simp [head])
  have after : (c.advance 2).rest = rest := by rw [Cursor.rest_advance, head]; rfl
  unfold skipMarker at h
  simp only [after] at h
  split at h
  · split at h <;> exact absurd h (by simp)
  · rename_i unnamed
    split at h
    · rename_i starts
      obtain ⟨rfl, starts⟩ := starts
      rcases ReadM.raises_bind.mp h with failed | ⟨⟨d, next⟩, s₁, returned, h⟩
      · exact .lineDirective head unnamed starts
          (scanDatumsFor_fails faithful (by omega) (Nat.lt_succ_self _)
            (raises_scanDirectiveBy.mp failed))
      · obtain ⟨ds, last, scanned, rfl, rfl⟩ := returns_scanDirectiveBy.mp returned
        rcases ReadM.raises_bind.mp h with failed | ⟨u, s₂, kept, h⟩
        · exact .unrecorded head unnamed starts
            (scanDatumsFor_sound faithful.toSoundBelow (by omega) (Nat.lt_succ_self _) scanned)
            failed
        · exact absurd h (by simp)
    · exact absurd h (by simp)

theorem skipCommentBy_fails (faithful : g.FaithfulBelow ctx n) {mode : Mode} {c : Cursor}
    {s s' : ReaderState} (fits : c.rest.length ≤ n)
    (h : (skipCommentBy ctx g mode c).Raises s e s') :
    Fails ctx opened (.comment mode) c s e s' := by
  unfold skipCommentBy at h
  split at h
  · exact absurd h (by simp)
  · rename_i head
    have failed := ReadM.raises_map.mp h
    unfold skipBlockComment at failed
    split at failed
    · exact absurd failed (by simp)
    · rename_i depth endless
      obtain ⟨rfl, rfl⟩ := Context.raises_fail.mp failed
      exact .blockComment head endless
  · rename_i head
    exact skipDatumComment_fails faithful fits head (ReadM.raises_map.mp h)
  · rename_i head
    exact skipMarker_fails faithful fits head h
  · exact absurd h (by simp)

theorem skipAtmosphereBy_fails (faithful : g.FaithfulBelow ctx n) {mode : Mode} {c : Cursor}
    {s s' : ReaderState} (fits : c.rest.length ≤ n)
    (h : (skipAtmosphereBy (skipCommentBy ctx g mode) c).Raises s e s') :
    Fails ctx opened (.atmosphere mode) c s e s' :=
  skipAtmosphereFor_fails (fun shorter => skipCommentBy_sound faithful.toSoundBelow shorter)
    (fun shorter => skipCommentBy_fails faithful shorter) fits (Nat.lt_succ_self _) h

theorem readItemsFor_fails (faithful : g.FaithfulBelow ctx n) {mode : Mode} {closer : CodePoint}
    {rounds : Nat} {read : ListParts} {c : Cursor} {s s' : ReaderState} (fits : c.rest.length < n)
    (enough : c.rest.length < rounds)
    (h : (readItemsFor ctx g mode opened closer rounds read c).Raises s e s') :
    Fails ctx opened (.items mode closer read) c s e s' := by
  induction rounds generalizing read c s with
  | zero => omega
  | succ rounds ih =>
    obtain ⟨items, tail⟩ := read
    unfold readItemsFor at h
    rcases ReadM.raises_bind.mp h with failed | ⟨c₁, s₁, returned, found⟩
    · exact .itemsSkip (skipAtmosphereBy_fails faithful (by omega) failed)
    · have skipped := skipAtmosphereBy_sound faithful.toSoundBelow (by omega) returned
      have ahead := skipped.length_le
      clear h returned
      -- the branches of the round in their order: the end, a closing bracket, a datum after the tail, a
      -- dot, another item
      split at found
      · rename_i nothing
        obtain ⟨rfl, rfl⟩ := Context.raises_fail.mp found
        exact .unterminated skipped nothing
      · rename_i x rest head
        split at found
        · rename_i closes
          split at found
          · rename_i other
            obtain ⟨rfl, rfl⟩ := Context.raises_fail.mp found
            exact .wrongCloser skipped head closes other
          · exact absurd found (by simp)
        · rename_i open_
          have open_ : isCloser x = false := by simpa using open_
          split at found
          · rename_i some_tail
            obtain ⟨d, rfl⟩ := Option.isSome_iff_exists.mp some_tail
            obtain ⟨rfl, rfl⟩ := Context.raises_fail.mp found
            exact .afterTail skipped head open_
          · rename_i no_tail
            obtain rfl : tail = none := by simpa using no_tail
            split at found
            · rename_i dot
              obtain ⟨rfl, lone⟩ := dot
              split at found
              · rename_i no_item
                obtain rfl : items = [] := by simpa using no_item
                obtain ⟨rfl, rfl⟩ := Context.raises_fail.mp found
                exact .leadingDot skipped head lone
              · rename_i some_item
                have some_item : items ≠ [] := by simpa using some_item
                have nearer := Cursor.length_next_lt head
                rcases ReadM.raises_bind.mp found with failed | ⟨c₂, s₂, returned, more⟩
                · exact .dotSkip skipped head lone some_item
                    (skipAtmosphereBy_fails faithful (by omega) failed)
                · have skipped₂ := skipAtmosphereBy_sound faithful.toSoundBelow (by omega) returned
                  have ahead₂ := skipped₂.length_le
                  split at more
                  · rename_i nothing
                    obtain ⟨rfl, rfl⟩ := Context.raises_fail.mp more
                    exact .missingTail skipped head lone some_item skipped₂ nothing
                  · rename_i follows
                    have follows : (c₂.atEnd || c₂.atCloser) = false := by simpa using follows
                    rcases ReadM.raises_bind.mp more with failed | ⟨⟨d, next⟩, s₃, read, others⟩
                    · exact .tail skipped head lone some_item skipped₂ follows
                        (faithful.datumFails (by omega) failed)
                    · have datum := faithful.datum (by omega) read
                      have shorter := datum.length_lt rfl
                      exact .dot skipped head lone some_item skipped₂ follows datum
                        (ih (by omega) (by omega) others)
            · rename_i no_dot
              rcases ReadM.raises_bind.mp found with failed | ⟨⟨d, next⟩, s₂, read, others⟩
              · exact .itemDatum skipped head open_ no_dot (faithful.datumFails (by omega) failed)
              · have datum := faithful.datum (by omega) read
                have shorter := datum.length_lt rfl
                exact .item skipped head open_ no_dot datum (ih (by omega) (by omega) others)

/-- The list is blamed on the place of its bracket. -/
theorem readListBy_fails (faithful : g.FaithfulBelow ctx n) {mode : Mode} {c : Cursor}
    {x : CodePoint} {rest : Text} {s s' : ReaderState} (fits : c.rest.length ≤ n)
    (head : c.rest = x :: rest) (h : (readListBy ctx g mode c).Raises s e s') :
    Fails ctx c.position (.items mode (closerOf x) ([], none)) c.next s e s' := by
  have shorter := Cursor.length_next_lt head
  rw [readListBy_of_head head] at h
  exact readItemsFor_fails faithful (by omega) (by omega) h

theorem readAbbreviationBy_fails (faithful : g.FaithfulBelow ctx n) {mode : Mode}
    {a : Abbreviation} {c : Cursor} {s s' : ReaderState} (fits : c.rest.length ≤ n)
    (mark : abbreviation? c.rest = some a)
    (h : (readAbbreviationBy ctx g mode a c).Raises s e s') :
    Fails ctx opened (.here mode) c s e s' := by
  obtain ⟨some_mark, some_rest⟩ := abbreviation?_mark mark
  have shorter := Cursor.length_advance_lt some_mark some_rest
  unfold readAbbreviationBy at h
  rcases ReadM.raises_bind.mp h with failed | ⟨c₁, s₁, returned, h⟩
  · exact .abbreviationSkip mark (skipAtmosphereBy_fails faithful (by omega) failed)
  · have skipped := skipAtmosphereBy_sound faithful.toSoundBelow (by omega) returned
    have ahead := skipped.length_le
    split at h
    · rename_i nothing
      obtain ⟨rfl, rfl⟩ := Context.raises_fail.mp h
      exact .missingAbbreviated mark skipped nothing
    · rename_i follows
      rcases ReadM.raises_bind.mp h with failed | ⟨r, s₂, read, h⟩
      · exact .abbreviation mark skipped (by simpa using follows)
          (faithful.datumFails (by omega) failed)
      · exact absurd h (by simp)

theorem readVectorBy_fails (faithful : g.FaithfulBelow ctx n) {mode : Mode} {c : Cursor}
    {rest : Text} {s s' : ReaderState} (fits : c.rest.length ≤ n)
    (head : c.rest = .scalar '#' :: .scalar '(' :: rest)
    (h : (readVectorBy ctx g mode c).Raises s e s') : Fails ctx opened (.here mode) c s e s' := by
  have bracket : (c.advance 1).rest = .scalar '(' :: rest := by rw [Cursor.rest_advance, head]; rfl
  have shorter := (c.reaches_advance 1).length_le
  have inside : (c.advance 1).next = c.advance 2 := by
    rw [← Cursor.advance_one, ← Cursor.advance_add]
  unfold readVectorBy at h
  rcases ReadM.raises_bind.mp h with failed | ⟨⟨parts, last⟩, s₁, returned, found⟩
  · have items := readListBy_fails faithful (by omega) bracket failed
    rw [inside] at items
    exact .vector head items
  · have items := readListBy_sound faithful.toSoundBelow (by omega) bracket returned
    rw [inside] at items
    obtain ⟨read, tail⟩ := parts
    cases tail with
    | none => exact absurd found (by simp)
    | some tail =>
      obtain ⟨rfl, rfl⟩ := Context.raises_fail.mp found
      exact .dottedVector head items

theorem readBytevectorBy_fails (faithful : g.FaithfulBelow ctx n) {mode : Mode} {c : Cursor}
    {rest : Text} {s s' : ReaderState} (fits : c.rest.length ≤ n)
    (head : c.rest = .scalar '#' :: .scalar 'u' :: .scalar '8' :: .scalar '(' :: rest)
    (h : (readBytevectorBy ctx g mode c).Raises s e s') :
    Fails ctx opened (.here mode) c s e s' := by
  have bracket : (c.advance 3).rest = .scalar '(' :: rest := by rw [Cursor.rest_advance, head]; rfl
  have shorter := (c.reaches_advance 3).length_le
  have inside : (c.advance 3).next = c.advance 4 := by
    rw [← Cursor.advance_one, ← Cursor.advance_add]
  unfold readBytevectorBy at h
  rcases ReadM.raises_bind.mp h with failed | ⟨⟨parts, last⟩, s₁, returned, found⟩
  · have items := readListBy_fails faithful (by omega) bracket failed
    rw [inside] at items
    exact .bytevector head items
  · have items := readListBy_sound faithful.toSoundBelow (by omega) bracket returned
    rw [inside] at items
    obtain ⟨read, tail⟩ := parts
    cases tail with
    | none =>
      simp only at found
      split at found
      · exact absurd found (by simp)
      · rename_i bad
        obtain ⟨rfl, rfl⟩ := Context.raises_fail.mp found
        exact .badBytevector head items (.inr bad)
    | some tail =>
      obtain ⟨rfl, rfl⟩ := Context.raises_fail.mp found
      exact .badBytevector head items (.inl rfl)

theorem readHashBy_fails (faithful : g.FaithfulBelow ctx n) {mode : Mode} {c : Cursor}
    {rest : Text} {s s' : ReaderState} (fits : c.rest.length ≤ n)
    (head : c.rest = .scalar '#' :: rest) (h : (readHashBy ctx g mode c).Raises s e s') :
    Fails ctx opened (.here mode) c s e s' := by
  unfold readHashBy at h
  split at h
  · rename_i same
    exact readVectorBy_fails faithful fits same h
  · rename_i same
    exact readBytevectorBy_fails faithful fits same h
  · rename_i same
    rcases ReadM.raises_bind.mp h with failed | ⟨r, s₁, got, more⟩
    · exact absurd failed (by simp)
    · obtain ⟨rfl, rfl⟩ := ReadM.returns_get.mp got
      rcases ReadM.raises_bind.mp more with failed | ⟨⟨x, last⟩, s₂, returned, done⟩
      · obtain ⟨f, misspelled, rfl, rfl⟩ := Context.raises_lexeme.mp failed
        exact .refused (.lexeme (.character same misspelled))
      · exact absurd done (by simp)
  · rename_i same
    split at h
    · rename_i starts
      obtain ⟨rfl, rfl⟩ := Context.raises_fail.mp h
      exact .refused (.nested starts.1 starts.2)
    · rename_i declined
      obtain ⟨rfl, rfl⟩ := Context.raises_fail.mp h
      exact .refused (.marker same declined)
  · rename_i no_vector no_bytes no_character no_marker
    obtain ⟨f, misspelled, rfl, rfl⟩ := Context.raises_lexeme.mp h
    refine .refused (.lexeme (.hash ?_ misspelled))
    unfold Lexeme.startsHashToken
    split
    · rename_i same; exact absurd same (no_vector _)
    · rename_i same; exact absurd same (no_bytes _)
    · rename_i same; exact absurd same (no_character _)
    · rename_i same; exact absurd same (no_marker _)
    · rfl
    · rename_i no_hash
      exact absurd head (no_hash _)

theorem readDatumHereBy_fails (faithful : g.FaithfulBelow ctx n) {mode : Mode} {c : Cursor}
    {s s' : ReaderState} (fits : c.rest.length ≤ n)
    (h : (readDatumHereBy ctx g mode c).Raises s e s') :
    Fails ctx opened (.here mode) c s e s' := by
  unfold readDatumHereBy at h
  split at h
  · rename_i nothing
    obtain ⟨rfl, rfl⟩ := Context.raises_fail.mp h
    exact .refused (.ended nothing)
  · rename_i x rest head
    split at h
    · rename_i opener
      rcases ReadM.raises_bind.mp h with failed | ⟨r, s₁, returned, h⟩
      · exact .list head opener (readListBy_fails faithful fits head failed)
      · exact absurd h (by simp)
    · rename_i opener
      split at h
      · rename_i closes
        obtain ⟨rfl, rfl⟩ := Context.raises_fail.mp h
        exact .refused (.closer head closes)
      · rename_i closer
        split at h
        · rename_i quote
          rcases ReadM.raises_bind.mp h with failed | ⟨r, s₁, returned, h⟩
          · obtain ⟨f, misspelled, rfl, rfl⟩ := Context.raises_lexeme.mp failed
            exact .refused (.lexeme (.string (by simp [head, quote]) misspelled))
          · exact absurd h (by simp)
        · rename_i quote
          split at h
          · rename_i bar
            rcases ReadM.raises_bind.mp h with failed | ⟨r, s₁, returned, h⟩
            · obtain ⟨f, misspelled, rfl, rfl⟩ := Context.raises_lexeme.mp failed
              exact .refused (.lexeme (.symbol (by simp [head, bar]) misspelled))
            · exact absurd h (by simp)
          · rename_i bar
            split at h
            · rename_i a mark
              exact readAbbreviationBy_fails faithful fits mark h
            · rename_i plain
              split at h
              · rename_i hash
                exact readHashBy_fails faithful fits (by rw [head, hash]) h
              · rename_i hash
                rcases ReadM.raises_bind.mp h with failed | ⟨r, s₁, got, h⟩
                · exact absurd failed (by simp)
                · obtain ⟨rfl, rfl⟩ := ReadM.returns_get.mp got
                  obtain ⟨f, misspelled, rfl, rfl⟩ := Context.raises_lexeme.mp h
                  refine .refused (.lexeme (.atom ?_ misspelled))
                  rw [head] at plain ⊢
                  exact startsAtom_of_plain opener (by simpa using closer) quote bar plain hash

theorem readDatumBy_fails (faithful : g.FaithfulBelow ctx n) {mode : Mode} {c : Cursor}
    {s s' : ReaderState} (fits : c.rest.length ≤ n)
    (h : (readDatumBy ctx g mode c).Raises s e s') : Fails ctx opened (.datum mode) c s e s' := by
  unfold readDatumBy at h
  cases mode with
  | code =>
    rcases ReadM.raises_bind.mp h with failed | ⟨c₁, s₁, returned, h⟩
    · exact .codeSkip (skipAtmosphereBy_fails faithful fits failed)
    · have skipped := skipAtmosphereBy_sound faithful.toSoundBelow fits returned
      have ahead := skipped.length_le
      exact .code skipped (readDatumHereBy_fails faithful (by omega) h)
  | directive => exact .directive (readDatumHereBy_fails faithful fits h)

theorem grammarAt_faithful (ctx : Context) (depth : Nat) :
    (grammarAt ctx depth).FaithfulBelow ctx depth := by
  induction depth with
  | zero => exact ⟨grammarAt_sound ctx 0, fun short => by omega, fun short => by omega⟩
  | succ depth ih =>
    exact ⟨grammarAt_sound ctx (depth + 1), fun short h => readDatumBy_fails ih (by omega) h,
      fun short h => skipCommentBy_fails ih (by omega) h⟩

end Soundness

/-! ## 2. Completeness -/

/-- A part of the reader fails as given, at every depth and for every number of rounds that exceed
what is left to read. -/
def Raised (ctx : Context) (opened : Position) :
    Task → Cursor → ReaderState → Failure → ReaderState → Prop
  | .datum mode, c, s, e, s' => ∀ depth, c.rest.length ≤ depth →
    (readDatumBy ctx (grammarAt ctx depth) mode c).Raises s e s'
  | .here mode, c, s, e, s' => ∀ depth, c.rest.length ≤ depth →
    (readDatumHereBy ctx (grammarAt ctx depth) mode c).Raises s e s'
  | .items mode closer read, c, s, e, s' => ∀ depth rounds,
    c.rest.length < depth → c.rest.length < rounds →
    (readItemsFor ctx (grammarAt ctx depth) mode opened closer rounds read c).Raises s e s'
  | .atmosphere mode, c, s, e, s' => ∀ depth rounds,
    c.rest.length ≤ depth → c.rest.length < rounds →
    (skipAtmosphereFor (skipCommentBy ctx (grammarAt ctx depth) mode) rounds c).Raises s e s'
  | .comment mode, c, s, e, s' => ∀ depth, c.rest.length ≤ depth →
    (skipCommentBy ctx (grammarAt ctx depth) mode c).Raises s e s'
  | .intraline anchor, c, s, e, s' => ∀ depth rounds,
    c.rest.length < depth → c.rest.length < rounds →
    (skipIntralineFor ((grammarAt ctx depth).skipComment .directive) anchor rounds c).Raises s e s'
  | .datums anchor before, c, s, e, s' => ∀ depth rounds,
    c.rest.length < depth → c.rest.length < rounds →
    (scanDatumsFor ctx (grammarAt ctx depth) anchor rounds before c).Raises s e s'

section Completeness

variable {ctx : Context} {g : Grammar} {mode : Mode} {c : Cursor} {opened : Position} {e : Failure}
  {s s' : ReaderState}

theorem atDirective_iff {policy : WhitespacePolicy} :
    atDirective policy c = true ↔
      ∃ rest, c.rest = .scalar '#' :: .scalar '!' :: rest ∧ startsDirective policy rest = true := by
  unfold atDirective
  split
  · rename_i rest head
    constructor
    · intro starts
      exact ⟨rest, head, starts⟩
    · rintro ⟨rest', same, starts⟩
      rw [head] at same
      cases same
      exact starts
  · rename_i other
    constructor
    · intro h
      cases h
    · rintro ⟨rest, head, -⟩
      exact absurd head (other rest)

/-- Where nothing starts that could be read the reader complains. -/
theorem readDatumHereBy_of_refuses (h : Refuses ctx mode s.foldCase c e) :
    (readDatumHereBy ctx g mode c).Raises s e s := by
  cases h with
  | ended nothing =>
    unfold readDatumHereBy
    simp only [nothing]
    exact Context.raises_fail.mpr ⟨rfl, rfl⟩
  | @closer x rest head closes =>
    have which : x = .scalar ')' ∨ x = .scalar ']' := by simpa [isCloser] using closes
    have no_opener : ¬ (x = .scalar '(' ∨ x = .scalar '[') := by
      rcases which with rfl | rfl <;> decide
    unfold readDatumHereBy
    simp only [head]
    rw [if_neg no_opener, if_pos closes]
    exact Context.raises_fail.mpr ⟨rfl, rfl⟩
  | lexeme misspelled =>
    cases misspelled with
    | string opened failed =>
      rw [readDatumHereBy_of_quote opened]
      exact ReadM.raises_bind.mpr (.inl (Context.raises_lexeme.mpr ⟨_, failed, rfl, rfl⟩))
    | symbol opened failed =>
      rw [readDatumHereBy_of_bar opened]
      exact ReadM.raises_bind.mpr (.inl (Context.raises_lexeme.mpr ⟨_, failed, rfl, rfl⟩))
    | character opened failed =>
      rw [readDatumHereBy_of_hash opened, readHashBy_of_character opened]
      refine ReadM.raises_bind.mpr (.inr ⟨s, s, ReadM.returns_get.mpr ⟨rfl, rfl⟩, ?_⟩)
      exact ReadM.raises_bind.mpr (.inl (Context.raises_lexeme.mpr ⟨_, failed, rfl, rfl⟩))
    | hash opened failed =>
      obtain ⟨more, marked⟩ := Lexeme.head_of_startsHashToken opened
      rw [readDatumHereBy_of_hash marked, readHashBy_of_hashToken opened]
      exact Context.raises_lexeme.mpr ⟨_, failed, rfl, rfl⟩
    | atom opened failed =>
      rw [readDatumHereBy_of_atom opened]
      refine ReadM.raises_bind.mpr (.inr ⟨s, s, ReadM.returns_get.mpr ⟨rfl, rfl⟩, ?_⟩)
      exact Context.raises_lexeme.mpr ⟨_, failed, rfl, rfl⟩
  | nested inside starts =>
    obtain ⟨rest, head, -⟩ := atDirective_iff.mp starts
    rw [readDatumHereBy_of_hash head]
    unfold readHashBy
    simp only [head]
    rw [if_pos ⟨inside, starts⟩]
    exact Context.raises_fail.mpr ⟨rfl, rfl⟩
  | marker head declined =>
    rw [readDatumHereBy_of_hash head]
    unfold readHashBy
    simp only [head]
    rw [if_neg declined]
    exact Context.raises_fail.mpr ⟨rfl, rfl⟩

theorem Raised.readDatum {depth : Nat} (h : Raised ctx opened (.datum mode) c s e s')
    (deep : c.rest.length < depth) : ((grammarAt ctx depth).readDatum mode c).Raises s e s' := by
  cases depth with
  | zero => omega
  | succ depth => exact h depth (by omega)

theorem Raised.skipComment {depth : Nat} (h : Raised ctx opened (.comment mode) c s e s')
    (deep : c.rest.length < depth) : ((grammarAt ctx depth).skipComment mode c).Raises s e s' := by
  cases depth with
  | zero => omega
  | succ depth => exact h depth (by omega)

theorem Raised.skipAtmosphere {depth : Nat} (h : Raised ctx opened (.atmosphere mode) c s e s')
    (deep : c.rest.length ≤ depth) :
    (skipAtmosphereBy (skipCommentBy ctx (grammarAt ctx depth) mode) c).Raises s e s' :=
  h depth _ deep (Nat.lt_succ_self _)

theorem Raised.skipIntraline {depth : Nat} {anchor : Int}
    (h : Raised ctx opened (.intraline anchor) c s e s') (deep : c.rest.length < depth) :
    (skipIntralineBy ((grammarAt ctx depth).skipComment .directive) anchor c).Raises s e s' :=
  h depth _ deep (Nat.lt_succ_self _)

/-- Every derivable failure is raised. -/
theorem Fails.raised {task : Task} (h : Fails ctx opened task c s e s') :
    Raised ctx opened task c s e s' := by
  induction h with
  -- as for successful reads, each part starts where less is left to read
  | codeSkip skip ih =>
    intro depth deep
    exact ReadM.raises_bind.mpr (.inl (ih.skipAtmosphere deep))
  | code skipped here ih =>
    intro depth deep
    have ahead := skipped.length_le
    exact ReadM.raises_bind.mpr
      (.inr ⟨_, _, skipped.returned.skipAtmosphere deep, ih depth (by omega)⟩)
  | directive here ih =>
    intro depth deep
    exact ih depth deep
  | refused refuses =>
    intro depth deep
    exact readDatumHereBy_of_refuses refuses
  | list head opener items ih =>
    intro depth deep
    have shorter := Cursor.length_next_lt head
    rw [readDatumHereBy_of_opener head opener]
    exact ReadM.raises_bind.mpr (.inl (ih depth _ (by omega) (by omega)))
  | abbreviationSkip mark skip ih =>
    intro depth deep
    obtain ⟨some_mark, some_rest⟩ := abbreviation?_mark mark
    have shorter := Cursor.length_advance_lt some_mark some_rest
    rw [readDatumHereBy_of_mark mark]
    exact ReadM.raises_bind.mpr (.inl (ih.skipAtmosphere (by omega)))
  | missingAbbreviated mark skipped nothing =>
    intro depth deep
    obtain ⟨some_mark, some_rest⟩ := abbreviation?_mark mark
    have shorter := Cursor.length_advance_lt some_mark some_rest
    rw [readDatumHereBy_of_mark mark]
    refine ReadM.raises_bind.mpr (.inr ⟨_, _, skipped.returned.skipAtmosphere (by omega), ?_⟩)
    rw [if_pos nothing]
    exact Context.raises_fail.mpr ⟨rfl, rfl⟩
  | abbreviation mark skipped follows read ih =>
    intro depth deep
    obtain ⟨some_mark, some_rest⟩ := abbreviation?_mark mark
    have shorter := Cursor.length_advance_lt some_mark some_rest
    have ahead := skipped.length_le
    rw [readDatumHereBy_of_mark mark]
    refine ReadM.raises_bind.mpr (.inr ⟨_, _, skipped.returned.skipAtmosphere (by omega), ?_⟩)
    rw [if_neg (by simpa using follows)]
    exact ReadM.raises_bind.mpr (.inl (ih.readDatum (by omega)))
  | @vector opened mode c s rest e s' head items ih =>
    intro depth deep
    have shorter := Cursor.length_advance_lt (c := c) (n := 2) (by omega) (by simp [head])
    -- the list is read from its bracket, one character before its first item
    have inside : (c.advance 2).rest.length ≤ (c.advance 1).rest.length :=
      c.length_advance_succ_le 1
    rw [readDatumHereBy_of_vector head, readVectorBy, readListBy_of_mark (k := 1) (by rw [head]; rfl)]
    exact ReadM.raises_bind.mpr (.inl (ih depth _ (by omega) (by omega)))
  | @dottedVector opened mode c s rest items tail next s' head read =>
    intro depth deep
    have shorter := Cursor.length_advance_lt (c := c) (n := 2) (by omega) (by simp [head])
    have inside : (c.advance 2).rest.length ≤ (c.advance 1).rest.length :=
      c.length_advance_succ_le 1
    rw [readDatumHereBy_of_vector head, readVectorBy, readListBy_of_mark (k := 1) (by rw [head]; rfl)]
    refine ReadM.raises_bind.mpr (.inr ⟨_, _, read.returned depth _ _ (by omega) (by omega), ?_⟩)
    exact Context.raises_fail.mpr ⟨rfl, rfl⟩
  | @bytevector opened mode c s rest e s' head items ih =>
    intro depth deep
    have shorter := Cursor.length_advance_lt (c := c) (n := 4) (by omega) (by simp [head])
    have inside : (c.advance 4).rest.length ≤ (c.advance 3).rest.length :=
      c.length_advance_succ_le 3
    rw [readDatumHereBy_of_bytevector head, readBytevectorBy,
      readListBy_of_mark (k := 3) (by rw [head]; rfl)]
    exact ReadM.raises_bind.mpr (.inl (ih depth _ (by omega) (by omega)))
  | @badBytevector opened mode c s rest parts next s' head read bad =>
    intro depth deep
    have shorter := Cursor.length_advance_lt (c := c) (n := 4) (by omega) (by simp [head])
    have inside : (c.advance 4).rest.length ≤ (c.advance 3).rest.length :=
      c.length_advance_succ_le 3
    rw [readDatumHereBy_of_bytevector head, readBytevectorBy,
      readListBy_of_mark (k := 3) (by rw [head]; rfl)]
    refine ReadM.raises_bind.mpr (.inr ⟨_, _, read.returned depth _ _ (by omega) (by omega), ?_⟩)
    obtain ⟨items, tail⟩ := parts
    cases tail with
    | some tail => exact Context.raises_fail.mpr ⟨rfl, rfl⟩
    | none =>
      have bad : items.mapM byte? = none := by simpa using bad
      simp only [bad]
      exact Context.raises_fail.mpr ⟨rfl, rfl⟩
  | @itemsSkip opened mode closer parts c s e s' skip ih =>
    intro depth rounds deep enough
    obtain ⟨items, tail⟩ := parts
    -- there are more rounds than code points left, so at least one of them is there to be used up
    obtain ⟨rounds, rfl⟩ : ∃ k, rounds = k + 1 := ⟨rounds - 1, by omega⟩
    exact ReadM.raises_bind.mpr (.inl (ih.skipAtmosphere (by omega)))
  | @unterminated opened mode closer parts c s c₁ s₁ skipped nothing =>
    intro depth rounds deep enough
    obtain ⟨items, tail⟩ := parts
    obtain ⟨rounds, rfl⟩ : ∃ k, rounds = k + 1 := ⟨rounds - 1, by omega⟩
    refine ReadM.raises_bind.mpr (.inr ⟨_, _, skipped.returned.skipAtmosphere (by omega), ?_⟩)
    simp only [nothing]
    exact Context.raises_fail.mpr ⟨rfl, rfl⟩
  | @wrongCloser opened mode closer parts c s c₁ s₁ x rest skipped head closes other =>
    intro depth rounds deep enough
    obtain ⟨items, tail⟩ := parts
    obtain ⟨rounds, rfl⟩ : ∃ k, rounds = k + 1 := ⟨rounds - 1, by omega⟩
    refine ReadM.raises_bind.mpr (.inr ⟨_, _, skipped.returned.skipAtmosphere (by omega), ?_⟩)
    simp only [head]
    rw [if_pos closes, if_pos other]
    exact Context.raises_fail.mpr ⟨rfl, rfl⟩
  | afterTail skipped head open_ =>
    intro depth rounds deep enough
    obtain ⟨rounds, rfl⟩ : ∃ k, rounds = k + 1 := ⟨rounds - 1, by omega⟩
    refine ReadM.raises_bind.mpr (.inr ⟨_, _, skipped.returned.skipAtmosphere (by omega), ?_⟩)
    simp only [head]
    rw [if_neg (by simp [open_]), if_pos (by rfl)]
    exact Context.raises_fail.mpr ⟨rfl, rfl⟩
  | leadingDot skipped head lone =>
    intro depth rounds deep enough
    obtain ⟨rounds, rfl⟩ : ∃ k, rounds = k + 1 := ⟨rounds - 1, by omega⟩
    refine ReadM.raises_bind.mpr (.inr ⟨_, _, skipped.returned.skipAtmosphere (by omega), ?_⟩)
    simp only [head, lone, isCloser]
    rw [if_neg (by decide), if_neg (by simp), if_pos (by simp), if_pos (by rfl)]
    exact Context.raises_fail.mpr ⟨rfl, rfl⟩
  | dotSkip skipped head lone some_item skip ih =>
    intro depth rounds deep enough
    obtain ⟨rounds, rfl⟩ : ∃ k, rounds = k + 1 := ⟨rounds - 1, by omega⟩
    have ahead := skipped.length_le
    have nearer := Cursor.length_next_lt head
    refine (readItemsFor_at_dot (skipped.returned.skipAtmosphere (by omega)) head lone
      some_item).raises ?_
    exact ReadM.raises_bind.mpr (.inl (ih.skipAtmosphere (by omega)))
  | missingTail skipped head lone some_item skipped₂ nothing =>
    intro depth rounds deep enough
    obtain ⟨rounds, rfl⟩ : ∃ k, rounds = k + 1 := ⟨rounds - 1, by omega⟩
    have ahead := skipped.length_le
    have nearer := Cursor.length_next_lt head
    refine (readItemsFor_at_dot (skipped.returned.skipAtmosphere (by omega)) head lone
      some_item).raises ?_
    refine ReadM.raises_bind.mpr (.inr ⟨_, _, skipped₂.returned.skipAtmosphere (by omega), ?_⟩)
    rw [if_pos nothing]
    exact Context.raises_fail.mpr ⟨rfl, rfl⟩
  | tail skipped head lone some_item skipped₂ follows read ih =>
    intro depth rounds deep enough
    obtain ⟨rounds, rfl⟩ : ∃ k, rounds = k + 1 := ⟨rounds - 1, by omega⟩
    have ahead := skipped.length_le
    have nearer := Cursor.length_next_lt head
    have ahead₂ := skipped₂.length_le
    refine (readItemsFor_at_dot (skipped.returned.skipAtmosphere (by omega)) head lone
      some_item).raises ?_
    refine ReadM.raises_bind.mpr (.inr ⟨_, _, skipped₂.returned.skipAtmosphere (by omega), ?_⟩)
    rw [if_neg (by simpa using follows)]
    exact ReadM.raises_bind.mpr (.inl (ih.readDatum (by omega)))
  | dot skipped head lone some_item skipped₂ follows read others ih =>
    intro depth rounds deep enough
    obtain ⟨rounds, rfl⟩ : ∃ k, rounds = k + 1 := ⟨rounds - 1, by omega⟩
    have ahead := skipped.length_le
    have nearer := Cursor.length_next_lt head
    have ahead₂ := skipped₂.length_le
    have shorter := read.length_lt rfl
    refine (readItemsFor_at_dot (skipped.returned.skipAtmosphere (by omega)) head lone
      some_item).raises ?_
    refine ReadM.raises_bind.mpr (.inr ⟨_, _, skipped₂.returned.skipAtmosphere (by omega), ?_⟩)
    rw [if_neg (by simpa using follows)]
    refine ReadM.raises_bind.mpr (.inr ⟨_, _, read.returned.readDatum (by omega), ?_⟩)
    exact ih depth rounds (by omega) (by omega)
  | itemDatum skipped head open_ no_dot read ih =>
    intro depth rounds deep enough
    obtain ⟨rounds, rfl⟩ : ∃ k, rounds = k + 1 := ⟨rounds - 1, by omega⟩
    have ahead := skipped.length_le
    refine (readItemsFor_at_item (skipped.returned.skipAtmosphere (by omega)) head open_
      no_dot).raises ?_
    exact ReadM.raises_bind.mpr (.inl (ih.readDatum (by omega)))
  | item skipped head open_ no_dot read others ih =>
    intro depth rounds deep enough
    obtain ⟨rounds, rfl⟩ : ∃ k, rounds = k + 1 := ⟨rounds - 1, by omega⟩
    have ahead := skipped.length_le
    have shorter := read.length_lt rfl
    refine (readItemsFor_at_item (skipped.returned.skipAtmosphere (by omega)) head open_
      no_dot).raises ?_
    refine ReadM.raises_bind.mpr (.inr ⟨_, _, read.returned.readDatum (by omega), ?_⟩)
    exact ih depth rounds (by omega) (by omega)
  | blank head white others ih =>
    intro depth rounds deep enough
    obtain ⟨rounds, rfl⟩ : ∃ k, rounds = k + 1 := ⟨rounds - 1, by omega⟩
    have shorter := Cursor.length_next_lt head
    unfold skipAtmosphereFor
    rw [if_pos (by simp [head, white])]
    exact ih depth rounds (by omega) (by omega)
  | remarkSkip visible skip ih =>
    intro depth rounds deep enough
    obtain ⟨rounds, rfl⟩ : ∃ k, rounds = k + 1 := ⟨rounds - 1, by omega⟩
    unfold skipAtmosphereFor
    rw [if_neg (by simp [visible])]
    exact ReadM.raises_bind.mpr (.inl (ih depth deep))
  | remark visible skipped others ih =>
    intro depth rounds deep enough
    obtain ⟨rounds, rfl⟩ : ∃ k, rounds = k + 1 := ⟨rounds - 1, by omega⟩
    have shorter := skipped.length_lt rfl
    unfold skipAtmosphereFor
    rw [if_neg (by simp [visible])]
    refine ReadM.raises_bind.mpr (.inr ⟨_, _, skipped.returned depth deep, ?_⟩)
    exact ih depth rounds (by omega) (by omega)
  | blockComment head endless =>
    intro depth deep
    unfold skipCommentBy skipBlockComment
    simp only [head]
    rw [← head, endless]
    exact ReadM.raises_map.mpr (Context.raises_fail.mpr ⟨rfl, rfl⟩)
  | @datumComment opened c s rest e s' head read ih =>
    intro depth deep
    have shorter := Cursor.length_advance_lt (c := c) (n := 2) (by omega) (by simp [head])
    rw [skipCommentBy_of_datumComment head]
    exact ReadM.raises_map.mpr (ReadM.raises_bind.mpr (.inl (ih.readDatum (by omega))))
  | @lineDatumSkip opened c s rest e s' head skip ih =>
    intro depth deep
    have shorter := Cursor.length_advance_lt (c := c) (n := 2) (by omega) (by simp [head])
    rw [skipCommentBy_of_datumComment head]
    exact ReadM.raises_map.mpr (ReadM.raises_bind.mpr (.inl (ih.skipIntraline (by omega))))
  | @lineDatumComment opened c s rest c₁ s₁ e s' head skipped same follows read ih =>
    intro depth deep
    have shorter := Cursor.length_advance_lt (c := c) (n := 2) (by omega) (by simp [head])
    have ahead := skipped.length_le
    rw [skipCommentBy_of_datumComment head]
    refine ReadM.raises_map.mpr ((skipDatumComment_at_datum
      (skipped.returned.skipIntraline (by omega)) same follows).raises ?_)
    exact ReadM.raises_bind.mpr (.inl (ih.readDatum (by omega)))
  | @lineDirective opened c s rest e s' head unnamed starts scan ih =>
    intro depth deep
    have shorter := Cursor.length_advance_lt (c := c) (n := 2) (by omega) (by simp [head])
    rw [skipCommentBy_of_directive head unnamed starts]
    exact ReadM.raises_bind.mpr
      (.inl (raises_scanDirectiveBy.mpr (ih depth _ (by omega) (Nat.lt_succ_self _))))
  | @unrecorded opened c s rest ds last s₁ e s' head unnamed starts scanned failed =>
    intro depth deep
    have shorter := Cursor.length_advance_lt (c := c) (n := 2) (by omega) (by simp [head])
    rw [skipCommentBy_of_directive head unnamed starts]
    refine ReadM.raises_bind.mpr (.inr ⟨_, s₁, returns_scanDirectiveBy.mpr
      ⟨ds, last, scanned.returned depth _ (by omega) (Nat.lt_succ_self _), rfl, rfl⟩, ?_⟩)
    -- the scan has come to its end; what fails is the sink
    exact ReadM.raises_bind.mpr (.inl failed)
  | intralineBlank head white others ih =>
    intro depth rounds deep enough
    obtain ⟨rounds, rfl⟩ : ∃ k, rounds = k + 1 := ⟨rounds - 1, by omega⟩
    have shorter := Cursor.length_next_lt head
    unfold skipIntralineFor
    rw [if_pos (by simp [head, white])]
    exact ih depth rounds (by omega) (by omega)
  | intralineSkip visible skip ih =>
    intro depth rounds deep enough
    obtain ⟨rounds, rfl⟩ : ∃ k, rounds = k + 1 := ⟨rounds - 1, by omega⟩
    unfold skipIntralineFor
    rw [if_neg (by simp [visible])]
    exact ReadM.raises_bind.mpr (.inl (ih.skipComment deep))
  | intralineComment visible skipped same others ih =>
    intro depth rounds deep enough
    obtain ⟨rounds, rfl⟩ : ∃ k, rounds = k + 1 := ⟨rounds - 1, by omega⟩
    have shorter := skipped.length_lt rfl
    unfold skipIntralineFor
    rw [if_neg (by simp [visible])]
    refine ReadM.raises_bind.mpr (.inr ⟨_, _, skipped.returned.skipComment deep, ?_⟩)
    simp only
    rw [if_neg (by simp [same])]
    exact ih depth rounds (by omega) (by omega)
  | datumsSkip skip ih =>
    intro depth rounds deep enough
    obtain ⟨rounds, rfl⟩ : ∃ k, rounds = k + 1 := ⟨rounds - 1, by omega⟩
    exact ReadM.raises_bind.mpr (.inl (ih.skipIntraline deep))
  | lineDatumRead skipped same follows read ih =>
    intro depth rounds deep enough
    obtain ⟨rounds, rfl⟩ : ∃ k, rounds = k + 1 := ⟨rounds - 1, by omega⟩
    have ahead := skipped.length_le
    refine (scanDatumsFor_at_datum (skipped.returned.skipIntraline deep) same follows).raises ?_
    exact ReadM.raises_bind.mpr
      (.inl (raises_readDirectiveDatum.mpr (.inl ⟨_, ih.readDatum (by omega), rfl⟩)))
  | crossingDatum skipped same follows read left refused =>
    intro depth rounds deep enough
    obtain ⟨rounds, rfl⟩ : ∃ k, rounds = k + 1 := ⟨rounds - 1, by omega⟩
    have ahead := skipped.length_le
    refine (scanDatumsFor_at_datum (skipped.returned.skipIntraline deep) same follows).raises ?_
    exact ReadM.raises_bind.mpr (.inl (raises_readDirectiveDatum.mpr
      (.inr ⟨_, _, _, read.returned.readDatum (by omega), left, refused, rfl, rfl⟩)))
  | lineDatum skipped same follows read stays others ih =>
    intro depth rounds deep enough
    obtain ⟨rounds, rfl⟩ : ∃ k, rounds = k + 1 := ⟨rounds - 1, by omega⟩
    have ahead := skipped.length_le
    have shorter := read.length_lt rfl
    refine (scanDatumsFor_at_datum (skipped.returned.skipIntraline deep) same follows).raises ?_
    refine ReadM.raises_bind.mpr (.inr ⟨_, _, returns_readDirectiveDatum.mpr
      ⟨_, read.returned.readDatum (by omega), .inl ⟨stays, rfl⟩⟩, ?_⟩)
    simp only [List.length_append, List.length_singleton]
    refine ReadM.raises_bind.mpr (.inr ⟨(), _, ReadM.returns_emit.mpr rfl, ?_⟩)
    rw [if_neg (by simp [stays])]
    refine ReadM.raises_bind.mpr (.inr ⟨(), _, ReadM.returns_emit.mpr rfl, ?_⟩)
    exact ih depth rounds (by omega) (by omega)

end Completeness

/-! ## 3. The reader's operations -/

namespace Reader

variable {ctx : Context} {mode : Mode} {c : Cursor} {s s' : ReaderState} {e : Failure}

theorem raises_readDatum (opened : Position) :
    (readDatum ctx mode c).Raises s e s' ↔ Fails ctx opened (.datum mode) c s e s' :=
  ⟨(grammarAt_faithful ctx _).datumFails (Nat.lt_succ_self _),
    fun h => h.raised.readDatum (Nat.lt_succ_self _)⟩

theorem raises_skipComment (opened : Position) :
    (skipComment ctx mode c).Raises s e s' ↔ Fails ctx opened (.comment mode) c s e s' :=
  ⟨(grammarAt_faithful ctx _).commentFails (Nat.lt_succ_self _),
    fun h => h.raised.skipComment (Nat.lt_succ_self _)⟩

theorem raises_skipIntraline (opened : Position) {anchor : Int} :
    (skipIntraline ctx anchor c).Raises s e s' ↔ Fails ctx opened (.intraline anchor) c s e s' :=
  ⟨skipIntralineBy_fails (grammarAt_faithful ctx _) (Nat.lt_succ_self _),
    fun h => h.raised.skipIntraline (Nat.lt_succ_self _)⟩

theorem raises_skipAtmosphere (opened : Position) :
    (skipAtmosphere ctx mode c).Raises s e s' ↔ Fails ctx opened (.atmosphere mode) c s e s' :=
  ⟨skipAtmosphereBy_fails (grammarAt_faithful ctx _) (Nat.le_refl _),
    fun h => h.raised.skipAtmosphere (Nat.le_refl _)⟩

theorem returns_skipAtmosphere {next : Cursor} :
    (skipAtmosphere ctx mode c).Returns s next s' ↔
      Reads ctx (.atmosphere mode) c s .nothing next s' :=
  ⟨skipAtmosphereBy_sound (grammarAt_sound ctx _) (Nat.le_refl _),
    fun h => h.returned.skipAtmosphere (Nat.le_refl _)⟩

theorem raises_scanDirective (opened : Position) :
    (scanDirective ctx c).Raises s e s' ↔
      Fails ctx opened (.datums c.position.line []) c (s.emit (.phase .start .skipping c.position))
        e s' := by
  unfold scanDirective
  rw [raises_scanDirectiveBy]
  exact ⟨scanDatumsFor_fails (grammarAt_faithful ctx _) (Nat.lt_succ_self _) (Nat.lt_succ_self _),
    fun h => h.raised _ _ (Nat.lt_succ_self _) (Nat.lt_succ_self _)⟩

end Reader

end LineDirective
