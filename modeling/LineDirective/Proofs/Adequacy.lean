import LineDirective.Proofs.Reads

/-!
# The rules describe the reader

The operations of the namespace `Reader` succeed exactly as the rules of `Reads` say. Soundness goes
by induction on the depth of a grammar and on the rounds of its loops: what a grammar returns from a
cursor with less left to read than the grammar is deep is derivable. Completeness goes by induction
on the rules: a derivable read is returned at every depth and for every number of rounds that exceed
what is left. As reads take up something, the reader's own bounds are always large enough.
-/

namespace LineDirective

/-! ## 1. Soundness -/

/-- What the attempt to skip a comment answers: a derivable skip, or that no comment starts here. -/
def Skips (ctx : Context) (mode : Mode) (c : Cursor) (s : ReaderState) :
    Option Cursor → ReaderState → Prop
  | none, s' => startsComment ctx.policy.whitespace mode c.rest = false ∧ s' = s
  | some next, s' => Reads ctx (.comment mode) c s .nothing next s'

/-- What a grammar returns from cursors with fewer than `n` code points left is derivable. -/
structure Grammar.SoundBelow (ctx : Context) (g : Grammar) (n : Nat) : Prop where
  datum : ∀ {mode c s d next s'}, c.rest.length < n →
    (g.readDatum mode c).Returns s (d, next) s' → Reads ctx (.datum mode) c s (.datum d) next s'
  comment : ∀ {mode c s r s'}, c.rest.length < n →
    (g.skipComment mode c).Returns s r s' → Skips ctx mode c s r s'

theorem exists_cons_of_head?_any {p : CodePoint → Bool} {t : Text} (h : t.head?.any p = true) :
    ∃ x rest, t = x :: rest ∧ p x = true := by
  cases t with
  | nil => cases h
  | cons x rest => exact ⟨x, rest, rfl, h⟩

section Soundness

variable {ctx : Context} {g : Grammar} {n : Nat}

theorem skipAtmosphereFor_sound {skip : Cursor → ReadM (Option Cursor)} {mode : Mode}
    (sound : ∀ {c s r s'}, c.rest.length ≤ n → (skip c).Returns s r s' → Skips ctx mode c s r s')
    {rounds : Nat} {c next : Cursor} {s s' : ReaderState} (fits : c.rest.length ≤ n)
    (enough : c.rest.length < rounds)
    (h : (skipAtmosphereFor skip rounds c).Returns s next s') :
    Reads ctx (.atmosphere mode) c s .nothing next s' := by
  -- every round takes up something, so the rounds outlast the text
  induction rounds generalizing c s with
  | zero => omega
  | succ rounds ih =>
    unfold skipAtmosphereFor at h
    split at h
    · rename_i white
      obtain ⟨x, rest, head, blank⟩ := exists_cons_of_head?_any white
      have shorter := Cursor.length_next_lt head
      exact .blank head blank (ih (by omega) (by omega) h)
    · rename_i visible
      obtain ⟨r, s₁, skipped, h⟩ := ReadM.returns_bind.mp h
      have answer := sound fits skipped
      cases r with
      | none =>
        obtain ⟨rfl, rfl⟩ := ReadM.returns_pure.mp h
        obtain ⟨none_starts, rfl⟩ := answer
        exact .clear (by simpa using visible) none_starts
      | some c₁ =>
        have shorter := answer.length_lt rfl
        exact .remark (by simpa using visible) answer (ih (by omega) (by omega) h)

theorem skipIntralineFor_sound {skip : Cursor → ReadM (Option Cursor)}
    (sound : ∀ {c s r s'}, c.rest.length ≤ n → (skip c).Returns s r s' →
      Skips ctx .directive c s r s')
    {anchor : Int} {rounds : Nat} {c next : Cursor} {s s' : ReaderState}
    (fits : c.rest.length ≤ n) (enough : c.rest.length < rounds)
    (h : (skipIntralineFor skip anchor rounds c).Returns s next s') :
    Reads ctx (.intraline anchor) c s .nothing next s' := by
  induction rounds generalizing c s with
  | zero => omega
  | succ rounds ih =>
    unfold skipIntralineFor at h
    split at h
    · rename_i white
      obtain ⟨x, rest, head, blank⟩ := exists_cons_of_head?_any white
      have shorter := Cursor.length_next_lt head
      exact .intralineBlank head blank (ih (by omega) (by omega) h)
    · rename_i visible
      obtain ⟨r, s₁, skipped, h⟩ := ReadM.returns_bind.mp h
      have answer := sound fits skipped
      cases r with
      | none =>
        obtain ⟨rfl, rfl⟩ := ReadM.returns_pure.mp h
        obtain ⟨none_starts, rfl⟩ := answer
        exact .intralineClear (by simpa using visible) none_starts
      | some c₁ =>
        have shorter := answer.length_lt rfl
        simp only at h
        split at h
        · rename_i left
          obtain ⟨rfl, rfl⟩ := ReadM.returns_pure.mp h
          exact .crossingComment (by simpa using visible) answer left
        · rename_i stays
          exact .intralineComment (by simpa using visible) answer (by simpa using stays)
            (ih (by omega) (by omega) h)

theorem skipIntralineBy_sound (sound : g.SoundBelow ctx n) {anchor : Int} {c next : Cursor}
    {s s' : ReaderState} (fits : c.rest.length < n)
    (h : (skipIntralineBy (g.skipComment .directive) anchor c).Returns s next s') :
    Reads ctx (.intraline anchor) c s .nothing next s' :=
  skipIntralineFor_sound (n := c.rest.length) (fun shorter => sound.comment (by omega))
    (Nat.le_refl _) (Nat.lt_succ_self _) h

/-- A datum of a directive: the grammar has read it, and if it has left the line, the policy lets it. -/
theorem returns_readDirectiveDatum {anchor : Int} {c next : Cursor} {d : Datum}
    {s s' : ReaderState} :
    (readDirectiveDatum ctx g anchor c).Returns s (d, next) s' ↔
      ∃ s₁, (g.readDatum .directive c).Returns s (d, next) s₁ ∧
        (next.position.line = anchor ∧ s' = s₁ ∨
          next.position.line ≠ anchor ∧ ctx.policy.lineCrossing = .truncate ∧
            s' = s₁.emit (.truncated c.position next.position.line)) := by
  unfold readDirectiveDatum
  simp only
  rw [ReadM.returns_tryCatch]
  · constructor
    · intro h
      obtain ⟨⟨d', next'⟩, s₁, read, h⟩ := ReadM.returns_bind.mp h
      simp only at h
      split at h
      · rename_i left
        split at h
        · simp at h
        · rename_i policy
          obtain ⟨u, s₂, reported, h⟩ := ReadM.returns_bind.mp h
          obtain ⟨same, rfl⟩ := ReadM.returns_pure.mp h
          cases same
          exact ⟨s₁, read, .inr ⟨left, policy, ReadM.returns_emit.mp reported⟩⟩
      · rename_i stays
        obtain ⟨same, rfl⟩ := ReadM.returns_pure.mp h
        cases same
        exact ⟨s', read, .inl ⟨by simpa using stays, rfl⟩⟩
    · rintro ⟨s₁, read, ⟨stays, rfl⟩ | ⟨left, policy, rfl⟩⟩
      · refine ReadM.returns_bind.mpr ⟨_, _, read, ?_⟩
        simp [stays]
      · refine ReadM.returns_bind.mpr ⟨_, _, read, ?_⟩
        simp [left, policy]
  -- the handler reports a failure and fails again, so it never returns
  · intro e s a s'
    cases e <;> simp

theorem scanDatumsFor_sound (sound : g.SoundBelow ctx n) {anchor : Int} {rounds : Nat}
    {before ds : List Datum} {c last : Cursor} {s s' : ReaderState} (fits : c.rest.length < n)
    (enough : c.rest.length < rounds)
    (h : (scanDatumsFor ctx g anchor rounds before c).Returns s (ds, last) s') :
    Reads ctx (.datums anchor before) c s (.datums ds) last s' := by
  induction rounds generalizing before c s with
  | zero => omega
  | succ rounds ih =>
    unfold scanDatumsFor at h
    obtain ⟨c₁, s₁, skipped, h⟩ := ReadM.returns_bind.mp h
    have skipped := skipIntralineBy_sound sound fits skipped
    have ahead := skipped.length_le
    split at h
    · rename_i ended
      obtain ⟨u, s₂, reported, h⟩ := ReadM.returns_bind.mp h
      obtain ⟨same, rfl⟩ := ReadM.returns_pure.mp h
      cases same
      rw [ReadM.returns_emit.mp reported]
      exact .lastDatum skipped ended
    · rename_i inside
      simp only [ne_eq, not_or, Classical.not_not, Bool.not_eq_true] at inside
      obtain ⟨u, s₂, reported, h⟩ := ReadM.returns_bind.mp h
      obtain rfl := ReadM.returns_emit.mp reported
      obtain ⟨⟨d, next⟩, s₃, checked, h⟩ := ReadM.returns_bind.mp h
      obtain ⟨s₄, returned, crossing⟩ := returns_readDirectiveDatum.mp checked
      have read := sound.datum (by omega) returned
      have shorter := read.length_lt rfl
      simp only [List.length_append, List.length_singleton] at h
      obtain ⟨u, s₅, reported, h⟩ := ReadM.returns_bind.mp h
      obtain rfl := ReadM.returns_emit.mp reported
      -- the line is checked once by the datum and once by the loop, with the same outcome
      rcases crossing with ⟨stays, rfl⟩ | ⟨left, policy, rfl⟩
      · rw [if_neg (by simpa using stays)] at h
        obtain ⟨u, s₆, reported, h⟩ := ReadM.returns_bind.mp h
        obtain rfl := ReadM.returns_emit.mp reported
        exact .lineDatum skipped inside.1 inside.2 read stays (ih (by omega) (by omega) h)
      · rw [if_pos left] at h
        obtain ⟨u, s₆, reported, h⟩ := ReadM.returns_bind.mp h
        obtain rfl := ReadM.returns_emit.mp reported
        obtain ⟨same, rfl⟩ := ReadM.returns_pure.mp h
        cases same
        exact .crossingDatum skipped inside.1 inside.2 read left policy

/-- The scan of a directive returns the data up to the end of its line, and ends after the line
break. -/
theorem returns_scanDirectiveBy {c next : Cursor} {d : Directive} {s s' : ReaderState} :
    (scanDirectiveBy ctx g c).Returns s (d, next) s' ↔
      ∃ ds last, (scanDatumsFor ctx g c.position.line (c.rest.length + 1) [] c).Returns
          (s.emit (.phase .start .skipping c.position)) (ds, last) s' ∧
        d = ⟨ds, some c.position.beforeMarker⟩ ∧ next = last.afterDirective c.position.line := by
  unfold scanDirectiveBy
  constructor
  · intro h
    obtain ⟨u, s₁, reported, h⟩ := ReadM.returns_bind.mp h
    obtain rfl := ReadM.returns_emit.mp reported
    obtain ⟨⟨ds, last⟩, s₂, scanned, h⟩ := ReadM.returns_bind.mp h
    obtain ⟨same, rfl⟩ := ReadM.returns_pure.mp h
    cases same
    exact ⟨ds, last, scanned, rfl, rfl⟩
  · rintro ⟨ds, last, scanned, rfl, rfl⟩
    refine ReadM.returns_bind.mpr ⟨(), _, ReadM.returns_emit.mpr rfl, ?_⟩
    refine ReadM.returns_bind.mpr ⟨_, _, scanned, ?_⟩
    exact ReadM.returns_pure.mpr ⟨rfl, rfl⟩

theorem skipDatumComment_sound (sound : g.SoundBelow ctx n) {mode : Mode} {c next : Cursor}
    {rest : Text} {s s' : ReaderState} (fits : c.rest.length ≤ n)
    (head : c.rest = .scalar '#' :: .scalar ';' :: rest)
    (h : (skipDatumComment g mode c).Returns s next s') :
    Reads ctx (.comment mode) c s .nothing next s' := by
  have shorter := Cursor.length_advance_lt (c := c) (n := 2) (by omega) (by simp [head])
  unfold skipDatumComment at h
  cases mode with
  | code =>
    obtain ⟨⟨d, last⟩, s₁, read, h⟩ := ReadM.returns_bind.mp h
    obtain ⟨rfl, rfl⟩ := ReadM.returns_pure.mp h
    exact .datumComment head (sound.datum (by omega) read)
  | directive =>
    obtain ⟨c₁, s₁, skipped, h⟩ := ReadM.returns_bind.mp h
    have skipped := skipIntralineBy_sound sound (by omega) skipped
    have ahead := skipped.length_le
    split at h
    · rename_i ended
      obtain ⟨rfl, rfl⟩ := ReadM.returns_pure.mp h
      exact .emptyComment head skipped ended
    · rename_i inside
      simp only [ne_eq, not_or, Classical.not_not, Bool.not_eq_true] at inside
      obtain ⟨⟨d, last⟩, s₂, read, h⟩ := ReadM.returns_bind.mp h
      obtain ⟨rfl, rfl⟩ := ReadM.returns_pure.mp h
      exact .lineDatumComment head skipped inside.1 inside.2 (sound.datum (by omega) read)

theorem skipMarker_sound (sound : g.SoundBelow ctx n) {mode : Mode} {c : Cursor}
    {r : Option Cursor} {rest : Text} {s s' : ReaderState} (fits : c.rest.length ≤ n)
    (head : c.rest = .scalar '#' :: .scalar '!' :: rest)
    (h : (skipMarker ctx g mode c).Returns s r s') : Skips ctx mode c s r s' := by
  have shorter := Cursor.length_advance_lt (c := c) (n := 2) (by omega) (by simp [head])
  have after : (c.advance 2).rest = rest := by rw [Cursor.rest_advance, head]; rfl
  unfold skipMarker at h
  simp only [after] at h
  split at h
  · rename_i m found
    rw [← Cursor.advance_add] at h
    have marked := @Reads.marker ctx mode c s rest m head found
    split at h
    · rename_i code
      obtain ⟨u, s₁, switched, h⟩ := ReadM.returns_bind.mp h
      obtain rfl := ReadM.returns_modify.mp switched
      obtain ⟨u, s₂, reported, h⟩ := ReadM.returns_bind.mp h
      obtain rfl := ReadM.returns_emit.mp reported
      obtain ⟨rfl, rfl⟩ := ReadM.returns_pure.mp h
      -- in code the marker is obeyed before it is reported
      rwa [if_pos code] at marked
    · rename_i directive
      obtain ⟨u, s₂, reported, h⟩ := ReadM.returns_bind.mp h
      obtain rfl := ReadM.returns_emit.mp reported
      obtain ⟨rfl, rfl⟩ := ReadM.returns_pure.mp h
      rwa [if_neg directive] at marked
  · rename_i unnamed
    split at h
    · rename_i starts
      obtain ⟨rfl, starts⟩ := starts
      obtain ⟨⟨d, next⟩, s₁, returned, h⟩ := ReadM.returns_bind.mp h
      obtain ⟨u, s₂, kept, h⟩ := ReadM.returns_bind.mp h
      obtain ⟨rfl, rfl⟩ := ReadM.returns_pure.mp h
      obtain ⟨ds, last, scanned, rfl, rfl⟩ := returns_scanDirectiveBy.mp returned
      exact .lineDirective head unnamed starts
        (scanDatumsFor_sound sound (by omega) (Nat.lt_succ_self _) scanned) kept
    · rename_i declined
      obtain ⟨rfl, rfl⟩ := ReadM.returns_pure.mp h
      -- neither a marker nor, here, the start of a directive: no comment
      refine ⟨?_, rfl⟩
      rw [head]
      simpa [startsComment, unnamed] using declined

theorem skipCommentBy_sound (sound : g.SoundBelow ctx n) {mode : Mode} {c : Cursor}
    {r : Option Cursor} {s s' : ReaderState} (fits : c.rest.length ≤ n)
    (h : (skipCommentBy ctx g mode c).Returns s r s') : Skips ctx mode c s r s' := by
  unfold skipCommentBy at h
  split at h
  · rename_i head
    obtain ⟨rfl, rfl⟩ := ReadM.returns_pure.mp h
    exact .lineComment head
  · rename_i head
    obtain ⟨next, skipped, rfl⟩ := ReadM.returns_map.mp h
    unfold skipBlockComment at skipped
    split at skipped
    · rename_i size ends
      obtain ⟨rfl, rfl⟩ := ReadM.returns_pure.mp skipped
      exact .blockComment head ends
    · exact absurd skipped (by simp)
  · rename_i head
    obtain ⟨next, skipped, rfl⟩ := ReadM.returns_map.mp h
    exact skipDatumComment_sound sound fits head skipped
  · rename_i head
    exact skipMarker_sound sound fits head h
  · rename_i no_line no_block no_datum no_marker
    obtain ⟨rfl, rfl⟩ := ReadM.returns_pure.mp h
    refine ⟨?_, rfl⟩
    unfold startsComment
    split
    · rename_i head; exact absurd head (no_line _)
    · rename_i head; exact absurd head (no_block _)
    · rename_i head; exact absurd head (no_datum _)
    · rename_i head; exact absurd head (no_marker _)
    · rfl

theorem skipAtmosphereBy_sound (sound : g.SoundBelow ctx n) {mode : Mode} {c next : Cursor}
    {s s' : ReaderState} (fits : c.rest.length ≤ n)
    (h : (skipAtmosphereBy (skipCommentBy ctx g mode) c).Returns s next s') :
    Reads ctx (.atmosphere mode) c s .nothing next s' :=
  skipAtmosphereFor_sound (fun shorter => skipCommentBy_sound sound shorter) fits
    (Nat.lt_succ_self _) h

theorem readItemsFor_sound (sound : g.SoundBelow ctx n) {mode : Mode} {start : Position}
    {closer : CodePoint} {rounds : Nat} {read parts : ListParts} {c last : Cursor}
    {s s' : ReaderState} (fits : c.rest.length < n)
    (h : (readItemsFor ctx g mode start closer rounds read c).Returns s (parts, last) s') :
    Reads ctx (.items mode closer read) c s (.parts parts) last s' := by
  -- running out of rounds is a failure here, so no bound on them is needed
  induction rounds generalizing read c s with
  | zero => exact absurd h (by simp [readItemsFor])
  | succ rounds ih =>
    obtain ⟨items, tail⟩ := read
    unfold readItemsFor at h
    obtain ⟨c₁, s₁, returned, found⟩ := ReadM.returns_bind.mp h
    have skipped := skipAtmosphereBy_sound sound (by omega) returned
    have ahead := skipped.length_le
    clear h returned
    split at found
    · exact absurd found (by simp)
    · rename_i x rest head
      split at found
      · rename_i closes
        split at found
        · exact absurd found (by simp)
        · rename_i same
          obtain ⟨result, rfl⟩ := ReadM.returns_pure.mp found
          cases result
          have same : x = closer := by simpa using same
          subst same
          exact .close skipped head closes
      · rename_i open_
        split at found
        · exact absurd found (by simp)
        · rename_i no_tail
          -- only the closing bracket may follow a tail
          obtain rfl : tail = none := by simpa using no_tail
          split at found
          · rename_i dot
            obtain ⟨rfl, lone⟩ := dot
            split at found
            · exact absurd found (by simp)
            · rename_i some_item
              obtain ⟨c₂, s₂, skipped₂, more⟩ := ReadM.returns_bind.mp found
              have nearer := c₁.reaches_next.length_le
              have skipped₂ := skipAtmosphereBy_sound sound (by omega) skipped₂
              have ahead₂ := skipped₂.length_le
              split at more
              · exact absurd more (by simp)
              · rename_i follows
                obtain ⟨⟨d, next⟩, s₃, returned, others⟩ := ReadM.returns_bind.mp more
                have datum := sound.datum (by omega) returned
                have shorter := datum.length_lt rfl
                exact .dot skipped head lone (by simpa using some_item) skipped₂
                  (by simpa using follows) datum (ih (by omega) others)
          · rename_i no_dot
            obtain ⟨⟨d, next⟩, s₂, returned, others⟩ := ReadM.returns_bind.mp found
            have datum := sound.datum (by omega) returned
            have shorter := datum.length_lt rfl
            exact .item skipped head (by simpa using open_) no_dot datum (ih (by omega) others)

/-- Reading a list at its bracket is reading its items after the bracket. -/
theorem readListBy_of_head {mode : Mode} {c : Cursor} {x : CodePoint} {rest : Text}
    (head : c.rest = x :: rest) :
    readListBy ctx g mode c =
      readItemsFor ctx g mode c.position (closerOf x) (c.rest.length + 1) ([], none) c.next := by
  unfold readListBy Cursor.peek?
  simp only [head, List.getElem?_cons_zero, Option.getD_some]

theorem readListBy_sound (sound : g.SoundBelow ctx n) {mode : Mode} {parts : ListParts}
    {c last : Cursor} {x : CodePoint} {rest : Text} {s s' : ReaderState}
    (fits : c.rest.length ≤ n) (head : c.rest = x :: rest)
    (h : (readListBy ctx g mode c).Returns s (parts, last) s') :
    Reads ctx (.items mode (closerOf x) ([], none)) c.next s (.parts parts) last s' := by
  have shorter := Cursor.length_next_lt head
  rw [readListBy_of_head head] at h
  exact readItemsFor_sound sound (by omega) h

theorem readAbbreviationBy_sound (sound : g.SoundBelow ctx n) {mode : Mode} {a : Abbreviation}
    {c next : Cursor} {d : Datum} {s s' : ReaderState} (fits : c.rest.length ≤ n)
    (mark : abbreviation? c.rest = some a)
    (h : (readAbbreviationBy ctx g mode a c).Returns s (d, next) s') :
    Reads ctx (.here mode) c s (.datum d) next s' := by
  obtain ⟨some_mark, some_rest⟩ := abbreviation?_mark mark
  have shorter := Cursor.length_advance_lt some_mark some_rest
  unfold readAbbreviationBy at h
  obtain ⟨c₁, s₁, skipped, h⟩ := ReadM.returns_bind.mp h
  have skipped := skipAtmosphereBy_sound sound (by omega) skipped
  have ahead := skipped.length_le
  split at h
  · exact absurd h (by simp)
  · rename_i follows
    obtain ⟨⟨d', last⟩, s₂, returned, h⟩ := ReadM.returns_bind.mp h
    obtain ⟨result, rfl⟩ := ReadM.returns_pure.mp h
    cases result
    exact .abbreviation mark skipped (by simpa using follows) (sound.datum (by omega) returned)

theorem readVectorBy_sound (sound : g.SoundBelow ctx n) {mode : Mode} {c next : Cursor}
    {d : Datum} {rest : Text} {s s' : ReaderState} (fits : c.rest.length ≤ n)
    (head : c.rest = .scalar '#' :: .scalar '(' :: rest)
    (h : (readVectorBy ctx g mode c).Returns s (d, next) s') :
    Reads ctx (.here mode) c s (.datum d) next s' := by
  have bracket : (c.advance 1).rest = .scalar '(' :: rest := by rw [Cursor.rest_advance, head]; rfl
  have shorter := (c.reaches_advance 1).length_le
  have inside : (c.advance 1).next = c.advance 2 := by
    rw [← Cursor.advance_one, ← Cursor.advance_add]
  unfold readVectorBy at h
  obtain ⟨⟨parts, last⟩, s₁, returned, found⟩ := ReadM.returns_bind.mp h
  have items := readListBy_sound sound (by omega) bracket returned
  rw [inside] at items
  split at found
  · obtain ⟨result, rfl⟩ := ReadM.returns_pure.mp found
    cases result
    rename_i same
    cases same
    exact .vector head items
  · exact absurd found (by simp)

theorem readBytevectorBy_sound (sound : g.SoundBelow ctx n) {mode : Mode} {c next : Cursor}
    {d : Datum} {rest : Text} {s s' : ReaderState} (fits : c.rest.length ≤ n)
    (head : c.rest = .scalar '#' :: .scalar 'u' :: .scalar '8' :: .scalar '(' :: rest)
    (h : (readBytevectorBy ctx g mode c).Returns s (d, next) s') :
    Reads ctx (.here mode) c s (.datum d) next s' := by
  have bracket : (c.advance 3).rest = .scalar '(' :: rest := by rw [Cursor.rest_advance, head]; rfl
  have shorter := (c.reaches_advance 3).length_le
  have inside : (c.advance 3).next = c.advance 4 := by
    rw [← Cursor.advance_one, ← Cursor.advance_add]
  unfold readBytevectorBy at h
  obtain ⟨⟨parts, last⟩, s₁, returned, found⟩ := ReadM.returns_bind.mp h
  have items := readListBy_sound sound (by omega) bracket returned
  rw [inside] at items
  split at found
  · split at found
    · rename_i same _ elements bytes
      cases same
      obtain ⟨result, rfl⟩ := ReadM.returns_pure.mp found
      cases result
      exact .bytevector head items bytes
    · exact absurd found (by simp)
  · exact absurd found (by simp)

theorem readHashBy_sound (sound : g.SoundBelow ctx n) {mode : Mode} {c next : Cursor}
    {d : Datum} {rest : Text} {s s' : ReaderState} (fits : c.rest.length ≤ n)
    (head : c.rest = .scalar '#' :: rest)
    (h : (readHashBy ctx g mode c).Returns s (d, next) s') :
    Reads ctx (.here mode) c s (.datum d) next s' := by
  unfold readHashBy at h
  split at h
  · rename_i same
    exact readVectorBy_sound sound fits same h
  · rename_i same
    exact readBytevectorBy_sound sound fits same h
  · rename_i same
    obtain ⟨r, s₁, got, more⟩ := ReadM.returns_bind.mp h
    obtain ⟨rfl, rfl⟩ := ReadM.returns_get.mp got
    obtain ⟨⟨x, last⟩, s₂, returned, done⟩ := ReadM.returns_bind.mp more
    obtain ⟨result, rfl⟩ := ReadM.returns_pure.mp done
    cases result
    obtain ⟨size, read, rfl, rfl⟩ := Context.returns_lexeme.mp returned
    exact .flat (.character same read)
  · split at h <;> exact absurd h (by simp)
  · rename_i no_vector no_bytes no_character no_marker
    obtain ⟨size, read, rfl, rfl⟩ := Context.returns_lexeme.mp h
    refine .flat (.hash ?_ read)
    -- the forms excluded so far are those that the test excludes
    unfold Lexeme.startsHashToken
    split
    · rename_i same; exact absurd same (no_vector _)
    · rename_i same; exact absurd same (no_bytes _)
    · rename_i same; exact absurd same (no_character _)
    · rename_i same; exact absurd same (no_marker _)
    · rfl
    · rename_i no_hash
      exact absurd head (no_hash _)

/-- What starts neither a bracket, a quoted form, an abbreviation nor a `#` form starts an atom. -/
theorem startsAtom_of_plain {x : CodePoint} {rest : Text}
    (opener : ¬ (x = .scalar '(' ∨ x = .scalar '[')) (closer : isCloser x = false)
    (quote : x ≠ .quotationMark) (bar : x ≠ .scalar '|')
    (plain : abbreviation? (x :: rest) = none) (hash : x ≠ .scalar '#') :
    Lexeme.startsAtom (x :: rest) = true := by
  have no_mark : x ≠ .apostrophe ∧ x ≠ .graveAccent ∧ x ≠ .scalar ',' := by
    refine ⟨?_, ?_, ?_⟩ <;> rintro rfl <;> simp only [abbreviation?] at plain
    · cases plain
    · cases plain
    · split at plain <;> simp_all
  simp only [isCloser, Bool.or_eq_false_iff, decide_eq_false_iff_not] at closer
  simp only [not_or] at opener
  simp [Lexeme.startsAtom, Lexeme.structuralInitials, opener, closer, quote, bar, hash, no_mark]

theorem readDatumHereBy_sound (sound : g.SoundBelow ctx n) {mode : Mode} {c next : Cursor}
    {d : Datum} {s s' : ReaderState} (fits : c.rest.length ≤ n)
    (h : (readDatumHereBy ctx g mode c).Returns s (d, next) s') :
    Reads ctx (.here mode) c s (.datum d) next s' := by
  unfold readDatumHereBy at h
  split at h
  · exact absurd h (by simp)
  · rename_i x rest head
    split at h
    · rename_i opener
      obtain ⟨⟨parts, last⟩, s₁, returned, h⟩ := ReadM.returns_bind.mp h
      obtain ⟨result, rfl⟩ := ReadM.returns_pure.mp h
      cases result
      exact .list head opener (readListBy_sound sound fits head returned)
    · rename_i opener
      split at h
      · exact absurd h (by simp)
      · rename_i closer
        split at h
        · rename_i quote
          obtain ⟨⟨content, last⟩, s₁, returned, h⟩ := ReadM.returns_bind.mp h
          obtain ⟨result, rfl⟩ := ReadM.returns_pure.mp h
          cases result
          obtain ⟨size, read, rfl, rfl⟩ := Context.returns_lexeme.mp returned
          exact .flat (.string (by simp [head, quote]) read)
        · rename_i quote
          split at h
          · rename_i bar
            obtain ⟨⟨name, last⟩, s₁, returned, h⟩ := ReadM.returns_bind.mp h
            obtain ⟨result, rfl⟩ := ReadM.returns_pure.mp h
            cases result
            obtain ⟨size, read, rfl, rfl⟩ := Context.returns_lexeme.mp returned
            exact .flat (.symbol (by simp [head, bar]) read)
          · rename_i bar
            split at h
            · rename_i a mark
              exact readAbbreviationBy_sound sound fits mark h
            · rename_i plain
              split at h
              · rename_i hash
                exact readHashBy_sound sound fits (by rw [head, hash]) h
              · rename_i hash
                obtain ⟨r, s₁, got, h⟩ := ReadM.returns_bind.mp h
                obtain ⟨rfl, rfl⟩ := ReadM.returns_get.mp got
                obtain ⟨size, read, rfl, rfl⟩ := Context.returns_lexeme.mp h
                refine .flat (.atom ?_ read)
                rw [head] at plain ⊢
                exact startsAtom_of_plain opener (by simpa using closer) quote bar plain hash

theorem readDatumBy_sound (sound : g.SoundBelow ctx n) {mode : Mode} {c next : Cursor}
    {d : Datum} {s s' : ReaderState} (fits : c.rest.length ≤ n)
    (h : (readDatumBy ctx g mode c).Returns s (d, next) s') :
    Reads ctx (.datum mode) c s (.datum d) next s' := by
  unfold readDatumBy at h
  cases mode with
  | code =>
    obtain ⟨c₁, s₁, skipped, h⟩ := ReadM.returns_bind.mp h
    have skipped := skipAtmosphereBy_sound sound fits skipped
    have ahead := skipped.length_le
    exact .code skipped (readDatumHereBy_sound sound (by omega) h)
  | directive => exact .directive (readDatumHereBy_sound sound fits h)

theorem grammarAt_sound (ctx : Context) (depth : Nat) :
    (grammarAt ctx depth).SoundBelow ctx depth := by
  induction depth with
  | zero => exact ⟨fun short => by omega, fun short => by omega⟩
  | succ depth ih =>
    exact ⟨fun short h => readDatumBy_sound ih (by omega) h,
      fun short h => skipCommentBy_sound ih (by omega) h⟩

end Soundness

/-! ## 2. Completeness -/

/-- A part of the reader returns what is given, at every depth and for every number of rounds that
exceed what is left to read. -/
def Returned (ctx : Context) : Task → Cursor → ReaderState → Yield → Cursor → ReaderState → Prop
  | .datum mode, c, s, .datum d, next, s' => ∀ depth, c.rest.length ≤ depth →
    (readDatumBy ctx (grammarAt ctx depth) mode c).Returns s (d, next) s'
  | .here mode, c, s, .datum d, next, s' => ∀ depth, c.rest.length ≤ depth →
    (readDatumHereBy ctx (grammarAt ctx depth) mode c).Returns s (d, next) s'
  | .items mode closer read, c, s, .parts parts, next, s' => ∀ depth rounds start,
    c.rest.length < depth → c.rest.length < rounds →
    (readItemsFor ctx (grammarAt ctx depth) mode start closer rounds read c).Returns s
      (parts, next) s'
  | .atmosphere mode, c, s, .nothing, next, s' => ∀ depth rounds,
    c.rest.length ≤ depth → c.rest.length < rounds →
    (skipAtmosphereFor (skipCommentBy ctx (grammarAt ctx depth) mode) rounds c).Returns s next s'
  | .comment mode, c, s, .nothing, next, s' => ∀ depth, c.rest.length ≤ depth →
    (skipCommentBy ctx (grammarAt ctx depth) mode c).Returns s (some next) s'
  | .intraline anchor, c, s, .nothing, next, s' => ∀ depth rounds,
    c.rest.length < depth → c.rest.length < rounds →
    (skipIntralineFor ((grammarAt ctx depth).skipComment .directive) anchor rounds c).Returns s
      next s'
  | .datums anchor before, c, s, .datums ds, next, s' => ∀ depth rounds,
    c.rest.length < depth → c.rest.length < rounds →
    (scanDatumsFor ctx (grammarAt ctx depth) anchor rounds before c).Returns s (ds, next) s'
  | _, _, _, _, _, _ => False

section Completeness

variable {ctx : Context} {g : Grammar} {mode : Mode} {c : Cursor}

theorem skipCommentBy_of_clear
    (none_starts : startsComment ctx.policy.whitespace mode c.rest = false) (s : ReaderState) :
    (skipCommentBy ctx g mode c).Returns s none s := by
  unfold skipCommentBy
  unfold startsComment at none_starts
  split
  · rename_i head; simp [head] at none_starts
  · rename_i head; simp [head] at none_starts
  · rename_i head; simp [head] at none_starts
  · rename_i rest head
    have after : (c.advance 2).rest = rest := by rw [Cursor.rest_advance, head]; rfl
    simp only [head, Bool.or_eq_false_iff, Option.isSome_eq_false_iff, Option.isNone_iff_eq_none]
      at none_starts
    unfold skipMarker
    simp only [after, none_starts.1]
    rw [if_neg (by simpa using none_starts.2)]
    exact ReadM.returns_pure.mpr ⟨rfl, rfl⟩
  · exact ReadM.returns_pure.mpr ⟨rfl, rfl⟩

theorem readHashBy_of_hashToken (opened : Lexeme.startsHashToken c.rest = true) :
    readHashBy ctx g mode c = ctx.lexeme c (Lexeme.hashToken c.rest) := by
  unfold readHashBy
  unfold Lexeme.startsHashToken at opened
  split <;> first | rfl | (rename_i head; simp [head] at opened)

theorem readDatumHereBy_of_hash {rest : Text} (head : c.rest = .scalar '#' :: rest) :
    readDatumHereBy ctx g mode c = readHashBy ctx g mode c := by
  have plain : abbreviation? c.rest = none := by rw [head]; rfl
  unfold readDatumHereBy
  rw [plain]
  simp only [head, isCloser]
  rw [if_neg (by decide), if_neg (by decide), if_neg (by decide), if_neg (by decide),
    if_pos trivial]

/-- The tests are made in a fixed order; what starts a datum fails those before its own. -/
theorem readDatumHereBy_of_quote (opened : c.rest.head? = some .quotationMark) :
    readDatumHereBy ctx g mode c = do
      let (content, next) ← ctx.lexeme c (Lexeme.quoted .string c.rest)
      return (.string content, next) := by
  obtain ⟨rest, head⟩ := List.head?_eq_some_iff.mp opened
  unfold readDatumHereBy
  simp only [head, isCloser]
  rw [if_neg (by decide), if_neg (by decide), if_pos trivial]

theorem readDatumHereBy_of_bar (opened : c.rest.head? = some (.scalar '|')) :
    readDatumHereBy ctx g mode c = do
      let (name, next) ← ctx.lexeme c (Lexeme.quoted .symbol c.rest)
      return (.symbol name, next) := by
  obtain ⟨rest, head⟩ := List.head?_eq_some_iff.mp opened
  unfold readDatumHereBy
  simp only [head, isCloser]
  rw [if_neg (by decide), if_neg (by decide), if_neg (by decide), if_pos trivial]

theorem readHashBy_of_character {rest : Text} (opened : c.rest = .scalar '#' :: .backslash :: rest) :
    readHashBy ctx g mode c = do
      let fold := (← get).foldCase
      let (x, next) ← ctx.lexeme c (Lexeme.character fold c.rest)
      return (.char x, next) := by
  unfold readHashBy
  simp only [opened]

theorem readDatumHereBy_of_atom (opened : Lexeme.startsAtom c.rest = true) :
    readDatumHereBy ctx g mode c =
      (do
        let fold := (← get).foldCase
        ctx.lexeme c (Lexeme.atom fold c.rest)) := by
  obtain ⟨x, rest, head, -⟩ := exists_cons_of_head?_any opened
  have distinct : ∀ y ∈ Lexeme.structuralInitials, x ≠ y := by
    rintro y member rfl
    simp [Lexeme.startsAtom, head, member] at opened
  simp only [Lexeme.structuralInitials, List.mem_cons, List.not_mem_nil, or_false, ne_eq,
    forall_eq_or_imp, forall_eq] at distinct
  obtain ⟨paren, bracket, paren', bracket', quote, bar, apostrophe, grave, comma, hash⟩ := distinct
  have plain : abbreviation? c.rest = none := by
    unfold abbreviation?
    split <;> simp_all
  unfold readDatumHereBy
  simp only [head, isCloser]
  rw [if_neg (by simp [paren, bracket]), if_neg (by simp [paren', bracket']), if_neg quote,
    if_neg bar, ← head, plain]
  simp only [hash, if_false]

/-- A datum without nested data is read where it is spelled. -/
theorem readDatumHereBy_of_spells {s : ReaderState} {d : Datum} {size : Nat}
    (h : Lexeme.Spells s.foldCase c.rest d size) :
    (readDatumHereBy ctx g mode c).Returns s (d, c.advance size) s := by
  cases h with
  | string opened read =>
    rw [readDatumHereBy_of_quote opened]
    refine ReadM.returns_bind.mpr ⟨_, s, Context.returns_lexeme.mpr ⟨_, read, rfl, rfl⟩, ?_⟩
    exact ReadM.returns_pure.mpr ⟨rfl, rfl⟩
  | symbol opened read =>
    rw [readDatumHereBy_of_bar opened]
    refine ReadM.returns_bind.mpr ⟨_, s, Context.returns_lexeme.mpr ⟨_, read, rfl, rfl⟩, ?_⟩
    exact ReadM.returns_pure.mpr ⟨rfl, rfl⟩
  | character opened read =>
    rw [readDatumHereBy_of_hash opened, readHashBy_of_character opened]
    refine ReadM.returns_bind.mpr ⟨s, s, ReadM.returns_get.mpr ⟨rfl, rfl⟩, ?_⟩
    refine ReadM.returns_bind.mpr ⟨_, s, Context.returns_lexeme.mpr ⟨_, read, rfl, rfl⟩, ?_⟩
    exact ReadM.returns_pure.mpr ⟨rfl, rfl⟩
  | hash opened read =>
    obtain ⟨more, marked⟩ := Lexeme.head_of_startsHashToken opened
    rw [readDatumHereBy_of_hash marked, readHashBy_of_hashToken opened]
    exact Context.returns_lexeme.mpr ⟨size, read, rfl, rfl⟩
  | atom opened read =>
    rw [readDatumHereBy_of_atom opened]
    refine ReadM.returns_bind.mpr ⟨s, s, ReadM.returns_get.mpr ⟨rfl, rfl⟩, ?_⟩
    exact Context.returns_lexeme.mpr ⟨size, read, rfl, rfl⟩

/-- A list is read after its bracket. -/
theorem readDatumHereBy_of_opener {x : CodePoint} {rest : Text} (head : c.rest = x :: rest)
    (opener : x = .scalar '(' ∨ x = .scalar '[') :
    readDatumHereBy ctx g mode c = do
      let (parts, next) ← readItemsFor ctx g mode c.position (closerOf x) (c.rest.length + 1)
        ([], none) c.next
      return (parts.toDatum, next) := by
  unfold readDatumHereBy
  simp only [head]
  rw [if_pos opener, readListBy_of_head head, head]

theorem readDatumHereBy_of_mark {a : Abbreviation} (mark : abbreviation? c.rest = some a) :
    readDatumHereBy ctx g mode c = readAbbreviationBy ctx g mode a c := by
  obtain ⟨x, rest, head⟩ : ∃ x rest, c.rest = x :: rest := by
    cases hrest : c.rest with
    | nil => simp [hrest, abbreviation?] at mark
    | cons x rest => exact ⟨x, rest, rfl⟩
  have which : x = .apostrophe ∨ x = .graveAccent ∨ x = .scalar ',' := by
    rw [head] at mark
    unfold abbreviation? at mark
    split at mark <;> simp_all
  unfold readDatumHereBy
  rw [mark]
  simp only [head, isCloser]
  rcases which with rfl | rfl | rfl <;>
    rw [if_neg (by decide), if_neg (by decide), if_neg (by decide), if_neg (by decide)]

/-- The bracket of a vector is the first code point after its `#`, that of a bytevector the third. -/
theorem readListBy_of_mark {k : Nat} {rest : Text} (bracket : c.rest.drop k = .scalar '(' :: rest) :
    readListBy ctx g mode (c.advance k) =
      readItemsFor ctx g mode (c.advance k).position (.scalar ')') ((c.advance k).rest.length + 1)
        ([], none) (c.advance (k + 1)) := by
  have head : (c.advance k).rest = .scalar '(' :: rest := by rw [Cursor.rest_advance, bracket]
  rw [readListBy_of_head head, Cursor.advance_add, Cursor.advance_one]
  rfl

theorem readDatumHereBy_of_vector {rest : Text} (head : c.rest = .scalar '#' :: .scalar '(' :: rest) :
    readDatumHereBy ctx g mode c = readVectorBy ctx g mode c := by
  rw [readDatumHereBy_of_hash head]
  unfold readHashBy
  simp only [head]

theorem readDatumHereBy_of_bytevector {rest : Text}
    (head : c.rest = .scalar '#' :: .scalar 'u' :: .scalar '8' :: .scalar '(' :: rest) :
    readDatumHereBy ctx g mode c = readBytevectorBy ctx g mode c := by
  rw [readDatumHereBy_of_hash head]
  unfold readHashBy
  simp only [head]

section Items

variable {start : Position} {closer : CodePoint} {rounds : Nat} {items : List Datum} {c₁ : Cursor}
  {s s₁ : ReaderState}

/-- At a lone dot after an item the reader goes on to the tail. -/
theorem readItemsFor_at_dot {rest : Text}
    (skip : (skipAtmosphereBy (skipCommentBy ctx g mode) c).Returns s c₁ s₁)
    (head : c₁.rest = .scalar '.' :: rest) (lone : Text.atDelimiter rest = true)
    (some_item : items ≠ []) :
    (readItemsFor ctx g mode start closer (rounds + 1) (items, none) c).ContinuesAs s (do
      let c₂ ← skipAtmosphereBy (skipCommentBy ctx g mode) c₁.next
      if c₂.atEnd || c₂.atCloser then
        ctx.fail .missingTail c₂.position
      else do
        let (d, next) ← g.readDatum mode c₂
        readItemsFor ctx g mode start closer rounds (items, some d) next) s₁ := by
  rw [readItemsFor]
  refine skip.continues.trans ?_
  simp only [head, lone, isCloser]
  -- no closing bracket, no tail so far, a lone dot, and an item before it
  rw [if_neg (by decide), if_neg (by simp), if_pos (by simp), if_neg (by simpa using some_item)]
  rfl

theorem readItemsFor_at_item {x : CodePoint} {rest : Text}
    (skip : (skipAtmosphereBy (skipCommentBy ctx g mode) c).Returns s c₁ s₁)
    (head : c₁.rest = x :: rest) (open_ : isCloser x = false)
    (no_dot : ¬ (x = .scalar '.' ∧ Text.atDelimiter rest = true)) :
    (readItemsFor ctx g mode start closer (rounds + 1) (items, none) c).ContinuesAs s (do
      let (d, next) ← g.readDatum mode c₁
      readItemsFor ctx g mode start closer rounds (items ++ [d], none) next) s₁ := by
  rw [readItemsFor]
  refine skip.continues.trans ?_
  simp only [head]
  rw [if_neg (by simp [open_]), if_neg (by simp), if_neg no_dot]
  rfl

end Items

/-- Inside the line the scan of a directive goes on to the next datum. -/
theorem scanDatumsFor_at_datum {anchor : Int} {rounds : Nat} {before : List Datum} {c₁ : Cursor}
    {s s₁ : ReaderState}
    (skip : (skipIntralineBy (g.skipComment .directive) anchor c).Returns s c₁ s₁)
    (same : c₁.position.line = anchor) (follows : c₁.atLineEnd = false) :
    (scanDatumsFor ctx g anchor (rounds + 1) before c).ContinuesAs s (do
      let (d, next) ← readDirectiveDatum ctx g anchor c₁
      ReadM.emit (.datumRead (before ++ [d]).length c₁.position)
      if next.position.line ≠ anchor then
        ReadM.emit (.phase .readingDatum .done next.position)
        return (before ++ [d], next)
      ReadM.emit (.phase .readingDatum .skipping next.position)
      scanDatumsFor ctx g anchor rounds (before ++ [d]) next)
      (s₁.emit (.phase .skipping .readingDatum c₁.position)) := by
  rw [scanDatumsFor]
  refine skip.continues.trans ?_
  rw [if_neg (by simp [same, follows])]
  have noted : (ReadM.emit (.phase .skipping .readingDatum c₁.position)).Returns s₁ ()
      (s₁.emit (.phase .skipping .readingDatum c₁.position)) := ReadM.returns_emit.mpr rfl
  exact noted.continues

theorem skipCommentBy_of_datumComment {rest : Text}
    (head : c.rest = .scalar '#' :: .scalar ';' :: rest) :
    skipCommentBy ctx g mode c = some <$> skipDatumComment g mode c := by
  unfold skipCommentBy
  simp only [head]

theorem skipDatumComment_at_datum {c₁ : Cursor} {s s₁ : ReaderState}
    (skip : (skipIntralineBy (g.skipComment .directive) c.position.line (c.advance 2)).Returns s c₁ s₁)
    (same : c₁.position.line = c.position.line) (follows : c₁.atLineEnd = false) :
    (skipDatumComment g .directive c).ContinuesAs s (do
      let (_, next) ← g.readDatum .directive c₁
      return next) s₁ := by
  unfold skipDatumComment
  refine skip.continues.trans ?_
  rw [if_neg (by simp [same, follows])]
  rfl

theorem skipCommentBy_of_marker {rest : Text}
    (head : c.rest = .scalar '#' :: .scalar '!' :: rest) :
    skipCommentBy ctx g mode c = skipMarker ctx g mode c := by
  unfold skipCommentBy
  simp only [head]

theorem skipCommentBy_of_directive {rest : Text}
    (head : c.rest = .scalar '#' :: .scalar '!' :: rest) (unnamed : NamedMarker.detect? rest = none)
    (starts : startsDirective ctx.policy.whitespace rest = true) :
    skipCommentBy ctx g .code c = (do
      let (d, next) ← scanDirectiveBy ctx g (c.advance 2)
      ctx.record d
      return some next) := by
  have after : (c.advance 2).rest = rest := by rw [Cursor.rest_advance, head]; rfl
  rw [skipCommentBy_of_marker head]
  unfold skipMarker
  simp only [after, unnamed]
  rw [if_pos ⟨trivial, starts⟩]

theorem Returned.readDatum {depth : Nat} {s s' : ReaderState} {d : Datum} {next : Cursor}
    (h : Returned ctx (.datum mode) c s (.datum d) next s') (deep : c.rest.length < depth) :
    ((grammarAt ctx depth).readDatum mode c).Returns s (d, next) s' := by
  cases depth with
  | zero => omega
  | succ depth => exact h depth (by omega)

theorem Returned.skipComment {depth : Nat} {s s' : ReaderState} {next : Cursor}
    (h : Returned ctx (.comment mode) c s .nothing next s') (deep : c.rest.length < depth) :
    ((grammarAt ctx depth).skipComment mode c).Returns s (some next) s' := by
  cases depth with
  | zero => omega
  | succ depth => exact h depth (by omega)

theorem Returned.skipAtmosphere {depth : Nat} {s s' : ReaderState} {next : Cursor}
    (h : Returned ctx (.atmosphere mode) c s .nothing next s') (deep : c.rest.length ≤ depth) :
    (skipAtmosphereBy (skipCommentBy ctx (grammarAt ctx depth) mode) c).Returns s next s' :=
  h depth _ deep (Nat.lt_succ_self _)

theorem Returned.skipIntraline {depth : Nat} {anchor : Int} {s s' : ReaderState} {next : Cursor}
    (h : Returned ctx (.intraline anchor) c s .nothing next s') (deep : c.rest.length < depth) :
    (skipIntralineBy ((grammarAt ctx depth).skipComment .directive) anchor c).Returns s next s' :=
  h depth _ deep (Nat.lt_succ_self _)

/-- Every derivable read is returned. -/
theorem Reads.returned {task : Task} {s s' : ReaderState} {y : Yield} {next : Cursor}
    (h : Reads ctx task c s y next s') : Returned ctx task c s y next s' := by
  induction h with
  -- each part starts where less is left to read, which keeps the bounds large enough for it
  | code skipped read ih₁ ih₂ =>
    intro depth deep
    have ahead := skipped.length_le
    exact ReadM.returns_bind.mpr ⟨_, _, ih₁.skipAtmosphere deep, ih₂ depth (by omega)⟩
  | directive read ih =>
    intro depth deep
    exact ih depth deep
  | flat spelled =>
    intro depth deep
    exact readDatumHereBy_of_spells spelled
  | list head opener items ih =>
    intro depth deep
    have shorter := Cursor.length_next_lt head
    rw [readDatumHereBy_of_opener head opener]
    refine ReadM.returns_bind.mpr ⟨_, _, ih depth _ _ (by omega) (by omega), ?_⟩
    exact ReadM.returns_pure.mpr ⟨rfl, rfl⟩
  | abbreviation mark skipped follows read ih₁ ih₂ =>
    intro depth deep
    obtain ⟨some_mark, some_rest⟩ := abbreviation?_mark mark
    have shorter := Cursor.length_advance_lt some_mark some_rest
    have ahead := skipped.length_le
    rw [readDatumHereBy_of_mark mark]
    refine ReadM.returns_bind.mpr ⟨_, _, ih₁.skipAtmosphere (by omega), ?_⟩
    rw [if_neg (by simpa using follows)]
    refine ReadM.returns_bind.mpr ⟨_, _, ih₂.readDatum (by omega), ?_⟩
    exact ReadM.returns_pure.mpr ⟨rfl, rfl⟩
  | @vector mode c s rest items next s' head read ih =>
    intro depth deep
    have shorter := Cursor.length_advance_lt (c := c) (n := 2) (by omega) (by simp [head])
    -- the list is read from its bracket, one character before its first item
    have inside : (c.advance 2).rest.length ≤ (c.advance 1).rest.length :=
      c.length_advance_succ_le 1
    rw [readDatumHereBy_of_vector head, readVectorBy, readListBy_of_mark (k := 1) (by rw [head]; rfl)]
    refine ReadM.returns_bind.mpr ⟨_, _, ih depth _ _ (by omega) (by omega), ?_⟩
    exact ReadM.returns_pure.mpr ⟨rfl, rfl⟩
  | @bytevector mode c s rest items elements next s' head read bytes ih =>
    intro depth deep
    have shorter := Cursor.length_advance_lt (c := c) (n := 4) (by omega) (by simp [head])
    have inside : (c.advance 4).rest.length ≤ (c.advance 3).rest.length :=
      c.length_advance_succ_le 3
    rw [readDatumHereBy_of_bytevector head, readBytevectorBy,
      readListBy_of_mark (k := 3) (by rw [head]; rfl)]
    refine ReadM.returns_bind.mpr ⟨_, _, ih depth _ _ (by omega) (by omega), ?_⟩
    simp only [bytes]
    exact ReadM.returns_pure.mpr ⟨rfl, rfl⟩
  | @close mode closer parts c s c₁ s₁ rest skipped head closes ih =>
    intro depth rounds start deep enough
    obtain ⟨items, tail⟩ := parts
    -- there are more rounds than code points left, so at least one of them is there to be used up
    obtain ⟨rounds, rfl⟩ : ∃ k, rounds = k + 1 := ⟨rounds - 1, by omega⟩
    refine ReadM.returns_bind.mpr ⟨_, _, ih.skipAtmosphere (by omega), ?_⟩
    simp [head, closes]
  | dot skipped head lone some_item skipped₂ follows read others ih₁ ih₂ ih₃ ih₄ =>
    intro depth rounds start deep enough
    obtain ⟨rounds, rfl⟩ : ∃ k, rounds = k + 1 := ⟨rounds - 1, by omega⟩
    have ahead := skipped.length_le
    have nearer := Cursor.length_next_lt head
    have ahead₂ := skipped₂.length_le
    have shorter := read.length_lt rfl
    refine (readItemsFor_at_dot (ih₁.skipAtmosphere (by omega)) head lone some_item).returns ?_
    refine ReadM.returns_bind.mpr ⟨_, _, ih₂.skipAtmosphere (by omega), ?_⟩
    rw [if_neg (by simpa using follows)]
    refine ReadM.returns_bind.mpr ⟨_, _, ih₃.readDatum (by omega), ?_⟩
    exact ih₄ depth rounds start (by omega) (by omega)
  | item skipped head open_ no_dot read others ih₁ ih₂ ih₃ =>
    intro depth rounds start deep enough
    obtain ⟨rounds, rfl⟩ : ∃ k, rounds = k + 1 := ⟨rounds - 1, by omega⟩
    have ahead := skipped.length_le
    have shorter := read.length_lt rfl
    refine (readItemsFor_at_item (ih₁.skipAtmosphere (by omega)) head open_ no_dot).returns ?_
    refine ReadM.returns_bind.mpr ⟨_, _, ih₂.readDatum (by omega), ?_⟩
    exact ih₃ depth rounds start (by omega) (by omega)
  | blank head white others ih =>
    intro depth rounds deep enough
    obtain ⟨rounds, rfl⟩ : ∃ k, rounds = k + 1 := ⟨rounds - 1, by omega⟩
    have shorter := Cursor.length_next_lt head
    unfold skipAtmosphereFor
    rw [if_pos (by simp [head, white])]
    exact ih depth rounds (by omega) (by omega)
  | remark visible skipped others ih₁ ih₂ =>
    intro depth rounds deep enough
    obtain ⟨rounds, rfl⟩ : ∃ k, rounds = k + 1 := ⟨rounds - 1, by omega⟩
    have shorter := skipped.length_lt rfl
    unfold skipAtmosphereFor
    rw [if_neg (by simp [visible])]
    refine ReadM.returns_bind.mpr ⟨_, _, ih₁ depth deep, ?_⟩
    exact ih₂ depth rounds (by omega) (by omega)
  | clear visible none_starts =>
    intro depth rounds deep enough
    obtain ⟨rounds, rfl⟩ : ∃ k, rounds = k + 1 := ⟨rounds - 1, by omega⟩
    unfold skipAtmosphereFor
    rw [if_neg (by simp [visible])]
    refine ReadM.returns_bind.mpr ⟨_, _, skipCommentBy_of_clear none_starts _, ?_⟩
    exact ReadM.returns_pure.mpr ⟨rfl, rfl⟩
  | lineComment head =>
    intro depth deep
    unfold skipCommentBy
    simp only [head]
    exact ReadM.returns_pure.mpr ⟨rfl, rfl⟩
  | blockComment head ends =>
    intro depth deep
    unfold skipCommentBy skipBlockComment
    simp only [head]
    rw [← head, ends]
    exact ReadM.returns_map.mpr ⟨_, ReadM.returns_pure.mpr ⟨rfl, rfl⟩, rfl⟩
  | @datumComment c s rest d next s' head read ih =>
    intro depth deep
    have shorter := Cursor.length_advance_lt (c := c) (n := 2) (by omega) (by simp [head])
    rw [skipCommentBy_of_datumComment head]
    refine ReadM.returns_map.mpr ⟨_, ?_, rfl⟩
    refine ReadM.returns_bind.mpr ⟨_, _, ih.readDatum (by omega), ?_⟩
    exact ReadM.returns_pure.mpr ⟨rfl, rfl⟩
  | @emptyComment c s rest c₁ s₁ head skipped ended ih =>
    intro depth deep
    have shorter := Cursor.length_advance_lt (c := c) (n := 2) (by omega) (by simp [head])
    rw [skipCommentBy_of_datumComment head]
    refine ReadM.returns_map.mpr ⟨_, ?_, rfl⟩
    refine ReadM.returns_bind.mpr ⟨_, _, ih.skipIntraline (by omega), ?_⟩
    rw [if_pos ended]
    exact ReadM.returns_pure.mpr ⟨rfl, rfl⟩
  | @lineDatumComment c s rest c₁ s₁ d next s' head skipped same follows read ih₁ ih₂ =>
    intro depth deep
    have shorter := Cursor.length_advance_lt (c := c) (n := 2) (by omega) (by simp [head])
    have ahead := skipped.length_le
    rw [skipCommentBy_of_datumComment head]
    refine ReadM.returns_map.mpr ⟨_, ?_, rfl⟩
    refine (skipDatumComment_at_datum (ih₁.skipIntraline (by omega)) same follows).returns ?_
    refine ReadM.returns_bind.mpr ⟨_, _, ih₂.readDatum (by omega), ?_⟩
    exact ReadM.returns_pure.mpr ⟨rfl, rfl⟩
  | @marker mode c s rest m head found =>
    intro depth deep
    have after : (c.advance 2).rest = rest := by rw [Cursor.rest_advance, head]; rfl
    rw [skipCommentBy_of_marker head]
    unfold skipMarker
    simp only [after, found]
    -- the word is counted from the start of the marker
    rw [Cursor.advance_add]
    split
    · refine ReadM.returns_bind.mpr ⟨(), _, ReadM.returns_modify.mpr rfl, ?_⟩
      refine ReadM.returns_bind.mpr ⟨(), _, ReadM.returns_emit.mpr rfl, ?_⟩
      exact ReadM.returns_pure.mpr ⟨rfl, rfl⟩
    · refine ReadM.returns_bind.mpr ⟨(), _, ReadM.returns_emit.mpr rfl, ?_⟩
      exact ReadM.returns_pure.mpr ⟨rfl, rfl⟩
  | @lineDirective c s rest ds last s₁ s' head unnamed starts scanned kept ih =>
    intro depth deep
    have shorter := Cursor.length_advance_lt (c := c) (n := 2) (by omega) (by simp [head])
    rw [skipCommentBy_of_directive head unnamed starts]
    refine ReadM.returns_bind.mpr ⟨_, s₁, returns_scanDirectiveBy.mpr
      ⟨ds, last, ih depth _ (by omega) (Nat.lt_succ_self _), rfl, rfl⟩, ?_⟩
    refine ReadM.returns_bind.mpr ⟨(), s', kept, ?_⟩
    exact ReadM.returns_pure.mpr ⟨rfl, rfl⟩
  | intralineBlank head white others ih =>
    intro depth rounds deep enough
    obtain ⟨rounds, rfl⟩ : ∃ k, rounds = k + 1 := ⟨rounds - 1, by omega⟩
    have shorter := Cursor.length_next_lt head
    unfold skipIntralineFor
    rw [if_pos (by simp [head, white])]
    exact ih depth rounds (by omega) (by omega)
  | intralineComment visible skipped same others ih₁ ih₂ =>
    intro depth rounds deep enough
    obtain ⟨rounds, rfl⟩ : ∃ k, rounds = k + 1 := ⟨rounds - 1, by omega⟩
    have shorter := skipped.length_lt rfl
    unfold skipIntralineFor
    rw [if_neg (by simp [visible])]
    refine ReadM.returns_bind.mpr ⟨_, _, ih₁.skipComment deep, ?_⟩
    simp only
    rw [if_neg (by simp [same])]
    exact ih₂ depth rounds (by omega) (by omega)
  | crossingComment visible skipped left ih =>
    intro depth rounds deep enough
    obtain ⟨rounds, rfl⟩ : ∃ k, rounds = k + 1 := ⟨rounds - 1, by omega⟩
    unfold skipIntralineFor
    rw [if_neg (by simp [visible])]
    refine ReadM.returns_bind.mpr ⟨_, _, ih.skipComment deep, ?_⟩
    simp only
    rw [if_pos left]
    exact ReadM.returns_pure.mpr ⟨rfl, rfl⟩
  | intralineClear visible none_starts =>
    intro depth rounds deep enough
    obtain ⟨rounds, rfl⟩ : ∃ k, rounds = k + 1 := ⟨rounds - 1, by omega⟩
    -- only at a positive depth does the grammar look for a comment at all
    obtain ⟨depth, rfl⟩ : ∃ k, depth = k + 1 := ⟨depth - 1, by omega⟩
    unfold skipIntralineFor
    rw [if_neg (by simp [visible])]
    refine ReadM.returns_bind.mpr ⟨_, _, skipCommentBy_of_clear none_starts _, ?_⟩
    exact ReadM.returns_pure.mpr ⟨rfl, rfl⟩
  | lastDatum skipped ended ih =>
    intro depth rounds deep enough
    obtain ⟨rounds, rfl⟩ : ∃ k, rounds = k + 1 := ⟨rounds - 1, by omega⟩
    refine ReadM.returns_bind.mpr ⟨_, _, ih.skipIntraline deep, ?_⟩
    rw [if_pos ended]
    refine ReadM.returns_bind.mpr ⟨(), _, ReadM.returns_emit.mpr rfl, ?_⟩
    exact ReadM.returns_pure.mpr ⟨rfl, rfl⟩
  | crossingDatum skipped same follows read left allowed ih₁ ih₂ =>
    intro depth rounds deep enough
    obtain ⟨rounds, rfl⟩ : ∃ k, rounds = k + 1 := ⟨rounds - 1, by omega⟩
    have ahead := skipped.length_le
    refine (scanDatumsFor_at_datum (ih₁.skipIntraline deep) same follows).returns ?_
    refine ReadM.returns_bind.mpr ⟨_, _, returns_readDirectiveDatum.mpr
      ⟨_, ih₂.readDatum (by omega), .inr ⟨left, allowed, rfl⟩⟩, ?_⟩
    simp only [List.length_append, List.length_singleton]
    refine ReadM.returns_bind.mpr ⟨(), _, ReadM.returns_emit.mpr rfl, ?_⟩
    rw [if_pos left]
    refine ReadM.returns_bind.mpr ⟨(), _, ReadM.returns_emit.mpr rfl, ?_⟩
    exact ReadM.returns_pure.mpr ⟨rfl, rfl⟩
  | lineDatum skipped same follows read stays others ih₁ ih₂ ih₃ =>
    intro depth rounds deep enough
    obtain ⟨rounds, rfl⟩ : ∃ k, rounds = k + 1 := ⟨rounds - 1, by omega⟩
    have ahead := skipped.length_le
    have shorter := read.length_lt rfl
    refine (scanDatumsFor_at_datum (ih₁.skipIntraline deep) same follows).returns ?_
    refine ReadM.returns_bind.mpr ⟨_, _, returns_readDirectiveDatum.mpr
      ⟨_, ih₂.readDatum (by omega), .inl ⟨stays, rfl⟩⟩, ?_⟩
    simp only [List.length_append, List.length_singleton]
    refine ReadM.returns_bind.mpr ⟨(), _, ReadM.returns_emit.mpr rfl, ?_⟩
    rw [if_neg (by simp [stays])]
    refine ReadM.returns_bind.mpr ⟨(), _, ReadM.returns_emit.mpr rfl, ?_⟩
    exact ih₃ depth rounds (by omega) (by omega)

theorem Returned.unique {task : Task} {s t t' : ReaderState} {y y' : Yield} {a b : Cursor}
    (h : Returned ctx task c s y a t) (h' : Returned ctx task c s y' b t') :
    y = y' ∧ a = b ∧ t = t' := by
  have deep := Nat.lt_succ_self c.rest.length
  -- at the least bounds that are enough both are outcomes of one action
  cases task with
  | datum mode =>
    match y, y', h, h' with
    | .datum _, .datum _, h, h' =>
      obtain ⟨same, rfl⟩ := (h _ (Nat.le_refl _)).unique (h' _ (Nat.le_refl _))
      cases same
      exact ⟨rfl, rfl, rfl⟩
  | here mode =>
    match y, y', h, h' with
    | .datum _, .datum _, h, h' =>
      obtain ⟨same, rfl⟩ := (h _ (Nat.le_refl _)).unique (h' _ (Nat.le_refl _))
      cases same
      exact ⟨rfl, rfl, rfl⟩
  | items mode closer read =>
    match y, y', h, h' with
    | .parts _, .parts _, h, h' =>
      obtain ⟨same, rfl⟩ := (h _ _ .start deep deep).unique (h' _ _ .start deep deep)
      cases same
      exact ⟨rfl, rfl, rfl⟩
  | atmosphere mode =>
    match y, y', h, h' with
    | .nothing, .nothing, h, h' =>
      obtain ⟨same, rfl⟩ := (h _ _ (Nat.le_refl _) deep).unique (h' _ _ (Nat.le_refl _) deep)
      exact ⟨rfl, same, rfl⟩
  | comment mode =>
    match y, y', h, h' with
    | .nothing, .nothing, h, h' =>
      obtain ⟨same, rfl⟩ := (h _ (Nat.le_refl _)).unique (h' _ (Nat.le_refl _))
      cases same
      exact ⟨rfl, rfl, rfl⟩
  | intraline anchor =>
    match y, y', h, h' with
    | .nothing, .nothing, h, h' =>
      obtain ⟨same, rfl⟩ := (h _ _ deep deep).unique (h' _ _ deep deep)
      exact ⟨rfl, same, rfl⟩
  | datums anchor before =>
    match y, y', h, h' with
    | .datums _, .datums _, h, h' =>
      obtain ⟨same, rfl⟩ := (h _ _ deep deep).unique (h' _ _ deep deep)
      cases same
      exact ⟨rfl, rfl, rfl⟩

/-- A read has one outcome. -/
theorem Reads.unique {task : Task} {s t t' : ReaderState} {y y' : Yield} {a b : Cursor}
    (h : Reads ctx task c s y a t) (h' : Reads ctx task c s y' b t') :
    y = y' ∧ a = b ∧ t = t' := h.returned.unique h'.returned

end Completeness

/-! ## 3. The reader's operations -/

namespace Reader

variable {ctx : Context} {mode : Mode} {c next : Cursor} {s s' : ReaderState}

theorem returns_readDatum {d : Datum} :
    (readDatum ctx mode c).Returns s (d, next) s' ↔
      Reads ctx (.datum mode) c s (.datum d) next s' :=
  ⟨(grammarAt_sound ctx _).datum (Nat.lt_succ_self _),
    fun h => h.returned.readDatum (Nat.lt_succ_self _)⟩

theorem returns_skipComment :
    (skipComment ctx mode c).Returns s (some next) s' ↔
      Reads ctx (.comment mode) c s .nothing next s' :=
  ⟨(grammarAt_sound ctx _).comment (Nat.lt_succ_self _),
    fun h => h.returned.skipComment (Nat.lt_succ_self _)⟩

theorem returns_skipIntraline {anchor : Int} :
    (skipIntraline ctx anchor c).Returns s next s' ↔
      Reads ctx (.intraline anchor) c s .nothing next s' :=
  ⟨skipIntralineBy_sound (grammarAt_sound ctx _) (Nat.lt_succ_self _),
    fun h => h.returned.skipIntraline (Nat.lt_succ_self _)⟩

theorem returns_scanDirective {d : Directive} :
    (scanDirective ctx c).Returns s (d, next) s' ↔
      ∃ ds last, Reads ctx (.datums c.position.line []) c
          (s.emit (.phase .start .skipping c.position)) (.datums ds) last s' ∧
        d = ⟨ds, some c.position.beforeMarker⟩ ∧
        next = last.afterDirective c.position.line := by
  unfold scanDirective
  rw [returns_scanDirectiveBy]
  constructor
  · rintro ⟨ds, last, scanned, rest⟩
    exact ⟨ds, last, scanDatumsFor_sound (grammarAt_sound ctx _) (Nat.lt_succ_self _)
      (Nat.lt_succ_self _) scanned, rest⟩
  · rintro ⟨ds, last, scanned, rest⟩
    exact ⟨ds, last, scanned.returned _ _ (Nat.lt_succ_self _) (Nat.lt_succ_self _), rest⟩

end Reader

end LineDirective
