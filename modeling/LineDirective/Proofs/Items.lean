import LineDirective.Proofs.FailureAdequacy
import LineDirective.Session

/-!
# The items of a source

`Finds ctx c s item next s'` says that the next top-level item from the cursor `c` on is `item`, and
`Misses ctx c s e s'` that looking for it ends with the failure `e`. Like the rules for reads they know
no bound on rounds. A search that ends is one or the other (`finds_of_nextItem`,
`misses_of_nextItem`), what is found is returned (`Finds.nextItem`), and the end of the input is found
only where nothing is left.
-/

namespace LineDirective

/-! ## 1. Rules -/

/-- The state in which what stands at a cursor is looked at as a comment or a datum: a `#!` there has
been reported as no directive. -/
def ReaderState.declining (c : Cursor) (s : ReaderState) : ReaderState :=
  if Text.startsWith c.rest directiveMarker then s.emit (.declined (c.advance 2).position) else s

@[simp] theorem ReaderState.foldCase_declining (c : Cursor) (s : ReaderState) :
    (s.declining c).foldCase = s.foldCase := by
  unfold declining
  split <;> rfl

@[simp] theorem ReaderState.directives_declining (c : Cursor) (s : ReaderState) :
    (s.declining c).directives = s.directives := by
  unfold declining
  split <;> rfl

inductive Finds (ctx : Context) : Cursor → ReaderState → Item → Cursor → ReaderState → Prop
  | ended {c s} (nothing : c.rest = []) : Finds ctx c s .endOfInput c s
  | blank {c s x rest item next s'} (head : c.rest = x :: rest) (white : x.isBlank = true)
      (others : Finds ctx c.next s item next s') : Finds ctx c s item next s'
  | directive {c s rest ds last s₁ s'} (head : c.rest = .scalar '#' :: .scalar '!' :: rest)
      (starts : startsDirective ctx.policy.whitespace rest = true)
      (scanned : Reads ctx (.datums (c.advance 2).position.line []) (c.advance 2)
        (s.emit (.phase .start .skipping (c.advance 2).position)) (.datums ds) last s₁)
      (kept : (ctx.record ⟨ds, some (c.advance 2).position.beforeMarker⟩).Returns s₁ () s') :
      Finds ctx c s (.directive ⟨ds, some (c.advance 2).position.beforeMarker⟩)
        (last.afterDirective (c.advance 2).position.line) s'
  | comment {c s c₁ s₁ item next s'} (visible : c.rest.head?.any CodePoint.isBlank = false)
      (no_directive : atDirective ctx.policy.whitespace c = false)
      (skipped : Reads ctx (.comment .code) c (s.declining c) .nothing c₁ s₁)
      (others : Finds ctx c₁ s₁ item next s') : Finds ctx c s item next s'
  | datum {c s d next s'} (some_rest : c.rest ≠ [])
      (visible : c.rest.head?.any CodePoint.isBlank = false)
      (none_starts : startsComment ctx.policy.whitespace .code c.rest = false)
      (read : Reads ctx (.datum .code) c (s.declining c) (.datum d) next s') :
      Finds ctx c s (.datum d) next s'

/-- The search for the next item of a source fails. -/
inductive Misses (ctx : Context) : Cursor → ReaderState → Failure → ReaderState → Prop
  | blank {c s x rest e s'} (head : c.rest = x :: rest) (white : x.isBlank = true)
      (others : Misses ctx c.next s e s') : Misses ctx c s e s'
  | directive {c s rest e s'} (head : c.rest = .scalar '#' :: .scalar '!' :: rest)
      (starts : startsDirective ctx.policy.whitespace rest = true)
      (scan : Fails ctx c.position (.datums (c.advance 2).position.line []) (c.advance 2)
        (s.emit (.phase .start .skipping (c.advance 2).position)) e s') : Misses ctx c s e s'
  | unrecorded {c s rest ds last s₁ e s'} (head : c.rest = .scalar '#' :: .scalar '!' :: rest)
      (starts : startsDirective ctx.policy.whitespace rest = true)
      (scanned : Reads ctx (.datums (c.advance 2).position.line []) (c.advance 2)
        (s.emit (.phase .start .skipping (c.advance 2).position)) (.datums ds) last s₁)
      (failed : (ctx.record ⟨ds, some (c.advance 2).position.beforeMarker⟩).Raises s₁ e s') :
      Misses ctx c s e s'
  | commentSkip {c s e s'} (visible : c.rest.head?.any CodePoint.isBlank = false)
      (no_directive : atDirective ctx.policy.whitespace c = false)
      (skip : Fails ctx c.position (.comment .code) c (s.declining c) e s') : Misses ctx c s e s'
  | comment {c s c₁ s₁ e s'} (visible : c.rest.head?.any CodePoint.isBlank = false)
      (no_directive : atDirective ctx.policy.whitespace c = false)
      (skipped : Reads ctx (.comment .code) c (s.declining c) .nothing c₁ s₁)
      (others : Misses ctx c₁ s₁ e s') : Misses ctx c s e s'
  | datum {c s e s'} (some_rest : c.rest ≠ [])
      (visible : c.rest.head?.any CodePoint.isBlank = false)
      (none_starts : startsComment ctx.policy.whitespace .code c.rest = false)
      (read : Fails ctx c.position (.datum .code) c (s.declining c) e s') : Misses ctx c s e s'

/-! ## 2. One round of the search -/

section Rounds

variable {ctx : Context} {c next : Cursor} {item : Item} {s s' : ReaderState} {e : Failure}
  {rounds : Nat}

theorem Reader.skips_of_skipComment {mode : Mode} {r : Option Cursor}
    (h : (skipComment ctx mode c).Returns s r s') : Skips ctx mode c s r s' :=
  (grammarAt_sound ctx _).comment (Nat.lt_succ_self _) h

theorem startsWith_directiveMarker {t : Text} :
    Text.startsWith t directiveMarker = true ↔
      ∃ rest, t = .scalar '#' :: .scalar '!' :: rest := by
  have marker : directiveMarker = [.scalar '#', .scalar '!'] := rfl
  rw [Text.startsWith, List.isPrefixOf_iff_prefix, marker]
  constructor
  · rintro ⟨rest, rfl⟩
    exact ⟨rest, rfl⟩
  · rintro ⟨rest, rfl⟩
    exact ⟨rest, rfl⟩

def commentOrDatumFor (ctx : Context) (rounds : Nat) (c : Cursor) : ReadM (Item × Cursor) := do
  match ← Reader.skipComment ctx .code c with
  | some next => nextItemFor ctx rounds next
  | none =>
    let (d, next) ← Reader.readDatum ctx .code c
    return (.datum d, next)

theorem nextItemFor_of_blank {x : CodePoint} {rest : Text} (head : c.rest = x :: rest)
    (white : x.isBlank = true) : nextItemFor ctx (rounds + 1) c = nextItemFor ctx rounds c.next := by
  rw [nextItemFor]
  simp only [head]
  rw [if_pos white]

theorem nextItemFor_of_directive {rest : Text}
    (head : c.rest = .scalar '#' :: .scalar '!' :: rest)
    (starts : startsDirective ctx.policy.whitespace rest = true) :
    nextItemFor ctx (rounds + 1) c = (do
      let (d, next) ← Reader.scanDirective ctx (c.advance 2)
      ctx.record d
      return (.directive d, next)) := by
  have after : (c.advance directiveMarker.length).rest = rest := by
    rw [Cursor.rest_advance, head]
    rfl
  rw [nextItemFor]
  simp only [head]
  rw [if_neg (by decide), if_pos (startsWith_directiveMarker.mpr ⟨rest, rfl⟩), Reader.readDirective?,
    if_pos (by rw [after]; exact starts)]
  simp only [bind_map_left]
  rfl

theorem nextItemFor_of_plain {x : CodePoint} {rest : Text} (head : c.rest = x :: rest)
    (visible : x.isBlank = false) (no_directive : atDirective ctx.policy.whitespace c = false) :
    nextItemFor ctx (rounds + 1) c = (do
      if Text.startsWith c.rest directiveMarker then
        ReadM.emit (.declined (c.advance 2).position)
      commentOrDatumFor ctx rounds c) := by
  rw [nextItemFor]
  simp only [head]
  rw [if_neg (by simp [visible])]
  split
  · rename_i marked
    obtain ⟨after, same⟩ := startsWith_directiveMarker.mp marked
    have rest_after : (c.advance directiveMarker.length).rest = after := by
      rw [Cursor.rest_advance, head, same]
      rfl
    have declined : startsDirective ctx.policy.whitespace after = false := by
      rw [Bool.eq_false_iff]
      intro starts
      have : atDirective ctx.policy.whitespace c = true :=
        atDirective_iff.mpr ⟨after, head.trans same, starts⟩
      rw [no_directive] at this
      cases this
    rw [Reader.readDirective?, if_neg (by rw [rest_after, declined]; decide), Reader.decline]
    simp only [bind_assoc, pure_bind]
    rfl
  · rfl

/-- The report of a declined marker is the only thing done before the look at a comment or datum. -/
theorem returns_declining {β : Type} {b : β} {m : ReadM β} :
    (do
      if Text.startsWith c.rest directiveMarker then
        ReadM.emit (.declined (c.advance 2).position)
      m).Returns s b s' ↔ m.Returns (s.declining c) b s' := by
  unfold ReaderState.declining
  split <;> simp

theorem raises_declining {β : Type} {m : ReadM β} :
    (do
      if Text.startsWith c.rest directiveMarker then
        ReadM.emit (.declined (c.advance 2).position)
      m).Raises s e s' ↔ m.Raises (s.declining c) e s' := by
  unfold ReaderState.declining
  split <;> simp

/-! ## 3. The search keeps to the rules -/

theorem finds_of_nextItemFor (enough : c.rest.length < rounds)
    (h : (nextItemFor ctx rounds c).Returns s (item, next) s') : Finds ctx c s item next s' := by
  induction rounds generalizing c s with
  | zero => omega
  | succ rounds ih =>
    cases head : c.rest with
    | nil =>
      rw [nextItemFor] at h
      simp only [head] at h
      obtain ⟨same, rfl⟩ := ReadM.returns_pure.mp h
      cases same
      exact .ended head
    | cons x rest =>
      have shorter := Cursor.length_next_lt head
      cases white : x.isBlank with
      | true =>
        rw [nextItemFor_of_blank head white] at h
        exact .blank head white (ih (by omega) h)
      | false =>
        have visible : c.rest.head?.any CodePoint.isBlank = false := by rw [head]; exact white
        cases starts : atDirective ctx.policy.whitespace c with
        | true =>
          obtain ⟨after, head, starts⟩ := atDirective_iff.mp starts
          rw [nextItemFor_of_directive head starts] at h
          obtain ⟨⟨d, stop⟩, s₁, scanned, rest⟩ := ReadM.returns_bind.mp h
          obtain ⟨_, s₂, kept, done⟩ := ReadM.returns_bind.mp rest
          obtain ⟨same, rfl⟩ := ReadM.returns_pure.mp done
          cases same
          obtain ⟨ds, last, reads, rfl, rfl⟩ := Reader.returns_scanDirective.mp scanned
          exact .directive head starts reads kept
        | false =>
          rw [nextItemFor_of_plain head white starts, returns_declining] at h
          obtain ⟨r, s₁, skipped, rest⟩ := ReadM.returns_bind.mp h
          have skip := Reader.skips_of_skipComment skipped
          cases r with
          | some c₁ =>
            have := Reads.length_lt skip rfl
            exact .comment visible starts skip (ih (by omega) rest)
          | none =>
            obtain ⟨none_starts, rfl⟩ := skip
            obtain ⟨⟨d, stop⟩, s₂, read, done⟩ := ReadM.returns_bind.mp rest
            obtain ⟨same, rfl⟩ := ReadM.returns_pure.mp done
            cases same
            exact .datum (by simp [head]) visible none_starts (Reader.returns_readDatum.mp read)

theorem misses_of_nextItemFor (enough : c.rest.length < rounds)
    (h : (nextItemFor ctx rounds c).Raises s e s') : Misses ctx c s e s' := by
  induction rounds generalizing c s with
  | zero => omega
  | succ rounds ih =>
    cases head : c.rest with
    | nil =>
      rw [nextItemFor] at h
      simp [head] at h
    | cons x rest =>
      have shorter := Cursor.length_next_lt head
      cases white : x.isBlank with
      | true =>
        rw [nextItemFor_of_blank head white] at h
        exact .blank head white (ih (by omega) h)
      | false =>
        have visible : c.rest.head?.any CodePoint.isBlank = false := by rw [head]; exact white
        cases starts : atDirective ctx.policy.whitespace c with
        | true =>
          obtain ⟨after, head, starts⟩ := atDirective_iff.mp starts
          rw [nextItemFor_of_directive head starts] at h
          obtain failed | ⟨⟨d, stop⟩, s₁, scanned, rest⟩ := ReadM.raises_bind.mp h
          · exact .directive head starts ((Reader.raises_scanDirective c.position).mp failed)
          · obtain ⟨ds, last, reads, rfl, rfl⟩ := Reader.returns_scanDirective.mp scanned
            obtain failed | ⟨_, s₂, _, done⟩ := ReadM.raises_bind.mp rest
            · exact .unrecorded head starts reads failed
            · cases ReadM.raises_pure.mp done
        | false =>
          rw [nextItemFor_of_plain head white starts, raises_declining] at h
          obtain failed | ⟨r, s₁, skipped, rest⟩ := ReadM.raises_bind.mp h
          · exact .commentSkip visible starts ((Reader.raises_skipComment c.position).mp failed)
          · have skip := Reader.skips_of_skipComment skipped
            cases r with
            | some c₁ =>
              have := Reads.length_lt skip rfl
              exact .comment visible starts skip (ih (by omega) rest)
            | none =>
              obtain ⟨none_starts, rfl⟩ := skip
              obtain failed | ⟨_, s₂, _, done⟩ := ReadM.raises_bind.mp rest
              · exact .datum (by simp [head]) visible none_starts
                  ((Reader.raises_readDatum c.position).mp failed)
              · cases ReadM.raises_pure.mp done

theorem finds_of_nextItem (h : (nextItem ctx c).Returns s (item, next) s') :
    Finds ctx c s item next s' :=
  finds_of_nextItemFor (Nat.lt_succ_self _) h

theorem misses_of_nextItem (h : (nextItem ctx c).Raises s e s') : Misses ctx c s e s' :=
  misses_of_nextItemFor (Nat.lt_succ_self _) h

/-- In code a directive counts as a comment. -/
theorem atDirective_eq_false_of_clear {policy : WhitespacePolicy}
    (none_starts : startsComment policy .code c.rest = false) : atDirective policy c = false := by
  rw [Bool.eq_false_iff]
  intro starts
  obtain ⟨rest, head, starts⟩ := atDirective_iff.mp starts
  simp [startsComment, head, starts] at none_starts

theorem Finds.nextItemFor (h : Finds ctx c s item next s') (enough : c.rest.length < rounds) :
    (nextItemFor ctx rounds c).Returns s (item, next) s' := by
  -- by induction on the rules: every round of the search is one of them
  induction h generalizing rounds with
  | ended nothing =>
    obtain ⟨rounds, rfl⟩ : ∃ n, rounds = n + 1 := ⟨rounds - 1, by omega⟩
    rw [LineDirective.nextItemFor]
    simp [nothing]
  | blank head white _ ih =>
    obtain ⟨rounds, rfl⟩ : ∃ n, rounds = n + 1 := ⟨rounds - 1, by omega⟩
    have shorter := Cursor.length_next_lt head
    rw [nextItemFor_of_blank head white]
    exact ih (by omega)
  | directive head starts scanned kept =>
    obtain ⟨rounds, rfl⟩ : ∃ n, rounds = n + 1 := ⟨rounds - 1, by omega⟩
    have scan := Reader.returns_scanDirective.mpr ⟨_, _, scanned, rfl, rfl⟩
    rw [nextItemFor_of_directive head starts]
    exact ReadM.returns_bind.mpr ⟨_, _, scan, ReadM.returns_bind.mpr ⟨(), _, kept, by simp⟩⟩
  | @comment c s _ _ _ _ _ visible no_directive skipped _ ih =>
    obtain ⟨rounds, rfl⟩ : ∃ n, rounds = n + 1 := ⟨rounds - 1, by omega⟩
    have shorter := skipped.length_lt rfl
    obtain ⟨x, rest, head⟩ : ∃ x rest, c.rest = x :: rest :=
      List.exists_cons_of_length_pos (by omega)
    rw [head] at visible
    rw [nextItemFor_of_plain head visible no_directive, returns_declining]
    exact ReadM.returns_bind.mpr ⟨_, _, Reader.returns_skipComment.mpr skipped, ih (by omega)⟩
  | @datum c s _ _ _ some_rest visible none_starts read =>
    obtain ⟨rounds, rfl⟩ : ∃ n, rounds = n + 1 := ⟨rounds - 1, by omega⟩
    obtain ⟨x, rest, head⟩ := List.exists_cons_of_ne_nil some_rest
    have no_directive := atDirective_eq_false_of_clear none_starts
    have none_skipped : (Reader.skipComment ctx .code c).Returns (s.declining c) none
        (s.declining c) := skipCommentBy_of_clear none_starts _
    rw [head] at visible
    rw [nextItemFor_of_plain head visible no_directive, returns_declining]
    refine ReadM.returns_bind.mpr ⟨_, _, none_skipped, ?_⟩
    exact ReadM.returns_bind.mpr ⟨_, _, Reader.returns_readDatum.mpr read, by simp⟩

theorem Finds.nextItem (h : Finds ctx c s item next s') :
    (nextItem ctx c).Returns s (item, next) s' :=
  h.nextItemFor (Nat.lt_succ_self _)

theorem Fails.exists_head_of_comment {mode : Mode} {opened : Position}
    (h : Fails ctx opened (.comment mode) c s e s') : ∃ x rest, c.rest = x :: rest := by
  cases h with
  | blockComment head _ | datumComment head _ | lineDatumSkip head _
  | lineDatumComment head _ _ _ _ | lineDirective head _ _ _ | unrecorded head _ _ _ _ =>
    exact ⟨_, _, head⟩

theorem Misses.nextItemFor (h : Misses ctx c s e s') (enough : c.rest.length < rounds) :
    (nextItemFor ctx rounds c).Raises s e s' := by
  -- by induction on the rules as well: the round that fails is the last one
  induction h generalizing rounds with
  | blank head white _ ih =>
    obtain ⟨rounds, rfl⟩ : ∃ n, rounds = n + 1 := ⟨rounds - 1, by omega⟩
    have shorter := Cursor.length_next_lt head
    rw [nextItemFor_of_blank head white]
    exact ih (by omega)
  | directive head starts scan =>
    obtain ⟨rounds, rfl⟩ : ∃ n, rounds = n + 1 := ⟨rounds - 1, by omega⟩
    rw [nextItemFor_of_directive head starts]
    exact ReadM.raises_bind.mpr (.inl ((Reader.raises_scanDirective _).mpr scan))
  | unrecorded head starts scanned failed =>
    obtain ⟨rounds, rfl⟩ : ∃ n, rounds = n + 1 := ⟨rounds - 1, by omega⟩
    have scan := Reader.returns_scanDirective.mpr ⟨_, _, scanned, rfl, rfl⟩
    rw [nextItemFor_of_directive head starts]
    exact ReadM.raises_bind.mpr (.inr ⟨_, _, scan, ReadM.raises_bind.mpr (.inl failed)⟩)
  | commentSkip visible no_directive skip =>
    obtain ⟨rounds, rfl⟩ : ∃ n, rounds = n + 1 := ⟨rounds - 1, by omega⟩
    obtain ⟨x, rest, head⟩ := skip.exists_head_of_comment
    rw [head] at visible
    rw [nextItemFor_of_plain head visible no_directive, raises_declining]
    exact ReadM.raises_bind.mpr (.inl ((Reader.raises_skipComment _).mpr skip))
  | @comment c _ _ _ _ _ visible no_directive skipped _ ih =>
    obtain ⟨rounds, rfl⟩ : ∃ n, rounds = n + 1 := ⟨rounds - 1, by omega⟩
    have shorter := skipped.length_lt rfl
    obtain ⟨x, rest, head⟩ : ∃ x rest, c.rest = x :: rest :=
      List.exists_cons_of_length_pos (by omega)
    rw [head] at visible
    rw [nextItemFor_of_plain head visible no_directive, raises_declining]
    exact ReadM.raises_bind.mpr (.inr ⟨_, _, Reader.returns_skipComment.mpr skipped, ih (by omega)⟩)
  | @datum c s _ _ some_rest visible none_starts read =>
    obtain ⟨rounds, rfl⟩ : ∃ n, rounds = n + 1 := ⟨rounds - 1, by omega⟩
    obtain ⟨x, rest, head⟩ := List.exists_cons_of_ne_nil some_rest
    have no_directive := atDirective_eq_false_of_clear none_starts
    have none_skipped : (Reader.skipComment ctx .code c).Returns (s.declining c) none
        (s.declining c) := skipCommentBy_of_clear none_starts _
    rw [head] at visible
    rw [nextItemFor_of_plain head visible no_directive, raises_declining]
    refine ReadM.raises_bind.mpr (.inr ⟨_, _, none_skipped, ?_⟩)
    exact ReadM.raises_bind.mpr (.inl ((Reader.raises_readDatum _).mpr read))

theorem Misses.nextItem (h : Misses ctx c s e s') : (nextItem ctx c).Raises s e s' :=
  h.nextItemFor (Nat.lt_succ_self _)

end Rounds

namespace Finds

variable {ctx : Context} {c next : Cursor} {item : Item} {s s' : ReaderState}

theorem reaches (h : Finds ctx c s item next s') : c.Reaches next := by
  induction h with
  | ended => exact .refl _
  | blank _ _ _ ih => exact (Cursor.reaches_next _).trans ih
  | @directive c _ _ _ last _ _ _ _ scanned _ =>
    exact (c.reaches_advance 2).trans
      (scanned.reaches.trans (last.reaches_afterDirective _))
  | comment _ _ skipped _ ih => exact skipped.reaches.trans ih
  | datum _ _ _ read => exact read.reaches

/-- The end of the input is found only where nothing is left. -/
theorem rest_eq_nil (h : Finds ctx c s item next s') (ended : item = .endOfInput) :
    next.rest = [] := by
  induction h with
  | ended nothing => exact nothing
  | blank _ _ _ ih => exact ih ended
  | directive => cases ended
  | comment _ _ _ _ ih => exact ih ended
  | datum => cases ended

theorem length_lt (h : Finds ctx c s item next s') (found : item ≠ .endOfInput) :
    next.rest.length < c.rest.length := by
  induction h with
  | ended => exact absurd rfl found
  | blank head _ _ ih =>
    have := Cursor.length_next_lt head
    have := ih found
    omega
  | @directive c _ _ _ last _ _ head _ scanned _ =>
    have := Cursor.length_advance_lt (c := c) (n := 2) (by omega) (by simp [head])
    have := (last.reaches_afterDirective (c.advance 2).position.line).length_le
    have := scanned.length_le
    omega
  | comment _ _ skipped _ ih =>
    have := skipped.length_lt rfl
    have := ih found
    omega
  | datum _ _ _ read => exact read.length_lt rfl

end Finds

/-! ## 4. Sessions -/

@[simp] theorem Source.position_cursor (src : Source) (p : Position) :
    (src.cursor p).position = p := by
  unfold cursor
  split <;> rfl

/-- A source finds the places ahead of a position again. -/
theorem Source.cursor_of_reaches {src : Source} {p : Position} {c : Cursor}
    (h : (src.cursor p).Reaches c) : src.cursor c.position = c := by
  have moved := h.offset
  have left := Cursor.rest_eq_drop_of_reaches h
  have shorter := h.length_le
  unfold cursor at moved left shorter ⊢
  split at moved
  · rename_i before
    simp only [if_pos before, List.length_nil, Nat.le_zero_eq, List.length_eq_zero_iff] at shorter
    simp only [shorter, List.length_nil] at moved
    rw [if_pos (by omega), ← shorter]
  · rename_i inside
    simp only [if_neg inside, List.length_drop, List.drop_drop] at left moved shorter
    have place : c.position.offset.toNat =
        p.offset.toNat + (src.text.length - p.offset.toNat - c.rest.length) := by omega
    rw [if_neg (by omega), place, ← left]

namespace Session

variable {s s' : Session}

theorem finds_of_next {item : Item} (h : s.next = (.ok item, s')) :
    ∃ c, Finds s.context s.cursor s.state item c s'.state ∧ s'.source = s.source ∧
      s'.cursor = c := by
  unfold next at h
  split at h
  · rename_i found c state outcome
    cases h
    have finds := finds_of_nextItem outcome
    exact ⟨c, finds, rfl, Source.cursor_of_reaches finds.reaches⟩
  · cases h

theorem misses_of_next {e : Failure} (h : s.next = (.error e, s')) :
    Misses s.context s.cursor s.state e s'.state := by
  unfold next at h
  split at h
  · cases h
  · rename_i failure state outcome
    cases h
    exact misses_of_nextItem outcome

/-- The rules decide what the next request comes to. -/
theorem next_of_finds {item : Item} {c : Cursor} {t : ReaderState}
    (h : Finds s.context s.cursor s.state item c t) :
    s.next = (.ok item, { s with position := c.position, state := t }) := by
  have found : (nextItem s.context s.cursor).run.run s.state = (.ok (item, c), t) := h.nextItem
  unfold next
  rw [found]

theorem next_of_misses {e : Failure} {t : ReaderState}
    (h : Misses s.context s.cursor s.state e t) : s.next = (.error e, { s with state := t }) := by
  have missed : (nextItem s.context s.cursor).run.run s.state = (.error e, t) := h.nextItem
  unfold next
  rw [missed]

end Session

end LineDirective
