import LineDirective.Proofs.Isolation
import LineDirective.Proofs.Rebasing

/-!
# Texts read datum by datum

The notation for data alone suffices to read a whole text: skip the atmosphere, stop at the end, read
a datum, and start over. `Reader.readAll` is this loop, and `ReadsAll` says by rules how it comes out.
A session looks for its items in another way, with whitespace, `#!` and comments told apart one by
one; what it finds is what the loop reads (`Session.readsAll_forms`).
-/

namespace LineDirective

/-! ## 1. The loop -/

def Reader.readAllFor (ctx : Context) : Nat → Cursor → ReaderState → Session.Forms × ReaderState
  | 0, _, s => ({}, s)
  | rounds + 1, c, s =>
    match (skipAtmosphere ctx .code c).outcome s with
    | (.error e, s) => ({ failure := some e }, s)
    | (.ok c, s) =>
      if c.atEnd then ({}, s)
      else
        match (readDatum ctx .code c).outcome s with
        | (.error e, s) => ({ failure := some e }, s)
        | (.ok (d, next), s) =>
          let (forms, s) := readAllFor ctx rounds next s
          ({ forms with items := (.datum d, next.position) :: forms.items }, s)

def Reader.readAll (ctx : Context) (c : Cursor) (s : ReaderState) :
    Session.Forms × ReaderState :=
  readAllFor ctx (c.rest.length + 1) c s

/-- From the cursor on data are read to the end of the text or to a failure. -/
inductive ReadsAll (ctx : Context) :
    Cursor → ReaderState → Session.Forms → ReaderState → Prop
  | ended {c s c₁ s₁} (skipped : Reads ctx (.atmosphere .code) c s .nothing c₁ s₁)
      (nothing : c₁.rest = []) : ReadsAll ctx c s {} s₁
  | skipFails {opened c s e s'} (skip : Fails ctx opened (.atmosphere .code) c s e s') :
      ReadsAll ctx c s { failure := some e } s'
  | datumFails {opened c s c₁ s₁ e s'} (skipped : Reads ctx (.atmosphere .code) c s .nothing c₁ s₁)
      (some_rest : c₁.rest ≠ []) (read : Fails ctx opened (.datum .code) c₁ s₁ e s') :
      ReadsAll ctx c s { failure := some e } s'
  | datum {c s c₁ s₁ d next s₂ forms s'}
      (skipped : Reads ctx (.atmosphere .code) c s .nothing c₁ s₁) (some_rest : c₁.rest ≠ [])
      (read : Reads ctx (.datum .code) c₁ s₁ (.datum d) next s₂)
      (others : ReadsAll ctx next s₂ forms s') :
      ReadsAll ctx c s { forms with items := (.datum d, next.position) :: forms.items } s'

section Loop

variable {ctx : Context} {c : Cursor} {s s' t : ReaderState} {forms forms' : Session.Forms}

theorem ReadsAll.readAllFor (h : ReadsAll ctx c s forms s') {rounds : Nat}
    (enough : c.rest.length < rounds) : Reader.readAllFor ctx rounds c s = (forms, s') := by
  induction h generalizing rounds with
  | @ended c s c₁ s₁ skipped nothing =>
    obtain ⟨rounds, rfl⟩ : ∃ n, rounds = n + 1 := ⟨rounds - 1, by omega⟩
    have skip : (Reader.skipAtmosphere ctx .code c).outcome s = (.ok c₁, s₁) :=
      Reader.returns_skipAtmosphere.mpr skipped
    simp only [Reader.readAllFor, skip]
    rw [if_pos (by simp [Cursor.atEnd, nothing])]
  | @skipFails opened c s e s' skip =>
    obtain ⟨rounds, rfl⟩ : ∃ n, rounds = n + 1 := ⟨rounds - 1, by omega⟩
    have skip : (Reader.skipAtmosphere ctx .code c).outcome s = (.error e, s') :=
      (Reader.raises_skipAtmosphere opened).mpr skip
    simp only [Reader.readAllFor, skip]
  | @datumFails opened c s c₁ s₁ e s' skipped some_rest read =>
    obtain ⟨rounds, rfl⟩ : ∃ n, rounds = n + 1 := ⟨rounds - 1, by omega⟩
    have skip : (Reader.skipAtmosphere ctx .code c).outcome s = (.ok c₁, s₁) :=
      Reader.returns_skipAtmosphere.mpr skipped
    have read : (Reader.readDatum ctx .code c₁).outcome s₁ = (.error e, s') :=
      (Reader.raises_readDatum opened).mpr read
    simp only [Reader.readAllFor, skip]
    rw [if_neg (by simp [Cursor.atEnd, some_rest])]
    simp only [read]
  | @datum c s c₁ s₁ d next s₂ forms s' skipped some_rest read _ ih =>
    obtain ⟨rounds, rfl⟩ : ∃ n, rounds = n + 1 := ⟨rounds - 1, by omega⟩
    have ahead := skipped.length_le
    have shorter := read.length_lt rfl
    have skip : (Reader.skipAtmosphere ctx .code c).outcome s = (.ok c₁, s₁) :=
      Reader.returns_skipAtmosphere.mpr skipped
    have read : (Reader.readDatum ctx .code c₁).outcome s₁ = (.ok (d, next), s₂) :=
      Reader.returns_readDatum.mpr read
    simp only [Reader.readAllFor, skip]
    rw [if_neg (by simp [Cursor.atEnd, some_rest])]
    simp only [read, ih (by omega : next.rest.length < rounds)]

theorem ReadsAll.readAll (h : ReadsAll ctx c s forms s') :
    Reader.readAll ctx c s = (forms, s') :=
  h.readAllFor (Nat.lt_succ_self _)

theorem ReadsAll.unique (h : ReadsAll ctx c s forms s') (h' : ReadsAll ctx c s forms' t) :
    forms = forms' ∧ s' = t := by
  simpa using h.readAll.symm.trans h'.readAll

end Loop

/-! ## 2. Steps over atmosphere -/

namespace Reader

variable {ctx : Context} {mode : Mode} {c c₁ : Cursor} {s s₁ : ReaderState}

/-- What is skipped first does not show once it has been skipped. -/
theorem continues_of_step
    (returns : ∀ {next s'}, Reads ctx (.atmosphere mode) c₁ s₁ .nothing next s' →
      Reads ctx (.atmosphere mode) c s .nothing next s')
    (raises : ∀ {e s'}, Fails ctx c.position (.atmosphere mode) c₁ s₁ e s' →
      Fails ctx c.position (.atmosphere mode) c s e s') :
    (skipAtmosphere ctx mode c).ContinuesAs s (skipAtmosphere ctx mode c₁) s₁ := by
  rcases (skipAtmosphere ctx mode c₁).returns_or_raises s₁ with ⟨next, s', h⟩ | ⟨e, s', h⟩
  · exact (returns_skipAtmosphere.mpr (returns (returns_skipAtmosphere.mp h))).trans h.symm
  · exact ((raises_skipAtmosphere c.position).mpr
      (raises ((raises_skipAtmosphere c.position).mp h))).trans h.symm

theorem continues_blank {x : CodePoint} {rest : Text} (s : ReaderState) (head : c.rest = x :: rest)
    (white : x.isBlank = true) :
    (skipAtmosphere ctx mode c).ContinuesAs s (skipAtmosphere ctx mode c.next) s :=
  continues_of_step (.blank head white) (.blank head white)

theorem continues_remark (visible : c.rest.head?.any CodePoint.isBlank = false)
    (remark : Reads ctx (.comment mode) c s .nothing c₁ s₁) :
    (skipAtmosphere ctx mode c).ContinuesAs s (skipAtmosphere ctx mode c₁) s₁ :=
  continues_of_step (.remark visible remark) (.remark visible remark)

end Reader

theorem Reads.visible_of_comment {ctx : Context} {mode : Mode} {c next : Cursor} {s s' : ReaderState}
    {y : Yield} (h : Reads ctx (.comment mode) c s y next s') :
    c.rest.head?.any CodePoint.isBlank = false := by
  have semicolon : CodePoint.isBlank (.scalar ';') = false := by decide
  have hash : CodePoint.isBlank (.scalar '#') = false := by decide
  cases h with
  | lineComment head =>
    rw [head]
    exact semicolon
  | blockComment head _ | datumComment head _ | emptyComment head _ _ | lineDatumComment head _ _ _ _
  | marker head _ | lineDirective head _ _ _ _ =>
    rw [head]
    exact hash

theorem clear_of_head {ctx : Context} {mode : Mode} {c : Cursor} {s : ReaderState} {x : CodePoint}
    {rest : Text} (head : c.rest = x :: rest)
    (plain : x.isBlank = false ∧ x ≠ .scalar ';' ∧ x ≠ .scalar '#') :
    Reads ctx (.atmosphere mode) c s .nothing c s := by
  refine .clear ?_ ?_
  · rw [head]
    exact plain.1
  · rw [head]
    exact startsComment_eq_false plain.2.1 plain.2.2

theorem plain_of_isCloser {x : CodePoint} (closes : isCloser x = true) :
    x.isBlank = false ∧ x ≠ .scalar ';' ∧ x ≠ .scalar '#' := by
  have brackets : x = .scalar ')' ∨ x = .scalar ']' := by simpa [isCloser] using closes
  rcases brackets with rfl | rfl <;> decide

/-- A task succeeds as far as it shows later on. Of atmosphere, comments in code included, only how
skipping goes on after it matters, and it may go on further; everything else ends at the second
cursor. -/
def Proceeds (ctx : Context) : Task → Cursor → ReaderState → Yield → Cursor → ReaderState → Prop
  | .atmosphere mode, c, s, _, c₁, s₁ =>
    (Reader.skipAtmosphere ctx mode c).ContinuesAs s (Reader.skipAtmosphere ctx mode c₁) s₁
  | .comment .code, c, s, _, c₁, s₁ =>
    (Reader.skipAtmosphere ctx .code c).ContinuesAs s (Reader.skipAtmosphere ctx .code c₁) s₁
  | task, c, s, y, c₁, s₁ => Reads ctx task c s y c₁ s₁

namespace Proceeds

variable {ctx : Context} {mode : Mode} {c c₁ next : Cursor} {s s₁ s' : ReaderState}

theorem of_comment (h : Reads ctx (.comment mode) c s .nothing c₁ s₁) :
    Proceeds ctx (.comment mode) c s .nothing c₁ s₁ := by
  cases mode with
  | code => exact Reader.continues_remark h.visible_of_comment h
  | directive => exact h

theorem remark (h : Proceeds ctx (.comment mode) c s .nothing c₁ s₁)
    (visible : c.rest.head?.any CodePoint.isBlank = false) :
    (Reader.skipAtmosphere ctx mode c).ContinuesAs s (Reader.skipAtmosphere ctx mode c₁) s₁ := by
  cases mode with
  | code => exact h
  | directive => exact Reader.continues_remark visible h

/-- Atmosphere that goes on as it does from the second cursor ends where it ends from there. -/
theorem atmosphere (h : Proceeds ctx (.atmosphere mode) c s .nothing c₁ s₁)
    (skipped : Reads ctx (.atmosphere mode) c₁ s₁ .nothing next s') :
    Reads ctx (.atmosphere mode) c s .nothing next s' :=
  Reader.returns_skipAtmosphere.mp
    (ReadM.ContinuesAs.returns h (Reader.returns_skipAtmosphere.mpr skipped))

end Proceeds

section Lists

variable {ctx : Context} {mode : Mode} {closer : CodePoint} {parts : ListParts} {c c₁ next : Cursor}
  {s s₁ s' : ReaderState}

/-- The rest of a list after atmosphere that has been passed over. -/
theorem Reads.items_of_continues {y : Yield}
    (skips : (Reader.skipAtmosphere ctx mode c).ContinuesAs s (Reader.skipAtmosphere ctx mode c₁) s₁)
    (h : Reads ctx (.items mode closer parts) c₁ s₁ y next s') :
    Reads ctx (.items mode closer parts) c s y next s' := by
  have onward {last : Cursor} {t : ReaderState}
      (skipped : Reads ctx (.atmosphere mode) c₁ s₁ .nothing last t) :
      Reads ctx (.atmosphere mode) c s .nothing last t := Proceeds.atmosphere skips skipped
  cases h with
  | close skipped head closes => exact .close (onward skipped) head closes
  | dot skipped head lone some_item skipped₂ follows read others =>
    exact .dot (onward skipped) head lone some_item skipped₂ follows read others
  | item skipped head open_ no_dot read others =>
    exact .item (onward skipped) head open_ no_dot read others

/-- It fails as it does from there, too. -/
theorem Fails.items_of_continues {opened : Position} {e : Failure}
    (skips : (Reader.skipAtmosphere ctx mode c).ContinuesAs s (Reader.skipAtmosphere ctx mode c₁) s₁)
    (h : Fails ctx opened (.items mode closer parts) c₁ s₁ e s') :
    Fails ctx opened (.items mode closer parts) c s e s' := by
  have onward {last : Cursor} {t : ReaderState}
      (skipped : Reads ctx (.atmosphere mode) c₁ s₁ .nothing last t) :
      Reads ctx (.atmosphere mode) c s .nothing last t := Proceeds.atmosphere skips skipped
  cases h with
  | itemsSkip skip =>
    exact .itemsSkip ((Reader.raises_skipAtmosphere opened).mp
      (skips.raises ((Reader.raises_skipAtmosphere opened).mpr skip)))
  | unterminated skipped nothing => exact .unterminated (onward skipped) nothing
  | wrongCloser skipped head closes other => exact .wrongCloser (onward skipped) head closes other
  | afterTail skipped head open_ => exact .afterTail (onward skipped) head open_
  | leadingDot skipped head lone => exact .leadingDot (onward skipped) head lone
  | dotSkip skipped head lone some_item skip => exact .dotSkip (onward skipped) head lone some_item skip
  | missingTail skipped head lone some_item skipped₂ nothing =>
    exact .missingTail (onward skipped) head lone some_item skipped₂ nothing
  | tail skipped head lone some_item skipped₂ follows read =>
    exact .tail (onward skipped) head lone some_item skipped₂ follows read
  | dot skipped head lone some_item skipped₂ follows read others =>
    exact .dot (onward skipped) head lone some_item skipped₂ follows read others
  | itemDatum skipped head open_ no_dot read =>
    exact .itemDatum (onward skipped) head open_ no_dot read
  | item skipped head open_ no_dot read others =>
    exact .item (onward skipped) head open_ no_dot read others

end Lists

section Steps

variable {ctx : Context} {c c₁ : Cursor} {s s₁ s' : ReaderState} {forms : Session.Forms}

theorem ReadsAll.of_continues
    (skips : (Reader.skipAtmosphere ctx .code c).ContinuesAs s
      (Reader.skipAtmosphere ctx .code c₁) s₁)
    (h : ReadsAll ctx c₁ s₁ forms s') : ReadsAll ctx c s forms s' := by
  have onward {next : Cursor} {t : ReaderState}
      (skipped : Reads ctx (.atmosphere .code) c₁ s₁ .nothing next t) :
      Reads ctx (.atmosphere .code) c s .nothing next t := Proceeds.atmosphere skips skipped
  cases h with
  | ended skipped nothing => exact .ended (onward skipped) nothing
  | @skipFails opened _ _ e _ skip =>
    exact .skipFails ((Reader.raises_skipAtmosphere opened).mp
      (skips.raises ((Reader.raises_skipAtmosphere opened).mpr skip)))
  | datumFails skipped some_rest read => exact .datumFails (onward skipped) some_rest read
  | datum skipped some_rest read others => exact .datum (onward skipped) some_rest read others

theorem ReadsAll.after_blank {x : CodePoint} {rest : Text} (head : c.rest = x :: rest)
    (white : x.isBlank = true) (h : ReadsAll ctx c.next s forms s') : ReadsAll ctx c s forms s' :=
  h.of_continues (Reader.continues_blank s head white)

theorem ReadsAll.after_comment (visible : c.rest.head?.any CodePoint.isBlank = false)
    (remark : Reads ctx (.comment .code) c s .nothing c₁ s₁) (h : ReadsAll ctx c₁ s₁ forms s') :
    ReadsAll ctx c s forms s' :=
  h.of_continues (Reader.continues_remark visible remark)

end Steps

/-! ## 3. Texts at another place -/

/-- The forms of a text that stands from `origin` on. -/
def Session.Forms.rebase (origin : Position) (f : Session.Forms) : Session.Forms where
  items := f.items.map fun entry => (entry.1, origin.rebase entry.2)
  failure := f.failure.map (·.rebase origin)

@[simp] theorem Session.Forms.rebase_start (f : Session.Forms) : f.rebase .start = f := by
  simp [rebase]

theorem ReadsAll.rebase {ctx : Context} {c : Cursor} {s s' t : ReaderState} {forms : Session.Forms}
    {origin : Position} {front : List Directive} (h : ReadsAll ctx c s forms s')
    (inside : 1 ≤ c.position.line) (same : ReaderState.Rebased origin front s t) :
    ∃ t', ReadsAll ctx (c.rebase origin) t (forms.rebase origin) t' ∧
      ReaderState.Rebased origin front s' t' := by
  induction h generalizing t with
  | ended skipped nothing =>
    obtain ⟨t₁, skipped', same₁⟩ := skipped.rebase inside same
    exact ⟨t₁, .ended skipped' nothing, same₁⟩
  | skipFails skip =>
    obtain ⟨t₁, skip', same₁⟩ := skip.rebase inside same
    exact ⟨t₁, .skipFails skip', same₁⟩
  | datumFails skipped some_rest read =>
    have onward := skipped.reaches.line_le
    obtain ⟨t₁, skipped', same₁⟩ := skipped.rebase inside same
    obtain ⟨t', read', same'⟩ := read.rebase (by omega) same₁
    exact ⟨t', .datumFails skipped' some_rest read', same'⟩
  | datum skipped some_rest read _ ih =>
    have onward := skipped.reaches.line_le
    have further := read.reaches.line_le
    obtain ⟨t₁, skipped', same₁⟩ := skipped.rebase inside same
    obtain ⟨t₂, read', same₂⟩ := read.rebase (by omega) same₁
    obtain ⟨t', others', same'⟩ := ih (by omega) same₂
    exact ⟨t', .datum skipped' some_rest read' others', same'⟩

/-! ## 4. The trace does not matter -/

theorem ReaderState.Untouched.rebased {s t : ReaderState} (h : s.Untouched t) :
    ReaderState.Rebased .start [] s t :=
  ⟨h.foldCase, by simp [h.directives]⟩

theorem ReaderState.Rebased.untouched {s t : ReaderState} (h : ReaderState.Rebased .start [] s t) :
    s.Untouched t :=
  ⟨h.foldCase, by simpa using h.directives⟩

theorem ReadsAll.untraced {ctx : Context} {c : Cursor} {s s' t : ReaderState} {forms : Session.Forms}
    (h : ReadsAll ctx c s forms s') (inside : 1 ≤ c.position.line) (same : s.Untouched t) :
    ∃ t', ReadsAll ctx c t forms t' ∧ s'.Untouched t' := by
  obtain ⟨t', reads, same'⟩ := h.rebase inside same.rebased
  exact ⟨t', by simpa using reads, same'.untouched⟩

/-! ## 5. The items of a session -/

theorem visible_of_marker {t rest : Text} (head : t = .scalar '#' :: .scalar '!' :: rest) :
    t.head?.any CodePoint.isBlank = false := by
  rw [head]
  exact (by decide : CodePoint.isBlank (.scalar '#') = false)

theorem ReaderState.declining_untouched (c : Cursor) (s : ReaderState) :
    (s.declining c).Untouched s :=
  ⟨by simp, by simp⟩

def Session.Forms.after (item : Item) (p : Position) (f : Session.Forms) : Session.Forms :=
  match item with
  | .datum d => { f with items := (.datum d, p) :: f.items }
  | .directive _ | .endOfInput => f

section Items

variable {ctx : Context} {c next : Cursor} {s s' t : ReaderState} {item : Item}

/-- A datum that is found is the first one of the loop, a directive is skipped by the loop, and at the
end of the input the loop ends. -/
theorem Finds.readsAll {forms : Session.Forms} (h : Finds ctx c s item next s')
    (inside : 1 ≤ c.position.line) (others : item ≠ .endOfInput → ReadsAll ctx next s' forms t)
    (ended : item = .endOfInput → forms = {} ∧ t = s') :
    ∃ t', t.Untouched t' ∧ ReadsAll ctx c s (forms.after item next.position) t' := by
  induction h with
  | @ended c s nothing =>
    obtain ⟨rfl, rfl⟩ := ended rfl
    refine ⟨t, ⟨rfl, rfl⟩, .ended (.clear ?_ ?_) nothing⟩
    · simp [nothing]
    · simp [nothing, startsComment]
  | @blank c _ _ _ _ _ _ head white _ ih =>
    have onward := c.reaches_next.line_le
    obtain ⟨t', same, reads⟩ := ih (by omega) others ended
    exact ⟨t', same, reads.after_blank head white⟩
  | directive head starts scanned kept =>
    have visible := visible_of_marker head
    have remark := Reads.lineDirective head (detect?_of_startsDirective starts) starts scanned kept
    exact ⟨t, ⟨rfl, rfl⟩, (others (by simp)).after_comment visible remark⟩
  | @comment c s _ _ _ _ _ visible _ skipped _ ih =>
    have onward := skipped.reaches.line_le
    obtain ⟨t₁, same₁, reads⟩ := ih (by omega) others ended
    obtain ⟨t', reads', same'⟩ :=
      (reads.after_comment visible skipped).untraced inside (ReaderState.declining_untouched c s)
    exact ⟨t', same₁.trans same', reads'⟩
  | @datum c s _ _ _ some_rest visible none_starts read =>
    have reads := ReadsAll.datum (.clear visible none_starts) some_rest read (others (by simp))
    obtain ⟨t', reads', same'⟩ := reads.untraced inside (ReaderState.declining_untouched c s)
    exact ⟨t', same', reads'⟩

theorem Misses.readsAll {e : Failure} (h : Misses ctx c s e s') (inside : 1 ≤ c.position.line) :
    ∃ t, s'.Untouched t ∧ ReadsAll ctx c s { failure := some e } t := by
  induction h with
  | @blank c _ _ _ _ _ head white _ ih =>
    have onward := c.reaches_next.line_le
    obtain ⟨t, same, reads⟩ := ih (by omega)
    exact ⟨t, same, reads.after_blank head white⟩
  | @directive c s _ e s' head starts scan =>
    have visible := visible_of_marker head
    exact ⟨s', ⟨rfl, rfl⟩, .skipFails (.remarkSkip visible
      (.lineDirective head (detect?_of_startsDirective starts) starts scan))⟩
  | @unrecorded c _ _ _ _ _ _ s' head starts scanned failed =>
    have visible := visible_of_marker head
    have failed_skip : Fails ctx c.position (.atmosphere .code) _ _ _ s' := .remarkSkip visible
      (.unrecorded head (detect?_of_startsDirective starts) starts scanned failed)
    exact ⟨s', ⟨rfl, rfl⟩, .skipFails failed_skip⟩
  | @commentSkip c s _ _ visible _ skip =>
    have reads := ReadsAll.skipFails (.remarkSkip visible skip)
    obtain ⟨t, reads', same⟩ := reads.untraced inside (ReaderState.declining_untouched c s)
    exact ⟨t, same, reads'⟩
  | @comment c s _ _ _ _ visible _ skipped _ ih =>
    have onward := skipped.reaches.line_le
    obtain ⟨t₁, same₁, reads⟩ := ih (by omega)
    obtain ⟨t, reads', same⟩ :=
      (reads.after_comment visible skipped).untraced inside (ReaderState.declining_untouched c s)
    exact ⟨t, same₁.trans same, reads'⟩
  | @datum c s _ _ some_rest visible none_starts read =>
    have reads := ReadsAll.datumFails (.clear visible none_starts) some_rest read
    obtain ⟨t, reads', same⟩ := reads.untraced inside (ReaderState.declining_untouched c s)
    exact ⟨t, same, reads'⟩

end Items

namespace Session

@[simp] theorem position_cursor (s : Session) : s.cursor.position = s.position := by
  unfold cursor Source.cursor
  split <;> rfl

theorem context_of_next {s s' : Session} {r : Except Failure Item} (h : s.next = (r, s')) :
    s'.context = s.context ∧ s'.source = s.source := by
  unfold next at h
  split at h <;> cases h <;> exact ⟨rfl, rfl⟩

/-- A search that fails leaves the session where it was. -/
theorem position_of_raised {s s' : Session} {e : Failure} (h : s.next = (.error e, s')) :
    s'.position = s.position := by
  unfold next at h
  split at h
  · cases h
  · cases h
    rfl

theorem readsAll_formsFor {s : Session} {rounds : Nat} (inside : 1 ≤ s.cursor.position.line)
    (enough : s.cursor.rest.length < rounds) :
    ∃ t, (formsFor false rounds none s).2.state.Untouched t ∧
      ReadsAll s.context s.cursor s.state (formsFor false rounds none s).1 t := by
  -- what a session finds is what the loop reads: by induction on the rounds, each of which is one
  -- item
  induction rounds generalizing s with
  | zero => omega
  | succ rounds ih =>
    obtain ⟨r, s₁, outcome⟩ : ∃ r s₁, s.next = (r, s₁) := ⟨_, _, rfl⟩
    cases r with
    | error e =>
      obtain ⟨t, same, reads⟩ := (misses_of_next outcome).readsAll inside
      simp only [formsFor, outcome]
      exact ⟨t, same, reads⟩
    | ok item =>
      obtain ⟨c, finds, -, rfl⟩ := finds_of_next outcome
      have context := (context_of_next outcome).1
      have onward := finds.reaches.line_le
      cases item with
      | endOfInput =>
        obtain ⟨t, same, reads⟩ := finds.readsAll inside (fun found => absurd rfl found)
          (fun _ => ⟨rfl, rfl⟩)
        simp only [formsFor, outcome]
        exact ⟨t, same, reads⟩
      | datum d =>
        have shorter := finds.length_lt (by simp)
        obtain ⟨t₁, same₁, others⟩ := ih (s := s₁) (by omega) (by omega)
        rw [context] at others
        obtain ⟨t, same, reads⟩ := finds.readsAll inside (fun _ => others) (by simp)
        simp only [formsFor, outcome, ← position_cursor s₁]
        exact ⟨t, same₁.trans same, reads⟩
      | directive d =>
        have shorter := finds.length_lt (by simp)
        obtain ⟨t₁, same₁, others⟩ := ih (s := s₁) (by omega) (by omega)
        rw [context] at others
        obtain ⟨t, same, reads⟩ := finds.readsAll inside (fun _ => others) (by simp)
        simp only [formsFor, outcome]
        exact ⟨t, same₁.trans same, reads⟩

theorem readsAll_forms {s : Session} (inside : 1 ≤ s.cursor.position.line) :
    ∃ t, s.forms.2.state.Untouched t ∧ ReadsAll s.context s.cursor s.state s.forms.1 t :=
  readsAll_formsFor inside (Nat.lt_succ_self _)

end Session

end LineDirective
