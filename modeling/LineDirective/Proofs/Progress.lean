import LineDirective.Proofs.Requests

/-!
# Progress

The reader is bounded by the length of the text, in its depth and in the rounds of its loops. No bound
is ever what ends it. What lies below the deepest level may be anything (`Grammar.over_eq`), and the
rules for reads, which know no bound, lead from every place to an end (`ReadM.Ends`).

A read that succeeds has moved on, by at least one code point where something must be there, and not
beyond the text. So a session that finds an item has moved on as well; it yields at most as many items
as there are code points left, and at the end of the input it stays as it is.
-/

namespace LineDirective

/-! ## 1. The depth of a grammar -/

/-- The grammar that reads data nested to a given depth, and leaves what is deeper to another one. -/
def Grammar.over (ctx : Context) (base : Grammar) : Nat → Grammar
  | 0 => base
  | depth + 1 =>
    { readDatum := fun mode c => readDatumBy ctx (base.over ctx depth) mode c
      skipComment := fun mode c => skipCommentBy ctx (base.over ctx depth) mode c }

section Depth

variable {ctx : Context} {g : Grammar} {n : Nat} {mode : Mode} {c : Cursor}

theorem Grammar.over_faithful (ctx : Context) (base : Grammar) (depth : Nat) :
    (base.over ctx depth).FaithfulBelow ctx depth := by
  induction depth with
  | zero => exact ⟨⟨fun short => by omega, fun short => by omega⟩, fun short => by omega,
      fun short => by omega⟩
  | succ depth ih =>
    refine ⟨⟨?_, ?_⟩, ?_, ?_⟩
    · exact fun short h => readDatumBy_sound ih.toSoundBelow (by omega) h
    · exact fun short h => skipCommentBy_sound ih.toSoundBelow (by omega) h
    · exact fun short h => readDatumBy_fails ih (by omega) h
    · exact fun short h => skipCommentBy_fails ih (by omega) h

/-- Two actions are equal that end in the same way. -/
theorem ReadM.eq_of_ends {α : Type} {m m' : ReadM α}
    (returned : ∀ s a s', m.Returns s a s' → m'.Returns s a s')
    (raised : ∀ s e s', m.Raises s e s' → m'.Raises s e s') : m = m' := by
  funext s
  rcases m.returns_or_raises s with ⟨a, s', done⟩ | ⟨e, s', failed⟩
  · exact Eq.trans done (returned s a s' done).symm
  · exact Eq.trans failed (raised s e s' failed).symm

namespace Grammar.FaithfulBelow

theorem readDatum_eq (faithful : g.FaithfulBelow ctx n) (short : c.rest.length < n) :
    g.readDatum mode c = Reader.readDatum ctx mode c := by
  apply ReadM.eq_of_ends
  · rintro s ⟨d, next⟩ s' done
    exact Reader.returns_readDatum.mpr (faithful.datum short done)
  · intro s e s' failed
    exact (Reader.raises_readDatum c.position).mpr (faithful.datumFails short failed)

theorem skipComment_eq (faithful : g.FaithfulBelow ctx n) (short : c.rest.length < n) :
    g.skipComment mode c = Reader.skipComment ctx mode c := by
  apply ReadM.eq_of_ends
  · intro s r s' done
    have skips := faithful.comment short done
    cases r with
    | some next => exact Reader.returns_skipComment.mpr skips
    | none =>
      obtain ⟨none_starts, rfl⟩ := skips
      exact skipCommentBy_of_clear none_starts _
  · intro s e s' failed
    exact (Reader.raises_skipComment c.position).mpr (faithful.commentFails short failed)

end Grammar.FaithfulBelow

/-- A depth that exceeds the length of the text is never used up. -/
theorem Grammar.over_eq (base : Grammar) {depth : Nat} (deep : c.rest.length < depth) :
    (base.over ctx depth).readDatum mode c = Reader.readDatum ctx mode c ∧
      (base.over ctx depth).skipComment mode c = Reader.skipComment ctx mode c :=
  ⟨(over_faithful ctx base depth).readDatum_eq deep, (over_faithful ctx base depth).skipComment_eq deep⟩

end Depth

/-! ## 2. Operations come to an end -/

/-- Started in `s`, an action comes to an end, in one of the ways given. -/
inductive ReadM.Ends {α : Type} (m : ReadM α) (s : ReaderState)
    (returned : α → ReaderState → Prop) (raised : Failure → ReaderState → Prop) : Prop
  | returned {a : α} {s' : ReaderState} (done : m.Returns s a s') (holds : returned a s') :
      Ends m s returned raised
  | raised {e : Failure} {s' : ReaderState} (failed : m.Raises s e s') (holds : raised e s') :
      Ends m s returned raised

/-- It suffices to say what follows from each end. -/
theorem ReadM.Ends.of_each {α : Type} {m : ReadM α} {s : ReaderState}
    {returned : α → ReaderState → Prop} {raised : Failure → ReaderState → Prop}
    (done : ∀ a s', m.Returns s a s' → returned a s')
    (failed : ∀ e s', m.Raises s e s' → raised e s') : m.Ends s returned raised := by
  rcases m.returns_or_raises s with ⟨a, s', h⟩ | ⟨e, s', h⟩
  · exact .returned h (done a s' h)
  · exact .raised h (failed e s' h)

def Source.Onward (src : Source) (p q : Position) : Prop :=
  p.offset ≤ q.offset ∧ q.offset ≤ src.length

def Source.StrictlyOnward (src : Source) (p q : Position) : Prop :=
  p.offset < q.offset ∧ q.offset ≤ src.length

namespace Source

variable {src : Source} {p : Position} {c : Cursor}

theorem length_cursor (inside : 0 ≤ p.offset) (within : p.offset ≤ src.length) :
    p.offset + (src.cursor p).rest.length = src.length := by
  unfold cursor
  rw [if_neg (by omega), List.length_drop]
  unfold length at within ⊢
  omega

theorem onward_of_reaches (inside : 0 ≤ p.offset) (within : p.offset ≤ src.length)
    (ahead : (src.cursor p).Reaches c) : src.Onward p c.position := by
  have whole := length_cursor inside within
  have moved := ahead.offset
  have shorter := ahead.length_le
  rw [position_cursor] at moved
  exact ⟨by omega, by omega⟩

theorem strictlyOnward_of_reaches (inside : 0 ≤ p.offset) (within : p.offset ≤ src.length)
    (ahead : (src.cursor p).Reaches c) (shorter : c.rest.length < (src.cursor p).rest.length) :
    src.StrictlyOnward p c.position := by
  have moved := ahead.offset
  rw [position_cursor] at moved
  exact ⟨by omega, (onward_of_reaches inside within ahead).2⟩

end Source

section Operations

variable {src : Source} {ctx : Context} {p : Position} (s : ReaderState)

theorem Reader.ends_readDatum (inside : 0 ≤ p.offset) (within : p.offset ≤ src.length)
    (mode : Mode) :
    (readDatum ctx mode (src.cursor p)).Ends s
      (fun r s' => Reads ctx (.datum mode) (src.cursor p) s (.datum r.1) r.2 s' ∧
        src.StrictlyOnward p r.2.position)
      (Fails ctx p (.datum mode) (src.cursor p) s) := by
  apply ReadM.Ends.of_each
  · rintro ⟨d, next⟩ s' done
    have reads := returns_readDatum.mp done
    exact ⟨reads, Source.strictlyOnward_of_reaches inside within reads.reaches (reads.length_lt rfl)⟩
  · intro e s' failed
    exact (raises_readDatum p).mp failed

theorem Reader.ends_skipComment (inside : 0 ≤ p.offset) (within : p.offset ≤ src.length)
    (mode : Mode) :
    (skipComment ctx mode (src.cursor p)).Ends s
      (fun r s' => Skips ctx mode (src.cursor p) s r s' ∧
        ∀ next, r = some next → src.StrictlyOnward p next.position)
      (Fails ctx p (.comment mode) (src.cursor p) s) := by
  apply ReadM.Ends.of_each
  · intro r s' done
    have skips := skips_of_skipComment done
    refine ⟨skips, ?_⟩
    rintro next rfl
    have reads : Reads ctx (.comment mode) (src.cursor p) s .nothing next s' := skips
    exact Source.strictlyOnward_of_reaches inside within reads.reaches (reads.length_lt rfl)
  · intro e s' failed
    exact (raises_skipComment p).mp failed

theorem Reader.ends_skipAtmosphere (inside : 0 ≤ p.offset) (within : p.offset ≤ src.length)
    (mode : Mode) :
    (skipAtmosphere ctx mode (src.cursor p)).Ends s
      (fun next s' => Reads ctx (.atmosphere mode) (src.cursor p) s .nothing next s' ∧
        src.Onward p next.position)
      (Fails ctx p (.atmosphere mode) (src.cursor p) s) := by
  apply ReadM.Ends.of_each
  · intro next s' done
    have reads := returns_skipAtmosphere.mp done
    exact ⟨reads, Source.onward_of_reaches inside within reads.reaches⟩
  · intro e s' failed
    exact (raises_skipAtmosphere p).mp failed

theorem Reader.ends_skipIntraline (inside : 0 ≤ p.offset) (within : p.offset ≤ src.length)
    (anchor : Int) :
    (skipIntraline ctx anchor (src.cursor p)).Ends s
      (fun next s' => Reads ctx (.intraline anchor) (src.cursor p) s .nothing next s' ∧
        src.Onward p next.position)
      (Fails ctx p (.intraline anchor) (src.cursor p) s) := by
  apply ReadM.Ends.of_each
  · intro next s' done
    have reads := returns_skipIntraline.mp done
    exact ⟨reads, Source.onward_of_reaches inside within reads.reaches⟩
  · intro e s' failed
    exact (raises_skipIntraline p).mp failed

theorem Source.ends_scanDirective (inside : 0 ≤ p.offset) (within : p.offset ≤ src.length) :
    (src.scanDirective ctx p).Ends s
      (fun r s' => (∃ last, Reads ctx (.datums p.line []) (src.cursor p)
          (s.emit (.phase .start .skipping p)) (.datums r.1.datums) last s' ∧
          r.2 = last.afterDirective p.line) ∧
        src.Onward p r.2.position)
      (Fails ctx p (.datums p.line []) (src.cursor p) (s.emit (.phase .start .skipping p))) := by
  rw [src.scanDirective_of_nonneg ctx inside]
  apply ReadM.Ends.of_each
  · rintro ⟨d, next⟩ s' done
    obtain ⟨ds, last, reads, rfl, rfl⟩ := Reader.returns_scanDirective.mp done
    rw [position_cursor] at reads ⊢
    exact ⟨⟨last, reads, rfl⟩,
      onward_of_reaches inside within (reads.reaches.trans (last.reaches_afterDirective _))⟩
  · intro e s' failed
    simpa using (Reader.raises_scanDirective p).mp failed

end Operations

/-! ## 3. Sessions -/

theorem ends_nextItem (ctx : Context) (c : Cursor) (s : ReaderState) :
    (nextItem ctx c).Ends s (fun r s' => Finds ctx c s r.1 r.2 s') (Misses ctx c s) :=
  .of_each (fun _ _ => finds_of_nextItem) (fun _ _ => misses_of_nextItem)

namespace Session

variable {s s' : Session}

theorem onward_of_next {item : Item} (inside : 0 ≤ s.position.offset)
    (within : s.position.offset ≤ s.source.length) (found : s.next = (.ok item, s')) :
    s.source.Onward s.position s'.position ∧
      (item ≠ .endOfInput → s.source.StrictlyOnward s.position s'.position) := by
  obtain ⟨c, finds, -, rfl⟩ := finds_of_next found
  rw [← position_cursor s']
  refine ⟨Source.onward_of_reaches inside within finds.reaches, fun some_item => ?_⟩
  exact Source.strictlyOnward_of_reaches inside within finds.reaches (finds.length_lt some_item)

theorem after_of_ended (nothing : s.cursor.rest = []) (n : Nat) : s.after n = s := by
  induction n with
  | zero => rfl
  | succ n ih => rw [after, next_of_ended nothing, ih]

theorem limit_of_rest {limit : Option Nat} {n : Nat} (some_left : limit = some 0 → False)
    (rest : limit.map (· - 1) = some n) : limit = some (n + 1) := by
  obtain ⟨m, rfl, less⟩ := Option.map_eq_some_iff.mp rest
  have positive : m ≠ 0 := fun none_left => some_left (by rw [none_left])
  exact congrArg some (by omega)

theorem stops_of_formsFor {wanted : Bool} {limit : Option Nat} {rounds : Nat} {forms : Forms}
    (enough : s.cursor.rest.length < rounds) (h : formsFor wanted rounds limit s = (forms, s')) :
    forms.items.length + s'.cursor.rest.length ≤ s.cursor.rest.length ∧
      (forms.failure = none → limit = some forms.items.length ∨ s'.cursor.rest = []) := by
  -- by induction on the rounds. Every item takes up something, and the rounds outlast what is left:
  -- so reading goes on to a failure, to the limit or to the end.
  induction rounds, limit, s using formsFor.induct wanted generalizing forms with
  | case1 => omega
  | case2 =>
    cases h
    exact ⟨by simp, fun _ => .inl rfl⟩
  | case3 rounds limit s some_left failure s₁ failed =>
    simp only [formsFor, failed] at h
    cases h
    have stays : s'.cursor = s.cursor := by
      rw [cursor, cursor, (context_of_next failed).2, position_of_raised failed]
    exact ⟨by simp [stays], fun none_failed => by cases none_failed⟩
  | case4 rounds limit s some_left s₁ found =>
    simp only [formsFor, found] at h
    cases h
    obtain ⟨c, finds, -, rfl⟩ := finds_of_next found
    exact ⟨by simpa using finds.reaches.length_le, fun _ => .inr (finds.rest_eq_nil rfl)⟩
  | case5 rounds limit s some_left d s₁ found ih =>
    simp only [formsFor, found] at h
    cases h
    obtain ⟨c, finds, -, rfl⟩ := finds_of_next found
    have shorter := finds.length_lt (by simp)
    obtain ⟨few, stopped⟩ := ih s₁ (by omega) rfl
    refine ⟨by simp only [List.length_cons]; omega, fun none_failed => ?_⟩
    exact (stopped none_failed).imp (limit_of_rest some_left) id
  | case6 rounds limit s some_left d s₁ found wants ih =>
    simp only [formsFor, found, if_pos wants] at h
    cases h
    obtain ⟨c, finds, -, rfl⟩ := finds_of_next found
    have shorter := finds.length_lt (by simp)
    obtain ⟨few, stopped⟩ := ih s₁ (by omega) rfl
    refine ⟨by simp only [List.length_cons]; omega, fun none_failed => ?_⟩
    exact (stopped none_failed).imp (limit_of_rest some_left) id
  | case7 rounds limit s some_left d s₁ found unwanted _ ih =>
    simp only [formsFor, found, if_neg unwanted] at h
    obtain ⟨c, finds, -, rfl⟩ := finds_of_next found
    have shorter := finds.length_lt (by simp)
    obtain ⟨few, stopped⟩ := ih (by omega) h
    exact ⟨by omega, stopped⟩

end Session

/-! ## 4. Reading a source -/

/-- Reading comes to an end wherever it is started in a source, and moves forward. The depth of the
reader is never used up, whatever would happen below. Every operation ends as the rules say that know
no bound; where it succeeds, a datum and a comment have taken up something, and no operation goes
back or beyond the text. So a session moves on with every item, yields no more items than there are
code points left before it meets a failure, the limit or the end, and at the end it stays the same. -/
theorem Source.reading_progresses (src : Source) :
    (∀ (ctx : Context) (base : Grammar) (depth : Nat) (mode : Mode) (c : Cursor),
      c.rest.length < depth →
      (base.over ctx depth).readDatum mode c = Reader.readDatum ctx mode c ∧
        (base.over ctx depth).skipComment mode c = Reader.skipComment ctx mode c) ∧
    (∀ (ctx : Context) (p : Position) (s : ReaderState), 0 ≤ p.offset → p.offset ≤ src.length →
      (∀ mode, (Reader.readDatum ctx mode (src.cursor p)).Ends s
        (fun r s' => Reads ctx (.datum mode) (src.cursor p) s (.datum r.1) r.2 s' ∧
          src.StrictlyOnward p r.2.position)
        (Fails ctx p (.datum mode) (src.cursor p) s)) ∧
      (∀ mode, (Reader.skipComment ctx mode (src.cursor p)).Ends s
        (fun r s' => Skips ctx mode (src.cursor p) s r s' ∧
          ∀ next, r = some next → src.StrictlyOnward p next.position)
        (Fails ctx p (.comment mode) (src.cursor p) s)) ∧
      (∀ mode, (Reader.skipAtmosphere ctx mode (src.cursor p)).Ends s
        (fun next s' => Reads ctx (.atmosphere mode) (src.cursor p) s .nothing next s' ∧
          src.Onward p next.position)
        (Fails ctx p (.atmosphere mode) (src.cursor p) s)) ∧
      (∀ anchor, (Reader.skipIntraline ctx anchor (src.cursor p)).Ends s
        (fun next s' => Reads ctx (.intraline anchor) (src.cursor p) s .nothing next s' ∧
          src.Onward p next.position)
        (Fails ctx p (.intraline anchor) (src.cursor p) s)) ∧
      (src.scanDirective ctx p).Ends s
        (fun r s' => (∃ last, Reads ctx (.datums p.line []) (src.cursor p)
            (s.emit (.phase .start .skipping p)) (.datums r.1.datums) last s' ∧
            r.2 = last.afterDirective p.line) ∧
          src.Onward p r.2.position)
        (Fails ctx p (.datums p.line []) (src.cursor p) (s.emit (.phase .start .skipping p))) ∧
      (nextItem ctx (src.cursor p)).Ends s
        (fun r s' => Finds ctx (src.cursor p) s r.1 r.2 s') (Misses ctx (src.cursor p) s)) ∧
    ∀ s : Session, s.source = src → 0 ≤ s.position.offset → s.position.offset ≤ src.length →
      (∀ item s', s.next = (.ok item, s') → src.Onward s.position s'.position ∧
        (item ≠ .endOfInput → src.StrictlyOnward s.position s'.position)) ∧
      (∀ wanted limit forms s', s.forms wanted limit = (forms, s') →
        s.position.offset + forms.items.length ≤ src.length ∧
        (forms.failure = none →
          limit = some forms.items.length ∨ s'.next = (.ok .endOfInput, s'))) ∧
      ∀ s', s.next = (.ok .endOfInput, s') →
        s'.next = (.ok .endOfInput, s') ∧ ∀ n, s'.after n = s' := by
  refine ⟨?_, ?_, ?_⟩
  · intro ctx base depth mode c deep
    exact base.over_eq deep
  · intro ctx p s inside within
    refine ⟨?_, ?_, ?_, ?_, ?_, ?_⟩
    · exact Reader.ends_readDatum s inside within
    · exact Reader.ends_skipComment s inside within
    · exact Reader.ends_skipAtmosphere s inside within
    · exact Reader.ends_skipIntraline s inside within
    · exact src.ends_scanDirective s inside within
    · exact ends_nextItem ctx (src.cursor p) s
  · rintro s rfl inside within
    refine ⟨?_, ?_, ?_⟩
    · intro item s' found
      exact Session.onward_of_next inside within found
    · intro wanted limit forms s' outcome
      obtain ⟨few, stopped⟩ := Session.stops_of_formsFor (Nat.lt_succ_self _) outcome
      have whole := length_cursor inside within
      change _ + (s.cursor.rest.length : Int) = _ at whole
      exact ⟨by omega, fun none_failed => (stopped none_failed).imp id Session.next_of_ended⟩
    · intro s' ended
      obtain ⟨c, finds, -, rfl⟩ := Session.finds_of_next ended
      have nothing := finds.rest_eq_nil rfl
      exact ⟨Session.next_of_ended nothing, Session.after_of_ended nothing⟩

/-- A datum comment that comments out nothing in a directive, and one before another comment. -/
theorem Source.reading_progresses_comments :
    ∃ (src : Source) (s₁ s' : Session) (forms : Session.Forms),
      src = ⟨"#! #;\n#; #|x|# a (b)", none⟩ ∧
      src.session.next = (.ok (.directive ⟨[], some .start⟩), s₁) ∧
      src.StrictlyOnward .start s₁.position ∧
      src.session.forms true none = (forms, s') ∧ forms.failure = none ∧
      forms.items.length = 2 ∧ forms.items.length ≤ src.length ∧
      s'.next = (.ok .endOfInput, s') := by
  obtain ⟨s₁, found⟩ : ∃ s₁, (Source.mk "#! #;\n#; #|x|# a (b)" none).session.next =
      (.ok (.directive ⟨[], some .start⟩), s₁) := ⟨_, rfl⟩
  obtain ⟨forms, s', outcome, none_failed, two⟩ : ∃ forms s',
      (Source.mk "#! #;\n#; #|x|# a (b)" none).session.forms true none = (forms, s') ∧
        forms.failure = none ∧ forms.items.length = 2 := ⟨_, _, rfl, rfl, rfl⟩
  obtain ⟨-, -, sessions⟩ := reading_progresses ⟨"#! #;\n#; #|x|# a (b)", none⟩
  obtain ⟨moves, stops, -⟩ := sessions (Source.session _) rfl (by decide) (by decide)
  obtain ⟨few, stopped⟩ := stops true none forms s' outcome
  have ended := (stopped none_failed).resolve_left nofun
  change 0 + (forms.items.length : Int) ≤ _ at few
  exact ⟨_, s₁, s', forms, rfl, found, (moves _ _ found).2 nofun, outcome, none_failed, two,
    by omega, ended⟩

end LineDirective
