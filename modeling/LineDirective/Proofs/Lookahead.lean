import LineDirective.Proofs.Transport

/-!
# Reading is local

What a read comes to depends on the text from its start on and not on where that text stands: behind
another text everything comes out alike, with all places moved along (`Reader.reading_local`). Nor does
the reader look far ahead. A datum that has been read is there in every text that is the same up to one
code point beyond its end.

That all places are moved along is `Reads.rebase` and `Fails.rebase`; that the datum is there in another
text is the transport of its read to a text that parts anywhere behind it (`Reads.abreast`).
-/

namespace LineDirective

/-! ## 1. Texts that are the same up to an offset -/

/-- The second text is the same as the first up to one code point beyond an offset; or the first text
ends at the offset, and the second goes on from there with a line break. -/
def Text.SameBeyond (offset : Int) (t u : Text) : Prop :=
  u.take (offset + 1).toNat = t.take (offset + 1).toNat ∨
    (offset = t.length ∧ ∃ x more, u = t ++ x :: more ∧ x.isNewline = true)

theorem Text.SameBeyond.split {t u : Text} {n : Nat} (h : SameBeyond n t u) (inside : n ≤ t.length) :
    ∃ q y z, t = q ++ y ∧ u = q ++ z ∧ q.length = n ∧ y.Alike .anywhere z := by
  rcases h with same | ⟨whole, x, more, rfl, newline⟩
  · rw [Int.toNat_natCast_add_one] at same
    have front : u.take n = t.take n := by
      have := congrArg (List.take n) same
      rwa [List.take_take, List.take_take, Nat.min_eq_left (Nat.le_succ n)] at this
    have first : u[n]? = t[n]? := by
      have := congrArg (·[n]?) same
      simpa [List.getElem?_take] using this
    refine ⟨t.take n, t.drop n, u.drop n, (List.take_append_drop n t).symm, ?_, ?_, .inr ⟨rfl, ?_⟩⟩
    · rw [← front, List.take_append_drop]
    · rw [List.length_take, Nat.min_eq_left inside]
    · rw [List.head?_drop, List.head?_drop, first]
  · exact ⟨t, [], x :: more, (List.append_nil t).symm, rfl, by omega, .inl ⟨rfl, newline⟩⟩

/-- A datum that has been read is there in every text that is the same beyond its end. -/
theorem Reads.datum_of_sameBeyond {ctx : Context} {mode : Mode} {t u : Text} {d : Datum} {next : Cursor}
    {s s' : ReaderState} (h : Reads ctx (.datum mode) (.ofText t) s (.datum d) next s')
    (same : t.SameBeyond next.position.offset u) :
    ∃ last, Reads ctx (.datum mode) (.ofText u) s (.datum d) last s' ∧
      last.position.offset = next.position.offset := by
  have short := h.length_le
  have moved := h.reaches.offset
  have start : (Cursor.ofText t).position.offset = 0 := rfl
  have text : (Cursor.ofText t).rest = t := rfl
  rw [start, text, Int.zero_add] at moved
  rw [text] at short
  rw [moved] at same
  obtain ⟨q, y, z, rfl, rfl, size, alike⟩ := same.split (Nat.sub_le _ _)
  have within : y.length ≤ next.rest.length := by
    rw [List.length_append] at size short
    omega
  obtain ⟨q', last, abreast', read⟩ := h.abreast alike trivial (.start y z q) within
  exact ⟨last, read, abreast'.offset⟩

/-! ## 2. Texts at another place -/

/-- Started in `t`, the action `m'` ends as `m` does that is started in `s`, but for a text that stands
from `origin` on: it returns what `m` returns, moved along by `move`, or fails as `m` does, further on;
and the same directives are handed over, further on. -/
def ReadM.MovesAlong {α : Type} (origin : Position) (front : List Directive) (move : α → α)
    (m : ReadM α) (s : ReaderState) (m' : ReadM α) (t : ReaderState) : Prop :=
  ∃ s' t', ReaderState.Rebased origin front s' t' ∧
    ((∃ a, m.Returns s a s' ∧ m'.Returns t (move a) t') ∨
      ∃ e, m.Raises s e s' ∧ m'.Raises t (e.rebase origin) t')

theorem ReadM.MovesAlong.of_ends {α : Type} {origin : Position} {front : List Directive} {move : α → α}
    {m m' : ReadM α} {s t : ReaderState}
    (returned : ∀ a s', m.Returns s a s' →
      ∃ t', m'.Returns t (move a) t' ∧ ReaderState.Rebased origin front s' t')
    (raised : ∀ e s', m.Raises s e s' →
      ∃ t', m'.Raises t (e.rebase origin) t' ∧ ReaderState.Rebased origin front s' t') :
    m.MovesAlong origin front move s m' t := by
  rcases m.returns_or_raises s with ⟨a, s', h⟩ | ⟨e, s', h⟩
  · obtain ⟨t', h', moved⟩ := returned a s' h
    exact ⟨s', t', moved, .inl ⟨a, h, h'⟩⟩
  · obtain ⟨t', h', moved⟩ := raised e s' h
    exact ⟨s', t', moved, .inr ⟨e, h, h'⟩⟩

namespace Reader

section Elsewhere

variable {ctx : Context} {mode : Mode} {origin : Position} {front : List Directive} {c : Cursor}
  {s t : ReaderState}

theorem readDatum_movesAlong (inside : 1 ≤ c.position.line)
    (same : ReaderState.Rebased origin front s t) :
    (readDatum ctx mode c).MovesAlong origin front (fun r => (r.1, r.2.rebase origin)) s
      (readDatum ctx mode (c.rebase origin)) t := by
  apply ReadM.MovesAlong.of_ends
  · rintro ⟨d, next⟩ s' done
    obtain ⟨t', read, same'⟩ := (returns_readDatum.mp done).rebase inside same
    exact ⟨t', returns_readDatum.mpr read, same'⟩
  · intro e s' failed
    obtain ⟨t', fails, same'⟩ := ((raises_readDatum .start).mp failed).rebase inside same
    exact ⟨t', (raises_readDatum _).mpr fails, same'⟩

theorem skipComment_movesAlong (inside : 1 ≤ c.position.line)
    (same : ReaderState.Rebased origin front s t) :
    (skipComment ctx mode c).MovesAlong origin front (Option.map (Cursor.rebase origin)) s
      (skipComment ctx mode (c.rebase origin)) t := by
  apply ReadM.MovesAlong.of_ends
  · intro r s' done
    cases r with
    | some next =>
      obtain ⟨t', read, same'⟩ := (returns_skipComment.mp done).rebase inside same
      exact ⟨t', returns_skipComment.mpr read, same'⟩
    | none =>
      obtain ⟨none_starts, rfl⟩ := skips_of_skipComment done
      exact ⟨t, skipCommentBy_of_clear (c := c.rebase origin) none_starts t, same⟩
  · intro e s' failed
    obtain ⟨t', fails, same'⟩ := ((raises_skipComment .start).mp failed).rebase inside same
    exact ⟨t', (raises_skipComment _).mpr fails, same'⟩

theorem skipAtmosphere_movesAlong (inside : 1 ≤ c.position.line)
    (same : ReaderState.Rebased origin front s t) :
    (skipAtmosphere ctx mode c).MovesAlong origin front (Cursor.rebase origin) s
      (skipAtmosphere ctx mode (c.rebase origin)) t := by
  apply ReadM.MovesAlong.of_ends
  · intro next s' done
    obtain ⟨t', read, same'⟩ := (returns_skipAtmosphere.mp done).rebase inside same
    exact ⟨t', returns_skipAtmosphere.mpr read, same'⟩
  · intro e s' failed
    obtain ⟨t', fails, same'⟩ := ((raises_skipAtmosphere .start).mp failed).rebase inside same
    exact ⟨t', (raises_skipAtmosphere _).mpr fails, same'⟩

end Elsewhere

end Reader

theorem Position.rebase_eq {origin : Position} {n : Nat} (place : origin.offset = n) (p : Position) :
    origin.rebase p = ⟨p.line + origin.line - 1,
      if p.line = 1 then p.column + origin.column else p.column, p.offset + n⟩ := by
  simp only [rebase, rebaseLine, place, mk.injEq]
  refine ⟨by omega, ?_, by omega⟩
  split <;> omega

theorem Cause.rebase_crossesLine (origin : Position) (line : Int) :
    (crossesLine line).rebase origin = .crossesLine (line + origin.line - 1) := by
  simp only [rebase, Position.rebaseLine, crossesLine.injEq]
  omega

theorem Cause.rebase_of_ne (origin : Position) {cause : Cause}
    (other : ∀ line, cause ≠ .crossesLine line) : cause.rebase origin = cause := by
  cases cause with
  | crossesLine line => exact absurd rfl (other line)
  | _ => rfl

/-- A text that stands behind another one is read there as it is read by itself, from states that fold
alike: data, comments and atmosphere come out the same, and all places are moved along, as is the line
number in the complaint that a datum leaves its line. And a datum that has been read is there in every
text that is the same up to one code point beyond its end, or that goes on with a line break where the
text has ended; the same directives are handed over before it, and it ends at the same offset. -/
theorem Reader.reading_local (ctx : Context) (mode : Mode) :
    (∀ (before text : Text) (name : Option Text) (p : Position), p.offset = before.length →
      (∀ q, p.rebase q = ⟨q.line + p.line - 1, if q.line = 1 then q.column + p.column else q.column,
        q.offset + before.length⟩) ∧
      (∀ line, (Cause.crossesLine line).rebase p = .crossesLine (line + p.line - 1)) ∧
      (∀ cause : Cause, (∀ line, cause ≠ .crossesLine line) → cause.rebase p = cause) ∧
      ∀ (front : List Directive) (s t : ReaderState), ReaderState.Rebased p front s t →
        let there := (Source.mk (before ++ text) name).cursor p
        (readDatum ctx mode (.ofText text)).MovesAlong p front (fun r => (r.1, r.2.rebase p)) s
          (readDatum ctx mode there) t ∧
        (skipComment ctx mode (.ofText text)).MovesAlong p front (Option.map (Cursor.rebase p)) s
          (skipComment ctx mode there) t ∧
        (skipAtmosphere ctx mode (.ofText text)).MovesAlong p front (Cursor.rebase p) s
          (skipAtmosphere ctx mode there) t) ∧
    ∀ (text other : Text) (s s' : ReaderState) (d : Datum) (next : Cursor),
      (readDatum ctx mode (.ofText text)).Returns s (d, next) s' →
      text.SameBeyond next.position.offset other →
      ∃ last, (readDatum ctx mode (.ofText other)).Returns s (d, last) s' ∧
        last.position.offset = next.position.offset := by
  constructor
  · intro before text name p place
    refine ⟨Position.rebase_eq place, Cause.rebase_crossesLine p, fun _ => Cause.rebase_of_ne p, ?_⟩
    intro front s t same there
    have moved : there = (Cursor.ofText text).rebase p := by
      show Source.cursor _ p = _
      rw [Source.cursor, if_neg (by omega), place, Int.toNat_natCast, List.drop_left, Cursor.rebase]
      exact congrArg _ (Position.rebase_of_start p).symm
    have inside : 1 ≤ (Cursor.ofText text).position.line := Int.le_refl 1
    rw [moved]
    exact ⟨readDatum_movesAlong inside same, skipComment_movesAlong inside same,
      skipAtmosphere_movesAlong inside same⟩
  · intro text other s s' d next done same
    obtain ⟨last, read, offset⟩ := (returns_readDatum.mp done).datum_of_sameBeyond same
    exact ⟨last, returns_readDatum.mpr read, offset⟩

/-- Behind a carriage return whose line feed starts the text; behind a line, where a datum leaves the
next one; and a character literal at the end of a text, which ends a line in this text and not in the
other. -/
theorem Reader.reading_local_crossing :
    (∃ t', (readDatum {} .code
        ((Source.mk "a\r\n#! r6rs\n(b\n c) d" none).cursor ⟨1, 2, 2⟩)).Returns {}
        (.list [.symbol "b", .symbol "c"], ⟨" d", ⟨4, 3, 17⟩⟩) t' ∧
      t'.directives = [⟨[.symbol "r6rs"], some ⟨2, 0, 3⟩⟩]) ∧
    (∃ t', (readDatum {} .code ((Source.mk "x\n#! (a\n b) c" none).cursor ⟨2, 0, 2⟩)).Raises {}
        (.diagnosed ⟨.crossesLine 3, ⟨2, 3, 5⟩, none⟩) t') ∧
    ∃ last s', (readDatum {} .code (.ofText "#\\\r\n b")).Returns {} (.char .carriageReturn, last) s' ∧
      last.position.offset = 3 := by
  obtain ⟨elsewhere, ahead⟩ := reading_local {} .code
  refine ⟨?_, ?_, ?_⟩
  · have read : ∃ s', (readDatum {} .code (.ofText "\n#! r6rs\n(b\n c) d")).Returns {}
        (.list [.symbol "b", .symbol "c"], ⟨" d", ⟨4, 3, 15⟩⟩) s' ∧
        s'.directives = [⟨[.symbol "r6rs"], some ⟨2, 0, 1⟩⟩] := ⟨_, rfl, rfl⟩
    obtain ⟨s', read, found⟩ := read
    obtain ⟨-, -, -, moves⟩ := elsewhere "a\r" "\n#! r6rs\n(b\n c) d" none ⟨1, 2, 2⟩ rfl
    obtain ⟨⟨u, t', moved, ends⟩, -⟩ := moves [] {} {} ⟨rfl, rfl⟩
    rcases ends with ⟨r, done, there⟩ | ⟨e, failed, -⟩
    · obtain ⟨rfl, rfl⟩ := read.unique done
      refine ⟨t', there, ?_⟩
      rw [moved.directives, found]
      rfl
    · exact absurd failed read.not_raises
  · have failed : ∃ s', (readDatum {} .code (.ofText "#! (a\n b) c")).Raises {}
        (.diagnosed ⟨.crossesLine 2, ⟨1, 3, 3⟩, none⟩) s' := ⟨_, rfl⟩
    obtain ⟨s', failed⟩ := failed
    obtain ⟨-, -, -, moves⟩ := elsewhere "x\n" "#! (a\n b) c" none ⟨2, 0, 2⟩ rfl
    obtain ⟨⟨u, t', -, ends⟩, -⟩ := moves [] {} {} ⟨rfl, rfl⟩
    rcases ends with ⟨r, done, -⟩ | ⟨e, raised, there⟩
    · exact absurd failed done.not_raises
    · obtain ⟨rfl, -⟩ := failed.unique raised
      exact ⟨t', there⟩
  · have read : ∃ s', (readDatum {} .code (.ofText "#\\\r")).Returns {}
        (.char .carriageReturn, ⟨[], ⟨2, 0, 3⟩⟩) s' := ⟨_, rfl⟩
    obtain ⟨s', read⟩ := read
    obtain ⟨last, there, offset⟩ := ahead "#\\\r" "#\\\r\n b" {} s' _ _ read
      (.inr ⟨rfl, .lineFeed, " b", rfl, rfl⟩)
    exact ⟨last, s', there, offset⟩

end LineDirective
