import LineDirective.Proofs.Concatenation
import LineDirective.Proofs.Extent
import LineDirective.Proofs.Leniency
import LineDirective.Proofs.Transparency

/-!
# Reads carried to another text

Two texts start with the same `q` and part there: one goes on with `y`, the other with `z`. A read that
ends before `y` in the one is there in the other (`Reads.transport`), by induction on the rules: what
the rules look at stands in `q`, and where one part of a read ends and another starts, something of `q`
is left.

What a read may look at beyond `q` is settled by where the texts part (`Parting`). If both part at the
end of a line, what ends on the line is carried over whatever the context; this is for directives, and
there a read may end with the line. If they part anywhere, a token is ended by the code point after
it, and skipping has to stop inside `q`. Where it stops two code points are looked at, and more only
after `#!`; but at a `#!` neither a datum nor a closing bracket stands.
-/

namespace LineDirective

variable {p : Parting} {q y z : Text} {x : CodePoint}

/-! ## 1. What starts in the common part -/

def Text.NoMarker (t : Text) : Prop := ∀ rest, t ≠ .scalar '#' :: .scalar '!' :: rest

theorem Text.noMarker_of_head {rest : Text} (no_hash : x ≠ .scalar '#') : NoMarker (x :: rest) := by
  intro more same
  cases same
  exact no_hash rfl

theorem Text.AtLineEnd.noMarker {t : Text} (ends : t.AtLineEnd) : t.NoMarker := by
  rintro rest rfl
  exact absurd rfl (ends.ne (by decide))

theorem StartsDatum.noMarker {t : Text} (h : StartsDatum t) : t.NoMarker := by
  rintro rest rfl
  -- where no whitespace is asked for, every `#!` in code starts a comment
  have comment := h.no_comment .allowSpace .code
  unfold startsComment startsDirective at comment
  simp only [Bool.or_eq_false_iff] at comment
  obtain ⟨unnamed, unstarted⟩ := comment
  rw [if_neg (by simp [unnamed])] at unstarted
  cases rest with
  | nil => cases unstarted
  | cons c rest => simp at unstarted

theorem Text.noMarker_of_closer {rest : Text} (closes : isCloser x = true) : NoMarker (x :: rest) := by
  apply noMarker_of_head
  rintro rfl
  cases closes

/-- Other comments show in two code points. -/
theorem startsComment_of_noMarker {policy : WhitespacePolicy} {mode : Mode} {t : Text}
    (no_marker : Text.NoMarker (x :: t)) :
    startsComment policy mode (x :: t) = (x = .scalar ';' || x = .scalar '#' &&
      (t.head? = some (.scalar '|') || t.head? = some (.scalar ';'))) := by
  unfold startsComment
  split
  · rename_i same
    cases same
    rfl
  · rename_i same
    cases same
    rfl
  · rename_i same
    cases same
    rfl
  · rename_i same
    exact absurd same (no_marker _)
  · rename_i no_line no_block no_datum _
    have first : x ≠ .scalar ';' := by
      rintro rfl
      exact no_line _ rfl
    by_cases hash : x = .scalar '#'
    · subst hash
      cases t with
      | nil => simp
      | cons c t =>
        have second : c ≠ .scalar '|' ∧ c ≠ .scalar ';' := by
          constructor
          · rintro rfl
            exact no_block _ rfl
          · rintro rfl
            exact no_datum _ rfl
        simp [second]
    · simp [first, hash]

theorem startsComment_alike {policy : WhitespacePolicy} {mode : Mode} (some_text : q ≠ [])
    (alike : y.Alike .anywhere z) (no_marker : (q ++ y).NoMarker) :
    startsComment policy mode (q ++ z) = startsComment policy mode (q ++ y) := by
  obtain ⟨c, t, rfl⟩ := List.exists_cons_of_ne_nil some_text
  have tails := alike.append t
  have no_marker' : Text.NoMarker (c :: (t ++ z)) := by
    intro rest same
    obtain ⟨rfl, tail⟩ := List.cons.inj same
    have second : (t ++ y).head? = some (.scalar '!') :=
      (tails.head_iff (by decide)).mp (by rw [tail]; rfl)
    obtain ⟨more, tail'⟩ := List.head?_eq_some_iff.mp second
    exact no_marker more (by rw [List.cons_append, tail'])
  have bar := tails.head_iff (x := .scalar '|') (by decide)
  have semicolon := tails.head_iff (x := .scalar ';') (by decide)
  rw [List.cons_append] at no_marker ⊢
  rw [List.cons_append, startsComment_of_noMarker no_marker, startsComment_of_noMarker no_marker']
  simp only [bar, semicolon]

/-- What `#!` introduces is settled in its line. -/
theorem startsDirective_congr (policy : WhitespacePolicy) (ended : ∃ c ∈ q, c.isNewline = true) :
    NamedMarker.detect? (q ++ z) = NamedMarker.detect? (q ++ y) ∧
      startsDirective policy (q ++ z) = startsDirective policy (q ++ y) := by
  obtain ⟨c, mem, newline⟩ := ended
  obtain ⟨line, more, rfl⟩ := List.append_of_mem mem
  have ends : ∀ t : Text, Text.AtLineEnd (c :: (more ++ t)) := fun _ => newline
  have parts : ∀ t : Text, line ++ c :: more ++ t = line ++ c :: (more ++ t) := by simp
  rw [parts, parts]
  exact ⟨(NamedMarker.detect?_append (ends z)).trans (NamedMarker.detect?_append (ends y)).symm,
    (startsDirective_append policy (ends z)).trans (startsDirective_append policy (ends y)).symm⟩

theorem NamedMarker.detect?_alike {m : NamedMarker} (alike : y.Alike p z)
    (found : detect? (q ++ y) = some m) (inside : m.name.length + p.margin ≤ q.length) :
    detect? (q ++ z) = some m := by
  cases p with
  | lineEnd =>
    obtain ⟨ends, ends'⟩ := alike.at_line_end
    rwa [detect?_append ends, ← detect?_append ends'] at found
  | anywhere =>
    have inside : m.name.length + 1 ≤ q.length := inside
    obtain ⟨more, rfl⟩ : m.name <+: q := List.prefix_of_prefix_length_le
      (name_of_detect? found) (List.prefix_append q y) (by omega)
    rw [List.length_append] at inside
    obtain ⟨c, more, rfl⟩ := List.exists_cons_of_length_pos (show 0 < more.length by omega)
    rw [List.append_assoc] at found ⊢
    refine (detect?_before found (z := c :: more ++ z) ?_).2
    rw [List.drop_left]
    exact id

theorem Cursor.Abreast.startsComment_eq {a b : Cursor} {policy policy' : WhitespacePolicy} {mode : Mode} (h : Abreast p y z q a b)
    (alike : y.Alike p z) (inside : p = .lineEnd → mode = .directive)
    (same : p = .anywhere → policy' = policy) (settled : p = .anywhere → a.rest.NoMarker)
    (within : y.length + p.margin ≤ a.rest.length) :
    startsComment policy' mode b.rest = startsComment policy mode a.rest := by
  rcases h.cases_of_within alike within with some_rest | ⟨ends, ends'⟩
  · have some_text := h.some_text some_rest
    cases p with
    | lineEnd =>
      obtain rfl := inside rfl
      obtain ⟨ends, ends'⟩ := alike.at_line_end
      rw [h.left, h.right, startsComment_append _ some_text ends',
        startsComment_append _ some_text ends, startsComment_policy]
    | anywhere =>
      obtain rfl := same rfl
      have settled := settled rfl
      rw [h.left] at settled
      rw [h.left, h.right, startsComment_alike some_text alike settled]
  · rw [startsComment_of_atLineEnd _ _ ends, startsComment_of_atLineEnd _ _ ends']

/-! ## 2. Where a line ends -/

/-- A scan ends at the start of the next line or later. -/
theorem Reads.length_afterDirective_le {ctx : Context} {anchor : Int} {c last : Cursor}
    {s s' : ReaderState} {before ds : List Datum}
    (scan : Reads ctx (.datums anchor before) c s (.datums ds) last s')
    (line : c.position.line = anchor) :
    (last.afterDirective anchor).rest.length ≤ c.nextLine.rest.length := by
  obtain ⟨spans, -, found⟩ := scan.exists_traversal line
  unfold Cursor.afterDirective
  rcases found.exit with ⟨same, ended⟩ | ⟨left, -⟩
  · rw [if_pos same, found.ahead.skipNewline_eq_nextLine (same.trans line.symm) ended]
  · rw [if_neg left]
    exact found.ahead.length_le_nextLine (by rwa [line])

/-- If the next line starts within `q`, a line break stands in `q`. -/
theorem Cursor.exists_newline {c : Cursor} (left : c.rest = q ++ y)
    (inside : y.length < c.nextLine.rest.length) : ∃ x ∈ q, x.isNewline = true := by
  by_contra none
  have plain : ∀ x ∈ q, (!x.isNewline) = true := by simpa using none
  have short := c.lineEnd.reaches_skipNewline.length_le
  have beyond : c.lineEnd.rest.length ≤ y.length := by
    unfold lineEnd skipWhile span
    rw [rest_advance, List.length_drop, left, List.takeWhile_append_of_pos plain, List.length_append,
      List.length_append]
    omega
  unfold nextLine at inside
  omega

/-! ## 3. Carrying a read over -/

/-- The states fold alike, and are the same unless the texts part at the end of a directive's line. -/
structure ReaderState.Alike (p : Parting) (s t : ReaderState) : Prop where
  fold : t.foldCase = s.foldCase
  same : p = .anywhere → t = s

namespace ReaderState.Alike

variable {s t : ReaderState}

theorem emit (h : Alike p s t) (e : Event) : Alike p (s.emit e) (t.emit e) :=
  ⟨h.fold, fun part => congrArg (ReaderState.emit · e) (h.same part)⟩

theorem marked (h : Alike p s t) (mode : Mode) (m : NamedMarker) :
    Alike p (if mode = .code then { s with foldCase := m.folds } else s)
      (if mode = .code then { t with foldCase := m.folds } else t) := by
  refine ⟨?_, fun part => by rw [h.same part]⟩
  split
  · rfl
  · exact h.fold

end ReaderState.Alike

theorem Cursor.line_after_datumComment {c : Cursor} {rest : Text}
    (head : c.rest = .scalar '#' :: .scalar ';' :: rest) :
    (c.advance 2).position.line = c.position.line :=
  line_advance_of_onOneLine (w := [.scalar '#', .scalar ';']) head (by decide)

/-- How much of the common part is left after a task: a datum may end with it, and after whitespace
something on its line follows. -/
def Task.reserve (p : Parting) : Task → Nat
  | .datum _ | .here _ | .items .. => 0
  | .atmosphere _ => 1
  | .comment _ | .intraline _ | .datums .. => p.margin

/-- A task whose end is found by what follows does not end at a `#!`. On the line of a directive this
holds as long as the line has not been left. -/
def Task.Settles (a a' : Cursor) : Task → Prop
  | .atmosphere _ => a'.rest.NoMarker
  | .intraline anchor =>
    a.position.line = anchor ∧ (a'.position.line = anchor → a'.rest.NoMarker)
  | .datums anchor _ => a.position.line = anchor
  | _ => True

theorem Task.settles_of_ended {anchor : Int} {a a' : Cursor} (line : a.position.line = anchor)
    (ended : a'.position.line ≠ anchor ∨ a'.atLineEnd = true) :
    (Task.intraline anchor).Settles a a' := by
  refine ⟨line, fun stays => ?_⟩
  rcases ended with left | ended
  · exact absurd stays left
  · exact (Cursor.atLineEnd_iff.mp ended).noMarker

theorem Parting.eq_anywhere {p : Parting} {task : Task} (inside : p = .lineEnd → task.inDirective = true)
    (code : task.inDirective = false) : p = .anywhere := by
  cases p with
  | lineEnd => exact absurd (inside rfl) (by simp [code])
  | anywhere => rfl

/-- A read that ends before `y` where one text goes on with it is there where the other goes on with
`z`: wherever the texts part under the same context, and at the end of a line in a directive under any
context. -/
theorem Reads.transport {ctx ctx' : Context} {task : Task} {a a' b : Cursor} {s s' t : ReaderState}
    {v : Yield} (alike : y.Alike p z) (h : Reads ctx task a s v a' s')
    (inside : p = .lineEnd → task.inDirective = true) (same_ctx : p = .anywhere → ctx' = ctx)
    (settles : p = .anywhere → task.Settles a a') (abreast : Cursor.Abreast p y z q a b)
    (agree : s.Alike p t) (within : y.length + task.reserve p ≤ a'.rest.length) :
    ∃ q' b' t', Cursor.Abreast p y z q' a' b' ∧ s'.Alike p t' ∧ Reads ctx' task b t v b' t' := by
  have slack := p.margin_le_one
  -- by induction on the rules: each part of a read ends before the read does
  induction h generalizing q b t with
  | @code c c₁ next s s₁ s' d skipped read ih₁ ih₂ =>
    have within : y.length ≤ next.rest.length := within
    have short := read.length_lt rfl
    obtain ⟨q₁, b₁, t₁, abreast₁, agree₁, skipped'⟩ :=
      ih₁ inside (fun _ => read.startsDatum.noMarker) abreast agree (show y.length + 1 ≤ _ by omega)
    obtain ⟨q', b', t', abreast', agree', read'⟩ :=
      ih₂ inside (fun _ => trivial) abreast₁ agree₁ within
    exact ⟨q', b', t', abreast', agree', .code skipped' read'⟩
  | directive _ ih =>
    obtain ⟨q', b', t', abreast', agree', read'⟩ :=
      ih inside (fun _ => trivial) abreast agree within
    exact ⟨q', b', t', abreast', agree', .directive read'⟩
  | @flat mode c s d size spelled =>
    have bounds := spelled.size
    have total := abreast.length
    have fits : size ≤ q.length := by
      rw [Cursor.rest_advance, List.length_drop] at within
      simp only [Task.reserve] at within
      omega
    have stops : y.atDelimiter = true → z.atDelimiter = true := (alike.atDelimiter_eq []).trans
    rw [abreast.left] at spelled
    have spelled' := spelled.within stops fits
    rw [← abreast.right, ← agree.fold] at spelled'
    exact ⟨_, _, _, abreast.advance fits, agree, .flat spelled'⟩
  | @list mode c s x rest parts next s' head opener items ih =>
    have within : y.length ≤ next.rest.length := within
    have short := items.length_lt rfl
    have first := Cursor.length_next_lt head
    obtain ⟨q₁, rfl, -, head'⟩ := abreast.head head (by omega)
    obtain ⟨q', b', t', abreast', agree', items'⟩ :=
      ih inside (fun _ => trivial) abreast.next agree within
    exact ⟨q', b', t', abreast', agree', .list head' opener items'⟩
  | @abbreviation mode c s a c₁ s₁ d next s' mark skipped follows read ih₁ ih₂ =>
    have within : y.length ≤ next.rest.length := within
    have some_mark := (abbreviation?_mark mark).1
    have starts := read.startsDatum_of_clear skipped.clear_of_atmosphere
    have skip := skipped.length_le
    have short := read.length_lt rfl
    have total := abreast.length
    rw [Cursor.rest_advance, List.length_drop] at skip
    rw [abreast.left, ← abbreviation?_congr (z := z) (by omega), ← abreast.right] at mark
    obtain ⟨q₁, b₁, t₁, abreast₁, agree₁, skipped'⟩ := ih₁ inside (fun _ => starts.noMarker)
      (abreast.advance (by omega)) agree (show y.length + 1 ≤ _ by omega)
    obtain ⟨q', b', t', abreast', agree', read'⟩ :=
      ih₂ inside (fun _ => trivial) abreast₁ agree₁ within
    rw [← abreast₁.follows_eq (abreast₁.some_text (by omega))] at follows
    exact ⟨q', b', t', abreast', agree', .abbreviation mark skipped' follows read'⟩
  | @vector mode c s rest items next s' head read ih =>
    have within : y.length ≤ next.rest.length := within
    have short := read.length_lt rfl
    have total := abreast.length
    rw [Cursor.rest_advance, List.length_drop] at short
    obtain ⟨q₁, -, -, head'⟩ := abreast.lead [.scalar '#', .scalar '('] head
      (show y.length + 2 ≤ _ by omega)
    obtain ⟨q', b', t', abreast', agree', read'⟩ :=
      ih inside (fun _ => trivial) (abreast.advance (by omega)) agree within
    exact ⟨q', b', t', abreast', agree', .vector head' read'⟩
  | @bytevector mode c s rest items elements next s' head read bytes ih =>
    have within : y.length ≤ next.rest.length := within
    have short := read.length_lt rfl
    have total := abreast.length
    rw [Cursor.rest_advance, List.length_drop] at short
    obtain ⟨q₁, -, -, head'⟩ := abreast.lead [.scalar '#', .scalar 'u', .scalar '8', .scalar '(']
      head (show y.length + 4 ≤ _ by omega)
    obtain ⟨q', b', t', abreast', agree', read'⟩ :=
      ih inside (fun _ => trivial) (abreast.advance (by omega)) agree within
    exact ⟨q', b', t', abreast', agree', .bytevector head' read' bytes⟩
  | @close mode closer parts c s c₁ s₁ rest skipped head closes ih =>
    have within : y.length ≤ c₁.next.rest.length := within
    have first := Cursor.length_next_lt head
    have no_marker : c₁.rest.NoMarker := head ▸ Text.noMarker_of_closer closes
    obtain ⟨q₁, b₁, t₁, abreast₁, agree₁, skipped'⟩ :=
      ih inside (fun _ => no_marker) abreast agree (show y.length + 1 ≤ _ by omega)
    obtain ⟨q₂, rfl, -, head'⟩ := abreast₁.head head (by omega)
    exact ⟨q₂, b₁.next, t₁, abreast₁.next, agree₁, .close skipped' head' closes⟩
  | @dot mode closer items c s c₁ s₁ rest c₂ s₂ d next s₃ parts last s' skipped head lone some_item
      skipped₂ follows read others ih₁ ih₂ ih₃ ih₄ =>
    have within : y.length ≤ last.rest.length := within
    have no_marker : c₁.rest.NoMarker := head ▸ Text.noMarker_of_head (by decide)
    have starts := read.startsDatum_of_clear skipped₂.clear_of_atmosphere
    have first := Cursor.length_next_lt head
    have skip := skipped₂.length_le
    have short := read.length_lt rfl
    have short' := others.length_lt rfl
    obtain ⟨q₁, b₁, t₁, abreast₁, agree₁, skipped'⟩ :=
      ih₁ inside (fun _ => no_marker) abreast agree (show y.length + 1 ≤ _ by omega)
    obtain ⟨q₂, rfl, rfl, head'⟩ := abreast₁.head head (by omega)
    rw [← alike.atDelimiter_eq] at lone
    obtain ⟨q₃, b₂, t₂, abreast₂, agree₂, skipped₂'⟩ := ih₂ inside (fun _ => starts.noMarker)
      abreast₁.next agree₁ (show y.length + 1 ≤ _ by omega)
    rw [← abreast₂.follows_eq (abreast₂.some_text (by omega))] at follows
    obtain ⟨q₄, b₃, t₃, abreast₃, agree₃, read'⟩ :=
      ih₃ inside (fun _ => trivial) abreast₂ agree₂ (show y.length ≤ _ by omega)
    obtain ⟨q', b', t', abreast', agree', others'⟩ :=
      ih₄ inside (fun _ => trivial) abreast₃ agree₃ within
    exact ⟨q', b', t', abreast', agree',
      .dot skipped' head' lone some_item skipped₂' follows read' others'⟩
  | @item mode closer items c s c₁ s₁ x rest d next s₂ parts last s' skipped head open_ no_dot read
      others ih₁ ih₂ ih₃ =>
    have within : y.length ≤ last.rest.length := within
    have starts := read.startsDatum_of_clear skipped.clear_of_atmosphere
    have short := read.length_lt rfl
    have short' := others.length_lt rfl
    obtain ⟨q₁, b₁, t₁, abreast₁, agree₁, skipped'⟩ :=
      ih₁ inside (fun _ => starts.noMarker) abreast agree (show y.length + 1 ≤ _ by omega)
    obtain ⟨q₂, rfl, rfl, head'⟩ := abreast₁.head head (by omega)
    rw [← alike.atDelimiter_eq] at no_dot
    obtain ⟨q₃, b₂, t₂, abreast₂, agree₂, read'⟩ :=
      ih₂ inside (fun _ => trivial) abreast₁ agree₁ (show y.length ≤ _ by omega)
    obtain ⟨q', b', t', abreast', agree', others'⟩ :=
      ih₃ inside (fun _ => trivial) abreast₂ agree₂ within
    exact ⟨q', b', t', abreast', agree', .item skipped' head' open_ no_dot read' others'⟩
  | @blank mode c s x rest next s' head white others ih =>
    have within : y.length + 1 ≤ next.rest.length := within
    have first := Cursor.length_next_lt head
    have short := others.length_le
    obtain ⟨q₁, rfl, -, head'⟩ := abreast.head head (by omega)
    obtain ⟨q', b', t', abreast', agree', others'⟩ := ih inside settles abreast.next agree within
    exact ⟨q', b', t', abreast', agree', .blank head' white others'⟩
  | @remark mode c s c₁ s₁ next s' visible skipped others ih₁ ih₂ =>
    have within : y.length + 1 ≤ next.rest.length := within
    have short := skipped.length_lt rfl
    have short' := others.length_le
    rw [← abreast.head?_eq (abreast.some_text (by omega))] at visible
    obtain ⟨q₁, b₁, t₁, abreast₁, agree₁, skipped'⟩ :=
      ih₁ inside (fun _ => trivial) abreast agree (show y.length + p.margin ≤ _ by omega)
    obtain ⟨q', b', t', abreast', agree', others'⟩ := ih₂ inside settles abreast₁ agree₁ within
    exact ⟨q', b', t', abreast', agree', .remark visible skipped' others'⟩
  | @clear mode c s visible none_starts =>
    have within : y.length + 1 ≤ c.rest.length := within
    have in_line : p = .lineEnd → mode = .directive := by simpa [Task.inDirective] using inside
    rw [← abreast.head?_eq (abreast.some_text within)] at visible
    rw [← abreast.startsComment_eq alike in_line
      (fun part => congrArg (·.policy.whitespace) (same_ctx part)) settles (by omega)] at none_starts
    exact ⟨q, b, t, abreast, agree, .clear visible none_starts⟩
  | @lineComment mode c s rest head =>
    have within : y.length + p.margin ≤ c.lineEnd.rest.length := within
    have short := (@Reads.lineComment ctx mode c s rest head).length_lt rfl
    obtain ⟨q₁, -, -, head'⟩ := abreast.head head (by omega)
    obtain ⟨q', abreast'⟩ := abreast.lineEnd alike within
    exact ⟨q', b.lineEnd, t, abreast', agree, .lineComment head'⟩
  | @blockComment mode c s rest size head closed =>
    have within : y.length + p.margin ≤ (c.advance size).rest.length := within
    have two := Lexeme.two_le_blockComment closed
    have bound := Lexeme.blockComment_size closed
    have total := abreast.length
    rw [Cursor.rest_advance, List.length_drop] at within
    obtain ⟨q₁, -, -, head'⟩ := abreast.lead [.scalar '#', .scalar '|'] head
      (show y.length + 2 ≤ _ by omega)
    rw [abreast.left] at closed
    have closed' := Lexeme.blockComment_congr closed (by omega) z
    rw [← abreast.right] at closed'
    exact ⟨_, _, t, abreast.advance (by omega), agree, .blockComment head' closed'⟩
  | @datumComment c s rest d next s' head read ih =>
    have within : y.length + p.margin ≤ next.rest.length := within
    have short := read.length_lt rfl
    have total := abreast.length
    rw [Cursor.rest_advance, List.length_drop] at short
    obtain ⟨q₁, -, -, head'⟩ := abreast.lead [.scalar '#', .scalar ';'] head
      (show y.length + 2 ≤ _ by omega)
    obtain ⟨q', b', t', abreast', agree', read'⟩ := ih inside (fun _ => trivial)
      (abreast.advance (by omega)) agree (show y.length ≤ _ by omega)
    exact ⟨q', b', t', abreast', agree', .datumComment head' read'⟩
  | @emptyComment c s rest c₁ s₁ head skipped ended ih =>
    have within : y.length + p.margin ≤ c₁.rest.length := within
    have skip := skipped.length_le
    have total := abreast.length
    have two : 2 ≤ c.rest.length := by rw [head]; simp
    have settled := Task.settles_of_ended (Cursor.line_after_datumComment head) ended
    rw [Cursor.rest_advance, List.length_drop] at skip
    obtain ⟨q₁, -, -, head'⟩ := abreast.lead [.scalar '#', .scalar ';'] head
      (show y.length + 2 ≤ _ by omega)
    obtain ⟨q', b', t', abreast', agree', skipped'⟩ :=
      ih (fun _ => rfl) (fun _ => settled) (abreast.advance (by omega)) agree within
    rw [← abreast.position_eq (by omega)] at skipped' ended
    rw [← abreast'.position_eq within, ← abreast'.atLineEnd_eq alike within] at ended
    exact ⟨q', b', t', abreast', agree', .emptyComment head' skipped' ended⟩
  | @lineDatumComment c s rest c₁ s₁ d next s' head skipped same follows read ih₁ ih₂ =>
    have within : y.length + p.margin ≤ next.rest.length := within
    have skip := skipped.length_le
    have short := read.length_lt rfl
    have total := abreast.length
    have line := Cursor.line_after_datumComment head
    rw [Cursor.rest_advance, List.length_drop] at skip
    obtain ⟨q₁, -, -, head'⟩ := abreast.lead [.scalar '#', .scalar ';'] head
      (show y.length + 2 ≤ _ by omega)
    obtain ⟨q₂, b₁, t₁, abreast₁, agree₁, skipped'⟩ := ih₁ (fun _ => rfl)
      (fun _ => ⟨line, fun _ => read.startsDatum_here.noMarker⟩) (abreast.advance (by omega)) agree
      (show y.length + p.margin ≤ _ by omega)
    obtain ⟨q', b', t', abreast', agree', read'⟩ :=
      ih₂ (fun _ => rfl) (fun _ => trivial) abreast₁ agree₁ (show y.length ≤ _ by omega)
    rw [← abreast.position_eq (by omega)] at skipped' same
    rw [← abreast₁.position_eq (by omega)] at same
    rw [← abreast₁.atLineEnd_eq alike (by omega)] at follows
    exact ⟨q', b', t', abreast', agree', .lineDatumComment head' skipped' same follows read'⟩
  | @marker mode c s rest m head found =>
    have within : y.length + p.margin ≤ (c.advance (2 + m.name.length)).rest.length := within
    have bound := (NamedMarker.name_of_detect? found).length_le
    have size := congrArg List.length head
    have total := abreast.length
    rw [List.length_cons, List.length_cons] at size
    rw [Cursor.rest_advance, List.length_drop] at within
    obtain ⟨q₁, rfl, rfl, head'⟩ := abreast.lead [.scalar '#', .scalar '!'] head
      (show y.length + 2 ≤ _ by omega)
    rw [List.length_append] at size bound
    have found' := NamedMarker.detect?_alike alike found (by omega)
    have marked := @Reads.marker ctx' mode b t _ m head' found'
    rw [abreast.position_eq (by omega)] at marked
    exact ⟨_, _, _, abreast.advance (by omega), (agree.marked mode m).emit _, marked⟩
  | @lineDirective c s rest ds last s₁ s' head unnamed starts scanned kept ih =>
    -- in code the contexts are the same, and so are the states
    obtain rfl : p = .anywhere := Parting.eq_anywhere inside rfl
    obtain rfl := same_ctx rfl
    have within : y.length + 1 ≤ (last.afterDirective (c.advance 2).position.line).rest.length :=
      within
    have after := (Cursor.reaches_afterDirective (c.advance 2).position.line last).length_le
    have onward := scanned.length_le
    have total := abreast.length
    have beyond := scanned.length_afterDirective_le rfl
    rw [Cursor.rest_advance, List.length_drop] at onward
    obtain ⟨q₁, rfl, rfl, head'⟩ := abreast.lead [.scalar '#', .scalar '!'] head
      (show y.length + 2 ≤ _ by omega)
    -- the directive takes up its line, so that the line ends in the common part
    have newline : ∃ x ∈ q₁, x.isNewline = true :=
      (c.advance 2).exists_newline (by rw [Cursor.rest_advance, head]; rfl) (by omega)
    obtain ⟨unnamed', starts'⟩ :=
      startsDirective_congr (y := y) (z := z) ctx'.policy.whitespace newline
    rw [← unnamed'] at unnamed
    rw [← starts'] at starts
    have abreast₁ := abreast.advance (n := 2) (by simp)
    have same : (b.advance 2).position = (c.advance 2).position := abreast₁.position_eq
      (show y.length + 1 ≤ _ by rw [Cursor.rest_advance, List.length_drop]; omega)
    obtain ⟨q₂, b₁, t₁, abreast₂, agree₁, scanned'⟩ :=
      ih inside (fun _ => rfl) abreast₁ (agree.emit _) (show y.length + 1 ≤ _ by omega)
    obtain rfl := agree₁.same rfl
    obtain ⟨q', abreast'⟩ := abreast₂.afterDirective (c.advance 2).position.line (by omega)
    rw [← same] at scanned' kept
    have skipped := Reads.lineDirective head' unnamed starts scanned' kept
    rw [same] at skipped
    exact ⟨q', _, s', abreast', ⟨rfl, fun _ => rfl⟩, skipped⟩
  | @intralineBlank anchor c s x rest next s' head white others ih =>
    have within : y.length + p.margin ≤ next.rest.length := within
    have first := Cursor.length_next_lt head
    have short := others.length_le
    have stays : x.isNewline = false := by
      unfold CodePoint.isIntralineBlank at white
      simpa using (Bool.and_eq_true_iff.mp white).1
    obtain ⟨q₁, rfl, -, head'⟩ := abreast.head head (by omega)
    obtain ⟨q', b', t', abreast', agree', others'⟩ := ih inside
      (fun part => ⟨(Cursor.line_next_of_inside head stays).trans (settles part).1, (settles part).2⟩)
      abreast.next agree within
    exact ⟨q', b', t', abreast', agree', .intralineBlank head' white others'⟩
  | @intralineComment anchor c s c₁ s₁ next s' visible skipped same others ih₁ ih₂ =>
    have within : y.length + p.margin ≤ next.rest.length := within
    have short := skipped.length_lt rfl
    have short' := others.length_le
    rw [← abreast.head?_eq (abreast.some_text (by omega))] at visible
    obtain ⟨q₁, b₁, t₁, abreast₁, agree₁, skipped'⟩ := ih₁ (fun _ => rfl) (fun _ => trivial) abreast
      agree (show y.length + p.margin ≤ _ by omega)
    obtain ⟨q', b', t', abreast', agree', others'⟩ :=
      ih₂ inside (fun part => ⟨same, (settles part).2⟩) abreast₁ agree₁ within
    rw [← abreast₁.position_eq (by omega)] at same
    exact ⟨q', b', t', abreast', agree', .intralineComment visible skipped' same others'⟩
  | @crossingComment anchor c s c₁ s₁ visible skipped left ih =>
    have within : y.length + p.margin ≤ c₁.rest.length := within
    have short := skipped.length_lt rfl
    rw [← abreast.head?_eq (abreast.some_text (by omega))] at visible
    obtain ⟨q', b', t', abreast', agree', skipped'⟩ :=
      ih (fun _ => rfl) (fun _ => trivial) abreast agree within
    rw [← abreast'.position_eq within] at left
    exact ⟨q', b', t', abreast', agree', .crossingComment visible skipped' left⟩
  | @intralineClear anchor c s visible none_starts =>
    have within : y.length + p.margin ≤ c.rest.length := within
    rw [← abreast.intralineBlank_eq alike within] at visible
    rw [← abreast.startsComment_eq alike (fun _ => rfl)
      (fun part => congrArg (·.policy.whitespace) (same_ctx part))
      (fun part => (settles part).2 (settles part).1) within] at none_starts
    exact ⟨q, b, t, abreast, agree, .intralineClear visible none_starts⟩
  | @lastDatum anchor before c s c₁ s₁ skipped ended ih =>
    have within : y.length + p.margin ≤ c₁.rest.length := within
    obtain ⟨q', b', t', abreast', agree', skipped'⟩ := ih (fun _ => rfl)
      (fun part => Task.settles_of_ended (settles part) ended) abreast agree within
    have same := abreast'.position_eq within
    rw [← same, ← abreast'.atLineEnd_eq alike within] at ended
    rw [← same]
    exact ⟨q', b', _, abreast', agree'.emit _, .lastDatum skipped' ended⟩
  | @crossingDatum anchor before c s c₁ s₁ d next s₂ skipped same follows read left allowed ih₁ ih₂ =>
    rw [← same_ctx (Parting.eq_anywhere inside rfl)] at allowed
    have within : y.length + p.margin ≤ next.rest.length := within
    have short := read.length_lt rfl
    obtain ⟨q₁, b₁, t₁, abreast₁, agree₁, skipped'⟩ := ih₁ (fun _ => rfl)
      (fun part => ⟨settles part, fun _ => read.startsDatum_here.noMarker⟩) abreast agree
      (show y.length + p.margin ≤ _ by omega)
    have here := abreast₁.position_eq (by omega)
    obtain ⟨q', b', t', abreast', agree', read'⟩ :=
      ih₂ (fun _ => rfl) (fun _ => trivial) abreast₁ (agree₁.emit _) (show y.length ≤ _ by omega)
    have there := abreast'.position_eq within
    rw [← here] at read' same
    rw [← abreast₁.atLineEnd_eq alike (by omega)] at follows
    rw [← there] at left
    rw [← here, ← there]
    exact ⟨q', b', _, abreast', ((agree'.emit _).emit _).emit _,
      .crossingDatum skipped' same follows read' left allowed⟩
  | @lineDatum anchor before c s c₁ s₁ d next s₂ ds last s' skipped same follows read stays others ih₁
      ih₂ ih₃ =>
    have within : y.length + p.margin ≤ last.rest.length := within
    have short := read.length_lt rfl
    have short' := others.length_le
    obtain ⟨q₁, b₁, t₁, abreast₁, agree₁, skipped'⟩ := ih₁ (fun _ => rfl)
      (fun part => ⟨settles part, fun _ => read.startsDatum_here.noMarker⟩) abreast agree
      (show y.length + p.margin ≤ _ by omega)
    have here := abreast₁.position_eq (by omega)
    obtain ⟨q₂, b₂, t₂, abreast₂, agree₂, read'⟩ :=
      ih₂ (fun _ => rfl) (fun _ => trivial) abreast₁ (agree₁.emit _) (show y.length ≤ _ by omega)
    have there := abreast₂.position_eq (by omega)
    obtain ⟨q', b', t', abreast', agree', others'⟩ := ih₃ inside (fun _ => stays) abreast₂
      ((agree₂.emit _).emit _) within
    rw [← here] at read' same others'
    rw [← abreast₁.atLineEnd_eq alike (by omega)] at follows
    rw [← there] at stays others'
    exact ⟨q', b', t', abreast', agree',
      .lineDatum skipped' same follows read' stays others'⟩

/-! ## 4. Both kinds of texts -/

/-- In a directive what follows a line does not matter to a read that ends on the line. -/
theorem Reads.congr {ctx ctx' : Context} {task : Task} {a a' b : Cursor} {s s' t : ReaderState}
    {v : Yield} (ends : y.AtLineEnd) (ends' : z.AtLineEnd) (h : Reads ctx task a s v a' s')
    (inside : task.inDirective = true) (abreast : Cursor.Abreast .lineEnd y z q a b)
    (fold : t.foldCase = s.foldCase) (within : y.length + task.reserve .lineEnd ≤ a'.rest.length) :
    ∃ q' b' t', Cursor.Abreast .lineEnd y z q' a' b' ∧ t'.foldCase = s'.foldCase ∧
      Reads ctx' task b t v b' t' := by
  have code_only {P : Prop} : Parting.lineEnd = .anywhere → P := by
    intro other
    cases other
  have carried : ∃ q' b' t', Cursor.Abreast .lineEnd y z q' a' b' ∧ s'.Alike .lineEnd t' ∧
      Reads ctx' task b t v b' t' :=
    h.transport (.inl ⟨ends, ends'⟩) (fun _ => inside) code_only code_only abreast ⟨fold, code_only⟩
      within
  obtain ⟨q', b', t', abreast', agree, read⟩ := carried
  exact ⟨q', b', t', abreast', agree.fold, read⟩

/-- A datum, and whatever stops before something of it, is read alike wherever the texts part. -/
theorem Reads.abreast {ctx : Context} {task : Task} {a a' b : Cursor} {s s' : ReaderState} {v : Yield}
    (alike : y.Alike .anywhere z) (h : Reads ctx task a s v a' s') (settles : task.Settles a a')
    (abreast : Cursor.Abreast .anywhere y z q a b)
    (within : y.length + task.reserve .anywhere ≤ a'.rest.length) :
    ∃ q' b', Cursor.Abreast .anywhere y z q' a' b' ∧ Reads ctx task b s v b' s' := by
  have no_line : Parting.anywhere = .lineEnd → task.inDirective = true := by
    intro other
    cases other
  obtain ⟨q', b', t', abreast', agree, read⟩ :=
    h.transport alike no_line (fun _ => rfl) (fun _ => settles) abreast ⟨rfl, fun _ => rfl⟩ within
  obtain rfl := agree.same rfl
  exact ⟨q', b', abreast', read⟩

end LineDirective
