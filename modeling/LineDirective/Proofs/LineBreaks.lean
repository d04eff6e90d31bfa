import LineDirective.Proofs.Concatenation
import LineDirective.Proofs.Interspersion

/-!
# Other line breaks

A text keeps its lines when every line feed in it is replaced by a carriage return, or by a carriage
return with a line feed. Up to the end of a line nothing changes, so whatever is recognized by what
stands on one line is recognized as before, and a lexeme that takes up no line break is spelled as
before. Strings, symbols between bars, characters and block comments may take one up; the texts here
have none of their marks (`Text.Unquoted`).

`c.Respelled b c'` says that `c'` stands in the text with other breaks where `c` stands in the text with
line feeds. Lines and columns are the same at both, offsets need not be.
-/

namespace LineDirective

/-! ## 1. Texts -/

namespace Text

/-- The text with another line break in place of every line feed. -/
def respell (b : LineBreak) (t : Text) : Text :=
  t.flatMap fun x => if x = .lineFeed then b.text else [x]

/-- The text has no carriage return, and none of the marks that strings, symbols between bars,
characters and block comments are spelled with. -/
def Unquoted (t : Text) : Prop :=
  ∀ x ∈ t, x ∉ [.carriageReturn, .quotationMark, .scalar '|', .backslash]

instance (t : Text) : Decidable t.Unquoted := inferInstanceAs (Decidable (∀ x ∈ t, _))

theorem Unquoted.of_suffix {t u : Text} (h : t.Unquoted) (part : u <:+ t) : u.Unquoted :=
  fun x mem => h x (part.subset mem)

theorem Unquoted.head {t : Text} {x : CodePoint} (h : t.Unquoted) (head : t.head? = some x) :
    x ∉ [.carriageReturn, .quotationMark, .scalar '|', .backslash] :=
  h x (List.mem_of_head? head)

/-- Of the two code points that break a line only the line feed is left. -/
theorem Unquoted.eq_lineFeed {x : CodePoint} {rest : Text} (h : Unquoted (x :: rest))
    (newline : x.isNewline = true) : x = .lineFeed := by
  have either : x = .carriageReturn ∨ x = .lineFeed := by simpa [CodePoint.isNewline] using newline
  rcases either with rfl | feed
  · exact absurd (List.mem_cons_self ..) (h _ (List.mem_cons_self ..))
  · exact feed

variable (b : LineBreak) {t : Text}

theorem respell_feed (t : Text) : respell b (.lineFeed :: t) = b.text ++ respell b t := rfl

theorem respell_cons {x : CodePoint} (t : Text) (inside : x.isNewline = false) :
    respell b (x :: t) = x :: respell b t := by
  have other : x ≠ .lineFeed := by
    rintro rfl
    cases inside
  rw [respell, List.flatMap_cons, if_neg other]
  rfl

theorem respell_append {q : Text} (rest : Text) (one_line : q.OnOneLine) :
    respell b (q ++ rest) = q ++ respell b rest := by
  induction q with
  | nil => rfl
  | cons x q ih =>
    obtain ⟨inside, others⟩ := onOneLine_cons.mp one_line
    rw [List.cons_append, respell_cons b _ inside, ih others, List.cons_append]

theorem AtLineEnd.respell (ends : t.AtLineEnd) : (respell b t).AtLineEnd := by
  cases t with
  | nil => exact ends
  | cons x rest =>
    by_cases feed : x = .lineFeed
    · rw [feed, respell_feed]
      exact b.atLineEnd _
    · rw [Text.respell, List.flatMap_cons, if_neg feed]
      exact ends

/-- A text is its first line and what comes after; only the latter changes. -/
theorem exists_line (t : Text) : ∃ q y, t = q ++ y ∧ Text.respell b t = q ++ Text.respell b y ∧
    (q.OnOneLine) ∧ y.AtLineEnd ∧ (Text.respell b y).AtLineEnd := by
  have parts : t.takeWhile (fun x => !x.isNewline) ++ t.dropWhile (fun x => !x.isNewline) = t :=
    List.takeWhile_append_dropWhile
  have one_line := onOneLine_takeWhile t
  have ends : AtLineEnd (t.dropWhile fun x => !x.isNewline) := by
    have ended := Cursor.atLineEnd_iff.mp (Cursor.ofText t).atLineEnd_lineEnd
    rw [Cursor.lineEnd, Cursor.rest_skipWhile] at ended
    exact ended
  refine ⟨_, _, parts.symm, ?_, one_line, ends, ends.respell b⟩
  rw [← respell_append b _ one_line, parts]

/-! ### What stands at the front -/

theorem isPrefixOf_respell {word : Text} (t : Text) (one_line : word.OnOneLine) :
    word.isPrefixOf (respell b t) = word.isPrefixOf t := by
  obtain ⟨q, y, rfl, respelled, -, ends, ends'⟩ := exists_line b t
  rw [respelled, isPrefixOf_append one_line ends', isPrefixOf_append one_line ends]

/-- What stands in front without a line break stood there before. -/
theorem exists_of_respell (word : Text) {rest : Text} (one_line : word.OnOneLine)
    (front : respell b t = word ++ rest) : ∃ u, t = word ++ u := by
  have here : word.isPrefixOf (respell b t) = true := by
    rw [front]
    exact List.isPrefixOf_iff_prefix.mpr (List.prefix_append ..)
  rw [isPrefixOf_respell b t one_line, List.isPrefixOf_iff_prefix] at here
  obtain ⟨u, whole⟩ := here
  exact ⟨u, whole.symm⟩

/-- The two code points that may be first in a break are alike to most tests. -/
theorem any_head?_respell {p : CodePoint → Bool} (t : Text)
    (alike : p .carriageReturn = p .lineFeed) : (respell b t).head?.any p = t.head?.any p := by
  cases t with
  | nil => rfl
  | cons x rest =>
    cases newline : x.isNewline with
    | false =>
      rw [respell_cons b rest newline]
      rfl
    | true =>
      by_cases feed : x = .lineFeed
      · rw [feed, respell_feed]
        cases b with
        | lineFeed => rfl
        | carriageReturn | both => exact alike
      · rw [respell, List.flatMap_cons, if_neg feed]
        rfl

theorem respell_eq_nil (t : Text) : respell b t = [] ↔ t = [] := by
  have same := any_head?_respell b (p := fun _ => true) t rfl
  cases t with
  | nil => exact Iff.rfl
  | cons x rest =>
    rw [List.head?_cons, Option.any_some] at same
    apply iff_of_false
    · intro nothing
      rw [nothing] at same
      cases same
    · exact List.cons_ne_nil x rest

/-- After a carriage return of the other spelling no line feed is left that could go with it. -/
theorem head?_respell_carriageReturn (t : Text) :
    (respell .carriageReturn t).head? ≠ some .lineFeed := by
  cases t with
  | nil => nofun
  | cons x rest =>
    by_cases feed : x = .lineFeed
    · rw [feed, respell_feed]
      nofun
    · rw [respell, List.flatMap_cons, if_neg feed]
      simpa using feed

theorem atDelimiter_respell (t : Text) : (respell b t).atDelimiter = t.atDelimiter := by
  obtain ⟨q, y, rfl, respelled, -, ends, ends'⟩ := exists_line b t
  rw [respelled, atDelimiter_append ends', atDelimiter_append ends]

end Text

section Markers

variable (b : LineBreak) (t : Text)

theorem NamedMarker.detect?_respell : detect? (Text.respell b t) = detect? t := by
  obtain ⟨q, y, rfl, respelled, -, ends, ends'⟩ := Text.exists_line b t
  rw [respelled, detect?_append ends', detect?_append ends]

theorem startsDirective_respell (policy : WhitespacePolicy) :
    startsDirective policy (Text.respell b t) = startsDirective policy t := by
  obtain ⟨q, y, rfl, respelled, -, ends, ends'⟩ := Text.exists_line b t
  rw [respelled, startsDirective_append policy ends', startsDirective_append policy ends]

theorem startsComment_respell (policy : WhitespacePolicy) (mode : Mode) :
    startsComment policy mode (Text.respell b t) = startsComment policy mode t := by
  obtain ⟨q, y, rfl, respelled, -, ends, ends'⟩ := Text.exists_line b t
  rw [respelled]
  by_cases empty : q = []
  · rw [empty]
    exact (startsComment_of_atLineEnd policy mode ends').trans
      (startsComment_of_atLineEnd policy mode ends).symm
  · cases mode with
    | code => rw [startsComment_append_code policy empty ends', startsComment_append_code policy empty ends]
    | directive => rw [startsComment_append policy empty ends', startsComment_append policy empty ends]

theorem abbreviation?_respell {t : Text} {a : Abbreviation} (mark : abbreviation? t = some a) :
    abbreviation? (Text.respell b t) = some a := by
  unfold abbreviation? at mark
  split at mark
  · rw [Text.respell_cons b _ (by decide)]
    exact mark
  · rw [Text.respell_cons b _ (by decide)]
    exact mark
  · rw [Text.respell_cons b _ (by decide), Text.respell_cons b _ (by decide)]
    exact mark
  · rename_i rest single
    rw [Text.respell_cons b _ (by decide), abbreviation?.eq_4]
    · exact mark
    · -- no line break begins with the second code point of the longer mark
      intro more same
      obtain ⟨u, rfl⟩ := Text.exists_of_respell b [.scalar '@'] (by decide) same
      exact single u rfl
  · cases mark

/-- A mark has no line break in it. -/
theorem exists_of_abbreviation? {t : Text} {a : Abbreviation} (mark : abbreviation? t = some a) :
    ∃ rest, t = a.mark ++ rest := by
  unfold abbreviation? at mark
  split at mark <;> cases mark <;> exact ⟨_, rfl⟩

end Markers

/-! ## 2. Lexemes -/

namespace Lexeme

variable (b : LineBreak) {fold : Bool} {t : Text}

theorem onOneLine_token (t : Text) : (token t).OnOneLine :=
  Text.onOneLine_of_plain fun _ => plain_of_mem_token

theorem token_append_drop (t : Text) : token t ++ t.drop (token t).length = t := by
  have parts := List.take_append_drop (token t).length t
  rwa [take_token] at parts

theorem token_respell (t : Text) : token (Text.respell b t) = token t := by
  have stops {y : Text} (ends : y.AtLineEnd) : y.head?.all (fun c => !!c.isDelimiter) = true := by
    simpa [Text.atDelimiter_eq] using ends.atDelimiter
  obtain ⟨q, y, rfl, respelled, -, ends, ends'⟩ := Text.exists_line b t
  rw [respelled, token, token, takeWhile_append_of_head q (stops ends'),
    takeWhile_append_of_head q (stops ends)]

/-- Without quoted forms and characters a lexeme is one token, so it ends on its line. -/
theorem Spells.on_line {d : Datum} {size : Nat} (h : Spells fold t d size) (unquoted : t.Unquoted) :
    ∃ q rest, t = q ++ rest ∧ q.length = size ∧ q.OnOneLine := by
  cases h with
  | string opened | symbol opened => exact absurd (by decide) (unquoted.head opened)
  | character opened =>
    rw [opened] at unquoted
    exact absurd (by decide) (unquoted .backslash (by simp))
  | hash opened read =>
    obtain ⟨more, rfl⟩ := head_of_startsHashToken opened
    refine ⟨.scalar '#' :: token more, more.drop (token more).length, ?_, ?_, ?_⟩
    · rw [List.cons_append, token_append_drop]
    · exact (hashToken_size read).symm
    · exact Text.onOneLine_cons.mpr ⟨by decide, onOneLine_token more⟩
  | atom opened read =>
    exact ⟨token t, t.drop (token t).length, (token_append_drop t).symm, (atom_size read).1.symm,
      onOneLine_token t⟩

theorem Spells.respell {d : Datum} {size : Nat} (h : Spells fold t d size) (unquoted : t.Unquoted) :
    Spells fold (Text.respell b t) d size := by
  obtain ⟨q, rest, rfl, rfl, one_line⟩ := h.on_line unquoted
  rw [Text.respell_append b rest one_line]
  exact h.before (fun ends => (Text.atDelimiter_respell b rest).trans ends) rfl

theorem startsHashToken_respell (opened : startsHashToken t = true) :
    startsHashToken (Text.respell b t) = true := by
  obtain ⟨more, head⟩ := head_of_startsHashToken opened
  -- what may not stand after the `#` does not stand there with other breaks either
  have absent (word : Text) {rest : Text} (one_line : word.OnOneLine)
      (same : Text.respell b t = word ++ rest)
      (other : ∀ u, startsHashToken (word ++ u) = false) : False := by
    obtain ⟨u, rfl⟩ := Text.exists_of_respell b word one_line same
    rw [other u] at opened
    cases opened
  unfold startsHashToken
  split
  · rename_i same
    exact (absent [.scalar '#', .scalar '('] (by decide) same fun _ => rfl).elim
  · rename_i same
    exact (absent [.scalar '#', .scalar 'u', .scalar '8', .scalar '('] (by decide) same
      fun _ => rfl).elim
  · rename_i same
    exact (absent [.scalar '#', .backslash] (by decide) same fun _ => rfl).elim
  · rename_i same
    exact (absent [.scalar '#', .scalar '!'] (by decide) same fun _ => rfl).elim
  · rfl
  · rename_i other
    rw [head, Text.respell_cons b _ (by decide)] at other
    exact absurd rfl (other _)

/-- The complaint about a token says which code point is none, so the text must not start with a break.
-/
theorem Misspells.respell {f : LexemeFailure} (h : Misspells fold t f) (unquoted : t.Unquoted)
    (visible : t.head?.any CodePoint.isNewline = false) : Misspells fold (Text.respell b t) f := by
  cases h with
  | string opened | symbol opened => exact absurd (by decide) (unquoted.head opened)
  | character opened =>
    rw [opened] at unquoted
    exact absurd (by decide) (unquoted .backslash (by simp))
  | hash opened failed =>
    refine .hash (startsHashToken_respell b opened) ?_
    obtain ⟨more, rfl⟩ := head_of_startsHashToken opened
    unfold hashToken at failed ⊢
    rw [Text.respell_cons b _ (by decide)]
    simp only [List.drop_succ_cons, List.drop_zero, token_respell] at failed ⊢
    exact failed
  | atom opened failed =>
    refine .atom ((Text.any_head?_respell b t (by decide)).trans opened) ?_
    cases t with
    | nil => cases opened
    | cons x rest =>
      have same := token_respell b (x :: rest)
      rw [Text.respell_cons b _ visible] at same ⊢
      unfold Lexeme.atom at failed ⊢
      rw [same]
      cases word : token (x :: rest) <;> rw [word] at failed <;> exact failed

/-- Only a place at the start of a lexeme is blamed. -/
theorem Misspells.distance_eq_zero {cause : Cause} {n : Nat}
    (h : Misspells fold t (.malformed cause n)) (unquoted : t.Unquoted) : n = 0 := by
  cases h with
  | string opened | symbol opened => exact absurd (by decide) (unquoted.head opened)
  | character opened =>
    rw [opened] at unquoted
    exact absurd (by decide) (unquoted .backslash (by simp))
  | hash opened failed =>
    unfold hashToken radixNumber at failed
    simp only at failed
    split at failed
    · cases failed
    · split at failed
      · cases failed
      · split at failed
        · split at failed
          · split at failed <;> cases failed
            rfl
          · cases failed
            rfl
        · cases failed
          rfl
  | atom opened failed =>
    unfold Lexeme.atom at failed
    split at failed
    · cases failed
      rfl
    · cases failed
      rfl
    · split at failed
      · cases failed
        rfl
      · split at failed <;> cases failed
        rfl

end Lexeme

/-! ## 3. Places -/

theorem Cursor.column_next_of_newline {c : Cursor} {x : CodePoint} {rest : Text}
    (head : c.rest = x :: rest) (newline : x.isNewline = true)
    (single : x = .carriageReturn → rest.head? ≠ some .lineFeed) : c.next.position.column = 0 := by
  have either : x = .carriageReturn ∨ x = .lineFeed := by simpa [CodePoint.isNewline] using newline
  unfold next
  rw [head]
  rcases either with rfl | rfl
  · simp [Position.after, single rfl]
  · simp [Position.after]

/-- The second cursor stands in the text with other line breaks where the first stands in the text with
line feeds. -/
structure Cursor.Respelled (b : LineBreak) (c c' : Cursor) : Prop where
  unquoted : c.rest.Unquoted
  rest : c'.rest = Text.respell b c.rest
  line : c'.position.line = c.position.line
  column : c'.position.column = c.position.column

namespace Cursor.Respelled

variable {b : LineBreak} {c c' : Cursor} {x : CodePoint} {rest : Text}

theorem lead (h : Respelled b c c') (word : Text) (head : c.rest = word ++ rest)
    (one_line : word.OnOneLine) : c'.rest = word ++ Text.respell b rest := by
  rw [h.rest, head, Text.respell_append b rest one_line]

theorem head (h : Respelled b c c') (head : c.rest = x :: rest) (inside : x.isNewline = false) :
    c'.rest = x :: Text.respell b rest := by
  rw [h.rest, head, Text.respell_cons b rest inside]

theorem any_head?_eq (h : Respelled b c c') {p : CodePoint → Bool}
    (alike : p .carriageReturn = p .lineFeed) : c'.rest.head?.any p = c.rest.head?.any p := by
  rw [h.rest]
  exact Text.any_head?_respell b c.rest alike

theorem rest_eq_nil (h : Respelled b c c') : c'.rest = [] ↔ c.rest = [] := by
  rw [h.rest]
  exact Text.respell_eq_nil b c.rest

theorem atEnd_eq (h : Respelled b c c') : c'.atEnd = c.atEnd := by
  rw [Bool.eq_iff_iff, atEnd, atEnd, List.isEmpty_iff, List.isEmpty_iff]
  exact h.rest_eq_nil

theorem atCloser_eq (h : Respelled b c c') : c'.atCloser = c.atCloser := h.any_head?_eq (by decide)

theorem atLineEnd_eq (h : Respelled b c c') : c'.atLineEnd = c.atLineEnd := by
  rw [atLineEnd, atLineEnd, h.atEnd_eq, atNewline, atNewline, h.any_head?_eq (by decide)]

theorem startsComment_eq (h : Respelled b c c') (policy : WhitespacePolicy) (mode : Mode) :
    startsComment policy mode c'.rest = startsComment policy mode c.rest := by
  rw [h.rest]
  exact startsComment_respell b c.rest policy mode

theorem atDirective_eq (h : Respelled b c c') (policy : WhitespacePolicy) :
    atDirective policy c' = atDirective policy c := by
  rw [Bool.eq_iff_iff, atDirective_iff, atDirective_iff]
  constructor
  · rintro ⟨rest', head', starts⟩
    rw [h.rest] at head'
    obtain ⟨rest, head⟩ := Text.exists_of_respell b [.scalar '#', .scalar '!'] (by decide) head'
    rw [head, Text.respell_append b rest (by decide)] at head'
    obtain rfl : Text.respell b rest = rest' := List.append_cancel_left head'
    exact ⟨rest, head, (startsDirective_respell b rest policy).symm.trans starts⟩
  · rintro ⟨rest, head, starts⟩
    exact ⟨_, h.lead [.scalar '#', .scalar '!'] head (by decide),
      (startsDirective_respell b rest policy).trans starts⟩

/-! ### Moving on -/

/-- Off the line breaks both cursors move alike. -/
theorem next (h : Respelled b c c') (head : c.rest = x :: rest) (inside : x.isNewline = false) :
    Respelled b c.next c'.next := by
  have head' := h.head head inside
  have moves (p : Position) (more : Text) : p.after x more = ⟨p.line, p.column + 1, p.offset + 1⟩ := by
    have distinct : x ≠ .carriageReturn ∧ x ≠ .lineFeed := by
      simpa [CodePoint.isNewline] using inside
    simp [Position.after, distinct]
  refine ⟨h.unquoted.of_suffix (by rw [rest_next]; exact List.drop_suffix ..), ?_, ?_, ?_⟩
  · rw [rest_next, rest_next, head, head']
    rfl
  · simp only [Cursor.next, head, head', moves]
    exact h.line
  · simp only [Cursor.next, head, head', moves]
    rw [h.column]

theorem advance {q : Text} (h : Respelled b c c') (head : c.rest = q ++ rest)
    (one_line : q.OnOneLine) : Respelled b (c.advance q.length) (c'.advance q.length) := by
  induction q generalizing c c' with
  | nil => exact h
  | cons x q ih =>
    obtain ⟨inside, others⟩ := Text.onOneLine_cons.mp one_line
    rw [List.length_cons, advance_succ, advance_succ]
    apply ih (h.next head inside) _ others
    rw [rest_next, head]
    rfl

theorem pair {y : CodePoint} (h : Respelled b c c') (head : c.rest = x :: y :: rest)
    (one_line : Text.OnOneLine [x, y]) : c'.rest = x :: y :: Text.respell b rest ∧
      Respelled b (c.advance 2) (c'.advance 2) :=
  ⟨h.lead [x, y] head one_line, h.advance head one_line⟩

theorem abbreviation {a : Abbreviation} (h : Respelled b c c') (mark : abbreviation? c.rest = some a) :
    abbreviation? c'.rest = some a ∧
      Respelled b (c.advance a.mark.length) (c'.advance a.mark.length) := by
  have one_line : a.mark.OnOneLine := by cases a <;> decide
  obtain ⟨rest, head⟩ := exists_of_abbreviation? mark
  rw [h.rest]
  exact ⟨abbreviation?_respell b mark, h.advance head one_line⟩

theorem lineEnd (h : Respelled b c c') : Respelled b c.lineEnd c'.lineEnd := by
  obtain ⟨q, y, whole, respelled, one_line, ends, ends'⟩ := Text.exists_line b c.rest
  rw [lineEnd_of_append one_line ends whole,
    lineEnd_of_append one_line ends' (h.rest.trans respelled)]
  exact h.advance whole one_line

/-! ### Over line breaks -/

theorem skipNewline_feed (h : Respelled b c c') (head : c.rest = .lineFeed :: rest) :
    c'.skipNewline = match b with
      | .lineFeed | .carriageReturn => c'.next
      | .both => c'.next.next := by
  have head' : c'.rest = b.text ++ Text.respell b rest := by rw [h.rest, head, Text.respell_feed]
  cases b with
  | lineFeed => exact skipNewline_of_single head' nofun
  | carriageReturn => exact skipNewline_of_single head' fun _ => Text.head?_respell_carriageReturn rest
  | both => exact skipNewline_of_pair head'

/-- Over a line break one cursor moves by one code point, the other by those of the other break. -/
theorem next_feed (h : Respelled b c c') (head : c.rest = .lineFeed :: rest) :
    Respelled b c.next c'.skipNewline := by
  have head' : c'.rest = b.text ++ Text.respell b rest := by rw [h.rest, head, Text.respell_feed]
  have left : c.next.rest = rest := by rw [rest_next, head]; rfl
  have unquoted : rest.Unquoted := h.unquoted.of_suffix (by rw [head]; exact List.suffix_cons ..)
  have line := line_next_of_newline head rfl nofun
  have column := column_next_of_newline head rfl nofun
  rw [h.skipNewline_feed head]
  -- what matters is the last code point of the break
  have arrives {k : Cursor} {x : CodePoint} (last : k.rest = x :: Text.respell b rest)
      (newline : x.isNewline = true)
      (single : x = .carriageReturn → (Text.respell b rest).head? ≠ some .lineFeed)
      (same : k.position.line = c'.position.line) : Respelled b c.next k.next := by
    refine ⟨left.symm ▸ unquoted, ?_, ?_, ?_⟩
    · rw [rest_next, last, left]
      rfl
    · rw [line_next_of_newline last newline single, line, same, h.line]
    · rw [column_next_of_newline last newline single, column]
  cases b with
  | lineFeed => exact arrives head' rfl nofun rfl
  | carriageReturn =>
    exact arrives head' rfl (fun _ => Text.head?_respell_carriageReturn rest) rfl
  | both =>
    have second : c'.next.rest = .lineFeed :: Text.respell .both rest := by
      rw [rest_next, head']
      rfl
    exact arrives second rfl nofun (line_next_of_pair head')

theorem skipNewline (h : Respelled b c c') : Respelled b c.skipNewline c'.skipNewline := by
  cases head : c.rest with
  | nil =>
    have head' := h.rest_eq_nil.mpr head
    unfold Cursor.skipNewline
    simp only [head, head']
    exact h
  | cons x rest =>
    have unquoted := h.unquoted
    rw [head] at unquoted
    have alone : x ≠ .carriageReturn := by
      rintro rfl
      exact unquoted.head rfl (List.mem_cons_self ..)
    rw [skipNewline_of_single head fun same => absurd same alone]
    cases newline : x.isNewline with
    | false =>
      rw [skipNewline_of_single (h.head head newline) fun same => absurd same alone, newline]
      exact h
    | true =>
      obtain rfl := unquoted.eq_lineFeed newline
      exact h.next_feed head

theorem afterDirective (h : Respelled b c c') (anchor : Int) :
    Respelled b (c.afterDirective anchor) (c'.afterDirective anchor) := by
  unfold Cursor.afterDirective
  rw [h.line]
  split
  · exact h.skipNewline
  · exact h

/-- What holds in front of blanks if it holds behind them holds over the code points of a break as well.
-/
theorem over_blank (h : Respelled b c c') (head : c.rest = x :: rest) (white : x.isBlank = true) :
    ∃ k, Respelled b c.next k ∧ ∀ {P : Cursor → Prop},
      (∀ {a y more}, a.rest = y :: more → y.isBlank = true → P a.next → P a) → P k → P c' := by
  cases newline : x.isNewline with
  | false => exact ⟨c'.next, h.next head newline, fun step => step (h.head head newline) white⟩
  | true =>
    have unquoted := h.unquoted
    rw [head] at unquoted
    obtain rfl := unquoted.eq_lineFeed newline
    have head' : c'.rest = b.text ++ Text.respell b rest := by rw [h.rest, head, Text.respell_feed]
    refine ⟨c'.skipNewline, h.next_feed head, ?_⟩
    rw [h.skipNewline_feed head]
    intro P step behind
    cases b with
    | lineFeed | carriageReturn => exact step head' (by decide) behind
    | both =>
      apply step head' (by decide)
      exact step (by rw [rest_next, head']; rfl) (by decide) behind

end Cursor.Respelled

end LineDirective
