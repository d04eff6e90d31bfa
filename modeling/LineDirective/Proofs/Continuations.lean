import LineDirective.Proofs.Interspersion
import LineDirective.Proofs.LexemeLocality

/-!
# Strings over several lines

A string may be written in segments on lines of their own: a backslash at the end of a line is skipped
with the line break, with the whitespace before it and with the whitespace that the next line begins
with. The segments are read as one string (`Reader.read_back_continued`). A segment after a line break
must not begin with a space, which would be taken for the whitespace of its line; any other whitespace is
written as an escape and belongs to its segment.
-/

namespace LineDirective

/-! ## 1. Whitespace in written text -/

theorem exists_of_inRanges {n : Nat} {ranges : List (Nat × Nat)} (inside : inRanges n ranges = true) :
    ∃ r ∈ ranges, r.1 ≤ n ∧ n ≤ r.2 := by
  induction ranges with
  | nil => cases inside
  | cons r rest ih =>
    obtain ⟨lo, hi⟩ := r
    unfold inRanges at inside
    split at inside
    · cases inside
    · split at inside
      · exact ⟨(lo, hi), List.mem_cons_self .., by omega, by omega⟩
      · obtain ⟨r, mem, bounds⟩ := ih inside
        exact ⟨r, List.mem_cons_of_mem _ mem, bounds⟩

/-- Of the whitespace only the space may be written as itself. -/
theorem CodePoint.eq_space {c : CodePoint} (blank : c.isBlank = true) (printable : c.isPrintable = true) :
    c = .scalar ' ' := by
  have each : ∀ r ∈ blankRanges, ∀ n ∈ List.range' r.1 (r.2 + 1 - r.1),
      inRanges n unprintableRanges = false → n = 0x20 := by decide +kernel
  obtain ⟨r, mem, lower, upper⟩ := exists_of_inRanges blank
  have shown : inRanges c.toNat unprintableRanges = false := by simpa [isPrintable] using printable
  have space : c.toNat = 0x20 := each r mem c.toNat (List.mem_range'_1.mpr ⟨lower, by omega⟩) shown
  have found := ofNat?_toNat c
  rw [space] at found
  exact (Option.some.inj found).symm

theorem visible_escapeCodePoint {quote c : CodePoint} (no_space : c ≠ .scalar ' ') (rest : Text) :
    (escapeCodePoint quote c ++ rest).head?.any CodePoint.isBlank = false := by
  have backslash : CodePoint.isBlank .backslash = false := by decide
  unfold escapeCodePoint
  split
  · exact backslash
  · split
    · exact backslash
    · split
      · rename_i printable
        show c.isBlank = false
        by_contra blank
        exact no_space (c.eq_space (by simpa using blank) printable)
      · exact backslash

/-- What is written for a text without a leading space does not begin with whitespace. -/
theorem visible_escape {quote : CodePoint} {t rest : Text} (no_space : t.head? ≠ some (.scalar ' '))
    (visible : rest.head?.any CodePoint.isBlank = false) :
    (Text.escape quote t ++ rest).head?.any CodePoint.isBlank = false := by
  cases t with
  | nil => exact visible
  | cons c t =>
    have first : c ≠ .scalar ' ' := fun same => no_space (congrArg some same)
    rw [Text.escape, List.flatMap_cons, List.append_assoc]
    exact visible_escapeCodePoint first _

/-! ## 2. Continuations -/

/-- A code point of whitespace that stays on its line. -/
abbrev IntralineBlank := { x : CodePoint // x.isIntralineBlank = true }

/-- A line continuation inside a string and the segment that follows it. -/
structure Continuation where
  /-- The whitespace between the backslash and the line break. -/
  lead : List IntralineBlank
  stop : LineBreak
  /-- The whitespace at the start of the next line. -/
  indent : List IntralineBlank
  segment : Text
  no_space : segment.head? ≠ some (.scalar ' ')

namespace Continuation

def skipped (k : Continuation) : Text :=
  k.lead.map Subtype.val ++ (k.stop.text ++ k.indent.map Subtype.val)

def text (k : Continuation) : Text :=
  .backslash :: (k.skipped ++ Text.escape .quotationMark k.segment)

end Continuation

/-- A string literal in segments: the first, and those after line continuations. -/
def writeContinued (first : Text) (more : List Continuation) : Text :=
  .quotationMark ::
    (Text.escape .quotationMark first ++ (more.flatMap Continuation.text ++ [.quotationMark]))

/-! ## 3. Reading them -/

theorem takeWhile_intralineBlank (blanks : List IntralineBlank) {rest : Text}
    (visible : rest.head?.any CodePoint.isIntralineBlank = false) :
    (blanks.map Subtype.val ++ rest).takeWhile CodePoint.isIntralineBlank =
      blanks.map Subtype.val := by
  have inside : ∀ x ∈ blanks.map Subtype.val, x.isIntralineBlank = true := by
    intro x mem
    obtain ⟨blank, -, rfl⟩ := List.mem_map.mp mem
    exact blank.property
  have stops : rest.takeWhile CodePoint.isIntralineBlank = [] := by
    cases rest with
    | nil => rfl
    | cons x rest => exact List.takeWhile_cons_of_neg (by simpa using visible)
  rw [List.takeWhile_append_of_pos inside, stops, List.append_nil]

theorem no_intralineBlank_of_visible {t : Text} (visible : t.head?.any CodePoint.isBlank = false) :
    t.head?.any CodePoint.isIntralineBlank = false := by
  cases t with
  | nil => rfl
  | cons x rest =>
    have visible : x.isBlank = false := visible
    show x.isIntralineBlank = false
    rw [CodePoint.isIntralineBlank, visible, Bool.and_false]

namespace Continuation

variable (k : Continuation) {rest : Text}

/-- Neither the whitespace of the next line nor what follows it belongs to the line break. -/
theorem endsLine (visible : rest.head?.any CodePoint.isBlank = false) :
    Text.EndsLine k.stop.text (k.indent.map Subtype.val ++ rest) := by
  have no_feed : (k.indent.map Subtype.val ++ rest).head? ≠ some .lineFeed := by
    have feed : CodePoint.isBlank .lineFeed = true ∧ CodePoint.isIntralineBlank .lineFeed = false := by
      decide
    intro same
    cases indent : k.indent with
    | nil =>
      rw [indent, List.map_nil, List.nil_append] at same
      rw [same, Option.any_some, feed.1] at visible
      cases visible
    | cons blank blanks =>
      have here : blank.val = .lineFeed := by simpa [indent] using same
      have inside := blank.property
      rw [here, feed.2] at inside
      cases inside
  unfold Text.EndsLine
  cases k.stop with
  | lineFeed => exact .inr (.inl rfl)
  | carriageReturn => exact .inr (.inr (.inr ⟨rfl, no_feed⟩))
  | both => exact .inr (.inr (.inl rfl))

theorem continuation?_skipped (visible : rest.head?.any CodePoint.isBlank = false) :
    Lexeme.continuation? (k.skipped ++ rest) = some k.skipped.length := by
  have ends := k.endsLine visible
  have line_end := k.stop.atLineEnd (k.indent.map Subtype.val ++ rest)
  have some_break : k.stop.text.length ≠ 0 := by cases k.stop <;> decide
  have whole : k.skipped ++ rest =
      k.lead.map Subtype.val ++ (k.stop.text ++ (k.indent.map Subtype.val ++ rest)) := by
    simp only [skipped, List.append_assoc]
  rw [whole]
  refine Lexeme.continuation?_eq_some.mpr ⟨k.lead.length, k.stop.text.length, ?_, ?_, some_break, ?_⟩
  · rw [takeWhile_intralineBlank k.lead line_end.no_intralineBlank, List.length_map]
  · rw [List.drop_left' (by rw [List.length_map]), ends.newlineLength_eq]
  · rw [← List.drop_drop, List.drop_left' (by rw [List.length_map]), List.drop_left,
      takeWhile_intralineBlank k.indent (no_intralineBlank_of_visible visible), skipped,
      List.length_append, List.length_append, List.length_map, List.length_map]
    omega

/-- After a backslash whitespace stands for nothing but a line continuation. -/
theorem escape_skipped (start : Nat) (visible : rest.head?.any CodePoint.isBlank = false) :
    Lexeme.escape .string start (k.skipped ++ rest) = .ok (none, k.skipped.length) := by
  have found := k.continuation?_skipped visible
  obtain ⟨letter, more, head, blank⟩ : ∃ letter more, k.skipped ++ rest = letter :: more ∧
      letter.isBlank = true := by
    unfold skipped
    cases k.lead with
    | nil => cases k.stop <;> exact ⟨_, _, rfl, by decide⟩
    | cons b blanks => exact ⟨b.val, _, rfl, (Bool.and_eq_true_iff.mp b.property).2⟩
  have letters : ∀ entry ∈ simpleEscapes, entry.1.isBlank = false := by decide
  have no_letter : simpleEscape? letter = none := by
    rw [simpleEscape?, List.lookup_eq_none_iff]
    intro entry mem
    have other : letter ≠ entry.1 := by
      rintro rfl
      rw [letters entry mem] at blank
      cases blank
    simpa using other
  have no_hex : letter ≠ .scalar 'x' := by
    rintro rfl
    exact absurd blank (by decide)
  rw [head] at found ⊢
  simp only [Lexeme.escape, no_letter, if_neg no_hex, blank, and_self, if_true, found]

/-- A continuation adds nothing to the content. -/
theorem quotedFrom_skipped (start : Nat) (visible : rest.head?.any CodePoint.isBlank = false) :
    Lexeme.quotedFrom .string 0 start (.backslash :: (k.skipped ++ rest)) =
      Lexeme.quotedFrom .string 0 (start + (k.skipped.length + 1)) rest := by
  have no_mark : CodePoint.backslash ≠ Lexeme.Quotation.mark .string := by decide
  have distance : start + 1 + k.skipped.length = start + (k.skipped.length + 1) := by omega
  rw [Lexeme.quotedFrom, if_neg no_mark, if_pos rfl, k.escape_skipped _ visible]
  simp only [Lexeme.quotedFrom_skip]
  rw [distance]
  cases Lexeme.quotedFrom .string 0 (start + (k.skipped.length + 1)) rest <;> rfl

end Continuation

/-- A written segment adds itself to the content. -/
theorem Lexeme.quotedFrom_escape_append (q : Quotation) (start : Nat) (segment rest : Text) :
    quotedFrom q 0 start (Text.escape q.mark segment ++ rest) =
      (quotedFrom q 0 (start + (Text.escape q.mark segment).length) rest).map
        fun (content, size) => (segment ++ content, size) := by
  induction segment generalizing start with
  | nil =>
    show quotedFrom q 0 start rest = _
    cases read : quotedFrom q 0 start rest <;> simp [Text.escape, Except.map, read]
  | cons c segment ih =>
    have split : Text.escape q.mark (c :: segment) =
        escapeCodePoint q.mark c ++ Text.escape q.mark segment := List.flatMap_cons
    rw [split, List.append_assoc, quotedFrom_escapeCodePoint, ih, List.length_append, ← Nat.add_assoc]
    cases quotedFrom q 0 _ rest <;> rfl

theorem visible_continued (more : List Continuation) (rest : Text) :
    (more.flatMap Continuation.text ++ .quotationMark :: rest).head?.any CodePoint.isBlank =
      false := by
  have visible : CodePoint.isBlank .quotationMark = false ∧ CodePoint.isBlank .backslash = false := by
    decide
  cases more with
  | nil => exact visible.1
  | cons k more => exact visible.2

theorem Lexeme.quotedFrom_continued (start : Nat) (more : List Continuation) (rest : Text) :
    quotedFrom .string 0 start (more.flatMap Continuation.text ++ .quotationMark :: rest) =
      .ok (more.flatMap (·.segment), start + (more.flatMap Continuation.text).length + 1) := by
  -- by induction on the segments: each continuation is passed over, and each segment is read
  induction more generalizing start with
  | nil =>
    have closed : CodePoint.quotationMark = Quotation.mark .string := rfl
    show quotedFrom .string 0 start (.quotationMark :: rest) = _
    rw [quotedFrom, if_pos closed]
    rfl
  | cons k more ih =>
    have visible : (Text.escape .quotationMark k.segment ++
        (more.flatMap Continuation.text ++ .quotationMark :: rest)).head?.any CodePoint.isBlank = false :=
      visible_escape k.no_space (visible_continued more rest)
    have split : (k :: more).flatMap Continuation.text ++ .quotationMark :: rest =
        .backslash :: (k.skipped ++ (Text.escape .quotationMark k.segment ++
          (more.flatMap Continuation.text ++ .quotationMark :: rest))) := by
      simp only [List.flatMap_cons, Continuation.text, List.cons_append, List.append_assoc]
    have segment := quotedFrom_escape_append .string (start + (k.skipped.length + 1)) k.segment
      (more.flatMap Continuation.text ++ .quotationMark :: rest)
    rw [split, k.quotedFrom_skipped start visible]
    refine segment.trans ?_
    rw [ih]
    simp only [Except.map, List.flatMap_cons, Continuation.text, List.length_append,
      List.length_cons, Quotation.mark]
    congr 2
    omega

/-- A string in segments is read as the segments put together, and nothing behind its closing mark is
touched, whatever follows. -/
theorem Lexeme.quoted_continued (first : Text) (more : List Continuation) (rest : Text) :
    quoted .string (writeContinued first more ++ rest) =
      .ok (first ++ more.flatMap (·.segment), (writeContinued first more).length) := by
  have whole : writeContinued first more ++ rest =
      .quotationMark :: (Text.escape .quotationMark first ++
        (more.flatMap Continuation.text ++ .quotationMark :: rest)) := by
    simp only [writeContinued, List.cons_append, List.append_assoc, List.nil_append]
  have segment := quotedFrom_escape_append .string 1 first
    (more.flatMap Continuation.text ++ .quotationMark :: rest)
  rw [quoted, whole, List.drop_one, List.tail_cons]
  refine segment.trans ?_
  rw [quotedFrom_continued]
  simp only [Except.map, writeContinued, List.length_append, List.length_cons, List.length_nil,
    Quotation.mark]
  congr 2
  omega

/-- A string literal written in any number of segments, with a line continuation before each but the
first, is read as the string that the segments make up, wherever it stands, and reading ends just after
its closing mark. Before and after each line break there may be any whitespace that stays on its line. -/
theorem Reader.read_back_continued {ctx : Context} {mode : Mode} {c : Cursor} {s : ReaderState}
    {first rest : Text} {more : List Continuation} (here : c.rest = writeContinued first more ++ rest) :
    (readDatum ctx mode c).Returns s
        (.string (first ++ more.flatMap (·.segment)), c.advance (writeContinued first more).length) s ∧
      (c.advance (writeContinued first more).length).rest = rest := by
  constructor
  · have opened : c.rest.head? = some .quotationMark := by
      rw [here]
      rfl
    have read := Lexeme.quoted_continued first more rest
    rw [← here] at read
    exact returns_readDatum.mpr (Reads.datum_of_here (.flat (.string opened read)))
  · rw [Cursor.rest_advance, here, List.drop_left]

/-- Three segments, the second of which is empty: a continuation with whitespace on both sides of a
break of two code points, and one with nothing around a carriage return, before a tab. -/
theorem Reader.read_back_continued_tab :
    ∃ (more : List Continuation) (c : Cursor),
      c = .ofText "\"a\\\\\\ \t\r\n  \\\r\\tb\" x" ∧
      c.rest = writeContinued "a\\" more ++ " x" ∧ more.map (·.segment) = ["", "\tb"] ∧
      (readDatum {} .directive c).Returns {} (.string "a\\\tb", ⟨" x", ⟨3, 4, 17⟩⟩) {} := by
  let blank (x : CodePoint) (inside : x.isIntralineBlank = true) : IntralineBlank := ⟨x, inside⟩
  let more : List Continuation :=
    [⟨[blank (.scalar ' ') (by decide), blank (.scalar '\t') (by decide)], .both,
        [blank (.scalar ' ') (by decide), blank (.scalar ' ') (by decide)], "", by decide⟩,
      ⟨[], .carriageReturn, [], "\tb", by decide⟩]
  have here : (Cursor.ofText "\"a\\\\\\ \t\r\n  \\\r\\tb\" x").rest =
      writeContinued "a\\" more ++ " x" := by decide
  obtain ⟨read, -⟩ := read_back_continued here
  exact ⟨more, _, rfl, here, rfl, read⟩

end LineDirective
