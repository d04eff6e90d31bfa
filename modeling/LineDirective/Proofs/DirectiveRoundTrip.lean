import LineDirective.Proofs.RoundTrip
import LineDirective.Reader.Position

/-!
# Writing directives and scanning them back

A written directive stays on one line (`Datum.onOneLine_of_write`): a line break inside a string, a
symbol or a character is escaped or named. Scanned back under any policy it yields its data again,
because each space on the line is followed by exactly one datum, and the scan takes the line break
along with which the line ends.
-/

namespace LineDirective

/-! ## 1. Texts on one line -/

def Text.OnOneLine (t : Text) : Prop := ∀ c ∈ t, c.isNewline = false

instance (t : Text) : Decidable t.OnOneLine := inferInstanceAs (Decidable (∀ c ∈ t, _))

namespace Text

theorem onOneLine_nil : OnOneLine [] := by
  intro c mem
  cases mem

@[simp] theorem onOneLine_cons {c : CodePoint} {t : Text} :
    OnOneLine (c :: t) ↔ c.isNewline = false ∧ OnOneLine t := List.forall_mem_cons

@[simp] theorem onOneLine_append {t u : Text} :
    OnOneLine (t ++ u) ↔ OnOneLine t ∧ OnOneLine u := List.forall_mem_append

theorem onOneLine_takeWhile (t : Text) : OnOneLine (t.takeWhile fun x => !x.isNewline) := by
  intro x mem
  have inside := List.all_eq_true.mp List.all_takeWhile x mem
  simpa using inside

theorem onOneLine_of_plain {t : Text} (plain : ∀ c ∈ t, c.isDelimiter = false) : OnOneLine t := by
  have breaks : CodePoint.isDelimiter .carriageReturn = true ∧
      CodePoint.isDelimiter .lineFeed = true := by decide
  intro c mem
  have inside := plain c mem
  apply CodePoint.isNewline_eq_false
  · rintro rfl
    rw [breaks.1] at inside
    cases inside
  · rintro rfl
    rw [breaks.2] at inside
    cases inside

theorem onOneLine_intercalate {texts : List Text} (each : ∀ t ∈ texts, OnOneLine t) :
    OnOneLine (intercalate [.scalar ' '] texts) := by
  fun_induction intercalate [.scalar ' '] texts with
  | case1 => exact onOneLine_nil
  | case2 t => exact each t (List.mem_cons_self ..)
  | case3 t ts _ ih =>
    have others := ih fun u mem => each u (List.mem_cons_of_mem t mem)
    have space : OnOneLine [.scalar ' '] := by simp [onOneLine_nil, CodePoint.isNewline]
    rw [onOneLine_append, onOneLine_append]
    exact ⟨⟨each t (List.mem_cons_self ..), space⟩, others⟩

theorem onOneLine_parenthesized {texts : List Text} (each : ∀ t ∈ texts, OnOneLine t) :
    OnOneLine (parenthesized texts) := by
  simp [parenthesized, onOneLine_intercalate each, onOneLine_nil, CodePoint.isNewline]

end Text

/-- Line breaks are written by their letters. -/
theorem onOneLine_escapeCodePoint {quote : CodePoint} (mark : quote.isNewline = false)
    (c : CodePoint) : Text.OnOneLine (escapeCodePoint quote c) := by
  have letters : ∀ entry ∈ writtenEscapes, entry.2.isNewline = false := by decide
  have backslash : CodePoint.isNewline .backslash = false := by decide
  unfold escapeCodePoint
  split
  · rename_i letter found
    obtain ⟨before, after, parts, -⟩ := List.lookup_eq_some_iff.mp found
    have plain := letters (c, letter) (by rw [parts]; simp)
    simp [backslash, plain, Text.onOneLine_nil]
  · rename_i absent
    split
    · simp [backslash, mark, Text.onOneLine_nil]
    · split
      · have inside : c.isNewline = false := by
          apply CodePoint.isNewline_eq_false
          · rintro rfl
            exact absurd absent (by decide)
          · rintro rfl
            exact absurd absent (by decide)
        simp [inside, Text.onOneLine_nil]
      · have digits := Text.onOneLine_of_plain fun x => plain_of_mem_numeral (n := c.toNat) (c := x)
        simp [digits, Text.onOneLine_nil, CodePoint.isNewline]

theorem onOneLine_escape {quote : CodePoint} (mark : quote.isNewline = false) (t : Text) :
    Text.OnOneLine (Text.escape quote t) := by
  intro c mem
  obtain ⟨x, -, inside⟩ := List.mem_flatMap.mp mem
  exact onOneLine_escapeCodePoint mark x c inside

theorem onOneLine_writeSymbol {name w : Text} (written : writeSymbol name = .ok w) :
    Text.OnOneLine w := by
  obtain ⟨barred, needed, same⟩ := bind_eq_ok.mp written
  cases barred with
  | true =>
    obtain rfl := Except.ok.inj same
    have inside : Text.OnOneLine (Text.escape (.scalar '|') name) :=
      onOneLine_escape (by decide) name
    simp [inside, Text.onOneLine_nil, CodePoint.isNewline]
  | false =>
    obtain rfl := Except.ok.inj same
    exact Text.onOneLine_of_plain (bare_of_needsBars needed).2.2.1

theorem onOneLine_writeCharacter (c : CodePoint) : Text.OnOneLine (writeCharacter c) := by
  have marks : CodePoint.isNewline (.scalar '#') = false ∧
      CodePoint.isNewline .backslash = false ∧ CodePoint.isNewline (.scalar 'x') = false := by decide
  unfold writeCharacter
  split
  · rename_i name found
    have plain := Text.onOneLine_of_plain (Lexeme.named_of_characterName? found).2.2
    simp [marks, plain]
  · rename_i unnamed
    split
    · have inside : c.isNewline = false := by
        apply CodePoint.isNewline_eq_false
        · rintro rfl
          exact absurd unnamed (by decide)
        · rintro rfl
          exact absurd unnamed (by decide)
      simp [marks, inside, Text.onOneLine_nil]
    · have digits := Text.onOneLine_of_plain fun x => plain_of_mem_numeral (n := c.toNat) (c := x)
      simp [marks, digits]

theorem onOneLine_of_alphabet {t : Text} (inside : ∀ c ∈ t, c ∈ Number.alphabet) :
    Text.OnOneLine t := by
  have all : ∀ c ∈ Number.alphabet, c.isNewline = false := by decide
  exact fun c mem => all c (inside c mem)

mutual

/-- What is written for a datum stays on one line. -/
theorem Datum.onOneLine_of_write (d : Datum) {w : Text} (written : d.write = .ok w) :
    w.OnOneLine := by
  cases d with
  | symbol name => exact onOneLine_writeSymbol written
  | string content =>
    obtain rfl := Except.ok.inj written
    have inside : Text.OnOneLine (Text.escape .quotationMark content) :=
      onOneLine_escape (by decide) content
    simp [writeString, inside, Text.onOneLine_nil, CodePoint.isNewline]
  | char c =>
    obtain rfl := Except.ok.inj written
    exact onOneLine_writeCharacter c
  | boolean b =>
    obtain rfl := Except.ok.inj written
    unfold Text.OnOneLine
    cases b <;> decide
  | number n => exact onOneLine_of_alphabet (Number.parse_of_write written).2
  | list items =>
    obtain ⟨texts, each, same⟩ := bind_eq_ok.mp written
    obtain rfl := Except.ok.inj same
    exact Text.onOneLine_parenthesized (Datum.onOneLine_of_writeItems items each)
  | dotted items tail =>
    obtain ⟨texts, each, rest⟩ := bind_eq_ok.mp written
    obtain ⟨last, final, same⟩ := bind_eq_ok.mp rest
    obtain rfl := Except.ok.inj same
    have lead := Text.onOneLine_intercalate (Datum.onOneLine_of_writeItems items each)
    have end_ := Datum.onOneLine_of_write tail final
    have dot : Text.OnOneLine (" . " : Text) := by
      unfold Text.OnOneLine
      decide
    simp [lead, end_, dot, Text.onOneLine_nil, CodePoint.isNewline]
  | vector items =>
    obtain ⟨texts, each, same⟩ := bind_eq_ok.mp written
    obtain rfl := Except.ok.inj same
    have inside := Text.onOneLine_parenthesized (Datum.onOneLine_of_writeItems items each)
    simp [inside, CodePoint.isNewline]
  | bytes elements =>
    obtain rfl := Except.ok.inj written
    have inside : Text.OnOneLine (parenthesized (elements.map fun b => Text.ofNat b.toNat)) := by
      apply Text.onOneLine_parenthesized
      intro t mem
      obtain ⟨b, -, rfl⟩ := List.mem_map.mp mem
      exact onOneLine_of_alphabet fun _ => Number.mem_alphabet_of_mem_ofNat
    simp [inside, CodePoint.isNewline]
  | foreign kind items =>
    cases kind with
    | notANumber =>
      obtain rfl := Except.ok.inj written
      exact onOneLine_of_alphabet fun _ => Number.mem_alphabet_of_mem_real
    | nothing => cases written
    | sequence => cases written
    | directive => cases written

theorem Datum.onOneLine_of_writeItems (ds : List Datum) {texts : List Text}
    (written : Datum.writeItems ds = .ok texts) : ∀ t ∈ texts, t.OnOneLine := by
  cases ds with
  | nil =>
    obtain rfl := Except.ok.inj written
    simp
  | cons d ds =>
    obtain ⟨w, first, rest⟩ := bind_eq_ok.mp written
    obtain ⟨ws, others, same⟩ := bind_eq_ok.mp rest
    obtain rfl := Except.ok.inj same
    exact List.forall_mem_cons.mpr
      ⟨Datum.onOneLine_of_write d first, Datum.onOneLine_of_writeItems ds others⟩

end

/-! ## 2. Scanning a written line -/

theorem Cursor.line_advance_of_onOneLine {c : Cursor} {w rest : Text} (here : c.rest = w ++ rest)
    (inside : w.OnOneLine) : (c.advance w.length).position.line = c.position.line := by
  induction w generalizing c with
  | nil => rfl
  | cons x w ih =>
    have first : x.isNewline = false := inside x (List.mem_cons_self ..)
    have others : c.next.rest = w ++ rest := by
      rw [rest_next, here]
      rfl
    rw [List.length_cons, advance_succ, ih others fun y mem => inside y (List.mem_cons_of_mem x mem),
      line_next_of_inside here first]

theorem Cursor.skipNewline_eq_advance (c : Cursor) :
    c.skipNewline = c.advance (Lexeme.newlineLength c.rest) := by
  unfold skipNewline
  generalize c.rest = t
  split
  · rfl
  · rename_i x rest single
    rw [Lexeme.newlineLength.eq_2 x rest single]
    split
    · rw [advance_one]
    · rfl
  · rfl

namespace Reads

variable {ctx : Context} {c next : Cursor} {s s' : ReaderState} {y : Yield}

theorem intraline_of_startsDatum {anchor : Int} (starts : StartsDatum c.rest) :
    Reads ctx (.intraline anchor) c s .nothing c s ∧ c.atLineEnd = false := by
  obtain ⟨x, rest, head⟩ := List.exists_cons_of_ne_nil starts.some_text
  have visible := starts.visible
  rw [head] at visible
  have inside : x.isNewline = false := by
    by_contra newline
    have blank := CodePoint.isBlank_of_isNewline (Bool.of_not_eq_false newline)
    have none : x.isBlank = false := visible
    rw [none] at blank
    cases blank
  have unblank : x.isBlank = false := visible
  constructor
  · refine .intralineClear ?_ (starts.no_comment _ _)
    rw [head]
    show x.isIntralineBlank = false
    rw [CodePoint.isIntralineBlank, unblank, Bool.and_false]
  · unfold Cursor.atLineEnd Cursor.atEnd Cursor.atNewline
    rw [head]
    exact inside

/-- Nothing is skipped at the end of a line. -/
theorem intraline_of_atLineEnd {anchor : Int} (ended : c.atLineEnd = true) :
    Reads ctx (.intraline anchor) c s .nothing c s := by
  have ends := Cursor.atLineEnd_iff.mp ended
  exact .intralineClear ends.no_intralineBlank (startsComment_of_atLineEnd _ _ ends)

/-- A written line goes on with a space, a line break or the end of the text. -/
theorem blank_flatMap (texts : List Text) {rest : Text} (ends : rest.AtLineEnd) :
    (texts.flatMap (.scalar ' ' :: ·) ++ rest).head?.all CodePoint.isBlank = true := by
  cases texts with
  | nil => exact ends.blank
  | cons w ws =>
    show CodePoint.isBlank (.scalar ' ') = true
    decide

/-- The written data of a directive are scanned one after another, up to the end of the line. -/
theorem datums_of_writeItems {anchor : Int} (ds : List Datum) {texts : List Text} {rest : Text}
    (formed : Datum.wellFormedItems ds = true) (written : Datum.writeItems ds = .ok texts)
    (ends : rest.AtLineEnd) {before : List Datum}
    (unfolded : s.foldCase = false) (line : c.position.line = anchor)
    (here : c.rest = texts.flatMap (.scalar ' ' :: ·) ++ rest) :
    ∃ s', Reads ctx (.datums anchor before) c s (.datums (before ++ ds))
      (c.advance (texts.flatMap (.scalar ' ' :: ·)).length) s' := by
  induction ds generalizing texts before c s with
  | nil =>
    obtain rfl := Except.ok.inj written
    have ended : c.atLineEnd = true := by
      rw [Cursor.atLineEnd_iff, here]
      exact ends
    rw [List.append_nil]
    exact ⟨_, .lastDatum (intraline_of_atLineEnd ended) (.inr ended)⟩
  | cons d ds ih =>
    obtain ⟨w, first, more⟩ := bind_eq_ok.mp written
    obtain ⟨ws, others, packed⟩ := bind_eq_ok.mp more
    obtain rfl := Except.ok.inj packed
    simp only [Datum.wellFormedItems, Bool.and_eq_true] at formed
    -- the line goes on with a space, this datum and the other data
    have flat : (w :: ws).flatMap (.scalar ' ' :: ·) =
        .scalar ' ' :: (w ++ ws.flatMap (.scalar ' ' :: ·)) := List.flatMap_cons
    rw [flat, List.cons_append, List.append_assoc] at here
    have ends' : Text.atDelimiter (ws.flatMap (.scalar ' ' :: ·) ++ rest) = true :=
      Text.atDelimiter_of_blank (blank_flatMap ws ends)
    have at_word : c.next.rest = w ++ (ws.flatMap (.scalar ' ' :: ·) ++ rest) := by
      rw [Cursor.rest_next, here]
      rfl
    have same : c.next.position.line = anchor := by
      rw [Cursor.line_next_of_inside here (by decide), line]
    have unfolded' : (s.emit (.phase .skipping .readingDatum c.next.position)).foldCase = false :=
      unfolded
    have read : Reads ctx (.here .directive) c.next
        (s.emit (.phase .skipping .readingDatum c.next.position)) (.datum d)
        (c.next.advance w.length) (s.emit (.phase .skipping .readingDatum c.next.position)) :=
      isReadAs_of_write unfolded' d formed.1 first c.next _ at_word ends'
    -- nothing but the space is skipped, because a datum starts after it
    have quiet : Reads ctx (.intraline anchor) c.next s .nothing c.next s ∧
        c.next.atLineEnd = false := intraline_of_startsDatum read.startsDatum
    obtain ⟨clear, follows⟩ := quiet
    -- what is written stays on the line, and so does the read
    have stays : (c.next.advance w.length).position.line = anchor := by
      rw [Cursor.line_advance_of_onOneLine at_word (d.onOneLine_of_write first), same]
    have after : (c.next.advance w.length).rest = ws.flatMap (.scalar ' ' :: ·) ++ rest := by
      rw [Cursor.rest_advance, at_word, List.drop_left]
    have scan : ∃ s', Reads ctx (.datums anchor (before ++ [d])) (c.next.advance w.length)
        (((s.emit (.phase .skipping .readingDatum c.next.position)).emit
          (.datumRead (before.length + 1) c.next.position)).emit
            (.phase .readingDatum .skipping (c.next.advance w.length).position))
        (.datums (before ++ [d] ++ ds)) ((c.next.advance w.length).advance
          (ws.flatMap (.scalar ' ' :: ·)).length) s' :=
      ih formed.2 others unfolded stays after
    obtain ⟨s', scanned⟩ := scan
    have moved : (c.next.advance w.length).advance (ws.flatMap (.scalar ' ' :: ·)).length =
        c.advance ((w :: ws).flatMap (.scalar ' ' :: ·)).length := by
      rw [flat, List.length_cons, List.length_append, Cursor.advance_succ, Cursor.advance_add]
    rw [moved, List.append_assoc, List.singleton_append] at scanned
    have blank : CodePoint.isIntralineBlank (.scalar ' ') = true := by decide
    exact ⟨s', .lineDatum (.intralineBlank here blank clear) same follows (.directive read) stays
      scanned⟩

end Reads

/-! ## 3. The round trip -/

/-- The text `nl` ends a line before `after`: it is a whole line break, or nothing at the end of the
text. -/
def Text.EndsLine (nl after : Text) : Prop :=
  (nl = [] ∧ after = []) ∨ nl = [.lineFeed] ∨ nl = [.carriageReturn, .lineFeed] ∨
    (nl = [.carriageReturn] ∧ after.head? ≠ some .lineFeed)

namespace Text.EndsLine

variable {nl after : Text}

theorem atLineEnd (h : EndsLine nl after) : (nl ++ after).AtLineEnd := by
  rcases h with ⟨rfl, rfl⟩ | rfl | rfl | ⟨rfl, -⟩
  · rfl
  · rfl
  · rfl
  · rfl

theorem newlineLength_eq (h : EndsLine nl after) :
    Lexeme.newlineLength (nl ++ after) = nl.length := by
  rcases h with ⟨rfl, rfl⟩ | rfl | rfl | ⟨rfl, single⟩
  · rfl
  · rfl
  · rfl
  · cases after with
    | nil => rfl
    | cons x more =>
      rw [List.singleton_append, Lexeme.newlineLength.eq_2]
      · rfl
      · rintro tail - same
        cases same
        exact single rfl

end Text.EndsLine

theorem startsDirective_of_blank (policy : WhitespacePolicy) {t : Text}
    (blank : t.head?.all CodePoint.isBlank = true) : startsDirective policy t = true := by
  have letters : ∀ m : NamedMarker, ∃ x more, m.name = x :: more ∧ x.isBlank = false := by
    intro m
    cases m with
    | foldCase => exact ⟨_, _, rfl, by decide⟩
    | noFoldCase => exact ⟨_, _, rfl, by decide⟩
  -- the word of a named marker would have to start with a blank
  have unnamed : NamedMarker.detect? t = none := by
    rw [NamedMarker.detect?, List.find?_eq_none]
    intro m _
    obtain ⟨x, more, name, visible⟩ := letters m
    rw [NamedMarker.matchesAt, Text.startsWith, name]
    cases t with
    | nil => simp
    | cons y rest =>
      have other : x ≠ y := by
        rintro rfl
        rw [show x.isBlank = true from blank] at visible
        cases visible
      simp [other]
  unfold startsDirective
  rw [unnamed]
  cases t with
  | nil => rfl
  | cons y rest =>
    have first : y.isBlank = true := blank
    simp [first]

theorem onOneLine_line {texts : List Text} (each : ∀ t ∈ texts, t.OnOneLine) :
    Text.OnOneLine (directiveMarker ++ texts.flatMap (.scalar ' ' :: ·)) := by
  have marker : directiveMarker.OnOneLine := by
    unfold Text.OnOneLine
    decide
  refine Text.onOneLine_append.mpr ⟨marker, ?_⟩
  intro c mem
  obtain ⟨t, inside, found⟩ := List.mem_flatMap.mp mem
  rcases List.mem_cons.mp found with rfl | found
  · decide
  · exact each t inside c found

/-- After a marker a written line is scanned back, with the end of the line. -/
theorem Reader.scanDirective_written (ctx : Context) {c : Cursor} {s : ReaderState}
    {ds : List Datum} {texts : List Text} {nl after : Text}
    (formed : Datum.wellFormedItems ds = true) (written : Datum.writeItems ds = .ok texts)
    (ends : Text.EndsLine nl after) (unfolded : s.foldCase = false)
    (here : c.rest = texts.flatMap (.scalar ' ' :: ·) ++ (nl ++ after)) :
    ∃ s', (scanDirective ctx c).Returns s (⟨ds, some c.position.beforeMarker⟩,
      c.advance ((texts.flatMap (.scalar ' ' :: ·)).length + nl.length)) s' := by
  have scan : ∃ s', Reads ctx (.datums c.position.line []) c
      (s.emit (.phase .start .skipping c.position)) (.datums ds)
      (c.advance (texts.flatMap (.scalar ' ' :: ·)).length) s' :=
    Reads.datums_of_writeItems ds formed written ends.atLineEnd unfolded rfl here
  obtain ⟨s', scanned⟩ := scan
  have inside := (Text.onOneLine_append.mp
    (onOneLine_line (Datum.onOneLine_of_writeItems ds written))).2
  have same := Cursor.line_advance_of_onOneLine here inside
  have next : (c.advance (texts.flatMap (.scalar ' ' :: ·)).length).afterDirective
      c.position.line = c.advance ((texts.flatMap (.scalar ' ' :: ·)).length + nl.length) := by
    rw [Cursor.afterDirective, if_pos same, Cursor.skipNewline_eq_advance, Cursor.rest_advance,
      here, List.drop_left, ends.newlineLength_eq, ← Cursor.advance_add]
  exact ⟨s', returns_scanDirective.mpr ⟨ds, _, scanned, rfl, next.symm⟩⟩

theorem Source.rest_cursor_after_marker {src : Source} {t : Text}
    (text : src.text = directiveMarker ++ t) : (src.cursor ⟨1, 2, 2⟩).rest = t := by
  show src.text.drop 2 = t
  rw [text]
  rfl

/-- In the text a directive that starts is scanned from the cursor at the position. -/
theorem Source.readDirective?_of_starts {src : Source} {ctx : Context} {p : Position}
    (inside : 0 ≤ p.offset)
    (starts : LineDirective.startsDirective ctx.policy.whitespace (src.cursor p).rest = true) :
    src.readDirective? ctx p = some <$> Reader.scanDirective ctx (src.cursor p) := by
  unfold readDirective? scanDirective
  rw [src.startsDirective_of_nonneg _ inside, starts, if_neg (Int.not_lt.mpr inside)]
  rfl

theorem Source.returns_readDirective? {src : Source} {ctx : Context} {p : Position}
    (inside : 0 ≤ p.offset)
    (starts : LineDirective.startsDirective ctx.policy.whitespace (src.cursor p).rest = true)
    {s s' : ReaderState} {d : Directive} {next : Cursor}
    (h : (Reader.scanDirective ctx (src.cursor p)).Returns s (d, next) s') :
    (src.readDirective? ctx p).Returns s (some (d, next)) s' := by
  rw [readDirective?_of_starts inside starts]
  exact ReadM.returns_map.mpr ⟨(d, next), h, rfl⟩

theorem Source.raises_readDirective? {src : Source} {ctx : Context} {p : Position}
    (inside : 0 ≤ p.offset)
    (starts : LineDirective.startsDirective ctx.policy.whitespace (src.cursor p).rest = true)
    {s s' : ReaderState} {e : Failure}
    (h : (Reader.scanDirective ctx (src.cursor p)).Raises s e s') :
    (src.readDirective? ctx p).Raises s e s' := by
  rw [readDirective?_of_starts inside starts]
  exact ReadM.raises_map.mpr h

/-- A written directive stays on one line, and at the start of any text, before any end of that line,
it is read back under every policy: the same data, the marker at the start of the text, and nothing
of the text taken beyond the end of the line. -/
theorem Directive.scan_back_written {ds : List Datum} {t : Text}
    (formed : ∀ d ∈ ds, d.wellFormed = true) (written : (Directive.mk ds none).write = .ok t) :
    (∀ c ∈ t, c ≠ .lineFeed ∧ c ≠ .carriageReturn) ∧
    ∀ (src : Source) (ctx : Context) (s : ReaderState) (nl after : Text),
      src.text = t ++ (nl ++ after) → Text.EndsLine nl after → s.foldCase = false →
      src.advance .start 2 = .ok ⟨1, 2, 2⟩ ∧
      ∃ last s', (src.readDirective? ctx ⟨1, 2, 2⟩).Returns s
          (some (⟨ds, some ⟨1, 0, 0⟩⟩, last)) s' ∧
        last.rest = after ∧ last.position.offset = t.length + nl.length := by
  obtain ⟨texts, each, packed⟩ := bind_eq_ok.mp written
  obtain rfl := Except.ok.inj packed
  have formed_items := (Datum.wellFormedItems_iff ds).mpr formed
  constructor
  · intro c mem
    have inside := onOneLine_line (Datum.onOneLine_of_writeItems ds each) c mem
    constructor
    · rintro rfl
      cases inside
    · rintro rfl
      cases inside
  · intro src ctx s nl after text ends unfolded
    have marker : src.advance .start 2 = .ok ⟨1, 2, 2⟩ := by
      rw [src.advance_of_nonneg (show (0 : Int) ≤ 0 by decide)]
      show Except.ok (Cursor.advance ⟨src.text, .start⟩ 2).position = _
      rw [text]
      rfl
    have here : (src.cursor ⟨1, 2, 2⟩).rest =
        texts.flatMap (.scalar ' ' :: ·) ++ (nl ++ after) :=
      Source.rest_cursor_after_marker (by rw [text, List.append_assoc])
    have starts : startsDirective ctx.policy.whitespace (src.cursor ⟨1, 2, 2⟩).rest = true := by
      apply startsDirective_of_blank
      rw [here]
      exact Reads.blank_flatMap texts ends.atLineEnd
    obtain ⟨s', scanned⟩ := Reader.scanDirective_written ctx formed_items each ends unfolded here
    refine ⟨marker, _, s', src.returns_readDirective? (by decide) starts scanned, ?_, ?_⟩
    · rw [Cursor.rest_advance, here, ← List.append_assoc, ← List.length_append, List.drop_left]
    · have size : (directiveMarker ++ texts.flatMap (.scalar ' ' :: ·)).length =
          2 + (texts.flatMap (.scalar ' ' :: ·)).length := List.length_append
      have left : (src.cursor ⟨1, 2, 2⟩).rest.length =
          (texts.flatMap (.scalar ' ' :: ·)).length + (nl.length + after.length) := by
        rw [here, List.length_append, List.length_append]
      rw [Cursor.offset_advance, size, left]
      show (2 : Int) + _ = _
      omega

/-- A string with a line break in it, before a line break of two code points. -/
theorem Directive.scan_back_written_string :
    (∀ d ∈ [Datum.symbol "r6rs", .string "a\nb"], d.wellFormed = true) ∧
    (Directive.mk [.symbol "r6rs", .string "a\nb"] none).write = .ok ("#! r6rs \"a\\nb\"" : Text) ∧
    ∃ last s', (Source.readDirective? ⟨"#! r6rs \"a\\nb\"\r\nx", none⟩ {} ⟨1, 2, 2⟩).Returns {}
        (some (⟨[.symbol "r6rs", .string "a\nb"], some ⟨1, 0, 0⟩⟩, last)) s' ∧
      last.rest = ("x" : Text) ∧ last.position.offset = 16 := by
  have formed : ∀ d ∈ [Datum.symbol "r6rs", .string "a\nb"], d.wellFormed = true := by decide
  have written : (Directive.mk [.symbol "r6rs", .string "a\nb"] none).write =
      .ok ("#! r6rs \"a\\nb\"" : Text) := rfl
  have back := (scan_back_written formed written).2 ⟨"#! r6rs \"a\\nb\"\r\nx", none⟩ {} {}
    [.carriageReturn, .lineFeed] [.scalar 'x'] rfl (.inr (.inr (.inl rfl))) rfl
  exact ⟨formed, written, back.2⟩

end LineDirective
