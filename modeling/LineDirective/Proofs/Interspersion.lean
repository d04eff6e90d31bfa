import LineDirective.Proofs.DirectiveRoundTrip
import LineDirective.Proofs.Requests

/-!
# Data among atmosphere

A text may be put together from written data and from what means nothing between them: whitespace,
comments to the end of a line, nested block comments, and data that are commented out, with more of
the same before them (`Filler`). However these are mixed, reading passes over every filler and
returns the data in order, at the top level of a source and between the brackets of a list.

A filler is a tree, and it is passed over by induction on it: skipping goes on behind the filler as it
does behind nothing (`IsPassedOver`), whatever follows.
-/

namespace LineDirective

/-! ## 1. Fillers -/

abbrev Blank := { x : CodePoint // x.isBlank = true }

structure WrittenDatum where
  datum : Datum
  text : Text
  formed : datum.wellFormed = true
  written : datum.write = .ok text

/-- The three ways to end a line. -/
inductive LineBreak where
  | lineFeed
  | carriageReturn
  | both

def LineBreak.text : LineBreak → Text
  | lineFeed => [.lineFeed]
  | carriageReturn => [.carriageReturn]
  | both => [.carriageReturn, .lineFeed]

/-- A part of the text between the marks of a block comment: a code point that belongs to no mark, or
another block comment. -/
inductive BlockPart where
  | plain (x : CodePoint) (no_hash : x ≠ .scalar '#') (no_bar : x ≠ .scalar '|')
  | nested (parts : List BlockPart)

mutual

def BlockPart.text : BlockPart → Text
  | .plain x _ _ => [x]
  | .nested parts =>
    .scalar '#' :: .scalar '|' :: (BlockPart.textAll parts ++ [.scalar '|', .scalar '#'])

def BlockPart.textAll : List BlockPart → Text
  | [] => []
  | part :: parts => part.text ++ BlockPart.textAll parts

end

/-- What may stand between data and means nothing. -/
inductive Filler where
  | blank (x : Blank)
  /-- A semicolon, the rest of its line, and the line break. -/
  | line (content : Text) (one_line : content.OnOneLine) (stop : LineBreak)
  | block (parts : List BlockPart)
  /-- A datum that is commented out, with fillers before it and one blank after it. -/
  | datum (before : List Filler) (d : WrittenDatum) (after : Blank)

mutual

def Filler.text : Filler → Text
  | .blank x => [x.val]
  | .line content _ stop => .scalar ';' :: (content ++ stop.text)
  | .block parts => (BlockPart.nested parts).text
  | .datum before d after =>
    .scalar '#' :: .scalar ';' :: (Filler.textAll before ++ d.text) ++ [after.val]

def Filler.textAll : List Filler → Text
  | [] => []
  | filler :: fillers => filler.text ++ Filler.textAll fillers

end

/-- A filler, or a datum with one blank after it. -/
inductive Piece where
  | filler (f : Filler)
  | datum (d : WrittenDatum) (after : Blank)

namespace Piece

def text : Piece → Text
  | filler f => f.text
  | datum d after => d.text ++ [after.val]

def textAll (pieces : List Piece) : Text := pieces.flatMap text

def datum? : Piece → Option Datum
  | filler _ => none
  | datum d _ => some d.datum

def data (pieces : List Piece) : List Datum := pieces.filterMap datum?

end Piece

/-! ## 2. Block comments -/

/-- One code point that belongs to no mark. -/
theorem Lexeme.blockComment_plain {x : CodePoint} (depth : Int) (rest : Text)
    (no_hash : x ≠ .scalar '#') (no_bar : x ≠ .scalar '|') :
    blockComment depth (x :: rest) = (blockComment depth rest).map (· + 1) := by
  rw [blockComment]
  · exact fun _ hash _ => no_hash hash
  · exact fun _ bar _ => no_bar bar

theorem Lexeme.blockComment_open (depth : Int) (rest : Text) :
    blockComment depth (.scalar '#' :: .scalar '|' :: rest) =
      (blockComment (depth + 1) rest).map (· + 2) := by
  rw [blockComment]

/-- A mark that closes an inner comment. -/
theorem Lexeme.blockComment_close {depth : Int} (inside : 1 ≤ depth) (rest : Text) :
    blockComment (depth + 1) (.scalar '|' :: .scalar '#' :: rest) =
      (blockComment depth rest).map (· + 2) := by
  rw [blockComment, if_neg (by omega), Int.add_sub_cancel]

theorem BlockPart.length_nested (parts : List BlockPart) :
    (BlockPart.nested parts).text.length = 2 + ((BlockPart.textAll parts).length + 2) := by
  rw [BlockPart.text]
  simp only [List.length_cons, List.length_append, List.length_nil]
  omega

/-- The text of a block comment in front of another one. -/
theorem BlockPart.nested_append (parts : List BlockPart) (rest : Text) :
    (BlockPart.nested parts).text ++ rest = .scalar '#' :: .scalar '|' ::
      (BlockPart.textAll parts ++ .scalar '|' :: .scalar '#' :: rest) := by
  rw [BlockPart.text, List.cons_append, List.cons_append, List.append_assoc]
  rfl

theorem map_add_map {r : Except Int Nat} (m n : Nat) :
    (r.map (· + m)).map (· + n) = r.map (· + (n + m)) := by
  cases r with
  | error e => rfl
  | ok k =>
    show Except.ok (k + m + n) = Except.ok (k + (n + m))
    rw [Nat.add_assoc, Nat.add_comm m n]

mutual

/-- Inside a comment a part is passed, however deep: its own marks are balanced. -/
theorem BlockPart.blockComment_text (part : BlockPart) {depth : Int} (inside : 1 ≤ depth)
    (rest : Text) :
    Lexeme.blockComment depth (part.text ++ rest) =
      (Lexeme.blockComment depth rest).map (· + part.text.length) := by
  cases part with
  | plain x no_hash no_bar =>
    rw [BlockPart.text]
    exact Lexeme.blockComment_plain depth rest no_hash no_bar
  | nested parts =>
    have inner := BlockPart.blockComment_textAll parts (by omega : 1 ≤ depth + 1)
      (.scalar '|' :: .scalar '#' :: rest)
    rw [Lexeme.blockComment_close inside, map_add_map] at inner
    rw [BlockPart.nested_append, Lexeme.blockComment_open, inner, map_add_map,
      BlockPart.length_nested]

theorem BlockPart.blockComment_textAll (parts : List BlockPart) {depth : Int} (inside : 1 ≤ depth)
    (rest : Text) :
    Lexeme.blockComment depth (BlockPart.textAll parts ++ rest) =
      (Lexeme.blockComment depth rest).map (· + (BlockPart.textAll parts).length) := by
  cases parts with
  | nil =>
    rw [BlockPart.textAll]
    show Lexeme.blockComment depth rest = (Lexeme.blockComment depth rest).map (· + 0)
    cases Lexeme.blockComment depth rest <;> rfl
  | cons part parts =>
    have first := BlockPart.blockComment_text part inside (BlockPart.textAll parts ++ rest)
    have others := BlockPart.blockComment_textAll parts inside rest
    rw [BlockPart.textAll, List.append_assoc, first, others, map_add_map, List.length_append]

end

/-- A whole block comment ends with its own last mark. -/
theorem BlockPart.blockComment_nested (parts : List BlockPart) (rest : Text) :
    Lexeme.blockComment 0 ((BlockPart.nested parts).text ++ rest) =
      .ok (BlockPart.nested parts).text.length := by
  have inner := BlockPart.blockComment_textAll parts (Int.le_refl 1)
    (.scalar '|' :: .scalar '#' :: rest)
  rw [BlockPart.nested_append, Lexeme.blockComment_open, Int.zero_add, inner, map_add_map,
    BlockPart.length_nested, Lexeme.blockComment, if_pos rfl]
  show Except.ok (2 + (2 + (BlockPart.textAll parts).length)) = _
  rw [Nat.add_comm 2 (BlockPart.textAll parts).length]

/-! ## 3. Fillers are passed over -/

section Fillers

variable {ctx : Context} {c : Cursor} {s : ReaderState}

/-- Before anything, skipping atmosphere goes on behind the text as it does from there. -/
def IsPassedOver (ctx : Context) (s : ReaderState) (w : Text) : Prop :=
  ∀ (c : Cursor) (rest : Text), c.rest = w ++ rest →
    (Reader.skipAtmosphere ctx .code c).ContinuesAs s
      (Reader.skipAtmosphere ctx .code (c.advance w.length)) s

theorem isPassedOver_nil : IsPassedOver ctx s [] := fun _ _ _ => rfl

theorem IsPassedOver.append {w w' : Text} (first : IsPassedOver ctx s w)
    (second : IsPassedOver ctx s w') : IsPassedOver ctx s (w ++ w') := by
  intro c rest here
  rw [List.append_assoc] at here
  have after : (c.advance w.length).rest = w' ++ rest := by
    rw [Cursor.rest_advance, here, List.drop_left]
  rw [List.length_append, Cursor.advance_add]
  exact (first c _ here).trans (second _ rest after)

theorem isPassedOver_blanks {w : Text} (white : ∀ x ∈ w, x.isBlank = true) :
    IsPassedOver ctx s w := by
  induction w with
  | nil => exact isPassedOver_nil
  | cons x w ih =>
    obtain ⟨first, others⟩ := List.forall_mem_cons.mp white
    have one : IsPassedOver ctx s [x] := by
      intro c rest here
      rw [List.length_singleton, Cursor.advance_one]
      exact Reader.continues_blank s here first
    exact one.append (ih others)

/-- A comment with blanks after it, which may be what ends it. -/
theorem isPassedOver_comment (w blanks : Text) (white : ∀ x ∈ blanks, x.isBlank = true)
    (remark : ∀ (c : Cursor) (rest : Text), c.rest = w ++ (blanks ++ rest) →
      Reads ctx (.comment .code) c s .nothing (c.advance w.length) s) :
    IsPassedOver ctx s (w ++ blanks) := by
  intro c rest here
  rw [List.append_assoc] at here
  have after : (c.advance w.length).rest = blanks ++ rest := by
    rw [Cursor.rest_advance, here, List.drop_left]
  have comment := remark c rest here
  rw [List.length_append, Cursor.advance_add]
  exact (Reader.continues_remark comment.visible_of_comment comment).trans
    (isPassedOver_blanks white _ rest after)

theorem LineBreak.isBlank_of_mem (stop : LineBreak) : ∀ x ∈ stop.text, x.isBlank = true := by
  cases stop <;> decide

/-- The line ends where its text does. -/
theorem Cursor.lineEnd_of_append {content rest : Text} (one_line : content.OnOneLine)
    (ends : rest.AtLineEnd) (here : c.rest = content ++ rest) :
    c.lineEnd = c.advance content.length := by
  induction content generalizing c with
  | nil => exact lineEnd_of_atLineEnd (atLineEnd_iff.mpr (here ▸ ends))
  | cons x content ih =>
    obtain ⟨inside, others⟩ := Text.onOneLine_cons.mp one_line
    have after : c.next.rest = content ++ rest := by
      rw [rest_next, here]
      rfl
    rw [← lineEnd_next here inside, ih others after, List.length_cons, advance_succ]

theorem LineBreak.atLineEnd (stop : LineBreak) (rest : Text) : (stop.text ++ rest).AtLineEnd := by
  cases stop <;> rfl

theorem isPassedOver_line {content : Text} (one_line : content.OnOneLine) (stop : LineBreak) :
    IsPassedOver ctx s (.scalar ';' :: (content ++ stop.text)) := by
  apply isPassedOver_comment (.scalar ';' :: content) stop.text stop.isBlank_of_mem
  intro c rest here
  have one_line : Text.OnOneLine (.scalar ';' :: content) :=
    Text.onOneLine_cons.mpr ⟨by decide, one_line⟩
  rw [← Cursor.lineEnd_of_append one_line (stop.atLineEnd rest) here]
  exact .lineComment here

theorem isPassedOver_block (parts : List BlockPart) :
    IsPassedOver ctx s (BlockPart.nested parts).text := by
  rw [← List.append_nil (BlockPart.nested parts).text]
  apply isPassedOver_comment _ [] (List.forall_mem_nil _)
  intro c rest here
  have marks := here.trans (BlockPart.nested_append parts _)
  have size := BlockPart.blockComment_nested parts ([] ++ rest)
  rw [← here] at size
  exact .blockComment marks size

/-- A datum is commented out together with the fillers before it. -/
theorem isPassedOver_datum {before : Text} {d : Datum} {w : Text} (x : Blank)
    (skipped : IsPassedOver ctx s before) (read : IsReadAs ctx .code s w d) :
    IsPassedOver ctx s (.scalar '#' :: .scalar ';' :: (before ++ w) ++ [x.val]) := by
  apply isPassedOver_comment _ [x.val] (by simpa using x.property)
  intro c rest here
  have start : (c.advance 2).rest = before ++ (w ++ x.val :: rest) := by
    rw [Cursor.rest_advance, here]
    simp
  have place : ((c.advance 2).advance before.length).rest = w ++ x.val :: rest := by
    rw [Cursor.rest_advance, start, List.drop_left]
  have ends : Text.atDelimiter (x.val :: rest) = true := Text.atDelimiter_of_blank x.property
  have datum := read _ _ place ends
  have skip : Reads ctx (.atmosphere .code) (c.advance 2) s .nothing
      ((c.advance 2).advance before.length) s :=
    Proceeds.atmosphere (skipped _ _ start) (Reads.clear_of_startsDatum datum.startsDatum)
  have comment := Reads.datumComment here (.code skip datum)
  rwa [← Cursor.advance_add, ← Cursor.advance_add, Nat.add_comm 2, ← List.length_append] at comment

mutual

theorem Filler.isPassedOver_text (ctx : Context) (unfolded : s.foldCase = false) (f : Filler) :
    IsPassedOver ctx s f.text := by
  cases f with
  | blank x =>
    rw [Filler.text]
    exact isPassedOver_blanks (by simpa using x.property)
  | line content one_line stop =>
    rw [Filler.text]
    exact isPassedOver_line one_line stop
  | block parts =>
    rw [Filler.text]
    exact isPassedOver_block parts
  | datum before d after =>
    rw [Filler.text]
    exact isPassedOver_datum after (Filler.isPassedOver_textAll ctx unfolded before)
      (isReadAs_of_write unfolded d.datum d.formed d.written)

theorem Filler.isPassedOver_textAll (ctx : Context) (unfolded : s.foldCase = false) (fs : List Filler) :
    IsPassedOver ctx s (Filler.textAll fs) := by
  cases fs with
  | nil =>
    rw [Filler.textAll]
    exact isPassedOver_nil
  | cons f fs =>
    rw [Filler.textAll]
    exact (Filler.isPassedOver_text ctx unfolded f).append
      (Filler.isPassedOver_textAll ctx unfolded fs)

end

end Fillers

/-! ## 4. Data among fillers -/

section Pieces

variable {ctx : Context} {c next : Cursor} {s s₁ s' : ReaderState}

/-- A datum with a blank after it: the datum is read, and skipping goes on behind the blank. -/
theorem WrittenDatum.reads (ctx : Context) (unfolded : s.foldCase = false) (d : WrittenDatum)
    (x : Blank) {rest : Text} (here : c.rest = d.text ++ [x.val] ++ rest) :
    Reads ctx (.here .code) c s (.datum d.datum) (c.advance d.text.length) s ∧
      (Reader.skipAtmosphere ctx .code (c.advance d.text.length)).ContinuesAs s
        (Reader.skipAtmosphere ctx .code (c.advance (d.text ++ [x.val]).length)) s := by
  rw [List.append_assoc] at here
  have ends : Text.atDelimiter ([x.val] ++ rest) = true := Text.atDelimiter_of_blank x.property
  have after : (c.advance d.text.length).rest = [x.val] ++ rest := by
    rw [Cursor.rest_advance, here, List.drop_left]
  have white : ∀ y ∈ [x.val], y.isBlank = true := by simpa using x.property
  refine ⟨isReadAs_of_write unfolded d.datum d.formed d.written c _ here ends, ?_⟩
  rw [List.length_append, Cursor.advance_add]
  exact isPassedOver_blanks white _ rest after

namespace Piece

@[simp] theorem textAll_cons (piece : Piece) (pieces : List Piece) :
    textAll (piece :: pieces) = piece.text ++ textAll pieces := List.flatMap_cons ..

theorem readsAll (ctx : Context) (unfolded : s.foldCase = false) (pieces : List Piece)
    (here : c.rest = textAll pieces) :
    ∃ forms, ReadsAll ctx c s forms s ∧ forms.failure = none ∧ forms.data = data pieces := by
  -- by induction on the pieces: each filler is passed over, and each datum is read
  induction pieces generalizing c with
  | nil =>
    have nothing : c.rest = [] := here
    refine ⟨{}, .ended (.clear ?_ ?_) nothing, rfl, rfl⟩
    · rw [nothing]
      rfl
    · rw [nothing]
      rfl
  | cons piece pieces ih =>
    rw [textAll_cons] at here
    have after : (c.advance piece.text.length).rest = textAll pieces := by
      rw [Cursor.rest_advance, here, List.drop_left]
    obtain ⟨forms, reads, none_failed, yields⟩ := ih after
    cases piece with
    | filler f =>
      have skips := f.isPassedOver_text ctx unfolded c _ here
      exact ⟨forms, reads.of_continues skips, none_failed, yields⟩
    | datum d x =>
      obtain ⟨read, skips⟩ := d.reads ctx unfolded x here
      have starts := read.startsDatum
      refine ⟨_, .datum (Reads.clear_of_startsDatum starts) starts.some_text read.datum_of_here
        (reads.of_continues skips), none_failed, ?_⟩
      exact congrArg (d.datum :: ·) yields

theorem items (ctx : Context) (unfolded : s.foldCase = false) {closer : CodePoint}
    (closes : isCloser closer = true) (pieces : List Piece) (before : List Datum) {rest : Text}
    (here : c.rest = textAll pieces ++ closer :: rest) :
    Reads ctx (.items .code closer (before, none)) c s (.parts (before ++ data pieces, none))
      (c.advance ((textAll pieces).length + 1)) s := by
  induction pieces generalizing c before with
  | nil =>
    have head : c.rest = closer :: rest := here
    have closed : Reads ctx (.items .code closer (before, none)) c s (.parts (before, none)) c.next s :=
      .close (clear_of_head head (plain_of_isCloser closes)) head closes
    rw [← Cursor.advance_one] at closed
    simpa [data, textAll] using closed
  | cons piece pieces ih =>
    rw [textAll_cons, List.append_assoc] at here
    have after : (c.advance piece.text.length).rest = textAll pieces ++ closer :: rest := by
      rw [Cursor.rest_advance, here, List.drop_left]
    rw [textAll_cons, List.length_append, Nat.add_assoc, Cursor.advance_add]
    cases piece with
    | filler f =>
      exact .items_of_continues (f.isPassedOver_text ctx unfolded c _ here) (ih before after)
    | datum d x =>
      obtain ⟨read, skips⟩ := d.reads ctx unfolded x here
      have others := ih (before ++ [d.datum]) after
      rw [List.append_assoc] at others
      exact .items_of_here read (.items_of_continues skips others)

end Piece

end Pieces

/-! ## 5. Sources -/

/-- A session reads what the loop reads, and the loop leaves the state as it was. -/
theorem Source.forms_of_pieces (src : Source) {pieces : List Piece}
    (text : src.text = Piece.textAll pieces) (policy : Policy) (registry : Registry) {s : Session}
    (fresh : s = src.sessionWith policy registry false) :
    s.forms.1.failure = none ∧ s.forms.1.data = Piece.data pieces ∧
      s.forms.2.state.directives = [] := by
  have inside : 1 ≤ s.cursor.position.line := by
    rw [fresh]
    exact Int.le_refl 1
  have here : s.cursor.rest = Piece.textAll pieces := by
    rw [fresh]
    exact text
  have blank_state : s.state.foldCase = false ∧ s.state.directives = [] := by
    rw [fresh]
    exact ⟨rfl, rfl⟩
  obtain ⟨t, same, reads⟩ := Session.readsAll_forms inside
  obtain ⟨forms, reads', none_failed, yields⟩ :=
    Piece.readsAll s.context blank_state.1 pieces here
  obtain ⟨rfl, rfl⟩ := reads'.unique reads
  exact ⟨none_failed, yields, same.directives.symm.trans blank_state.2⟩

open Piece in
/-- Fillers do not show. A source that is put together from them and from written data yields these
data, in order, and no directive is put on record; a list that is filled with the same pieces is the
list of the data, and is read up to its closing bracket. -/
theorem Source.read_interspersed (pieces : List Piece) :
    (∀ (name : Option Text) (policy : Policy) (registry : Registry),
      (Source.mk (textAll pieces) name).read policy false = .ok (data pieces) ∧
      ((Source.mk (textAll pieces) name).sessionWith policy registry false).forms.2.log = []) ∧
    ∀ (ctx : Context) (s : ReaderState) (c : Cursor) (opener : CodePoint) (rest : Text),
      s.foldCase = false → opener = .scalar '(' ∨ opener = .scalar '[' →
      c.rest = opener :: (textAll pieces ++ closerOf opener :: rest) →
      ∃ next, (Reader.readDatum ctx .code c).Returns s (.list (data pieces), next) s ∧
        next = c.advance ((textAll pieces).length + 2) ∧ next.rest = rest := by
  constructor
  · intro name policy registry
    let src : Source := ⟨textAll pieces, name⟩
    obtain ⟨none_failed, yields, -⟩ :=
      src.forms_of_pieces (s := src.session policy) rfl policy .standard rfl
    obtain ⟨-, -, recorded⟩ := src.forms_of_pieces rfl policy registry rfl
    constructor
    · rw [Source.read_eq, none_failed, yields]
    · unfold Session.log
      rw [recorded]
      rfl
  · intro ctx s c opener rest unfolded bracket here
    have closes : isCloser (closerOf opener) = true := by
      rcases bracket with rfl | rfl <;> decide
    have inside : c.next.rest = textAll pieces ++ closerOf opener :: rest := by
      rw [Cursor.rest_next, here]
      rfl
    have read := Reads.list here bracket (items ctx unfolded closes pieces [] inside)
    rw [← Cursor.advance_one, ← Cursor.advance_add] at read
    refine ⟨_, Reader.returns_readDatum.mpr read.datum_of_here, ?_, ?_⟩
    · congr 1
      omega
    · rw [Cursor.advance_add, Cursor.advance_one, Cursor.rest_advance, inside,
        ← List.drop_drop, List.drop_left]
      rfl

/-- A datum that is commented out after another one, nested comments, and lines that end in two
ways. -/
theorem Source.read_interspersed_comments :
    ∃ pieces : List Piece, Piece.textAll pieces = "#;#;a b\n(c) #|x#||#|#;z\r\nd\t" ∧
      (Source.mk (Piece.textAll pieces) none).read {} false =
        .ok [.list [.symbol "c"], .symbol "d"] ∧
      ∃ next, (Reader.readDatum {} .code (Cursor.ofText
          (.scalar '[' :: (Piece.textAll pieces ++ [.scalar ']', .scalar 'e'])))).Returns {}
          (.list [.list [.symbol "c"], .symbol "d"], next) {} ∧
        next.rest = [.scalar 'e'] := by
  let space : Blank := ⟨.scalar ' ', by decide⟩
  let pieces : List Piece := [
    .filler (.datum [.datum [] ⟨.symbol "a", "a", rfl, rfl⟩ space] ⟨.symbol "b", "b", rfl, rfl⟩
      ⟨.lineFeed, by decide⟩),
    .datum ⟨.list [.symbol "c"], "(c)", rfl, rfl⟩ space,
    .filler (.block [.plain (.scalar 'x') (by decide) (by decide), .nested []]),
    .filler (.line "z" (Text.onOneLine_cons.mpr ⟨by decide, Text.onOneLine_nil⟩) .both),
    .datum ⟨.symbol "d", "d", rfl, rfl⟩ ⟨.scalar '\t', by decide⟩]
  obtain ⟨sources, lists⟩ := read_interspersed pieces
  obtain ⟨next, read, -, rest⟩ := lists {} {} (Cursor.ofText _) (.scalar '[') [.scalar 'e'] rfl
    (.inr rfl) rfl
  exact ⟨pieces, rfl, (sources none {} .standard).1, next, read, rest⟩

end LineDirective
