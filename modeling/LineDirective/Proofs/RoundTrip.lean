import LineDirective.Proofs.Adequacy
import LineDirective.Proofs.WellFormed
import LineDirective.Proofs.WrittenLexemes

/-!
# Writing and reading back

What is written for a well-formed datum is read as that datum, up to its last code point and no
further, in front of anything that ends a token (`Reads.of_write`). The proof goes by the structure
of the datum. Lists need one more fact: between two written items only the space is skipped, because
where a datum starts nothing else does (`Reads.startsDatum`).

A datum has a written form unless a number in it, or a symbol that is spelled like one, has too many
digits (`Datum.exists_write`).
-/

namespace LineDirective

/-! ## 1. Where a datum starts -/

/-- A datum starts a text: no whitespace, comment, closing bracket or lone dot does. -/
structure StartsDatum (t : Text) : Prop where
  visible : t.head?.any CodePoint.isBlank = false
  some_text : t ≠ []
  no_closer : t.head?.any isCloser = false
  no_comment : ∀ policy mode, startsComment policy mode t = false
  no_dot : ∀ rest, t = .scalar '.' :: rest → Text.atDelimiter rest = false

/-- The marks that start a datum. -/
theorem startsDatum_of_mark {x : CodePoint} (rest : Text)
    (mark : x ∈ [CodePoint.scalar '(', .scalar '[', .quotationMark, .scalar '|', .apostrophe,
      .graveAccent, .scalar ',']) : StartsDatum (x :: rest) := by
  have all : ∀ c ∈ [CodePoint.scalar '(', .scalar '[', .quotationMark, .scalar '|', .apostrophe,
      .graveAccent, .scalar ','], c.isBlank = false ∧ isCloser c = false ∧ c ≠ .scalar ';' ∧
        c ≠ .scalar '#' ∧ c ≠ .scalar '.' := by decide
  obtain ⟨visible, no_closer, no_semicolon, no_hash, no_dot⟩ := all x mark
  refine ⟨visible, List.cons_ne_nil x rest, no_closer,
    fun _ _ => startsComment_eq_false no_semicolon no_hash, ?_⟩
  intro more same
  cases same
  exact absurd rfl no_dot

theorem startsDatum_of_hash {y : CodePoint} (rest : Text)
    (other : y ≠ .scalar '|' ∧ y ≠ .scalar ';' ∧ y ≠ .scalar '!') :
    StartsDatum (.scalar '#' :: y :: rest) := by
  refine ⟨show CodePoint.isBlank (.scalar '#') = false by decide, List.cons_ne_nil _ _,
    show isCloser (.scalar '#') = false by decide, ?_, fun _ same => by cases same⟩
  intro policy mode
  unfold startsComment
  split
  · rename_i same
    cases same
  · rename_i same
    cases same
    exact absurd rfl other.1
  · rename_i same
    cases same
    exact absurd rfl other.2.1
  · rename_i same
    cases same
    exact absurd rfl other.2.2
  · rfl

theorem startsDatum_of_atom {fold : Bool} {t : Text} {d : Datum} {size : Nat}
    (opened : Lexeme.startsAtom t = true) (read : Lexeme.atom fold t = .ok (d, size)) :
    StartsDatum t := by
  obtain ⟨-, some_token⟩ := Lexeme.atom_size read
  cases t with
  | nil => exact absurd rfl some_token
  | cons x rest =>
    have plain : x.isDelimiter = false := by
      by_contra delimiter
      have ends : Text.atDelimiter (x :: rest) = true := Bool.of_not_eq_false delimiter
      exact some_token (Lexeme.token_of_atDelimiter ends)
    have ordinary : Lexeme.structuralInitials.contains x = false := by
      simpa [Lexeme.startsAtom] using opened
    have other : ∀ c : CodePoint, c.isDelimiter = true ∨ Lexeme.structuralInitials.contains c = true →
        x ≠ c := by
      rintro c (h | h) rfl
      · rw [plain] at h
        cases h
      · rw [ordinary] at h
        cases h
    have visible : x.isBlank = false := by
      unfold CodePoint.isDelimiter at plain
      exact (Bool.or_eq_false_iff.mp plain).1
    have no_closer : isCloser x = false := by
      simp [isCloser, other (.scalar ')') (by decide), other (.scalar ']') (by decide)]
    refine ⟨visible, List.cons_ne_nil x rest, no_closer, fun _ _ => startsComment_eq_false
      (other (.scalar ';') (by decide)) (other (.scalar '#') (by decide)), ?_⟩
    intro more same
    cases same
    by_contra lone
    -- the token would be the dot alone, which is no atom
    have dot : Lexeme.token (.scalar '.' :: rest) = ("." : Text) :=
      Lexeme.token_append (w := [.scalar '.']) (by decide) (by simpa using lone)
    unfold Lexeme.atom at read
    rw [dot] at read
    cases read

theorem Lexeme.Spells.startsDatum {fold : Bool} {t : Text} {d : Datum} {size : Nat}
    (h : Spells fold t d size) : StartsDatum t := by
  cases h with
  | string opened read =>
    cases t with
    | nil => cases opened
    | cons x rest =>
      obtain rfl : x = .quotationMark := by simpa using opened
      exact startsDatum_of_mark rest (by decide)
  | symbol opened read =>
    cases t with
    | nil => cases opened
    | cons x rest =>
      obtain rfl : x = .scalar '|' := by simpa using opened
      exact startsDatum_of_mark rest (by decide)
  | character opened read =>
    rw [opened]
    exact startsDatum_of_hash _ (by decide)
  | hash opened read =>
    obtain ⟨more, rfl⟩ := Lexeme.head_of_startsHashToken opened
    -- a word must follow the mark, and no mark of a comment is part of a word
    have some_word : Lexeme.token more ≠ [] := by
      intro nothing
      have word : Lexeme.hashToken (.scalar '#' :: more) =
          .error (.malformed (.unknownHash []) 0) := by
        unfold Lexeme.hashToken
        simp only [List.drop_succ_cons, List.drop_zero, nothing]
        rfl
      rw [word] at read
      cases read
    cases more with
    | nil => exact absurd rfl some_word
    | cons y rest =>
      apply startsDatum_of_hash
      refine ⟨?_, ?_, ?_⟩
      · rintro rfl
        exact some_word (Lexeme.token_of_atDelimiter
          (show CodePoint.isDelimiter (.scalar '|') = true by decide))
      · rintro rfl
        exact some_word (Lexeme.token_of_atDelimiter
          (show CodePoint.isDelimiter (.scalar ';') = true by decide))
      · rintro rfl
        cases opened
  | atom opened read => exact startsDatum_of_atom opened read

/-- What stands there is the head of an item. -/
theorem StartsDatum.exists_head {t : Text} (h : StartsDatum t) : ∃ x rest, t = x :: rest ∧
    isCloser x = false ∧ ¬ (x = .scalar '.' ∧ Text.atDelimiter rest = true) := by
  obtain ⟨x, rest, rfl⟩ := List.exists_cons_of_ne_nil h.some_text
  refine ⟨x, rest, rfl, h.no_closer, ?_⟩
  rintro ⟨rfl, lone⟩
  rw [h.no_dot rest rfl] at lone
  cases lone

theorem StartsDatum.follows {c : Cursor} (h : StartsDatum c.rest) :
    (c.atEnd || c.atCloser) = false := by
  have some_text := h.some_text
  have no_closer := h.no_closer
  unfold Cursor.atEnd Cursor.atCloser
  cases text : c.rest with
  | nil => exact absurd text some_text
  | cons x rest =>
    rw [text] at no_closer
    exact no_closer

variable {ctx : Context} {mode : Mode} {c next : Cursor} {s s' : ReaderState} {y : Yield}

/-- In front of anything that ends a token the text is read as the datum, and no further. -/
def IsReadAs (ctx : Context) (mode : Mode) (s : ReaderState) (w : Text) (d : Datum) : Prop :=
  ∀ (c : Cursor) (rest : Text), c.rest = w ++ rest → Text.atDelimiter rest = true →
    Reads ctx (.here mode) c s (.datum d) (c.advance w.length) s

namespace Reads

/-- Where a datum is read, nothing else starts. -/
theorem startsDatum (h : Reads ctx (.here mode) c s y next s') : StartsDatum c.rest := by
  cases h with
  | flat spelled => exact spelled.startsDatum
  | list head opener _ =>
    rw [head]
    rcases opener with rfl | rfl
    · exact startsDatum_of_mark _ (by decide)
    · exact startsDatum_of_mark _ (by decide)
  | abbreviation mark _ _ _ =>
    unfold abbreviation? at mark
    split at mark
    · rename_i same
      rw [same]
      exact startsDatum_of_mark _ (by decide)
    · rename_i same
      rw [same]
      exact startsDatum_of_mark _ (by decide)
    · rename_i same
      rw [same]
      exact startsDatum_of_mark _ (by decide)
    · rename_i same
      rw [same]
      exact startsDatum_of_mark _ (by decide)
    · cases mark
  | vector head _ =>
    rw [head]
    exact startsDatum_of_hash _ (by decide)
  | bytevector head _ _ =>
    rw [head]
    exact startsDatum_of_hash _ (by decide)

/-- In a directive a datum starts where it is looked for. -/
theorem startsDatum_here (h : Reads ctx (.datum .directive) c s y next s') : StartsDatum c.rest := by
  cases h with
  | directive read => exact read.startsDatum

/-- Nothing is skipped where a datum starts. -/
theorem clear_of_startsDatum (starts : StartsDatum c.rest) :
    Reads ctx (.atmosphere mode) c s .nothing c s :=
  .clear starts.visible (starts.no_comment _ _)

/-- A datum that starts here is a datum. -/
theorem datum_of_here {d : Datum} (h : Reads ctx (.here mode) c s (.datum d) next s') :
    Reads ctx (.datum mode) c s (.datum d) next s' := by
  cases mode with
  | code => exact .code (clear_of_startsDatum h.startsDatum) h
  | directive => exact .directive h

/-! ## 2. Items -/

/-- A space before the rest of a list is skipped. -/
theorem items_of_space {closer : CodePoint} {parts : ListParts} {rest : Text}
    (head : c.rest = .scalar ' ' :: rest)
    (h : Reads ctx (.items mode closer parts) c.next s y next s') :
    Reads ctx (.items mode closer parts) c s y next s' := by
  have blank : CodePoint.isBlank (.scalar ' ') = true := by decide
  cases h with
  | close skipped head' closes => exact .close (.blank head blank skipped) head' closes
  | dot skipped head' lone some_item skipped₂ follows read others =>
    exact .dot (.blank head blank skipped) head' lone some_item skipped₂ follows read others
  | item skipped head' open_ no_dot read others =>
    exact .item (.blank head blank skipped) head' open_ no_dot read others

/-- One more item of a list. -/
theorem items_of_here {closer : CodePoint} {items : List Datum} {d : Datum} {last : Cursor}
    {s₁ : ReaderState} (read : Reads ctx (.here mode) c s (.datum d) next s₁)
    (others : Reads ctx (.items mode closer (items ++ [d], none)) next s₁ y last s') :
    Reads ctx (.items mode closer (items, none)) c s y last s' := by
  obtain ⟨x, rest, head, open_, no_dot⟩ := read.startsDatum.exists_head
  have parts : ∃ p, y = .parts p := by cases others <;> exact ⟨_, rfl⟩
  obtain ⟨p, rfl⟩ := parts
  exact .item (clear_of_startsDatum read.startsDatum) head open_ no_dot read.datum_of_here others

/-- Written items are read one after another, each with the space before it. -/
theorem items_of_texts {closer : CodePoint} {ds : List Datum} {texts : List Text} {tail : Text}
    (ends : Text.atDelimiter tail = true)
    (each : List.Forall₂ (IsReadAs ctx mode s) texts ds)
    (before : List Datum) (here : c.rest = Text.intercalate [.scalar ' '] texts ++ tail)
    (after : Reads ctx (.items mode closer (before ++ ds, none))
      (c.advance (Text.intercalate [.scalar ' '] texts).length) s y next s') :
    Reads ctx (.items mode closer (before, none)) c s y next s' := by
  induction each generalizing before c with
  | nil =>
    rw [List.append_nil] at after
    exact after
  | @cons w d texts ds first others ih =>
    cases others with
    -- the last item is followed by the tail itself
    | nil =>
      exact items_of_here (first c tail here ends) after
    | @cons w' d' texts ds second others =>
      -- between two items stands one space
      have parts : Text.intercalate [.scalar ' '] (w :: w' :: texts) =
          w ++ .scalar ' ' :: Text.intercalate [.scalar ' '] (w' :: texts) := by
        show w ++ [.scalar ' '] ++ Text.intercalate [.scalar ' '] (w' :: texts) = _
        rw [List.append_assoc, List.singleton_append]
      rw [parts, List.append_assoc, List.cons_append] at here
      rw [parts, List.length_append, List.length_cons] at after
      refine items_of_here (first c _ here (show CodePoint.isDelimiter (.scalar ' ') = true by decide))
        ?_
      have space : (c.advance w.length).rest =
          .scalar ' ' :: (Text.intercalate [.scalar ' '] (w' :: texts) ++ tail) := by
        rw [Cursor.rest_advance, here, List.drop_left]
      apply items_of_space space
      apply ih
      · rw [Cursor.rest_next, space]
        rfl
      · rw [List.append_assoc, List.singleton_append, ← Cursor.advance_one, ← Cursor.advance_add,
          ← Cursor.advance_add]
        rw [Nat.add_comm 1]
        exact after

theorem close_after {n : Nat} {parts : ListParts} {rest : Text}
    (head : (c.advance n).rest = .scalar ')' :: rest) :
    Reads ctx (.items mode (.scalar ')') parts) (c.advance n) s (.parts parts)
      (c.advance (n + 1)) s := by
  rw [Cursor.advance_add, Cursor.advance_one]
  refine .close (.clear ?_ ?_) head (by decide)
  · rw [head]
    exact (show CodePoint.isBlank (.scalar ')') = false by decide)
  · rw [head]
    exact startsComment_eq_false (by decide) (by decide)

/-- Written items in parentheses, with a mark before the opening one. -/
theorem items_of_parenthesized {ds : List Datum} {texts : List Text}
    (each : List.Forall₂ (IsReadAs ctx mode s) texts ds) (mark : Text) {rest : Text}
    (here : c.rest = mark ++ parenthesized texts ++ rest) :
    Reads ctx (.items mode (.scalar ')') ([], none)) (c.advance (mark.length + 1)) s
      (.parts (ds, none)) (c.advance (mark ++ parenthesized texts).length) s := by
  have inside : (c.advance (mark.length + 1)).rest =
      Text.intercalate [.scalar ' '] texts ++ .scalar ')' :: rest := by
    rw [Cursor.rest_advance, here, List.append_assoc, ← List.drop_drop, List.drop_left]
    simp [parenthesized]
  have size : (mark ++ parenthesized texts).length =
      mark.length + 1 + (Text.intercalate [.scalar ' '] texts).length + 1 := by
    simp only [parenthesized, List.length_cons, List.length_append, List.length_nil]
    omega
  have ends : Text.atDelimiter (.scalar ')' :: rest) = true :=
    show CodePoint.isDelimiter (.scalar ')') = true by decide
  refine items_of_texts ends each [] inside ?_
  rw [size, ← Cursor.advance_add]
  apply close_after
  rw [Cursor.advance_add, Cursor.rest_advance, inside, List.drop_left]

/-- A written tail with the dot before it, up to the closing bracket. -/
theorem items_of_tail {items : List Datum} {d : Datum} {w rest : Text} (some_item : items ≠ [])
    (tail : IsReadAs ctx mode s w d)
    (here : c.rest = (" . " : Text) ++ w ++ .scalar ')' :: rest) :
    Reads ctx (.items mode (.scalar ')') (items, none)) c s (.parts (items, some d))
      (c.advance (3 + w.length + 1)) s := by
  have dot : c.next.rest = .scalar '.' :: .scalar ' ' :: (w ++ .scalar ')' :: rest) := by
    rw [Cursor.rest_next, here]
    rfl
  have second : c.next.next.rest = .scalar ' ' :: (w ++ .scalar ')' :: rest) := by
    rw [Cursor.rest_next, dot]
    rfl
  have third : (c.advance 3).rest = w ++ .scalar ')' :: rest := by
    rw [Cursor.rest_advance, here]
    rfl
  -- the three code points of the dot are passed one by one
  have moved : c.next.next.next = c.advance 3 := by
    rw [Cursor.advance_succ, Cursor.advance_succ, Cursor.advance_one]
  have read := tail (c.advance 3) _ third
    (show CodePoint.isDelimiter (.scalar ')') = true by decide)
  have starts := read.startsDatum
  have follows : ((c.advance 3).atEnd || (c.advance 3).atCloser) = false := by
    have some_text : (c.advance 3).atEnd = false := by
      simpa [Cursor.atEnd] using starts.some_text
    rw [some_text, Bool.false_or]
    exact starts.no_closer
  have space : c.rest = .scalar ' ' :: .scalar '.' :: .scalar ' ' :: (w ++ .scalar ')' :: rest) := by
    rw [here]
    rfl
  have skipped : Reads ctx (.atmosphere mode) c.next s .nothing c.next s := by
    refine .clear ?_ ?_
    · rw [dot]
      exact (show CodePoint.isBlank (.scalar '.') = false by decide)
    · rw [dot]
      exact startsComment_eq_false (by decide) (by decide)
  have skipped' : Reads ctx (.atmosphere mode) c.next.next s .nothing (c.advance 3) s := by
    refine .blank second (by decide) ?_
    rw [moved]
    exact clear_of_startsDatum starts
  apply items_of_space space
  refine .dot skipped dot (show CodePoint.isDelimiter (.scalar ' ') = true by decide) some_item
    skipped' follows read.datum_of_here ?_
  rw [← Cursor.advance_add c 3]
  apply close_after
  rw [Cursor.advance_add, Cursor.rest_advance, third, List.drop_left]

end Reads

/-! ## 3. Data -/

namespace Datum

/-- Whether a datum holds no other data. -/
def isWord : Datum → Bool
  | symbol _ | string _ | char _ | boolean _ | number _ => true
  | list _ | dotted _ _ | vector _ | bytes _ | foreign _ _ => false

mutual

/-- The datum with every symbol in it, at every depth, renamed. -/
def mapSymbols (f : Text → Text) : Datum → Datum
  | symbol name => symbol (f name)
  | list items => list (mapSymbolsItems f items)
  | dotted items tail => dotted (mapSymbolsItems f items) (mapSymbols f tail)
  | vector items => vector (mapSymbolsItems f items)
  | foreign kind items => foreign kind (mapSymbolsItems f items)
  | string content => string content
  | char c => char c
  | boolean b => boolean b
  | number n => number n
  | bytes elements => bytes elements

def mapSymbolsItems (f : Text → Text) : List Datum → List Datum
  | [] => []
  | d :: ds => mapSymbols f d :: mapSymbolsItems f ds

end

variable (f : Text → Text)

theorem mapSymbolsItems_eq (ds : List Datum) : mapSymbolsItems f ds = ds.map (mapSymbols f) := by
  induction ds with
  | nil => rfl
  | cons d ds ih => rw [mapSymbolsItems, ih, List.map_cons]

theorem mapSymbols_list (items : List Datum) :
    (list items).mapSymbols f = list (items.map (mapSymbols f)) :=
  congrArg list (mapSymbolsItems_eq f items)

theorem mapSymbols_vector (items : List Datum) :
    (vector items).mapSymbols f = vector (items.map (mapSymbols f)) :=
  congrArg vector (mapSymbolsItems_eq f items)

theorem mapSymbols_dotted (items : List Datum) (tail : Datum) :
    (dotted items tail).mapSymbols f = dotted (items.map (mapSymbols f)) (tail.mapSymbols f) :=
  congrArg (dotted · (tail.mapSymbols f)) (mapSymbolsItems_eq f items)

mutual

theorem mapSymbols_id (d : Datum) : d.mapSymbols id = d := by
  cases d with
  | list items => rw [mapSymbols, mapSymbolsItems_id items]
  | dotted items tail => rw [mapSymbols, mapSymbolsItems_id items, mapSymbols_id tail]
  | vector items => rw [mapSymbols, mapSymbolsItems_id items]
  | foreign kind items => rw [mapSymbols, mapSymbolsItems_id items]
  | symbol _ | string _ | char _ | boolean _ | number _ | bytes _ => rfl

theorem mapSymbolsItems_id (ds : List Datum) : mapSymbolsItems id ds = ds := by
  cases ds with
  | nil => rfl
  | cons d ds => rw [mapSymbolsItems, mapSymbols_id d, mapSymbolsItems_id ds]

end

end Datum

/-- What is written for a datum that holds no others is one spelling. -/
theorem Lexeme.spells_word {d : Datum} {w rest : Text} (word : d.isWord = true)
    (written : d.write = .ok w) (ends : Text.atDelimiter rest = true) :
    Spells false (w ++ rest) d w.length := by
  cases d with
  | symbol name => exact spells_symbol written ends
  | string content =>
    obtain rfl := Except.ok.inj written
    exact spells_string content rest
  | char c =>
    obtain rfl := Except.ok.inj written
    exact spells_character c ends
  | boolean b =>
    obtain rfl := Except.ok.inj written
    have size : (if b then ("#t" : Text) else ("#f" : Text)).length = 2 := by cases b <;> rfl
    rw [size]
    exact spells_boolean b ends
  | number n => exact spells_number written ends
  | list items => cases word
  | dotted items tail => cases word
  | vector items => cases word
  | bytes elements => cases word
  | foreign kind items => cases word

theorem isReadAs_of_spells {d : Datum} {w : Text} {fold : Bool} (folding : s.foldCase = fold)
    (spelled : ∀ rest, Text.atDelimiter rest = true →
      Lexeme.Spells fold (w ++ rest) d w.length) : IsReadAs ctx mode s w d := by
  intro c rest here ends
  have at_cursor := spelled rest ends
  rw [← here, ← folding] at at_cursor
  exact .flat at_cursor

theorem isReadAs_list {items : List Datum} {texts : List Text}
    (each : List.Forall₂ (IsReadAs ctx mode s) texts items) :
    IsReadAs ctx mode s (parenthesized texts) (.list items) := by
  intro c rest here ends
  have inside := Reads.items_of_parenthesized each [] here
  rw [List.length_nil, Nat.zero_add, Cursor.advance_one] at inside
  exact .list (by rw [here]; rfl) (.inl rfl) inside

theorem isReadAs_vector {items : List Datum} {texts : List Text}
    (each : List.Forall₂ (IsReadAs ctx mode s) texts items) :
    IsReadAs ctx mode s (.scalar '#' :: parenthesized texts) (.vector items) := by
  intro c rest here ends
  have inside := Reads.items_of_parenthesized each [.scalar '#'] here
  exact .vector (by rw [here]; rfl) inside

theorem isReadAs_bytes {items : List Datum} {texts : List Text} {elements : List UInt8}
    (each : List.Forall₂ (IsReadAs ctx mode s) texts items)
    (bytes : items.mapM byte? = some elements) :
    IsReadAs ctx mode s (.scalar '#' :: .scalar 'u' :: .scalar '8' :: parenthesized texts)
      (.bytes elements) := by
  intro c rest here ends
  have inside := Reads.items_of_parenthesized each [.scalar '#', .scalar 'u', .scalar '8'] here
  exact .bytevector (by rw [here]; rfl) inside bytes

theorem isReadAs_dotted {items : List Datum} {texts : List Text} {d : Datum} {w : Text}
    (some_item : items ≠ []) (each : List.Forall₂ (IsReadAs ctx mode s) texts items)
    (tail : IsReadAs ctx mode s w d) :
    IsReadAs ctx mode s
      (.scalar '(' :: (Text.intercalate [.scalar ' '] texts ++ (" . " : Text) ++ w ++ [.scalar ')']))
      (.dotted items d) := by
  intro c rest here ends
  have inside : c.next.rest = Text.intercalate [.scalar ' '] texts ++
      ((" . " : Text) ++ w ++ .scalar ')' :: rest) := by
    rw [Cursor.rest_next, here]
    simp
  have after : (c.next.advance (Text.intercalate [.scalar ' '] texts).length).rest =
      (" . " : Text) ++ w ++ .scalar ')' :: rest := by
    rw [Cursor.rest_advance, inside, List.drop_left]
  have ends' : Text.atDelimiter ((" . " : Text) ++ w ++ .scalar ')' :: rest) = true :=
    show CodePoint.isDelimiter (.scalar ' ') = true by decide
  have read := Reads.items_of_texts ends' each [] inside
    (Reads.items_of_tail some_item tail after)
  -- the bracket, the items and the tail add up to the whole text
  have moved : (c.next.advance (Text.intercalate [.scalar ' '] texts).length).advance
      (3 + w.length + 1) =
        c.advance (1 + ((Text.intercalate [.scalar ' '] texts).length + (3 + w.length + 1))) := by
    rw [← Cursor.advance_add, ← Cursor.advance_one, ← Cursor.advance_add]
  rw [moved] at read
  have size : (CodePoint.scalar '(' :: (Text.intercalate [.scalar ' '] texts ++ (" . " : Text) ++ w ++
      [.scalar ')'])).length =
        1 + ((Text.intercalate [.scalar ' '] texts).length + (3 + w.length + 1)) := by
    have dot : (" . " : Text).length = 3 := rfl
    simp only [List.length_cons, List.length_append, List.length_nil, dot]
    omega
  rw [size]
  exact .list (by rw [here]; rfl) (.inl rfl) read

theorem write_byte (b : UInt8) :
    (Number.integer b.toNat).write = .ok (Text.ofNat b.toNat) := by
  have small : b.toNat < 10 ^ 3 := by
    have := b.toNat_lt
    omega
  have short : (Text.ofNat b.toNat).length ≤ maxDecimalDigits :=
    Nat.le_trans ((Text.length_ofNat_le_iff _ (by decide)).mpr small) (by decide)
  exact Number.writeInteger_eq_ok.mpr ⟨short, rfl⟩

theorem byte?_toNat (b : UInt8) : byte? (.integer b.toNat) = some b := by
  have small := b.toNat_lt
  have within : (0 : Int) ≤ b.toNat ∧ (b.toNat : Int) ≤ 255 := by omega
  rw [byte?, if_pos within, Int.toNat_natCast, UInt8.ofNat_toNat]

theorem mapM_byte? (elements : List UInt8) :
    (elements.map fun b => Datum.integer b.toNat).mapM byte? = some elements := by
  induction elements with
  | nil => rfl
  | cons b rest ih =>
    rw [List.map_cons, List.mapM_cons, byte?_toNat, ih]
    rfl

section Written

variable {rename : Text → Text}

theorem isReadAs_bytes_written
    (words : ∀ {d : Datum} {w : Text}, d.isWord = true → d.write = .ok w →
      IsReadAs ctx mode s w (d.mapSymbols rename)) (elements : List UInt8) :
    List.Forall₂ (IsReadAs ctx mode s) (elements.map fun b => Text.ofNat b.toNat)
      (elements.map fun b => Datum.integer b.toNat) := by
  induction elements with
  | nil => exact .nil
  | cons b rest ih => exact .cons (words (d := .integer b.toNat) rfl (write_byte b)) ih

mutual

/-- Where the written words are read as data with their symbols renamed, so are all written data. -/
theorem isReadAs_mapSymbols
    (words : ∀ {d : Datum} {w : Text}, d.isWord = true → d.write = .ok w →
      IsReadAs ctx mode s w (d.mapSymbols rename)) (d : Datum) {w : Text}
    (formed : d.wellFormed = true) (written : d.write = .ok w) :
    IsReadAs ctx mode s w (d.mapSymbols rename) := by
  cases d with
  | symbol name => exact words rfl written
  | string content => exact words rfl written
  | char c => exact words rfl written
  | boolean b => exact words rfl written
  | number n => exact words rfl written
  | list items =>
    obtain ⟨texts, each, same⟩ := bind_eq_ok.mp written
    obtain rfl := Except.ok.inj same
    rw [Datum.mapSymbols_list]
    exact isReadAs_list (isReadAs_mapSymbolsItems words items formed each)
  | dotted items tail =>
    obtain ⟨texts, each, rest⟩ := bind_eq_ok.mp written
    obtain ⟨last, final, same⟩ := bind_eq_ok.mp rest
    obtain rfl := Except.ok.inj same
    simp only [Datum.wellFormed, Bool.and_eq_true, Bool.not_eq_true'] at formed
    obtain ⟨⟨some_item, formed_items⟩, formed_tail⟩ := formed
    rw [Datum.mapSymbols_dotted]
    exact isReadAs_dotted (by simpa using some_item)
      (isReadAs_mapSymbolsItems words items formed_items each)
      (isReadAs_mapSymbols words tail formed_tail final)
  | vector items =>
    obtain ⟨texts, each, same⟩ := bind_eq_ok.mp written
    obtain rfl := Except.ok.inj same
    rw [Datum.mapSymbols_vector]
    exact isReadAs_vector (isReadAs_mapSymbolsItems words items formed each)
  | bytes elements =>
    obtain rfl := Except.ok.inj written
    exact isReadAs_bytes (isReadAs_bytes_written words elements) (mapM_byte? elements)
  | foreign kind items => cases formed

theorem isReadAs_mapSymbolsItems
    (words : ∀ {d : Datum} {w : Text}, d.isWord = true → d.write = .ok w →
      IsReadAs ctx mode s w (d.mapSymbols rename)) (ds : List Datum) {texts : List Text}
    (formed : Datum.wellFormedItems ds = true) (written : Datum.writeItems ds = .ok texts) :
    List.Forall₂ (IsReadAs ctx mode s) texts (ds.map (Datum.mapSymbols rename)) := by
  cases ds with
  | nil =>
    obtain rfl := Except.ok.inj written
    exact .nil
  | cons d ds =>
    obtain ⟨w, first, rest⟩ := bind_eq_ok.mp written
    obtain ⟨ws, others, same⟩ := bind_eq_ok.mp rest
    obtain rfl := Except.ok.inj same
    simp only [Datum.wellFormedItems, Bool.and_eq_true] at formed
    exact .cons (isReadAs_mapSymbols words d formed.1 first)
      (isReadAs_mapSymbolsItems words ds formed.2 others)

end

end Written

/-- What is written for a well-formed datum is read as the datum. -/
theorem isReadAs_of_write (unfolded : s.foldCase = false) (d : Datum) {w : Text}
    (formed : d.wellFormed = true) (written : d.write = .ok w) : IsReadAs ctx mode s w d := by
  have words {d : Datum} {w : Text} (word : d.isWord = true) (written : d.write = .ok w) :
      IsReadAs ctx mode s w (d.mapSymbols id) := by
    rw [Datum.mapSymbols_id]
    exact isReadAs_of_spells unfolded fun _ ends => Lexeme.spells_word word written ends
  have read := isReadAs_mapSymbols words d formed written
  rwa [Datum.mapSymbols_id] at read

/-! ## 4. Data that can be written -/

/-- The texts that spell an integer or a ratio, with the runs of digits in them. -/
inductive Number.SpelledExactly : Text → List Text → Prop
  | integer {sign digits : Text} (signed : sign ∈ [[], [.scalar '+'], [.scalar '-']])
      (whole : isDigits digits = true) : SpelledExactly (sign ++ digits) [digits]
  | ratio {sign numerator denominator : Text} (signed : sign ∈ [[], [.scalar '+'], [.scalar '-']])
      (above : isDigits numerator = true) (below : isDigits denominator = true) :
      SpelledExactly (sign ++ (numerator ++ .scalar '/' :: denominator)) [numerator, denominator]

/-- The spellings of integers and ratios that have no value: a ratio over zero, and a run of more
digits than are converted. -/
inductive Number.Valueless : Text → Fault → Prop
  | overZero {token numerator denominator : Text} {n : Int}
      (spelled : SpelledExactly token [numerator, denominator])
      (zero : digitsValue denominator = 0) : Valueless token (.zeroDenominator n)
  | overlong {token digits : Text} {runs : List Text} (spelled : SpelledExactly token runs)
      (mem : digits ∈ runs) (long : maxDecimalDigits < digits.length) :
      Valueless token (.numeralTooLong digits.length)

namespace Datum

/-- The integers with no more digits than may be read. -/
def ShortInteger (n : Int) : Prop := n.natAbs < 10 ^ maxDecimalDigits

mutual

/-- No integer in a datum, no part of a ratio and no symbol that is spelled like one of them has too
many digits. -/
def WithinDigitLimit : Datum → Prop
  | symbol name => ∀ runs, Number.SpelledExactly name runs →
    ∀ digits ∈ runs, digits.length ≤ maxDecimalDigits
  | number (.integer n) => ShortInteger n
  | number (.ratio q) => ShortInteger q.num ∧ ShortInteger q.den
  | list items | vector items => WithinDigitLimitItems items
  | dotted items tail => WithinDigitLimitItems items ∧ WithinDigitLimit tail
  | number (.real _) | string _ | char _ | boolean _ | bytes _ | foreign _ _ => True

def WithinDigitLimitItems : List Datum → Prop
  | [] => True
  | d :: ds => WithinDigitLimit d ∧ WithinDigitLimitItems ds

end

theorem writeInteger_of_short {n : Int} (short : ShortInteger n) :
    writeInteger n = .ok (Text.ofInt n) :=
  Number.writeInteger_eq_ok.mpr ⟨(Text.length_ofNat_le_iff _ (by decide)).mpr short, rfl⟩

end Datum

theorem IntegerLiteral.eq_append_of_splitSign {t body : Text} {negative : Bool}
    (h : splitSign t = (negative, body)) :
    ∃ sign ∈ [[], [CodePoint.scalar '+'], [CodePoint.scalar '-']], t = sign ++ body := by
  unfold splitSign at h
  split at h
  · cases h
    exact ⟨[.scalar '-'], by decide, rfl⟩
  · cases h
    exact ⟨[.scalar '+'], by decide, rfl⟩
  · cases h
    exact ⟨[], by decide, rfl⟩

namespace Number

theorem integerOf_eq_error {negative : Bool} {digits : Text} {fault : Fault}
    (h : integerOf negative digits = .error fault) :
    maxDecimalDigits < digits.length ∧ fault = .numeralTooLong digits.length := by
  unfold integerOf at h
  split at h
  · rename_i long
    cases h
    exact ⟨long, rfl⟩
  · cases h

theorem digitsValue_eq_zero {digits : Text} (h : integerOf false digits = .ok 0) :
    digitsValue digits = 0 := by
  unfold integerOf at h
  split at h
  · cases h
  · simpa [IntegerLiteral.signed] using h

theorem Valueless.tooLong {token digits : Text} {runs : List Text} {negative : Bool} {fault : Fault}
    (spelled : SpelledExactly token runs) (mem : digits ∈ runs)
    (failed : integerOf negative digits = .error fault) : Valueless token fault := by
  obtain ⟨long, rfl⟩ := integerOf_eq_error failed
  exact .overlong spelled mem long

/-- The two ways in which a token can fail to denote anything: over zero, or with too many digits. -/
theorem parse_eq_error {token : Text} {fault : Fault} (h : parse token = .error fault) :
    Valueless token fault := by
  unfold parse at h
  split at h
  · cases h
  · obtain ⟨negative, body, split⟩ : ∃ negative body,
      IntegerLiteral.splitSign token = (negative, body) := ⟨_, _, rfl⟩
    obtain ⟨sign, signed, rfl⟩ := IntegerLiteral.eq_append_of_splitSign split
    simp only [split] at h
    have parts : body.takeWhile CodePoint.isDecimalDigit ++
        body.dropWhile CodePoint.isDecimalDigit = body := List.takeWhile_append_dropWhile
    have all_digits : (body.takeWhile CodePoint.isDecimalDigit).all
        CodePoint.isDecimalDigit = true := List.all_takeWhile
    -- three shapes are left: digits alone, digits over digits, and anything else
    generalize body.takeWhile CodePoint.isDecimalDigit = whole at h parts all_digits
    split at h
    · rename_i none_left
      rw [none_left, List.append_nil] at parts
      subst parts
      split at h
      · cases h
      · rename_i some_digit
        have digits : isDigits whole = true :=
          isDigits_iff.mpr ⟨Bool.eq_false_iff.mpr some_digit, all_digits⟩
        cases value : integerOf negative whole with
        | ok n => rw [value] at h; cases h
        | error failed =>
          rw [value] at h
          cases h
          exact .tooLong (.integer signed digits) (by simp) value
    · rename_i denominator left
      rw [left] at parts
      subst parts
      split at h
      · rename_i both
        simp only [Bool.and_eq_true, Bool.not_eq_true'] at both
        have spelled : SpelledExactly (sign ++ (whole ++ .scalar '/' :: denominator))
            [whole, denominator] :=
          .ratio signed (isDigits_iff.mpr ⟨both.1, all_digits⟩) both.2
        unfold ratioOf at h
        -- either part may have too many digits, and the denominator may be zero
        cases above : integerOf negative whole with
        | error failed =>
          rw [above] at h
          cases h
          exact .tooLong spelled (by simp) above
        | ok n =>
          cases below : integerOf false denominator with
          | error failed =>
            rw [above, below] at h
            cases h
            exact .tooLong spelled (by simp) below
          | ok d =>
            rw [above, below] at h
            simp only [bind, Except.bind] at h
            split at h
            · rename_i zero
              cases h
              exact .overZero spelled (digitsValue_eq_zero (zero ▸ below))
            · cases h
      · cases h
    · cases h

end Number

theorem exists_writeSymbol {name : Text} (short : (Datum.symbol name).WithinDigitLimit) :
    ∃ w, writeSymbol name = .ok w := by
  have decided : ∃ barred, needsBars name = .ok barred := by
    unfold needsBars
    split
    · exact ⟨_, rfl⟩
    · split
      · exact ⟨_, rfl⟩
      · split
        · exact ⟨_, rfl⟩
        · split
          · exact ⟨_, rfl⟩
          · exact ⟨_, rfl⟩
          · rename_i fault other parsed
            -- a zero denominator is asked about, too many digits are excluded
            cases Number.parse_eq_error parsed with
            | @overZero _ _ n _ _ => exact absurd rfl (other n)
            | overlong spelled mem long =>
              have := short _ spelled _ mem
              omega
  obtain ⟨barred, decided⟩ := decided
  unfold writeSymbol
  rw [decided]
  cases barred with
  | true => exact ⟨_, rfl⟩
  | false => exact ⟨_, rfl⟩

mutual

/-- A well-formed datum within the limit has a written form. -/
theorem Datum.exists_write (d : Datum) (formed : d.wellFormed = true)
    (short : d.WithinDigitLimit) : ∃ w, d.write = .ok w := by
  cases d with
  | symbol name => exact exists_writeSymbol short
  | string content => exact ⟨_, rfl⟩
  | char c => exact ⟨_, rfl⟩
  | boolean b => exact ⟨_, rfl⟩
  | number n =>
    cases n with
    | integer n => exact ⟨_, writeInteger_of_short short⟩
    | ratio q =>
      refine ⟨Text.ofInt q.num ++ .scalar '/' :: Text.ofInt q.den, ?_⟩
      show (Number.ratio q).write = _
      rw [Number.write, writeInteger_of_short short.1, writeInteger_of_short short.2]
      rfl
    | real x => exact ⟨_, rfl⟩
  | list items =>
    obtain ⟨texts, written⟩ := Datum.exists_writeItems items formed short
    rw [Datum.write, written]
    exact ⟨_, rfl⟩
  | dotted items tail =>
    simp only [Datum.wellFormed, Bool.and_eq_true] at formed
    obtain ⟨texts, written⟩ := Datum.exists_writeItems items formed.1.2 short.1
    obtain ⟨last, final⟩ := Datum.exists_write tail formed.2 short.2
    rw [Datum.write, written, final]
    exact ⟨_, rfl⟩
  | vector items =>
    obtain ⟨texts, written⟩ := Datum.exists_writeItems items formed short
    rw [Datum.write, written]
    exact ⟨_, rfl⟩
  | bytes elements => exact ⟨_, rfl⟩
  | foreign kind items => cases formed

theorem Datum.exists_writeItems (ds : List Datum) (formed : Datum.wellFormedItems ds = true)
    (short : Datum.WithinDigitLimitItems ds) : ∃ texts, Datum.writeItems ds = .ok texts := by
  cases ds with
  | nil => exact ⟨_, rfl⟩
  | cons d ds =>
    simp only [Datum.wellFormedItems, Bool.and_eq_true] at formed
    obtain ⟨w, first⟩ := Datum.exists_write d formed.1 short.1
    obtain ⟨ws, others⟩ := Datum.exists_writeItems ds formed.2 short.2
    rw [Datum.writeItems, first, others]
    exact ⟨_, rfl⟩

end

/-! ## 5. The round trip -/

/-- In the text `w ++ rest` the reader takes the datum off the front and stops before `rest`. -/
theorem IsReadAs.readDatum {w rest : Text} {d : Datum} (h : IsReadAs ctx mode s w d)
    (ends : Text.atDelimiter rest = true) :
    ∃ next, (Reader.readDatum ctx mode (Cursor.ofText (w ++ rest))).Returns s (d, next) s ∧
      next.rest = rest ∧ next.position.offset = w.length := by
  have read := h (Cursor.ofText (w ++ rest)) rest rfl ends
  refine ⟨_, Reader.returns_readDatum.mpr read.datum_of_here, ?_, ?_⟩
  · rw [Cursor.rest_advance]
    exact List.drop_left
  · have inside : min w.length (w ++ rest).length = w.length := by
      rw [List.length_append]
      omega
    rw [Cursor.offset_advance]
    show (0 : Int) + (min w.length (w ++ rest).length : Nat) = w.length
    rw [inside, Int.zero_add]

theorem Number.SpelledExactly.length_le {name : Text} {runs : List Text}
    (h : SpelledExactly name runs) : ∀ digits ∈ runs, digits.length ≤ name.length := by
  cases h with
  | integer signed whole => simp
  | ratio signed above below =>
    simp only [List.mem_cons, List.not_mem_nil, or_false, forall_eq_or_imp, forall_eq,
      List.length_append, List.length_cons]
    omega

/-- A short name is within the limit whatever it spells. -/
theorem Datum.withinDigitLimit_symbol {name : Text} (short : name.length ≤ maxDecimalDigits) :
    (Datum.symbol name).WithinDigitLimit :=
  fun _ spelled digits mem => Nat.le_trans (spelled.length_le digits mem) short

/-- The reader returns well-formed data only, and every well-formed datum within the digit limit is
read back from what is written for it, up to the first code point that is not its own. That a
character is one code point, that bytes are below 256 and that ratios are in lowest terms is part of
the types. -/
theorem Datum.read_back_written :
    (∀ (ctx : Context) (mode : Mode) (c next : Cursor) (s s' : ReaderState) (d : Datum),
      (Reader.readDatum ctx mode c).Returns s (d, next) s' → d.wellFormed = true) ∧
    (∀ d : Datum, d.wellFormed = true → d.WithinDigitLimit →
      ∃ w, d.write = .ok w ∧
        ∀ (ctx : Context) (mode : Mode) (s : ReaderState) (rest : Text), s.foldCase = false →
          Text.atDelimiter rest = true →
          ∃ next, (Reader.readDatum ctx mode (Cursor.ofText (w ++ rest))).Returns s (d, next) s ∧
            next.rest = rest ∧ next.position.offset = w.length) := by
  constructor
  · intro ctx mode c next s s' d returned
    exact Reader.wellFormed_of_readDatum returned
  · intro d formed short
    obtain ⟨w, written⟩ := d.exists_write formed short
    refine ⟨w, written, ?_⟩
    intro ctx mode s rest unfolded ends
    exact (isReadAs_of_write unfolded d formed written).readDatum ends

/-- A symbol spelled like a ratio, a whole ratio, a closing bracket as a character and a string with
a line break, before a closing bracket. -/
theorem Datum.read_back_written_dotted :
    ∃ d : Datum, d = .dotted [.symbol "1/2", .number (.ratio 2), .char (.scalar ')')]
        (.vector [.string "a\n", .number (.real (.zero true))]) ∧
      d.wellFormed = true ∧ d.WithinDigitLimit ∧
      ∃ w next, d.write = .ok w ∧
        (Reader.readDatum {} .directive (Cursor.ofText (w ++ [.scalar ')']))).Returns {} (d, next) {} ∧
        next.rest = [.scalar ')'] ∧ next.position.offset = w.length := by
  refine ⟨_, rfl, ?_⟩
  have formed : (Datum.dotted [.symbol "1/2", .number (.ratio 2), .char (.scalar ')')]
      (.vector [.string "a\n", .number (.real (.zero true))])).wellFormed = true := by decide
  have two : ShortInteger 2 ∧ ShortInteger 1 := by
    have large : 10 ^ 1 ≤ 10 ^ maxDecimalDigits := Nat.pow_le_pow_right (by decide) (by decide)
    unfold ShortInteger
    omega
  have short : (Datum.dotted [.symbol "1/2", .number (.ratio 2), .char (.scalar ')')]
      (.vector [.string "a\n", .number (.real (.zero true))])).WithinDigitLimit :=
    ⟨⟨withinDigitLimit_symbol (by decide), two, trivial, trivial⟩, trivial, trivial, trivial⟩
  obtain ⟨w, written, back⟩ := read_back_written.2 _ formed short
  obtain ⟨next, returned, rest, offset⟩ := back {} .directive {} [.scalar ')'] rfl (by decide)
  exact ⟨read_back_written.1 _ _ _ _ _ _ _ returned, short, w, next, written, returned, rest, offset⟩

end LineDirective
