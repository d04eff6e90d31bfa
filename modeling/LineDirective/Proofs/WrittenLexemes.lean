import LineDirective.Proofs.Reals
import LineDirective.Proofs.Spelling

/-!
# Reading written lexemes back

A datum without nested data is written as one lexeme, and in front of anything that ends a token the
reader takes exactly this lexeme off the text (`Lexeme.spells_of_write`). Each kind needs its own
reason: an escape stands for the code point it was written for, a number keeps to an alphabet
without delimiters, and a symbol goes without bars only if its name is read as nothing else.

Nothing that is written breaks a line (`Datum.no_newline_of_write`).
-/

namespace LineDirective

/-! ## 1. Hexadecimal numerals -/

theorem CodePoint.toNat_lt (c : CodePoint) : c.toNat < 0x110000 := by
  cases c with
  | scalar c =>
    have valid : c.toNat.isValidChar := c.valid
    show c.toNat < 0x110000
    simp only [Nat.isValidChar] at valid
    omega
  | surrogate index =>
    have small := index.isLt
    show 0xD800 + index.val < 0x110000
    omega

theorem IntegerLiteral.asciiForm_digit {d : Nat} (small : d < 16) :
    asciiForm (Text.digit d) = Text.digit d := by
  interval_cases d <;> decide

theorem Text.map_asciiForm_numeral (n : Nat) :
    (Text.numeral 16 n).map IntegerLiteral.asciiForm = Text.numeral 16 n := by
  have same : ∀ c ∈ Text.numeral 16 n, IntegerLiteral.asciiForm c = id c := by
    intro c mem
    obtain ⟨d, small, rfl⟩ := mem_numeral (by decide) mem
    exact IntegerLiteral.asciiForm_digit small
  rw [List.map_congr_left same, List.map_id]

theorem IntegerLiteral.groupedDigits?_map_digit (values : List Nat)
    (small : ∀ d ∈ values, d < 16) (afterDigit : Bool) (some_digit : afterDigit = true ∨ values ≠ []) :
    groupedDigits? 16 afterDigit (values.map Text.digit) = some values := by
  induction values generalizing afterDigit with
  | nil =>
    rcases some_digit with rfl | impossible
    · rfl
    · exact absurd rfl impossible
  | cons d rest ih =>
    have first : d < 16 := small d (List.mem_cons_self ..)
    have others := ih (fun x mem => small x (List.mem_cons_of_mem d mem)) true (.inl rfl)
    have value : digitBelow? 16 (Text.digit d) = some d := by
      simp [digitBelow?, CodePoint.asciiDigit?_digit first, first]
    rw [List.map_cons, groupedDigits?, value, others]
    rfl

/-- A hexadecimal numeral has neither a sign nor a mark of its base. -/
theorem IntegerLiteral.parse?_numeral (n : Nat) :
    parse? 16 (Text.numeral 16 n) = some (n : Int) := by
  have hex : ∀ c ∈ Text.numeral 16 n, ∃ d, d < 16 ∧ c = Text.digit d :=
    fun c mem => Text.mem_numeral (by decide) mem
  have plain : splitSign (Text.numeral 16 n) = (false, Text.numeral 16 n) := by
    generalize Text.numeral 16 n = t at hex
    unfold splitSign
    split
    · obtain ⟨d, small, same⟩ := hex (.scalar '-') (List.mem_cons_self ..)
      exact absurd same (by interval_cases d <;> decide)
    · obtain ⟨d, small, same⟩ := hex (.scalar '+') (List.mem_cons_self ..)
      exact absurd same (by interval_cases d <;> decide)
    · rfl
  have unmarked : dropMark 16 (Text.numeral 16 n) = Text.numeral 16 n := by
    generalize Text.numeral 16 n = t at hex
    unfold dropMark
    split
    · rename_i letter rest
      obtain ⟨d, small, rfl⟩ := hex letter (List.mem_cons_of_mem _ (List.mem_cons_self ..))
      have digit : isMarkLetter 16 (Text.digit d) = false := by interval_cases d <;> decide
      rw [digit, if_neg Bool.false_ne_true]
    · rfl
  have digits := groupedDigits?_map_digit (numeralDigits 16 n)
    (fun d mem => lt_of_mem_numeralDigits (by decide) n mem) false
    (.inr (numeralDigits_ne_nil (by decide) n))
  unfold parse?
  rw [Text.map_asciiForm_numeral]
  simp only [plain, unmarked]
  rw [Text.numeral, digits]
  simp only [Option.map_some, numeralValue_numeralDigits (show 2 ≤ 16 by decide)]
  rfl

/-- A code point is found by the hexadecimal numeral of its number. -/
theorem Lexeme.hexCodePoint_numeral (c : CodePoint) :
    hexCodePoint (Text.numeral 16 c.toNat) = .ok (some c) := by
  have small := c.toNat_lt
  unfold hexCodePoint
  rw [IntegerLiteral.parse?_numeral]
  show codePointOf c.toNat = _
  rw [codePointOf, if_neg (by omega), if_neg (by omega), Int.toNat_natCast, CodePoint.ofNat?_toNat]

/-! ## 2. Tokens -/

theorem plain_of_mem_numeral {n : Nat} {c : CodePoint} (h : c ∈ Text.numeral 16 n) :
    c.isDelimiter = false := by
  obtain ⟨d, small, rfl⟩ := Text.mem_numeral (by decide) h
  interval_cases d <;> decide

/-- A token stops where a delimiter follows. -/
theorem Lexeme.token_append {w rest : Text} (plain : ∀ c ∈ w, c.isDelimiter = false)
    (ends : Text.atDelimiter rest = true) : token (w ++ rest) = w := by
  have inside : ∀ c ∈ w, (!c.isDelimiter) = true := by
    intro c mem
    rw [plain c mem]
    rfl
  have stops : rest.takeWhile (fun c => !c.isDelimiter) = [] := by
    cases rest with
    | nil => rfl
    | cons c more =>
      have delimiter : c.isDelimiter = true := ends
      simp [delimiter]
  rw [token, List.takeWhile_append_of_pos inside, stops, List.append_nil]

theorem Lexeme.token_of_atDelimiter {rest : Text} (ends : Text.atDelimiter rest = true) :
    token rest = [] := token_append (w := []) (by simp) ends

/-! ## 3. Quoted forms -/

namespace Lexeme

/-- The code points of an escape that has been read are passed over. -/
theorem quotedFrom_skip (q : Quotation) (start : Nat) (escaped rest : Text) :
    quotedFrom q escaped.length start (escaped ++ rest) =
      quotedFrom q 0 (start + escaped.length) rest := by
  induction escaped generalizing start with
  | nil => rfl
  | cons c escaped ih =>
    rw [List.length_cons, List.cons_append, quotedFrom, ih]
    congr 1
    omega

theorem quotedFrom_backslash {q : Quotation} {start : Nat} {c : CodePoint} {escaped rest : Text}
    (means : escape q start (escaped ++ rest) = .ok (some c, escaped.length)) :
    quotedFrom q 0 start (.backslash :: (escaped ++ rest)) =
      (quotedFrom q 0 (start + (escaped.length + 1)) rest).map fun (content, size) =>
        (c :: content, size) := by
  have no_mark : CodePoint.backslash ≠ q.mark := by cases q <;> decide
  rw [quotedFrom, if_neg no_mark, if_pos rfl, means]
  simp only [quotedFrom_skip, Option.toList_some, List.singleton_append]
  congr 2
  omega

theorem simpleEscape?_of_written {c letter : CodePoint}
    (h : writtenEscapes.lookup c = some letter) : simpleEscape? letter = some c := by
  have all : ∀ entry ∈ writtenEscapes, simpleEscape? entry.2 = some entry.1 := by decide
  obtain ⟨before, after, parts, -⟩ := List.lookup_eq_some_iff.mp h
  exact all (c, letter) (by rw [parts]; simp)

theorem escape_of_simple {q : Quotation} {start : Nat} {letter c : CodePoint} {rest : Text}
    (h : simpleEscape? letter = some c) :
    escape q start ([letter] ++ rest) = .ok (some c, [letter].length) := by
  show escape q start (letter :: rest) = _
  rw [escape, h]
  rfl

theorem escape_hex (q : Quotation) (start : Nat) (c : CodePoint) (rest : Text) :
    escape q start ((.scalar 'x' :: (Text.numeral 16 c.toNat ++ [.scalar ';'])) ++ rest) =
      .ok (some c, (.scalar 'x' :: (Text.numeral 16 c.toNat ++ [.scalar ';'])).length) := by
  have other : simpleEscape? (.scalar 'x') = none := by decide
  have digits : token (Text.numeral 16 c.toNat ++ .scalar ';' :: rest) =
      Text.numeral 16 c.toNat :=
    token_append (fun _ => plain_of_mem_numeral)
      (show CodePoint.isDelimiter (.scalar ';') = true by decide)
  rw [List.cons_append, List.append_assoc, List.singleton_append, escape, other]
  simp only [digits, List.drop_left, List.head?_cons, hexCodePoint_numeral, if_true, ne_eq,
    not_true_eq_false, if_false, List.length_cons, List.length_append, List.length_nil]

/-- One written code point between quote marks is read as itself. -/
theorem quotedFrom_escapeCodePoint (q : Quotation) (start : Nat) (c : CodePoint) (rest : Text) :
    quotedFrom q 0 start (escapeCodePoint q.mark c ++ rest) =
      (quotedFrom q 0 (start + (escapeCodePoint q.mark c).length) rest).map
        fun (content, size) => (c :: content, size) := by
  unfold escapeCodePoint
  split
  · rename_i letter found
    exact quotedFrom_backslash (escape_of_simple (simpleEscape?_of_written found))
  · rename_i absent
    split
    · rename_i same
      have itself : simpleEscape? q.mark = some q.mark := by cases q <;> decide
      rw [same]
      exact quotedFrom_backslash (escape_of_simple itself)
    · rename_i no_mark
      split
      · have no_backslash : c ≠ .backslash := by
          rintro rfl
          exact absurd absent (by decide)
        show quotedFrom q 0 start (c :: rest) = _
        rw [quotedFrom, if_neg no_mark, if_neg no_backslash]
        rfl
      -- what is not shown is written by its number
      · exact quotedFrom_backslash (escape_hex q start c rest)

/-- A written text and the closing mark are read as the text. -/
theorem quotedFrom_escape (q : Quotation) (start : Nat) (content rest : Text) :
    quotedFrom q 0 start (Text.escape q.mark content ++ q.mark :: rest) =
      .ok (content, start + (Text.escape q.mark content).length + 1) := by
  induction content generalizing start with
  | nil =>
    show quotedFrom q 0 start (q.mark :: rest) = _
    rw [quotedFrom, if_pos rfl]
    rfl
  | cons c content ih =>
    have split : Text.escape q.mark (c :: content) =
        escapeCodePoint q.mark c ++ Text.escape q.mark content := List.flatMap_cons
    rw [split, List.append_assoc, quotedFrom_escapeCodePoint, ih]
    simp only [Except.map, List.length_append]
    congr 2
    omega

/-- A quoted form is read as what was written between its marks. -/
theorem quoted_written (q : Quotation) (content rest : Text) :
    quoted q (q.mark :: (Text.escape q.mark content ++ [q.mark]) ++ rest) =
      .ok (content, (q.mark :: (Text.escape q.mark content ++ [q.mark])).length) := by
  have read := quotedFrom_escape q 1 content rest
  unfold quoted
  rw [List.cons_append, List.drop_one, List.tail_cons, List.append_assoc, List.singleton_append,
    read]
  simp only [List.length_cons, List.length_append, List.length_nil]
  congr 2
  omega

/-! ## 4. Characters -/

theorem named_of_characterName? {c : CodePoint} {name : Text} (h : characterName? c = some name) :
    namedCharacter? name = some c ∧ 2 ≤ name.length ∧ ∀ x ∈ name, x.isDelimiter = false := by
  have all : ∀ entry ∈ characterNames, namedCharacter? entry.1 = some entry.2 ∧
      2 ≤ entry.1.length ∧ ∀ x ∈ entry.1, x.isDelimiter = false := by decide
  obtain ⟨⟨name', c'⟩, found, rfl⟩ := Option.map_eq_some_iff.mp h
  have same : c' = c := by simpa using List.find?_some found
  have facts := all _ (List.mem_of_find?_eq_some found)
  rw [same] at facts
  exact facts

/-- A written character is read as itself: by its name, alone before a delimiter, or by its number. -/
theorem character_written (c : CodePoint) {rest : Text} (ends : Text.atDelimiter rest = true) :
    character false (writeCharacter c ++ rest) = .ok (c, (writeCharacter c).length) := by
  unfold writeCharacter
  split
  · rename_i name found
    obtain ⟨named, long, plain⟩ := named_of_characterName? found
    match name, named, long, plain with
    | first :: second :: more, named, _, plain =>
      have word : token ((second :: more) ++ rest) = second :: more :=
        token_append (fun x mem => plain x (List.mem_cons_of_mem first mem)) ends
      show character false (.scalar '#' :: .backslash :: first :: ((second :: more) ++ rest)) = _
      unfold character
      simp only [List.drop_succ_cons, List.drop_zero, word]
      rw [if_neg (by simp), if_neg Bool.false_ne_true, named]
      rfl
  · split
    · show character false (.scalar '#' :: .backslash :: c :: rest) = _
      unfold character
      simp only [List.drop_succ_cons, List.drop_zero, token_of_atDelimiter ends]
      rfl
    · have word : token (Text.numeral 16 c.toNat ++ rest) = Text.numeral 16 c.toNat :=
        token_append (fun _ => plain_of_mem_numeral) ends
      -- no name of a character starts with the letter before the digits
      have unnamed : namedCharacter? (.scalar 'x' :: Text.numeral 16 c.toNat) = none := by
        have initials : ∀ entry ∈ characterNames, entry.1.head? ≠ some (.scalar 'x') := by decide
        rw [namedCharacter?, List.lookup_eq_none_iff]
        intro entry mem
        have other : CodePoint.scalar 'x' :: Text.numeral 16 c.toNat ≠ entry.1 := by
          intro same
          exact initials entry mem (by rw [← same]; rfl)
        simpa using other
      have hex := hexCodePoint_numeral c
      have some_digit : Text.numeral 16 c.toNat ≠ [] := Text.numeral_ne_nil (by decide) _
      show character false
        (.scalar '#' :: .backslash :: .scalar 'x' :: (Text.numeral 16 c.toNat ++ rest)) = _
      unfold character
      simp only [List.drop_succ_cons, List.drop_zero, word]
      rw [if_neg some_digit, if_neg Bool.false_ne_true, unnamed]
      simp only [hex]
      rfl

end Lexeme

/-! ## 5. Numbers -/

/-- The code points that occur in written numbers. -/
def Number.alphabet : Text := "+-./0123456789aefin"

namespace Number

theorem mem_alphabet_of_mem_ofNat {n : Nat} {c : CodePoint} (h : c ∈ Text.ofNat n) :
    c ∈ alphabet := by
  obtain ⟨d, small, rfl⟩ := Text.mem_numeral (by decide) h
  interval_cases d <;> decide

theorem mem_alphabet_of_mem_signed {negative : Bool} {t : Text} {c : CodePoint}
    (inside : ∀ c ∈ t, c ∈ alphabet) (h : c ∈ Text.signed negative t) : c ∈ alphabet := by
  cases negative with
  | false => exact inside c h
  | true =>
    rcases List.mem_cons.mp h with rfl | h
    · decide
    · exact inside c h

theorem mem_alphabet_of_mem_zeros {k : Nat} {c : CodePoint}
    (h : c ∈ List.replicate k (CodePoint.scalar '0')) : c ∈ alphabet := by
  rw [List.eq_of_mem_replicate h]
  decide

theorem mem_alphabet_of_mem_mantissa {t : Text} {c : CodePoint} (inside : ∀ c ∈ t, c ∈ alphabet)
    (h : c ∈ RealFormat.mantissa t) : c ∈ alphabet := by
  unfold RealFormat.mantissa at h
  split at h
  · exact inside c h
  · exact inside c h
  · rename_i d more _
    rcases List.mem_cons.mp h with rfl | h
    · exact inside _ (List.mem_cons_self ..)
    · rcases List.mem_cons.mp h with rfl | h
      · decide
      · exact inside c (List.mem_cons_of_mem d h)

theorem mem_alphabet_of_mem_exponentText {f : RealFormat} {e : Int} {c : CodePoint}
    (h : c ∈ f.exponentText e) : c ∈ alphabet := by
  rcases List.mem_cons.mp h with rfl | h
  · split <;> decide
  · rcases List.mem_append.mp h with h | h
    · exact mem_alphabet_of_mem_zeros h
    · exact mem_alphabet_of_mem_ofNat h

theorem mem_alphabet_of_mem_format {f : RealFormat} {d : Decimal} {c : CodePoint}
    (h : c ∈ f.write d) : c ∈ alphabet := by
  have inside : ∀ c ∈ Text.ofNat d.digits, c ∈ alphabet := fun _ => mem_alphabet_of_mem_ofNat
  unfold RealFormat.write at h
  simp only at h
  split at h
  · rcases List.mem_append.mp h with h | h
    · exact mem_alphabet_of_mem_mantissa inside h
    · rcases List.mem_cons.mp h with rfl | h
      · decide
      · exact mem_alphabet_of_mem_exponentText h
  · split at h
    · rcases List.mem_cons.mp h with rfl | h
      · decide
      · rcases List.mem_cons.mp h with rfl | h
        · decide
        · rcases List.mem_append.mp h with h | h
          · exact mem_alphabet_of_mem_zeros h
          · exact inside c h
    · split at h
      · have last : ∀ c ∈ [CodePoint.scalar '.', .scalar '0'], c ∈ alphabet := by decide
        rcases List.mem_append.mp h with h | h
        · rcases List.mem_append.mp h with h | h
          · exact inside c h
          · exact mem_alphabet_of_mem_zeros h
        · exact last c h
      · rcases List.mem_append.mp h with h | h
        · exact inside c (List.mem_of_mem_take h)
        · rcases List.mem_cons.mp h with rfl | h
          · decide
          · exact inside c (List.mem_of_mem_drop h)

theorem mem_alphabet_of_mem_real {x : Binary64} {c : CodePoint} (h : c ∈ x.write) :
    c ∈ alphabet := by
  cases x with
  | nan =>
    have all : ∀ c ∈ Binary64.nan.write, c ∈ alphabet := by decide
    exact all c h
  | infinity negative =>
    have all : ∀ c ∈ (Binary64.infinity negative).write, c ∈ alphabet := by
      cases negative <;> decide
    exact all c h
  | finite negative significand exponent canonical =>
    have zero : ∀ c ∈ ("0.0" : Text), c ∈ alphabet := by decide
    refine mem_alphabet_of_mem_signed ?_ h
    intro c mem
    split at mem
    · exact zero c mem
    · exact mem_alphabet_of_mem_format mem

theorem writeInteger_eq_ok {n : Int} {w : Text} :
    writeInteger n = .ok w ↔
      (Text.ofNat n.natAbs).length ≤ maxDecimalDigits ∧ w = Text.ofInt n := by
  unfold writeInteger
  split
  · rename_i long
    simp [Nat.not_le.mpr long]
  · rename_i short
    simp [Nat.not_lt.mp short, eq_comm]

theorem mem_alphabet_of_mem_ofInt {n : Int} {c : CodePoint} (h : c ∈ Text.ofInt n) :
    c ∈ alphabet := by
  rw [Text.ofInt_eq_signed] at h
  exact mem_alphabet_of_mem_signed (fun _ => mem_alphabet_of_mem_ofNat) h

/-- A written number is read as itself and keeps to the alphabet. -/
theorem parse_of_write {n : Number} {w : Text} (written : n.write = .ok w) :
    parse w = .ok (some n) ∧ ∀ c ∈ w, c ∈ alphabet := by
  cases n with
  | integer n =>
    obtain ⟨short, rfl⟩ := writeInteger_eq_ok.mp written
    exact ⟨parse_integer short, fun _ => mem_alphabet_of_mem_ofInt⟩
  | ratio q =>
    obtain ⟨numerator, first, rest⟩ := bind_eq_ok.mp written
    obtain ⟨denominator, second, same⟩ := bind_eq_ok.mp rest
    obtain ⟨short, rfl⟩ := writeInteger_eq_ok.mp first
    obtain ⟨short', rfl⟩ := writeInteger_eq_ok.mp second
    obtain rfl := Except.ok.inj same
    refine ⟨parse_ratio short short', ?_⟩
    intro c mem
    rcases List.mem_append.mp mem with mem | mem
    · exact mem_alphabet_of_mem_ofInt mem
    · rcases List.mem_cons.mp mem with rfl | mem
      · decide
      · exact mem_alphabet_of_mem_ofInt mem
  | real x =>
    obtain rfl := Except.ok.inj written
    exact ⟨x.parse_write, fun _ => mem_alphabet_of_mem_real⟩

end Number

/-! ## 6. Data without nested data -/

/-- The names that are written without bars. -/
theorem bare_of_needsBars {name : Text} (bare : needsBars name = .ok false) :
    name ≠ [] ∧ name ≠ ("." : Text) ∧ (∀ c ∈ name, c.isDelimiter = false) ∧
      name.head?.any specialInitials.contains = false ∧ Number.parse name = .ok none := by
  unfold needsBars at bare
  split at bare
  · cases bare
  · rename_i spelled
    split at bare
    · cases bare
    · rename_i plain
      split at bare
      · cases bare
      · rename_i ordinary
        simp only [not_or] at spelled
        refine ⟨spelled.1, spelled.2, by simpa using plain, by simpa using ordinary, ?_⟩
        split at bare
        · rename_i value parsed
          have absent : value.isSome = false := Except.ok.inj bare
          rw [parsed, Option.isSome_eq_false_iff.mp absent |> Option.isNone_iff_eq_none.mp]
        · cases bare
        · cases bare

namespace Lexeme

/-- The datum of a token that a number was or was not found in. -/
def datumOf (word : Text) : Option Number → Datum
  | some n => .number n
  | none => .symbol word

/-- A word of plain code points before a delimiter is one atom. -/
theorem spells_atom {word rest : Text} {value : Option Number} (some_word : word ≠ [])
    (no_dot : word ≠ ("." : Text)) (plain : ∀ c ∈ word, c.isDelimiter = false)
    (ordinary : word.head?.any structuralInitials.contains = false)
    (parsed : Number.parse word = .ok value) (ends : Text.atDelimiter rest = true) :
    Spells false (word ++ rest) (datumOf word value) word.length := by
  have whole := token_append plain ends
  have opened : startsAtom (word ++ rest) = true := by
    cases word with
    | nil => exact absurd rfl some_word
    | cons x more => simpa [startsAtom] using ordinary
  refine .atom opened ?_
  rw [atom_of_token (by rw [whole]; exact some_word), whole, if_neg no_dot, parsed]
  cases value <;> rfl

theorem ne_of_parse {n : Number} {word : Text} (parsed : Number.parse word = .ok (some n)) :
    word ≠ [] ∧ word ≠ ("." : Text) := by
  constructor
  · rintro rfl
    cases parsed
  · rintro rfl
    have nothing : Number.parse ("." : Text) = .ok none := by decide
    rw [nothing] at parsed
    cases parsed

/-- A number is written as one atom. -/
theorem spells_number {n : Number} {w rest : Text} (written : n.write = .ok w)
    (ends : Text.atDelimiter rest = true) : Spells false (w ++ rest) (.number n) w.length := by
  obtain ⟨parsed, inside⟩ := Number.parse_of_write written
  obtain ⟨some_word, no_dot⟩ := ne_of_parse parsed
  have all : ∀ c ∈ Number.alphabet,
      c.isDelimiter = false ∧ structuralInitials.contains c = false := by decide
  refine spells_atom some_word no_dot (fun c mem => (all c (inside c mem)).1) ?_ parsed ends
  cases w with
  | nil => rfl
  | cons x more => exact (all x (inside x (List.mem_cons_self ..))).2

/-- What starts another form is a delimiter or one of the special initials. -/
theorem ordinary_of_plain {name : Text} (plain : ∀ c ∈ name, c.isDelimiter = false)
    (ordinary : name.head?.any specialInitials.contains = false) :
    name.head?.any structuralInitials.contains = false := by
  have other : ∀ c ∈ structuralInitials,
      c.isDelimiter = true ∨ specialInitials.contains c = true := by decide
  cases name with
  | nil => rfl
  | cons x more =>
    have delimiter := plain x (List.mem_cons_self ..)
    rw [List.head?_cons, Option.any_some] at ordinary ⊢
    by_contra found
    rcases other x (by simpa using found) with h | h
    · rw [delimiter] at h
      cases h
    · rw [ordinary] at h
      cases h

/-- A symbol is written as one atom or between bars. -/
theorem spells_symbol {name w rest : Text} (written : writeSymbol name = .ok w)
    (ends : Text.atDelimiter rest = true) : Spells false (w ++ rest) (.symbol name) w.length := by
  obtain ⟨barred, needed, same⟩ := bind_eq_ok.mp written
  cases barred with
  | true =>
    obtain rfl := Except.ok.inj same
    exact .symbol rfl (quoted_written .symbol name rest)
  | false =>
    obtain rfl := Except.ok.inj same
    obtain ⟨some_name, no_dot, plain, ordinary, parsed⟩ := bare_of_needsBars needed
    exact spells_atom some_name no_dot plain (ordinary_of_plain plain ordinary) parsed ends

theorem spells_boolean (b : Bool) {rest : Text} (ends : Text.atDelimiter rest = true) :
    Spells false ((if b then ("#t" : Text) else ("#f" : Text)) ++ rest) (.boolean b) 2 := by
  have word : ∀ letter : CodePoint, letter.isDelimiter = false →
      token ([letter] ++ rest) = [letter] :=
    fun letter plain => token_append (by simpa using plain) ends
  cases b with
  | true =>
    refine .hash rfl ?_
    show hashToken (.scalar '#' :: ([.scalar 't'] ++ rest)) = _
    unfold hashToken
    simp only [List.drop_succ_cons, List.drop_zero, word (.scalar 't') (by decide)]
    rfl
  | false =>
    refine .hash rfl ?_
    show hashToken (.scalar '#' :: ([.scalar 'f'] ++ rest)) = _
    unfold hashToken
    simp only [List.drop_succ_cons, List.drop_zero, word (.scalar 'f') (by decide)]
    rfl

theorem spells_string (content rest : Text) :
    Spells false (writeString content ++ rest) (.string content) (writeString content).length :=
  .string rfl (quoted_written .string content rest)

theorem spells_character (c : CodePoint) {rest : Text} (ends : Text.atDelimiter rest = true) :
    Spells false (writeCharacter c ++ rest) (.char c) (writeCharacter c).length := by
  have opened : ∃ more, writeCharacter c = .scalar '#' :: .backslash :: more := by
    unfold writeCharacter
    split
    · exact ⟨_, rfl⟩
    · split
      · exact ⟨_, rfl⟩
      · exact ⟨_, rfl⟩
  obtain ⟨more, same⟩ := opened
  have marked : writeCharacter c ++ rest = .scalar '#' :: .backslash :: (more ++ rest) := by
    rw [same]
    rfl
  exact .character marked (character_written c ends)

end Lexeme

end LineDirective
