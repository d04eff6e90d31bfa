import LineDirective.Proofs.Faults
import LineDirective.Proofs.RadixLiterals

/-!
# Code points by number

After `\x` inside a string or a symbol between bars, and after `#\x`, a code point is given by its number.
The digits are taken up to the next delimiter and read in a notation that knows more than hexadecimal
digits: a sign, the mark `0x`, single underscores between digits, and decimal digits of every script
(`IntegerLiteral.DenotesHex`). A word of none but hexadecimal digits has its positional value; a word
with none of these extras is a number only if it is one of those.

A word that denotes the number of a code point is accepted, and any other is complained about as a
malformed datum, but for one case: a number that does not fit a machine integer of 32 bits is a fault
(`Reader.hex_scalars`).
-/

namespace LineDirective

/-! ## 1. Numbers in base sixteen -/

namespace IntegerLiteral

def hexMarks : List Text := ["", "0x", "0X", "0x_", "0X_"]

/-- Digits of a base and their values, with at most one underscore between neighbours. -/
inductive Grouped (base : Nat) : Text → List Nat → Prop
  | last {c : CodePoint} {d : Nat} (digit : c.IsDigit base d) : Grouped base [c] [d]
  | digit {c : CodePoint} {d : Nat} {t : Text} {values : List Nat} (digit : c.IsDigit base d)
      (others : Grouped base t values) : Grouped base (c :: t) (d :: values)
  | underscore {c : CodePoint} {d : Nat} {t : Text} {values : List Nat} (digit : c.IsDigit base d)
      (others : Grouped base t values) : Grouped base (c :: .scalar '_' :: t) (d :: values)

/-- A word denotes an integer in base sixteen: it is a sign, a mark and digits in groups, where decimal
digits of all scripts stand for those of ASCII. -/
inductive DenotesHex (word : Text) : Int → Prop
  | digits {negative : Bool} {sign mark digits : Text} {values : List Nat}
      (signed : (negative, sign) ∈ signs) (marked : mark ∈ hexMarks)
      (grouped : Grouped 16 digits values) (spelled : word.map asciiForm = sign ++ (mark ++ digits)) :
      DenotesHex word (IntegerLiteral.signed negative (Nat.ofDigits 16 values.reverse))

def HexDigits (word : Text) (n : Nat) : Prop :=
  word ≠ [] ∧ ∃ values, List.Forall₂ (CodePoint.IsDigit 16) word values ∧
    n = Nat.ofDigits 16 values.reverse

/-- Neither a sign nor part of a mark, nor an underscore, nor a decimal digit of another script. -/
def IsPlain (c : CodePoint) : Prop := c ∉ ("+-_xX" : Text) ∧ asciiForm c = c

variable {base : Nat} {c : CodePoint} {d : Nat} {t word : Text} {values : List Nat}

theorem not_isDigit_underscore (known : base ≤ 16) : ¬ CodePoint.IsDigit base (.scalar '_') d := by
  intro digit
  exact absurd (digit.mem_hexDigits known) (by decide)

theorem Grouped.exists_cons (grouped : Grouped base t values) :
    ∃ c d rest, t = c :: rest ∧ c.IsDigit base d := by
  cases grouped with
  | last digit => exact ⟨_, _, _, rfl, digit⟩
  | digit digit _ => exact ⟨_, _, _, rfl, digit⟩
  | underscore digit _ => exact ⟨_, _, _, rfl, digit⟩

/-- After a digit the text may end or go on, at once or after an underscore. -/
theorem groupedDigits?_cons (known : base ≤ 16) (digit : c.IsDigit base d) (afterDigit : Bool) :
    groupedDigits? base afterDigit (c :: t) = (groupedDigits? base true t).map (d :: ·) := by
  rw [groupedDigits?, (CodePoint.digitBelow?_eq_some known).mpr digit]

theorem groupedDigits?_underscore (known : base ≤ 16) :
    groupedDigits? base true (.scalar '_' :: t) = groupedDigits? base false t := by
  have no_digit : digitBelow? base (.scalar '_') = none := by
    cases value : digitBelow? base (.scalar '_') with
    | none => rfl
    | some d =>
      exact absurd ((CodePoint.digitBelow?_eq_some known).mp value) (not_isDigit_underscore known)
  simp [groupedDigits?, no_digit]

theorem groupedDigits?_of_grouped (known : base ≤ 16) (grouped : Grouped base t values)
    (afterDigit : Bool) : groupedDigits? base afterDigit t = some values := by
  induction grouped generalizing afterDigit with
  | last digit =>
    rw [groupedDigits?_cons known digit]
    rfl
  | digit digit _ ih => rw [groupedDigits?_cons known digit, ih, Option.map_some]
  | underscore digit _ ih =>
    rw [groupedDigits?_cons known digit, groupedDigits?_underscore known, ih, Option.map_some]

/-- What is taken for digits: behind a digit there may be nothing more, or an underscore first. -/
theorem grouped_of_groupedDigits? (known : base ≤ 16) {afterDigit : Bool}
    (read : groupedDigits? base afterDigit t = some values) :
    Grouped base t values ∨ afterDigit = true ∧ (t = [] ∧ values = [] ∨
      ∃ rest, t = .scalar '_' :: rest ∧ Grouped base rest values) := by
  induction t generalizing afterDigit values with
  | nil =>
    cases afterDigit with
    | false => cases read
    | true => exact .inr ⟨rfl, .inl ⟨rfl, (Option.some.inj read).symm⟩⟩
  | cons c t ih =>
    cases value : digitBelow? base c with
    | some d =>
      have digit := (CodePoint.digitBelow?_eq_some known).mp value
      rw [groupedDigits?_cons known digit] at read
      obtain ⟨more, others, rfl⟩ := Option.map_eq_some_iff.mp read
      rcases ih others with grouped | ⟨-, ⟨rfl, rfl⟩ | ⟨rest, rfl, grouped⟩⟩
      · exact .inl (.digit digit grouped)
      · exact .inl (.last digit)
      · exact .inl (.underscore digit grouped)
    | none =>
      simp only [groupedDigits?, value] at read
      split at read
      · rename_i underscore
        obtain ⟨after, rfl⟩ := underscore
        rcases ih read with grouped | ⟨impossible, -⟩
        · exact .inr ⟨after, .inr ⟨t, rfl, grouped⟩⟩
        · cases impossible
      · cases read

theorem groupedDigits?_eq_some_iff (known : base ≤ 16) :
    groupedDigits? base false t = some values ↔ Grouped base t values := by
  constructor
  · intro read
    rcases grouped_of_groupedDigits? known read with grouped | ⟨impossible, -⟩
    · exact grouped
    · cases impossible
  · intro grouped
    exact groupedDigits?_of_grouped known grouped false

theorem mem_hexMarks_of_dropMark (t : Text) : ∃ mark ∈ hexMarks, t = mark ++ dropMark 16 t := by
  unfold dropMark
  split
  · rename_i letter rest
    split
    · rename_i marked
      have which : letter = .scalar 'x' ∨ letter = .scalar 'X' := by simpa [isMarkLetter] using marked
      unfold dropUnderscore
      rcases which with rfl | rfl
      · split
        · exact ⟨"0x_", by decide, rfl⟩
        · exact ⟨"0x", by decide, rfl⟩
      · split
        · exact ⟨"0X_", by decide, rfl⟩
        · exact ⟨"0X", by decide, rfl⟩
    · exact ⟨[], by decide, rfl⟩
  · exact ⟨[], by decide, rfl⟩

/-- Digits start neither with a mark nor with an underscore, and with no sign either. -/
theorem dropMark_of_grouped (grouped : Grouped 16 t values) : dropMark 16 t = t := by
  have letters : ∀ x, isMarkLetter 16 x = true → x ∉ hexDigits ∧ x ≠ .scalar '_' := by
    intro x marked
    have which : x = .scalar 'x' ∨ x = .scalar 'X' := by simpa [isMarkLetter] using marked
    rcases which with rfl | rfl <;> decide
  unfold dropMark
  split
  · rename_i letter rest
    apply if_neg
    intro marked
    obtain ⟨no_digit, no_underscore⟩ := letters letter marked
    cases grouped with
    | digit _ others =>
      obtain ⟨x, d, more, same, digit⟩ := others.exists_cons
      cases same
      exact no_digit (digit.mem_hexDigits (Nat.le_refl 16))
    | underscore _ _ => exact no_underscore rfl
  · rfl

theorem dropMark_append_grouped {mark : Text} (marked : mark ∈ hexMarks)
    (grouped : Grouped 16 t values) : dropMark 16 (mark ++ t) = t := by
  have no_underscore : dropUnderscore t = t := by
    obtain ⟨c, d, rest, rfl, digit⟩ := grouped.exists_cons
    unfold dropUnderscore
    split
    · rename_i same
      cases same
      exact absurd digit (not_isDigit_underscore (Nat.le_refl 16))
    · rfl
  have which : mark = [] ∨ mark = [.scalar '0', .scalar 'x'] ∨ mark = [.scalar '0', .scalar 'X'] ∨
      mark = [.scalar '0', .scalar 'x', .scalar '_'] ∨
        mark = [.scalar '0', .scalar 'X', .scalar '_'] := by
    simpa [hexMarks, Text.ofString] using marked
  rcases which with rfl | rfl | rfl | rfl | rfl
  · exact dropMark_of_grouped grouped
  · exact no_underscore
  · exact no_underscore
  · rfl
  · rfl

theorem initial_of_grouped {mark : Text} (marked : mark ∈ hexMarks) (grouped : Grouped 16 t values) :
    ∀ c ∈ (mark ++ t).head?, c ∈ hexDigits := by
  have zeros : ∀ mark ∈ hexMarks, mark = [] ∨ mark.head? = some (.scalar '0') := by decide
  intro c first
  rcases zeros mark marked with rfl | zero
  · obtain ⟨x, d, rest, rfl, digit⟩ := grouped.exists_cons
    obtain rfl : x = c := Option.some.inj first
    exact digit.mem_hexDigits (Nat.le_refl 16)
  · rw [List.head?_append, zero] at first
    obtain rfl : .scalar '0' = c := Option.some.inj first
    decide

/-- The words that are read as a number in base sixteen, and which. -/
theorem parse?_eq_some_iff {k : Int} : parse? 16 word = some k ↔ DenotesHex word k := by
  unfold parse?
  constructor
  · intro read
    cases split : splitSign (word.map asciiForm) with
    | mk negative body =>
      obtain ⟨sign, signed, same⟩ := mem_signs_of_splitSign split
      obtain ⟨mark, marked, whole⟩ := mem_hexMarks_of_dropMark body
      simp only [split] at read
      obtain ⟨values, grouped, rfl⟩ := Option.map_eq_some_iff.mp read
      rw [numeralValue_eq_ofDigits]
      refine .digits signed marked ((groupedDigits?_eq_some_iff (Nat.le_refl 16)).mp grouped) ?_
      rw [same, ← whole]
  · rintro ⟨signed, marked, grouped, spelled⟩
    simp only [spelled, splitSign_append signed (initial_of_grouped marked grouped),
      dropMark_append_grouped marked grouped, groupedDigits?_of_grouped (Nat.le_refl 16) grouped,
      Option.map_some, numeralValue_eq_ofDigits]

theorem Grouped.of_forall₂ (each : List.Forall₂ (CodePoint.IsDigit base) t values)
    (some_digit : t ≠ []) : Grouped base t values := by
  induction each with
  | nil => exact absurd rfl some_digit
  | @cons c d t values digit each ih =>
    cases each with
    | nil => exact .last digit
    | cons digit' each => exact .digit digit (ih (List.cons_ne_nil _ _))

theorem Grouped.forall₂ (grouped : Grouped base t values) (plain : .scalar '_' ∉ t) :
    List.Forall₂ (CodePoint.IsDigit base) t values := by
  induction grouped with
  | last digit => exact .cons digit .nil
  | digit digit _ ih => exact .cons digit (ih fun mem => plain (List.mem_cons_of_mem _ mem))
  | underscore _ _ _ => exact absurd (by simp) plain

theorem denotesHex_of_hexDigits {n : Nat} (digits : HexDigits word n) : DenotesHex word n := by
  obtain ⟨some_digit, values, each, rfl⟩ := digits
  have hex : ∀ c ∈ word, c ∈ hexDigits := by
    intro c mem
    obtain ⟨d, digit⟩ := CodePoint.digit_of_mem each mem
    exact digit.mem_hexDigits (Nat.le_refl 16)
  have unsigned : (false, ([] : Text)) ∈ signs := by decide
  have unmarked : ([] : Text) ∈ hexMarks := by decide
  exact .digits unsigned unmarked (.of_forall₂ each some_digit) (map_asciiForm_of_hex unsigned hex)

/-- Without any of the extras nothing is left but digits. -/
theorem hexDigits_of_denotesHex {k : Int} (denoted : DenotesHex word k) (plain : ∀ c ∈ word, IsPlain c) :
    ∃ n : Nat, k = n ∧ HexDigits word n := by
  obtain ⟨signed, marked, grouped, spelled⟩ := denoted
  rename_i negative sign mark digits values
  have same : word.map asciiForm = word := by
    rw [List.map_congr_left (g := id) fun c mem => (plain c mem).2, List.map_id]
  rw [same] at spelled
  have absent : ∀ c ∈ ("+-_xX" : Text), c ∉ sign ++ (mark ++ digits) := by
    rintro c extra mem
    exact (plain c (spelled ▸ mem)).1 extra
  have signs_differ : ∀ s ∈ signs, s = (false, []) ∨ ∃ c ∈ ("+-_xX" : Text), c ∈ s.2 := by decide
  have marks_differ : ∀ m ∈ hexMarks, m = [] ∨ ∃ c ∈ ("+-_xX" : Text), c ∈ m := by decide
  rcases signs_differ _ signed with unsigned | ⟨c, extra, mem⟩
  · cases unsigned
    rcases marks_differ _ marked with rfl | ⟨c, extra, mem⟩
    · subst spelled
      have each := grouped.forall₂ (absent (.scalar '_') (by decide))
      obtain ⟨c, d, rest, rfl, -⟩ := grouped.exists_cons
      exact ⟨_, rfl, List.cons_ne_nil _ _, values, each, rfl⟩
    · exact absurd (List.mem_append_right _ (List.mem_append_left _ mem)) (absent c extra)
  · exact absurd (List.mem_append_left _ mem) (absent c extra)

end IntegerLiteral

/-! ## 2. Code points by number -/

namespace Lexeme

open IntegerLiteral (DenotesHex HexDigits IsPlain)

def Overflows (word : Text) : Prop := ∃ k, DenotesHex word k ∧ (k < -0x80000000 ∨ 0x7fffffff < k)

variable {q : Quotation} {start : Nat} {first x : CodePoint} {word rest : Text}

theorem codePointOf_eq_some {k : Int} : codePointOf k = .ok (some x) ↔ k = x.toNat := by
  unfold codePointOf
  constructor
  · intro found
    split at found
    · cases found
    · split at found
      · cases found
      · have := CodePoint.toNat_of_ofNat? (Except.ok.inj found)
        omega
  · rintro rfl
    have small := x.toNat_lt
    rw [if_neg (by omega), if_neg (by omega), Int.toNat_natCast, CodePoint.ofNat?_toNat]

/-- A word gives a code point if it denotes the number of one. -/
theorem hexCodePoint_eq_some : hexCodePoint word = .ok (some x) ↔ DenotesHex word x.toNat := by
  rw [← IntegerLiteral.parse?_eq_some_iff]
  unfold hexCodePoint
  cases IntegerLiteral.parse? 16 word with
  | none => simp
  | some k =>
    rw [Option.some.injEq]
    exact codePointOf_eq_some

theorem hexCodePoint_eq_error_iff {fault : Fault} :
    hexCodePoint word = .error fault ↔ Overflows word ∧ fault = .codePointOverflow := by
  constructor
  · intro failed
    obtain ⟨⟨k, parsed, large⟩, same⟩ := hexCodePoint_eq_error failed
    exact ⟨⟨k, IntegerLiteral.parse?_eq_some_iff.mp parsed, large⟩, same⟩
  · rintro ⟨⟨k, denoted, large⟩, rfl⟩
    unfold hexCodePoint
    rw [IntegerLiteral.parse?_eq_some_iff.mpr denoted]
    exact if_pos large

/-- No code point is given by the words that denote no number of one and fit a machine integer. -/
theorem hexCodePoint_eq_none_iff : hexCodePoint word = .ok none ↔
    (∀ x : CodePoint, ¬ DenotesHex word x.toNat) ∧ ¬ Overflows word := by
  constructor
  · intro refused
    constructor
    · intro x denoted
      rw [hexCodePoint_eq_some.mpr denoted] at refused
      cases refused
    · intro overflows
      rw [hexCodePoint_eq_error_iff.mpr ⟨overflows, rfl⟩] at refused
      cases refused
  · rintro ⟨other, fits⟩
    cases found : hexCodePoint word with
    | error fault => exact absurd (hexCodePoint_eq_error_iff.mp found).1 fits
    | ok meaning =>
      cases meaning with
      | none => rfl
      | some x => exact absurd (hexCodePoint_eq_some.mp found) (other x)

/-- The token at the start of a text ends with a semicolon, and this text follows it. -/
def Closes (rest more : Text) : Prop := rest = token rest ++ .scalar ';' :: more

theorem exists_closes : (rest.drop (token rest).length).head? = some (.scalar ';') ↔
    ∃ more, Closes rest more := by
  constructor
  · intro follows
    have parts := List.take_append_drop (token rest).length rest
    rw [take_token] at parts
    cases behind : rest.drop (token rest).length with
    | nil =>
      rw [behind] at follows
      cases follows
    | cons y more =>
      rw [behind] at follows parts
      obtain rfl : y = .scalar ';' := Option.some.inj follows
      exact ⟨more, parts.symm⟩
  · rintro ⟨more, closes⟩
    have behind : rest.drop (token rest).length = .scalar ';' :: more := by
      nth_rewrite 2 [closes]
      exact List.drop_left
    rw [behind]
    rfl

theorem escape_number (q : Quotation) (start : Nat) (rest : Text) :
    escape q start (.scalar 'x' :: rest) =
      if (rest.drop (token rest).length).head? = some (.scalar ';') then
        match hexCodePoint (token rest) with
        | .error fault => .error (.fault fault)
        | .ok none => .error (.malformed (.invalidHexEscape (token rest)) start)
        | .ok (some x) => .ok (some x, (token rest).length + 2)
      else .error (.malformed .unterminatedHexEscape start) := by
  have no_letter : simpleEscape? (.scalar 'x') = none := by decide
  by_cases closed : (rest.drop (token rest).length).head? = some (.scalar ';')
  · rw [if_pos closed]
    cases found : hexCodePoint (token rest) with
    | error fault => simp [escape, no_letter, closed, found]
    | ok meaning => cases meaning <;> simp [escape, no_letter, closed, found]
  · simp only [escape, no_letter, if_true, ne_eq, closed, not_false_eq_true, if_false]

/-- The escapes by number that are accepted, and what they stand for. -/
theorem escape_number_eq_ok {meaning : Option CodePoint} {size : Nat} :
    escape q start (.scalar 'x' :: rest) = .ok (meaning, size) ↔
      ∃ x more, Closes rest more ∧ DenotesHex (token rest) x.toNat ∧ meaning = some x ∧
        size = (token rest).length + 2 := by
  rw [escape_number]
  constructor
  · intro means
    split at means
    · rename_i closed
      obtain ⟨more, closes⟩ := exists_closes.mp closed
      split at means
      · cases means
      · cases means
      · rename_i x found
        cases means
        exact ⟨x, more, closes, hexCodePoint_eq_some.mp found, rfl, rfl⟩
    · cases means
  · rintro ⟨x, more, closes, denoted, rfl, rfl⟩
    rw [if_pos (exists_closes.mpr ⟨more, closes⟩), hexCodePoint_eq_some.mpr denoted]

def EscapeOverflows (rest : Text) : Prop := (∃ more, Closes rest more) ∧ Overflows (token rest)

theorem escape_number_overflows (overflows : EscapeOverflows rest) :
    escape q start (.scalar 'x' :: rest) = .error (.fault .codePointOverflow) := by
  rw [escape_number, if_pos (exists_closes.mpr overflows.1),
    hexCodePoint_eq_error_iff.mpr ⟨overflows.2, rfl⟩]

/-- All other escapes by number are complained about at their backslash. -/
theorem escape_number_malformed
    (other : ∀ x : CodePoint, ¬ ((∃ more, Closes rest more) ∧ DenotesHex (token rest) x.toNat))
    (fits : ¬ EscapeOverflows rest) :
    ∃ cause ∈ [Cause.unterminatedHexEscape, Cause.invalidHexEscape (token rest)],
      escape q start (.scalar 'x' :: rest) = .error (.malformed cause start) := by
  rw [escape_number]
  by_cases closed : (rest.drop (token rest).length).head? = some (.scalar ';')
  · have closes := exists_closes.mp closed
    have refused := hexCodePoint_eq_none_iff.mpr
      ⟨fun x denoted => other x ⟨closes, denoted⟩, fun overflows => fits ⟨closes, overflows⟩⟩
    exact ⟨_, List.mem_cons_of_mem _ (List.mem_cons_self ..), by rw [if_pos closed, refused]⟩
  · exact ⟨_, List.mem_cons_self .., if_neg closed⟩

/-- A character literal of more than one code point that is no name must be a number. -/
theorem character_number (some_more : token rest ≠ [])
    (unnamed : namedCharacter? (first :: token rest) = none) :
    character false (.scalar '#' :: .backslash :: first :: rest) =
      if first = .scalar 'x' then
        match hexCodePoint (token rest) with
        | .error fault => .error (.fault fault)
        | .ok none => .error (.malformed (.unknownCharacter (first :: token rest)) 0)
        | .ok (some x) => .ok (x, 3 + (token rest).length)
      else .error (.malformed (.unknownCharacter (first :: token rest)) 0) := by
  have size : (first :: token rest).length + 2 = 3 + (token rest).length := by
    rw [List.length_cons]
    omega
  unfold character
  simp only [List.drop_succ_cons, List.drop_zero, if_neg some_more, Bool.false_eq_true, if_false, unnamed,
    size]
  by_cases hex : first = .scalar 'x'
  · subst hex
    rfl
  · rw [if_neg hex]
    split
    · rename_i same
      exact absurd (List.cons.inj same).1 hex
    · rfl

/-! ## 3. Inside quotes -/

/-- Reading the content of a quoted form gets from one place to another, given by their distances from
the opening mark and what follows them, and finds this content in between. -/
inductive Arrives (q : Quotation) : Nat → Text → Text → Nat → Text → Prop
  | here (start : Nat) (t : Text) : Arrives q start t [] start t
  | plain {start stop : Nat} {x : CodePoint} {t content rest : Text} (no_mark : x ≠ q.mark)
      (no_backslash : x ≠ .backslash) (others : Arrives q (start + 1) t content stop rest) :
      Arrives q start (x :: t) (x :: content) stop rest
  | escaped {start stop size : Nat} {meaning : Option CodePoint} {t content rest : Text}
      (means : escape q start t = .ok (meaning, size))
      (others : Arrives q (start + 1 + size) (t.drop size) content stop rest) :
      Arrives q start (.backslash :: t) (meaning.toList ++ content) stop rest

theorem quotedFrom_drop (q : Quotation) (skip start : Nat) (t : Text) :
    quotedFrom q skip start t = quotedFrom q 0 (start + skip) (t.drop skip) := by
  induction skip generalizing start t with
  | zero => rfl
  | succ skip ih =>
    cases t with
    | nil => rfl
    | cons y t =>
      rw [quotedFrom, ih, List.drop_succ_cons]
      congr 1
      omega

namespace Arrives

variable {start stop stop' : Nat} {t u v content content' : Text}

theorem trans (first : Arrives q start t content stop u) (second : Arrives q stop u content' stop' v) :
    Arrives q start t (content ++ content') stop' v := by
  induction first with
  | here => exact second
  | plain no_mark no_backslash _ ih => exact .plain no_mark no_backslash (ih second)
  | escaped means _ ih =>
    rw [List.append_assoc]
    exact .escaped means (ih second)

/-- Reading from the first place is reading from the second, after the content in between. -/
theorem quotedFrom_eq (h : Arrives q start t content stop u) :
    quotedFrom q 0 start t =
      (quotedFrom q 0 stop u).map fun (more, size) => (content ++ more, size) := by
  induction h with
  | here start t => cases quotedFrom q 0 start t <;> rfl
  | @plain _ stop _ _ _ u no_mark no_backslash _ ih =>
    rw [quotedFrom, if_neg no_mark, if_neg no_backslash, ih]
    cases quotedFrom q 0 stop u <;> rfl
  | @escaped _ stop _ _ _ _ u means _ ih =>
    have no_mark : CodePoint.backslash ≠ q.mark := by cases q <;> decide
    rw [quotedFrom, if_neg no_mark, if_pos rfl, means]
    dsimp only
    rw [quotedFrom_drop, ih]
    cases quotedFrom q 0 stop u with
    | error e => rfl
    | ok r => simp [Except.map]

/-- The second place lies as far on as the distances say. -/
theorem drop_eq (h : Arrives q start t content stop u) : ∃ k, stop = start + k ∧ t.drop k = u := by
  induction h with
  | here start t => exact ⟨0, rfl, rfl⟩
  | plain _ _ _ ih =>
    obtain ⟨k, rfl, rest⟩ := ih
    exact ⟨k + 1, by omega, rest⟩
  | @escaped _ _ size _ _ _ _ _ _ ih =>
    obtain ⟨k, rfl, rest⟩ := ih
    rw [List.drop_drop] at rest
    exact ⟨size + k + 1, by omega, rest⟩

/-- An accepted escape by number adds its code point, and reading goes on after the semicolon. -/
theorem number {x : CodePoint} {rest more : Text}
    (h : Arrives q start t content stop (.backslash :: .scalar 'x' :: rest)) (closes : Closes rest more)
    (denoted : DenotesHex (token rest) x.toNat) :
    Arrives q start t (content ++ [x]) (stop + (token rest).length + 3) more := by
  have means : escape q stop (.scalar 'x' :: rest) = .ok (some x, (token rest).length + 2) :=
    escape_number_eq_ok.mpr ⟨x, more, closes, denoted, rfl, rfl⟩
  have behind : (.scalar 'x' :: rest : Text).drop ((token rest).length + 2) = more := by
    nth_rewrite 2 [show rest = token rest ++ .scalar ';' :: more from closes]
    rw [List.drop_succ_cons, ← List.drop_drop, List.drop_left]
    rfl
  have distance : stop + 1 + ((token rest).length + 2) = stop + (token rest).length + 3 := by omega
  have onward : Arrives q (stop + 1 + ((token rest).length + 2))
      ((.scalar 'x' :: rest : Text).drop ((token rest).length + 2)) []
      (stop + (token rest).length + 3) more := by
    rw [behind, distance]
    exact .here _ _
  have further : Arrives q stop (.backslash :: .scalar 'x' :: rest) [x]
      (stop + (token rest).length + 3) more := .escaped means onward
  exact h.trans further

end Arrives

end Lexeme

/-! ## 4. In a text -/

namespace Reader

open IntegerLiteral (DenotesHex HexDigits IsPlain)
open Lexeme (Arrives Closes EscapeOverflows Overflows token)

variable {ctx : Context} {mode : Mode} {c : Cursor} {s : ReaderState} {q : Lexeme.Quotation}
  {t content rest : Text} {stop : Nat} {first : CodePoint}

/-- An escape that fails is what the whole datum fails with. -/
theorem raises_escape {letter : CodePoint} {f : LexemeFailure} (here : c.rest = q.mark :: t)
    (arrives : Arrives q 1 t content stop (.backslash :: letter :: rest))
    (failed : Lexeme.escape q stop (letter :: rest) = .error f) :
    (readDatum ctx mode c).Raises s (ctx.blame c f) s := by
  have no_mark : CodePoint.backslash ≠ q.mark := by cases q <;> decide
  have unread : Lexeme.quoted q c.rest = .error f := by
    rw [here, Lexeme.quoted, List.drop_one, List.tail_cons, arrives.quotedFrom_eq, Lexeme.quotedFrom,
      if_neg no_mark, if_pos rfl, failed]
    rfl
  have starts : StartsDatum c.rest := by
    rw [here]
    cases q <;> exact startsDatum_of_mark t (by decide)
  have opened : c.rest.head? = some q.mark := by rw [here]; rfl
  apply raises_of_misspells starts
  cases q with
  | string => exact .string opened unread
  | symbol => exact .symbol opened unread

section Character

variable (here : c.rest = .scalar '#' :: .backslash :: first :: rest)

include here

theorem raises_character {f : LexemeFailure} (failed : Lexeme.character s.foldCase c.rest = .error f) :
    (readDatum ctx mode c).Raises s (ctx.blame c f) s := by
  have starts : StartsDatum c.rest := by
    rw [here]
    exact startsDatum_of_hash _ (by decide)
  exact raises_of_misspells starts (.character here failed)

/-- A character literal is read as the lexeme that it is, and in no other way. -/
theorem returns_character {d : Datum} {next : Cursor} {s' : ReaderState} :
    (readDatum ctx mode c).Returns s (d, next) s' ↔ ∃ x size,
      Lexeme.character s.foldCase c.rest = .ok (x, size) ∧ d = .char x ∧ next = c.advance size ∧
        s' = s := by
  constructor
  · intro returned
    cases read : Lexeme.character s.foldCase c.rest with
    | error f => exact absurd (raises_character here read) returned.not_raises
    | ok r =>
      obtain ⟨x, size⟩ := r
      have returned' : (readDatum ctx mode c).Returns s (.char x, c.advance size) s :=
        returns_readDatum.mpr (Reads.datum_of_here (.flat (.character here read)))
      obtain ⟨same, rfl⟩ := returned.unique returned'
      cases same
      exact ⟨x, size, rfl, rfl, rfl, rfl⟩
  · rintro ⟨x, size, read, rfl, rfl, rfl⟩
    exact returns_readDatum.mpr (Reads.datum_of_here (.flat (.character here read)))

variable (unfolded : s.foldCase = false) (some_more : token rest ≠ [])
  (unnamed : namedCharacter? (first :: token rest) = none)

include unfolded some_more unnamed

theorem returns_numbered {d : Datum} {next : Cursor} {s' : ReaderState} :
    (readDatum ctx mode c).Returns s (d, next) s' ↔ ∃ x : CodePoint,
      first = .scalar 'x' ∧ DenotesHex (token rest) x.toNat ∧ d = .char x ∧
        next = c.advance (3 + (token rest).length) ∧ s' = s := by
  have literal := Lexeme.character_number some_more unnamed
  rw [← here, ← unfolded] at literal
  rw [returns_character here, literal]
  constructor
  · rintro ⟨x, size, read, rfl, rfl, rfl⟩
    split at read
    · rename_i hex
      split at read
      · cases read
      · cases read
      · rename_i found
        cases read
        exact ⟨x, hex, Lexeme.hexCodePoint_eq_some.mp found, rfl, rfl, rfl⟩
    · cases read
  · rintro ⟨x, hex, denoted, rfl, rfl, rfl⟩
    refine ⟨x, _, ?_, rfl, rfl, rfl⟩
    rw [if_pos hex, Lexeme.hexCodePoint_eq_some.mpr denoted]

theorem raises_overflow (hex : first = .scalar 'x') (overflows : Overflows (token rest)) :
    (readDatum ctx mode c).Raises s (.fault .codePointOverflow) s := by
  have literal := Lexeme.character_number some_more unnamed
  rw [← here, ← unfolded] at literal
  apply raises_character (f := .fault .codePointOverflow) here
  rw [literal, if_pos hex, Lexeme.hexCodePoint_eq_error_iff.mpr ⟨overflows, rfl⟩]

theorem raises_unknownCharacter
    (other : ∀ x : CodePoint, ¬ (first = .scalar 'x' ∧ DenotesHex (token rest) x.toNat))
    (fits : ¬ (first = .scalar 'x' ∧ Overflows (token rest))) :
    (readDatum ctx mode c).Raises s
      (ctx.complaint (.unknownCharacter (first :: token rest)) c.position) s := by
  have literal := Lexeme.character_number some_more unnamed
  rw [← here, ← unfolded] at literal
  apply raises_character (f := .malformed (.unknownCharacter (first :: token rest)) 0) here
  rw [literal]
  by_cases hex : first = .scalar 'x'
  · have refused := Lexeme.hexCodePoint_eq_none_iff.mpr
      ⟨fun x denoted => other x ⟨hex, denoted⟩, fun overflows => fits ⟨hex, overflows⟩⟩
    rw [if_pos hex, refused]
  · exact if_neg hex

end Character

/-- A code point is given by its number. A word of one or more hexadecimal digits denotes its positional
value, and of the words without sign, mark, underscore and foreign digits nothing else denotes a number.

After `\x` inside a string or a symbol between bars the text is accepted if and only if it is a word that
denotes the number of a code point and a semicolon. Then reading goes on after the semicolon with this
code point. Otherwise the datum is malformed at the backslash, except that a number outside the range of
a machine integer is a fault.

After `#\`, without case folding, two or more code points that are no name are accepted if and only if they
are an `x` and a word that denotes the number of a code point, which is read. Otherwise the datum is
malformed, with the same exception. -/
theorem hex_scalars (ctx : Context) (mode : Mode) (s : ReaderState) :
    (∀ (word : Text) (n : Nat), HexDigits word n → DenotesHex word n) ∧
    (∀ (word : Text) (k : Int), DenotesHex word k → (∀ x ∈ word, IsPlain x) →
      ∃ n : Nat, k = n ∧ HexDigits word n) ∧
    (∀ (q : Lexeme.Quotation) (start : Nat) (rest : Text) (meaning : Option CodePoint) (size : Nat),
      Lexeme.escape q start (.scalar 'x' :: rest) = .ok (meaning, size) ↔
        ∃ x more, Closes rest more ∧ DenotesHex (token rest) x.toNat ∧ meaning = some x ∧
          size = (token rest).length + 2) ∧
    (∀ (c : Cursor) (q : Lexeme.Quotation) (t content : Text) (stop : Nat) (rest : Text),
      c.rest = q.mark :: t →
      Arrives q 1 t content stop (.backslash :: .scalar 'x' :: rest) →
      (c.advance stop).rest = .backslash :: .scalar 'x' :: rest ∧
      (∀ x more, Closes rest more → DenotesHex (token rest) x.toNat →
        Arrives q 1 t (content ++ [x]) (stop + (token rest).length + 3) more) ∧
      (EscapeOverflows rest → (readDatum ctx mode c).Raises s (.fault .codePointOverflow) s) ∧
      ((∀ x : CodePoint, ¬ ((∃ more, Closes rest more) ∧ DenotesHex (token rest) x.toNat)) →
        ¬ EscapeOverflows rest → ∃ cause : Cause, cause.kind = .malformedDatum ∧
          (readDatum ctx mode c).Raises s (ctx.complaint cause (c.advance stop).position) s)) ∧
    (∀ (c : Cursor) (first : CodePoint) (rest : Text), s.foldCase = false →
      c.rest = .scalar '#' :: .backslash :: first :: rest → token rest ≠ [] →
      namedCharacter? (first :: token rest) = none →
      (∀ d next s', (readDatum ctx mode c).Returns s (d, next) s' ↔ ∃ x : CodePoint,
        first = .scalar 'x' ∧ DenotesHex (token rest) x.toNat ∧ d = .char x ∧
          next = c.advance (3 + (token rest).length) ∧ s' = s) ∧
      (first = .scalar 'x' → Overflows (token rest) →
        (readDatum ctx mode c).Raises s (.fault .codePointOverflow) s) ∧
      ((∀ x : CodePoint, ¬ (first = .scalar 'x' ∧ DenotesHex (token rest) x.toNat)) →
        ¬ (first = .scalar 'x' ∧ Overflows (token rest)) →
          (readDatum ctx mode c).Raises s
            (ctx.complaint (.unknownCharacter (first :: token rest)) c.position) s)) := by
  refine ⟨?_, ?_, ?_, ?_, ?_⟩
  · intro word n digits
    exact IntegerLiteral.denotesHex_of_hexDigits digits
  · intro word k denoted plain
    exact IntegerLiteral.hexDigits_of_denotesHex denoted plain
  · intro q start rest meaning size
    exact Lexeme.escape_number_eq_ok
  · intro c q t content stop rest here arrives
    refine ⟨?_, ?_, ?_, ?_⟩
    · obtain ⟨k, rfl, ahead⟩ := arrives.drop_eq
      rw [Cursor.rest_advance, here, Nat.add_comm, List.drop_succ_cons, ahead]
    · intro x more closes denoted
      exact arrives.number closes denoted
    · intro overflows
      exact raises_escape here arrives (Lexeme.escape_number_overflows overflows)
    · intro other fits
      obtain ⟨cause, listed, failed⟩ := Lexeme.escape_number_malformed other fits
      refine ⟨cause, ?_, raises_escape here arrives failed⟩
      -- either the semicolon is missing or the word is no number of a code point
      rcases List.mem_pair.mp listed with rfl | rfl <;> rfl
  · intro c first rest unfolded here some_more unnamed
    refine ⟨?_, ?_, ?_⟩
    · intro d next s'
      exact returns_numbered here unfolded some_more unnamed
    · intro hex overflows
      exact raises_overflow here unfolded some_more unnamed hex overflows
    · intro other fits
      exact raises_unknownCharacter here unfolded some_more unnamed other fits

/-- The letter J by its number in a string and on its own, a number past the last code point between bars,
one that no machine integer holds, and a word that is no number. -/
theorem hex_scalars_letter :
    HexDigits "4a" 0x4a ∧ DenotesHex "4a" 0x4a ∧
      Arrives .string 1 "<\\x4a;>\"" "<J" 7 ">\"" ∧
      (∃ cause : Cause, cause.kind = .malformedDatum ∧
        (readDatum {} .code (.ofText "|\\x110000;|")).Raises {}
          (({} : Context).complaint cause ⟨1, 1, 1⟩) {}) ∧
      (readDatum {} .code (.ofText "|\\x80000000;|")).Raises {} (.fault .codePointOverflow) {} ∧
      (readDatum {} .code (.ofText "#\\x4a")).Returns {} (.char (.scalar 'J'), ⟨[], ⟨1, 5, 5⟩⟩) {} ∧
      (readDatum {} .code (.ofText "#\\x80000000")).Raises {} (.fault .codePointOverflow) {} ∧
      (readDatum {} .code (.ofText "#\\xyz")).Raises {}
        (({} : Context).complaint (.unknownCharacter "xyz") .start) {} := by
  have digits : HexDigits "4a" 0x4a :=
    ⟨by decide, [4, 10], .cons (by decide) (.cons (by decide) .nil), by decide⟩
  obtain ⟨positional, plain_only, -, escaped, numbered⟩ := hex_scalars {} .code {}
  have denoted : DenotesHex "4a" 0x4a := positional _ _ digits
  have plain : ∀ x ∈ ("4a" : Text), IsPlain x := by
    unfold IsPlain
    decide
  have ⟨_, _, _⟩ := plain_only _ _ denoted plain
  have large : Overflows "80000000" :=
    ⟨0x80000000, IntegerLiteral.parse?_eq_some_iff.mp (by decide), .inr (by decide)⟩
  have ⟨past, fits⟩ := Lexeme.hexCodePoint_eq_none_iff.mp
    (show Lexeme.hexCodePoint "110000" = .ok none by decide)
  have ⟨no_number, no_overflow⟩ := Lexeme.hexCodePoint_eq_none_iff.mp
    (show Lexeme.hexCodePoint "yz" = .ok none by decide)
  refine ⟨digits, denoted, ?_, ?_, ?_, ?_, ?_, ?_⟩
  · exact (escaped (.ofText "\"<\\x4a;>\"") .string "<\\x4a;>\"" "<" 2 "4a;>\"" rfl
      (.plain (by decide) (by decide) (.here _ _))).2.1 (.scalar 'J') ">\"" rfl denoted
  · exact (escaped (.ofText "|\\x110000;|") .symbol "\\x110000;|" [] 1 "110000;|" rfl
      (.here _ _)).2.2.2 (fun x both => past x both.2) (fun both => fits both.2)
  · exact (escaped (.ofText "|\\x80000000;|") .symbol "\\x80000000;|" [] 1 "80000000;|" rfl
      (.here _ _)).2.2.1 ⟨⟨"|", rfl⟩, large⟩
  · exact ((numbered (.ofText "#\\x4a") (.scalar 'x') "4a" rfl rfl (by decide) (by decide)).1 _ _ _).mpr
      ⟨.scalar 'J', rfl, denoted, rfl, by decide, rfl⟩
  · exact (numbered (.ofText "#\\x80000000") (.scalar 'x') "80000000" rfl rfl (by decide)
      (by decide)).2.1 rfl large
  · exact (numbered (.ofText "#\\xyz") (.scalar 'x') "yz" rfl rfl (by decide) (by decide)).2.2
      (fun x both => no_number x both.2) (fun both => no_overflow both.2)

/-- A sign before the digits is read as part of the number, in a string and in a character literal. -/
theorem hex_scalars_signed :
    (readDatum {} .code (.ofText "\"\\x+41;\"")).Returns {} (.string "A", ⟨[], ⟨1, 8, 8⟩⟩) {} ∧
      (readDatum {} .code (.ofText "#\\x+41")).Returns {} (.char (.scalar 'A'), ⟨[], ⟨1, 6, 6⟩⟩) {} ∧
      ∀ n, ¬ HexDigits "+41" n := by
  refine ⟨?_, ?_, ?_⟩
  · have read : Reads {} (.here .code) (.ofText "\"\\x+41;\"") {} (.datum (.string "A"))
        ((Cursor.ofText "\"\\x+41;\"").advance 8) {} := .flat (.string rfl (by decide))
    exact returns_readDatum.mpr (Reads.datum_of_here read)
  · have hash : (Cursor.ofText "#\\x+41").rest = .scalar '#' :: .backslash :: .scalar 'x' :: "+41" := rfl
    exact (returns_character hash).mpr ⟨.scalar 'A', 6, by decide, rfl, by decide, rfl⟩
  · rintro n ⟨-, values, each, -⟩
    cases each with
    | cons digit each => exact absurd (digit.mem_hexDigits (Nat.le_refl 16)) (by decide)

end Reader

end LineDirective
