import LineDirective.Proofs.CaseFolding
import LineDirective.Proofs.FailureAdequacy
import Mathlib.Data.Nat.Digits.Defs

/-!
# Radix literals

A token after `#b`, `#o` or `#x` is an optional sign and digits of the radix, and denotes the value of
its digits: hexadecimal digits pass a filter first, and of what passes it the notation for integers
takes the digits of the radix. The filter lets the mark `0b` through as well, `b` being a hexadecimal
digit, so that binary tokens alone may carry the mark of their base
(`Number.parseRadix_eq_ok_some`).
-/

namespace LineDirective

/-! ## 1. Digits -/

def hexDigits : Text := "0123456789abcdefABCDEF"

namespace CodePoint

/-- A code point is a digit of a radix, small or capital, with the value given. -/
def IsDigit (radix : Nat) (c : CodePoint) (d : Nat) : Prop :=
  d < radix ∧
    (("0123456789abcdef" : Text)[d]? = some c ∨ ("0123456789ABCDEF" : Text)[d]? = some c)

instance (radix : Nat) (c : CodePoint) (d : Nat) : Decidable (IsDigit radix c d) :=
  inferInstanceAs (Decidable (_ ∧ _))

/-- Only code points of ASCII can be digits, and each of them can be looked at. -/
theorem of_asciiDigit? {P : CodePoint → Nat → Prop} [∀ c d, Decidable (P c d)]
    (all : ∀ n ∈ List.range 128, (ofNat? n).all fun c => c.asciiDigit?.all fun d => P c d) {c : CodePoint}
    {d : Nat} (value : c.asciiDigit? = some d) : P c d := by
  have this := all c.toNat (List.mem_range.mpr (lt_of_asciiDigit? value))
  rw [ofNat?_toNat, Option.all_some, value] at this
  exact of_decide_eq_true this

theorem mem_hexDigits_of_isHexDigit {c : CodePoint} (hex : c.isHexDigit = true) : c ∈ hexDigits := by
  unfold isHexDigit at hex
  split at hex
  · rename_i d value
    have small : d < 16 := of_decide_eq_true hex
    exact of_asciiDigit? (P := fun c d => d < 16 → c ∈ hexDigits) (by decide +kernel) value small
  · cases hex

theorem isHexDigit_of_mem {c : CodePoint} (mem : c ∈ hexDigits) : c.isHexDigit = true := by
  have all : ∀ c ∈ hexDigits, c.isHexDigit = true := by decide
  exact all c mem

variable {radix : Nat} {c : CodePoint} {d : Nat}

theorem asciiDigit?_eq_some (small : d < 16) : c.asciiDigit? = some d ↔ IsDigit 16 c d := by
  constructor
  · intro value
    have shown := of_asciiDigit? (P := fun c d => d < 16 →
        ("0123456789abcdef" : Text)[d]? = some c ∨ ("0123456789ABCDEF" : Text)[d]? = some c)
      (by decide +kernel) value
    exact ⟨small, shown small⟩
  · intro digit
    have all : ∀ d ∈ List.range 16, ("0123456789abcdef" : Text)[d]?.all (·.asciiDigit? = some d) ∧
        ("0123456789ABCDEF" : Text)[d]?.all (·.asciiDigit? = some d) := by decide
    obtain ⟨lower, upper⟩ := all d (List.mem_range.mpr small)
    rcases digit.2 with same | same
    · rw [same] at lower
      exact of_decide_eq_true lower
    · rw [same] at upper
      exact of_decide_eq_true upper

theorem IsDigit.mem_hexDigits (digit : IsDigit radix c d) (known : radix ≤ 16) : c ∈ hexDigits := by
  have small : d < 16 := Nat.lt_of_lt_of_le digit.1 known
  apply mem_hexDigits_of_isHexDigit
  rw [isHexDigit, (asciiDigit?_eq_some small).mpr ⟨small, digit.2⟩]
  exact decide_eq_true small

theorem digit_of_mem {digits : Text} {values : List Nat}
    (each : List.Forall₂ (IsDigit radix) digits values) (mem : c ∈ digits) : ∃ d, IsDigit radix c d := by
  induction each with
  | nil => cases mem
  | cons digit _ ih =>
    rcases List.mem_cons.mp mem with rfl | mem
    · exact ⟨_, digit⟩
    · exact ih mem

theorem digitBelow?_eq_some (known : radix ≤ 16) :
    IntegerLiteral.digitBelow? radix c = some d ↔ IsDigit radix c d := by
  rw [IntegerLiteral.digitBelow?, Option.filter_eq_some_iff, decide_eq_true_eq]
  constructor
  · rintro ⟨value, below⟩
    exact ⟨below, ((asciiDigit?_eq_some (Nat.lt_of_lt_of_le below known)).mp value).2⟩
  · rintro ⟨below, shown⟩
    have small : d < 16 := Nat.lt_of_lt_of_le below known
    exact ⟨(asciiDigit?_eq_some small).mpr ⟨small, shown⟩, below⟩

end CodePoint

/-- What the digits of a text denote is their positional value. -/
theorem numeralValue_eq_ofDigits (base : Nat) (values : List Nat) :
    numeralValue base values = Nat.ofDigits base values.reverse := by
  induction values using List.reverseRecOn with
  | nil => rfl
  | append_singleton values d ih =>
    rw [numeralValue_concat, ih, List.reverse_append, List.reverse_singleton, List.singleton_append,
      Nat.ofDigits_cons, Nat.mul_comm, Nat.add_comm]

/-! ## 2. Signs, marks and digits -/

namespace IntegerLiteral

def signs : List (Bool × Text) := [(false, []), (false, "+"), (true, "-")]

/-- The marks that a token of hexadecimal digits may carry in a radix. -/
def marks (radix : Nat) : List Text := if radix = 2 then ["", "0b", "0B"] else [""]

variable {radix : Nat} {negative : Bool} {sign body t : Text}

theorem mem_signs_of_splitSign (split : splitSign t = (negative, body)) :
    ∃ sign, (negative, sign) ∈ signs ∧ t = sign ++ body := by
  unfold splitSign at split
  split at split
  · cases split
    exact ⟨[.scalar '-'], by decide, rfl⟩
  · cases split
    exact ⟨[.scalar '+'], by decide, rfl⟩
  · cases split
    exact ⟨[], by decide, rfl⟩

/-- A sign is split off what does not begin with another one. -/
theorem splitSign_append (signed : (negative, sign) ∈ signs) (hex : ∀ c ∈ body.head?, c ∈ hexDigits) :
    splitSign (sign ++ body) = (negative, body) := by
  have which : (negative = false ∧ sign = []) ∨ (negative = false ∧ sign = [.scalar '+']) ∨
      (negative = true ∧ sign = [.scalar '-']) := by
    simpa [signs, Text.ofString] using signed
  rcases which with ⟨rfl, rfl⟩ | ⟨rfl, rfl⟩ | ⟨rfl, rfl⟩
  · rw [List.nil_append]
    unfold splitSign
    split
    · exact absurd (hex _ rfl) (by decide)
    · exact absurd (hex _ rfl) (by decide)
    · rfl
  · rfl
  · rfl

theorem map_asciiForm_of_hex (signed : (negative, sign) ∈ signs) (hex : ∀ c ∈ body, c ∈ hexDigits) :
    (sign ++ body).map asciiForm = sign ++ body := by
  have kept : ∀ c ∈ hexDigits, asciiForm c = c := by decide +kernel
  have kept' : ∀ s ∈ signs, ∀ c ∈ s.2, asciiForm c = c := by decide +kernel
  have same : ∀ c ∈ sign ++ body, asciiForm c = id c := by
    intro c mem
    rcases List.mem_append.mp mem with mem | mem
    · exact kept' _ signed c mem
    · exact kept c (hex c mem)
  rw [List.map_congr_left same, List.map_id]

/-- Without underscores the digits stand one after the other. -/
theorem groupedDigits?_eq_some {values : List Nat} (known : radix ≤ 16)
    (plain : ∀ c ∈ t, c ≠ .scalar '_') (afterDigit : Bool) :
    groupedDigits? radix afterDigit t = some values ↔
      List.Forall₂ (CodePoint.IsDigit radix) t values ∧ (afterDigit = true ∨ t ≠ []) := by
  induction t generalizing afterDigit values with
  | nil => cases afterDigit <;> simp [groupedDigits?, eq_comm]
  | cons c t ih =>
    have no_underscore := plain c (List.mem_cons_self ..)
    have no_more : ∀ x ∈ t, x ≠ .scalar '_' := fun x mem => plain x (List.mem_cons_of_mem c mem)
    unfold groupedDigits?
    cases value : digitBelow? radix c with
    | none =>
      simp only [no_underscore, and_false, if_false]
      constructor
      · intro h
        cases h
      · rintro ⟨each, -⟩
        cases each with
        | cons digit _ =>
          rw [(CodePoint.digitBelow?_eq_some known).mpr digit] at value
          cases value
    | some d =>
      have digit := (CodePoint.digitBelow?_eq_some known).mp value
      simp only [Option.map_eq_some_iff]
      constructor
      · rintro ⟨more, read, rfl⟩
        exact ⟨.cons digit ((ih no_more true).mp read).1, .inr (List.cons_ne_nil c t)⟩
      · rintro ⟨each, -⟩
        cases each with
        | @cons _ d' _ more digit' each =>
          have same := (CodePoint.digitBelow?_eq_some known).mpr digit'
          rw [value] at same
          obtain rfl := Option.some.inj same
          exact ⟨more, (ih no_more true).mpr ⟨each, .inl rfl⟩, rfl⟩

/-- Of hexadecimal digits only the mark of radix two can be taken away. -/
theorem mem_marks_of_dropMark (known : radix = 2 ∨ radix = 8 ∨ radix = 16)
    (hex : ∀ c ∈ body, c ∈ hexDigits) : ∃ mark ∈ marks radix, body = mark ++ dropMark radix body := by
  have unmarked : ([] : Text) ∈ marks radix := by rcases known with rfl | rfl | rfl <;> decide
  unfold dropMark
  split
  · rename_i letter rest
    have among : letter ∈ hexDigits := hex letter (List.mem_cons_of_mem _ (List.mem_cons_self ..))
    by_cases marked : isMarkLetter radix letter = true
    · rw [if_pos marked]
      have no_underscore : dropUnderscore rest = rest := by
        unfold dropUnderscore
        split
        · exact absurd (hex (.scalar '_') (by simp)) (by decide)
        · rfl
      rw [no_underscore]
      have binary : ∀ radix ∈ [8, 16], ∀ x ∈ hexDigits, isMarkLetter radix x = false := by decide
      rcases known with rfl | rfl | rfl
      · have which : letter = .scalar 'b' ∨ letter = .scalar 'B' := by simpa [isMarkLetter] using marked
        rcases which with rfl | rfl
        · exact ⟨"0b", by decide, rfl⟩
        · exact ⟨"0B", by decide, rfl⟩
      · rw [binary 8 (by decide) letter among] at marked
        cases marked
      · rw [binary 16 (by decide) letter among] at marked
        cases marked
    · rw [if_neg marked]
      exact ⟨[], unmarked, rfl⟩
  · exact ⟨[], unmarked, rfl⟩

/-- Digits of the radix cannot be taken for a mark, and follow one that is there. -/
theorem dropMark_append {mark digits : Text} {values : List Nat}
    (known : radix = 2 ∨ radix = 8 ∨ radix = 16) (marked : mark ∈ marks radix)
    (each : List.Forall₂ (CodePoint.IsDigit radix) digits values) :
    dropMark radix (mark ++ digits) = digits := by
  have small : radix ≤ 16 := by omega
  have letters : ∀ radix ∈ [2, 8, 16], ∀ x ∈ hexDigits, isMarkLetter radix x = true →
      digitBelow? radix x = none := by decide
  have bare : dropMark radix digits = digits := by
    unfold dropMark
    split
    · rename_i letter rest
      cases each with
      | cons _ each =>
        cases each with
        | cons digit _ =>
          have value := (CodePoint.digitBelow?_eq_some small).mpr digit
          apply if_neg
          intro marked
          rw [letters radix (by simpa using known) letter (digit.mem_hexDigits small) marked] at value
          cases value
    · rfl
  have no_underscore : dropUnderscore digits = digits := by
    unfold dropUnderscore
    split
    · cases each with
      | cons digit _ => exact absurd (digit.mem_hexDigits small) (by decide)
    · rfl
  unfold marks at marked
  split at marked
  · rename_i binary
    subst binary
    have which : mark = [] ∨ mark = [.scalar '0', .scalar 'b'] ∨ mark = [.scalar '0', .scalar 'B'] := by
      simpa [Text.ofString] using marked
    rcases which with rfl | rfl | rfl
    · exact bare
    · exact no_underscore
    · exact no_underscore
  · obtain rfl : mark = [] := by simpa [Text.ofString] using marked
    exact bare

end IntegerLiteral

/-! ## 3. Tokens -/

namespace Number

/-- A token is an optional sign, a mark, and digits of a radix, and this is the integer that its sign
and its digits denote. -/
inductive SpelledIn (radix : Nat) (mark : Text) : Text → Int → Prop
  | digits {negative : Bool} {sign digits : Text} {values : List Nat}
      (signed : (negative, sign) ∈ IntegerLiteral.signs) (some_digit : digits ≠ [])
      (each : List.Forall₂ (CodePoint.IsDigit radix) digits values) :
      SpelledIn radix mark (sign ++ (mark ++ digits))
        (IntegerLiteral.signed negative (Nat.ofDigits radix values.reverse))

/-- A token denotes an integer in a radix: besides sign and digits it may carry a mark that is made of
hexadecimal digits. -/
def DenotesIn (radix : Nat) (token : Text) (k : Int) : Prop :=
  ∃ mark ∈ IntegerLiteral.marks radix, SpelledIn radix mark token k

variable {radix : Nat} {token : Text}

/-- A token that passes the filter is a sign and hexadecimal digits. -/
theorem isRadixToken_iff : isRadixToken token = true ↔ ∃ negative sign body,
    (negative, sign) ∈ IntegerLiteral.signs ∧ token = sign ++ body ∧ body ≠ [] ∧
      ∀ c ∈ body, c ∈ hexDigits := by
  constructor
  · intro passed
    cases split : IntegerLiteral.splitSign token with
    | mk negative body =>
      obtain ⟨sign, signed, same⟩ := IntegerLiteral.mem_signs_of_splitSign split
      simp only [isRadixToken, split, Bool.and_eq_true, Bool.not_eq_true', List.isEmpty_eq_false_iff,
        List.all_eq_true] at passed
      exact ⟨negative, sign, body, signed, same, passed.1,
        fun c mem => CodePoint.mem_hexDigits_of_isHexDigit (passed.2 c mem)⟩
  · rintro ⟨negative, sign, body, signed, rfl, some_digit, hex⟩
    have initial : ∀ c ∈ body.head?, c ∈ hexDigits := fun c mem => hex c (List.mem_of_mem_head? mem)
    simp only [isRadixToken, IntegerLiteral.splitSign_append signed initial, Bool.and_eq_true,
      Bool.not_eq_true', List.isEmpty_eq_false_iff, List.all_eq_true]
    exact ⟨some_digit, fun c mem => CodePoint.isHexDigit_of_mem (hex c mem)⟩

/-- Such a token is taken apart where it was put together. -/
theorem parse?_append {negative : Bool} {sign body : Text}
    (signed : (negative, sign) ∈ IntegerLiteral.signs) (hex : ∀ c ∈ body, c ∈ hexDigits) :
    IntegerLiteral.parse? radix (sign ++ body) =
      (IntegerLiteral.groupedDigits? radix false (IntegerLiteral.dropMark radix body)).map fun values =>
        IntegerLiteral.signed negative (Nat.ofDigits radix values.reverse) := by
  have initial : ∀ c ∈ body.head?, c ∈ hexDigits := fun c mem => hex c (List.mem_of_mem_head? mem)
  simp only [IntegerLiteral.parse?, IntegerLiteral.map_asciiForm_of_hex signed hex,
    IntegerLiteral.splitSign_append signed initial, numeralValue_eq_ofDigits]

theorem parseRadix_of_denotesIn {k : Int} (known : radix = 2 ∨ radix = 8 ∨ radix = 16)
    (denoted : DenotesIn radix token k) : parseRadix radix token = .ok (some (.integer k)) := by
  obtain ⟨mark, marked, spelled⟩ := denoted
  have small : radix ≤ 16 := by omega
  cases spelled with
  | @digits negative sign digits values signed some_digit each =>
    have hex : ∀ c ∈ digits, c ∈ hexDigits := by
      intro c mem
      obtain ⟨d, digit⟩ := CodePoint.digit_of_mem each mem
      exact digit.mem_hexDigits small
    have hex_mark : ∀ radix ∈ [2, 8, 16], ∀ mark ∈ IntegerLiteral.marks radix, ∀ c ∈ mark,
        c ∈ hexDigits := by decide
    have hex_body : ∀ c ∈ mark ++ digits, c ∈ hexDigits := by
      intro c mem
      rcases List.mem_append.mp mem with mem | mem
      · exact hex_mark radix (by simpa using known) mark marked c mem
      · exact hex c mem
    have passed : isRadixToken (sign ++ (mark ++ digits)) = true :=
      isRadixToken_iff.mpr ⟨negative, sign, mark ++ digits, signed, rfl, by simp [some_digit], hex_body⟩
    have plain : ∀ c ∈ digits, c ≠ .scalar '_' := by
      rintro c mem rfl
      exact absurd (hex _ mem) (by decide)
    have grouped : IntegerLiteral.groupedDigits? radix false digits = some values :=
      (IntegerLiteral.groupedDigits?_eq_some small plain false).mpr ⟨each, .inr some_digit⟩
    rw [parseRadix, if_neg (by omega), if_pos passed, parse?_append signed hex_body,
      IntegerLiteral.dropMark_append known marked each, grouped]
    rfl

theorem denotesIn_of_parseRadix {n : Number} (known : radix = 2 ∨ radix = 8 ∨ radix = 16)
    (parsed : parseRadix radix token = .ok (some n)) : ∃ k, n = .integer k ∧ DenotesIn radix token k := by
  have small : radix ≤ 16 := by omega
  rw [parseRadix, if_neg (by omega)] at parsed
  by_cases passed : isRadixToken token = true
  · rw [if_pos passed] at parsed
    obtain ⟨negative, sign, body, signed, rfl, -, hex⟩ := isRadixToken_iff.mp passed
    rw [parse?_append signed hex] at parsed
    obtain ⟨mark, marked, whole⟩ := IntegerLiteral.mem_marks_of_dropMark known hex
    cases grouped : IntegerLiteral.groupedDigits? radix false (IntegerLiteral.dropMark radix body) with
    | none =>
      rw [grouped] at parsed
      cases parsed
    | some values =>
      rw [grouped] at parsed
      cases parsed
      have plain : ∀ c ∈ IntegerLiteral.dropMark radix body, c ≠ .scalar '_' := by
        rintro c mem rfl
        have there : .scalar '_' ∈ body := by
          rw [whole]
          exact List.mem_append_right _ mem
        exact absurd (hex _ there) (by decide)
      obtain ⟨each, after | some_digit⟩ :=
        (IntegerLiteral.groupedDigits?_eq_some small plain false).mp grouped
      · cases after
      · refine ⟨_, rfl, mark, marked, ?_⟩
        nth_rewrite 1 [whole]
        exact .digits signed some_digit each
  · rw [if_neg passed] at parsed
    cases parsed

/-- The tokens of radixes two, eight and sixteen that are a number, and which. -/
theorem parseRadix_eq_ok_some {n : Number} (known : radix = 2 ∨ radix = 8 ∨ radix = 16) :
    parseRadix radix token = .ok (some n) ↔ ∃ k, n = .integer k ∧ DenotesIn radix token k := by
  constructor
  · exact denotesIn_of_parseRadix known
  · rintro ⟨k, rfl, denoted⟩
    exact parseRadix_of_denotesIn known denoted

/-- All other tokens are no number, and none is a fault. -/
theorem parseRadix_eq_ok_none (known : radix = 2 ∨ radix = 8 ∨ radix = 16)
    (other : ∀ k, ¬ DenotesIn radix token k) : parseRadix radix token = .ok none := by
  have no_fault : ∃ value, parseRadix radix token = .ok value := by
    rw [parseRadix, if_neg (by omega)]
    by_cases passed : isRadixToken token = true
    · exact ⟨_, if_pos passed⟩
    · exact ⟨_, if_neg passed⟩
  obtain ⟨value, parsed⟩ := no_fault
  cases value with
  | none => exact parsed
  | some n =>
    obtain ⟨k, -, denoted⟩ := denotesIn_of_parseRadix known parsed
    exact absurd denoted (other k)

theorem DenotesIn.ne_nil {k : Int} (denoted : DenotesIn radix token k) : token ≠ [] := by
  obtain ⟨mark, -, ⟨-, some_digit, -⟩⟩ := denoted
  simp [some_digit]

end Number

/-! ## 4. Literals in a text -/

namespace Lexeme

variable {radix : Nat} {letter : CodePoint} {rest : Text}

theorem letter_of_radix? (known : radix = 2 ∨ radix = 8 ∨ radix = 16)
    (named : radix? letter = some radix) : letter ∈ ("bBoOxX" : Text) := by
  unfold radix? at named
  split at named
  · rename_i which
    rcases which with rfl | rfl <;> decide
  · split at named
    · rename_i which
      rcases which with rfl | rfl <;> decide
    · split at named
      · rename_i which
        rcases which with rfl | rfl <;> decide
      · split at named
        · obtain rfl := Option.some.inj named
          omega
        · cases named

theorem startsHashToken_of_letter (among : letter ∈ ("bBoOxX" : Text)) :
    startsHashToken (.scalar '#' :: letter :: rest) = true := by
  unfold startsHashToken
  split
  · rename_i same
    cases same
    exact absurd among (by decide)
  · rename_i same
    cases same
    exact absurd among (by decide)
  · rename_i same
    cases same
    exact absurd among (by decide)
  · rename_i same
    cases same
    exact absurd among (by decide)
  · rfl
  · rename_i other
    exact absurd rfl (other _)

/-- After the letter of a radix stands its token. -/
theorem hashToken_of_letter (among : letter ∈ ("bBoOxX" : Text)) (named : radix? letter = some radix) :
    hashToken (.scalar '#' :: letter :: rest) =
      if token rest = [] then .error (.malformed (.unknownHash [letter]) 0)
      else radixNumber radix (letter :: token rest) (token rest) := by
  have letters : ∀ x ∈ ("bBoOxX" : Text), x.isDelimiter = false ∧ x ≠ .scalar 't' ∧
      x ≠ .scalar 'f' := by decide
  obtain ⟨plain, no_truth, no_falsity⟩ := letters letter among
  have word : token (letter :: rest) = letter :: token rest := by
    simp [token, plain]
  have truths : ¬ (letter :: token rest = ("t" : Text) ∨ letter :: token rest = ("true" : Text)) := by
    rintro (same | same) <;> exact no_truth (List.cons.inj same).1
  have falsities :
      ¬ (letter :: token rest = ("f" : Text) ∨ letter :: token rest = ("false" : Text)) := by
    rintro (same | same) <;> exact no_falsity (List.cons.inj same).1
  unfold hashToken
  simp only [List.drop_succ_cons, List.drop_zero, word]
  rw [if_neg truths, if_neg falsities]
  cases digits : token rest with
  | nil => rfl
  | cons x more => simp [named]

end Lexeme

namespace Reader

variable {ctx : Context} {mode : Mode} {c : Cursor} {s : ReaderState} {letter : CodePoint} {rest : Text}
  {radix : Nat}

theorem returns_radixLiteral {n : Number} (head : c.rest = .scalar '#' :: letter :: rest)
    (among : letter ∈ ("bBoOxX" : Text)) (named : Lexeme.radix? letter = some radix)
    (some_token : Lexeme.token rest ≠ [])
    (parsed : Number.parseRadix radix (Lexeme.token rest) = .ok (some n)) :
    (readDatum ctx mode c).Returns s (.number n, c.advance (2 + (Lexeme.token rest).length)) s := by
  have read : Lexeme.hashToken c.rest = .ok (.number n, 2 + (Lexeme.token rest).length) := by
    rw [head, Lexeme.hashToken_of_letter among named, if_neg some_token, Lexeme.radixNumber, parsed,
      List.length_cons]
    simp only [Except.ok.injEq, Prod.mk.injEq, true_and]
    omega
  have opened : Lexeme.startsHashToken c.rest = true := by
    rw [head]
    exact Lexeme.startsHashToken_of_letter among
  exact returns_readDatum.mpr (Reads.datum_of_here (.flat (.hash opened read)))

/-- What is misspelled where a datum starts is blamed there. -/
theorem raises_of_misspells {f : LexemeFailure} (starts : StartsDatum c.rest)
    (misspelled : Lexeme.Misspells s.foldCase c.rest f) :
    (readDatum ctx mode c).Raises s (ctx.blame c f) s := by
  have here : Fails ctx c.position (.here mode) c s (ctx.blame c f) s := .refused (.lexeme misspelled)
  refine (raises_readDatum c.position).mpr ?_
  cases mode with
  | code => exact .code (Reads.clear_of_startsDatum starts) here
  | directive => exact .directive here

theorem raises_radixLiteral (head : c.rest = .scalar '#' :: letter :: rest)
    (among : letter ∈ ("bBoOxX" : Text)) (named : Lexeme.radix? letter = some radix)
    (refused : Number.parseRadix radix (Lexeme.token rest) = .ok none) :
    ∃ cause ∈ [Cause.unknownHash (letter :: Lexeme.token rest),
        Cause.invalidNumber (letter :: Lexeme.token rest)],
      (readDatum ctx mode c).Raises s (ctx.complaint cause c.position) s := by
  have opened : Lexeme.startsHashToken c.rest = true := by
    rw [head]
    exact Lexeme.startsHashToken_of_letter among
  have starts : StartsDatum c.rest := by
    rw [head]
    have letters : ∀ x ∈ ("bBoOxX" : Text), x ≠ .scalar '|' ∧ x ≠ .scalar ';' ∧ x ≠ .scalar '!' := by
      decide
    exact startsDatum_of_hash _ (letters letter among)
  -- whatever the word is blamed for, it is blamed at the `#`
  have blamed (cause : Cause) (failed : Lexeme.hashToken c.rest = .error (.malformed cause 0)) :
      (readDatum ctx mode c).Raises s (ctx.complaint cause c.position) s :=
    raises_of_misspells starts (.hash opened failed)
  by_cases no_token : Lexeme.token rest = []
  · refine ⟨_, List.mem_cons_self .., blamed _ ?_⟩
    rw [head, Lexeme.hashToken_of_letter among named, if_pos no_token, no_token]
  · refine ⟨_, List.mem_cons_of_mem _ (List.mem_cons_self ..), blamed _ ?_⟩
    rw [head, Lexeme.hashToken_of_letter among named, if_neg no_token, Lexeme.radixNumber, refused]

/-- In the radixes two, eight and sixteen a token is a number if it is an optional sign and one or more
digits of the radix, and then it is the integer with this sign and the positional value of the digits,
however many they are; in radix two the mark `0b` or `0B` may stand before the digits. All other tokens
are no number. In a text a number of this kind follows `#b`, `#o` or `#x`, and every other token is
complained about at the `#` as a malformed datum. -/
theorem radix_literals (known : radix = 2 ∨ radix = 8 ∨ radix = 16) (token : Text) :
    (∀ n, Number.parseRadix radix token = .ok (some n) ↔
      ∃ k, n = .integer k ∧ Number.DenotesIn radix token k) ∧
    ((∀ k, ¬ Number.DenotesIn radix token k) → Number.parseRadix radix token = .ok none) ∧
    ∀ (ctx : Context) (mode : Mode) (c : Cursor) (s : ReaderState) (letter : CodePoint) (rest : Text),
      c.rest = .scalar '#' :: letter :: rest → Lexeme.radix? letter = some radix →
      Lexeme.token rest = token →
      (∀ k, Number.DenotesIn radix token k →
        (readDatum ctx mode c).Returns s (.number (.integer k), c.advance (2 + token.length)) s) ∧
      ((∀ k, ¬ Number.DenotesIn radix token k) →
        ∃ cause ∈ [Cause.unknownHash (letter :: token), Cause.invalidNumber (letter :: token)],
          cause.kind = .malformedDatum ∧
          (readDatum ctx mode c).Raises s (ctx.complaint cause c.position) s) := by
  refine ⟨fun n => Number.parseRadix_eq_ok_some known, Number.parseRadix_eq_ok_none known, ?_⟩
  rintro ctx mode c s letter rest head named rfl
  have among := Lexeme.letter_of_radix? known named
  constructor
  · intro k denoted
    exact returns_radixLiteral head among named denoted.ne_nil
      (Number.parseRadix_of_denotesIn known denoted)
  · intro other
    obtain ⟨cause, listed, raised⟩ :=
      raises_radixLiteral head among named (Number.parseRadix_eq_ok_none known other)
    refine ⟨cause, listed, ?_, raised⟩
    rcases List.mem_pair.mp listed with rfl | rfl <;> rfl

/-- The hexadecimal numeral `-fF`, also after its prefix, and a digit that octal numerals do not have. -/
theorem radix_literals_hexadecimal :
    Number.DenotesIn 16 "-fF" (-255) ∧ Number.parseRadix 16 "-fF" = .ok (some (.integer (-255))) ∧
      (readDatum {} .code (.ofText "#x-fF")).Returns {} (.number (.integer (-255)), ⟨[], ⟨1, 5, 5⟩⟩) {} ∧
      Number.parseRadix 8 "8" = .ok none := by
  have denoted : Number.DenotesIn 16 "-fF" (-255) :=
    ⟨[], by decide, @Number.SpelledIn.digits 16 [] true "-" "fF" [15, 15] (by decide) (by decide)
      (.cons (by decide) (.cons (by decide) .nil))⟩
  have other : ∀ k, ¬ Number.DenotesIn 8 "8" k := by
    rintro k ⟨mark, marked, spelled⟩
    have parsed := Number.parseRadix_of_denotesIn (by decide) ⟨mark, marked, spelled⟩
    have refused : Number.parseRadix 8 "8" = .ok none := by decide
    rw [refused] at parsed
    cases parsed
  have hexadecimal := @radix_literals 16 (by decide) "-fF"
  have octal := @radix_literals 8 (by decide) "8"
  refine ⟨denoted, (hexadecimal.1 _).mpr ⟨_, rfl, denoted⟩, ?_, octal.2.1 other⟩
  exact (hexadecimal.2.2 {} .code (.ofText "#x-fF") {} (.scalar 'x') "-fF" rfl rfl (by decide)).1 _ denoted

/-- The binary numeral `0b1` is read, although its second code point is no binary digit. -/
theorem radix_literals_marked :
    Number.parseRadix 2 "0b1" = .ok (some (.integer 1)) ∧ ∀ k, ¬ Number.SpelledIn 2 [] "0b1" k := by
  refine ⟨by decide, ?_⟩
  intro k spelled
  generalize same : ("0b1" : Text) = token at spelled
  cases spelled with
  | @digits negative sign digits values signed some_digit each =>
    have binary : ∀ x ∈ digits, x ≠ .scalar 'b' := by
      rintro x mem rfl
      obtain ⟨d, below, shown⟩ := CodePoint.digit_of_mem each mem
      interval_cases d <;> revert shown <;> decide
    have unsigned : ∀ s ∈ IntegerLiteral.signs, CodePoint.scalar 'b' ∉ s.2 := by decide
    have there : CodePoint.scalar 'b' ∈ sign ++ ([] ++ digits) := by
      rw [← same]
      decide
    rcases List.mem_append.mp there with mem | mem
    · exact unsigned _ signed mem
    · exact binary _ mem rfl

end Reader

end LineDirective
