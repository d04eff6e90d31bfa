import LineDirective.Proofs.Items
import LineDirective.Proofs.RoundTrip

/-!
# What a failure to read is put down to

Most failures are complaints about the text. The others are faults, and there are five ways to one: a
number after a decimal mark that is a ratio over zero, an overlong numeral, a hex escape and a
character number that fit no machine integer, and a recorded directive that has no written form.
`Failure.Accounted` lists them with the part of the text or the directive that is to blame. Every rule
for failing reads keeps to the list (`Fails.accounted`), and so do the items of a session, one by one
and all together.
-/

namespace LineDirective

/-! ## 1. Spellings that end in a fault -/

namespace Lexeme

def Unrepresentable (digits : Text) : Prop :=
  ∃ n, IntegerLiteral.parse? 16 digits = some n ∧ (n < -0x80000000 ∨ 0x7fffffff < n)

/-- The spellings at the start of a text on which the reader stops with a fault. -/
inductive Defect : Text → Fault → Prop
  /-- A decimal number with its mark. -/
  | marked {letter : CodePoint} {rest : Text} {fault : Fault} (decimal : radix? letter = some 10)
      (valueless : Number.Valueless (token rest) fault) :
      Defect (.scalar '#' :: letter :: rest) fault
  /-- A number without a mark; a ratio over zero is complained about. -/
  | bare {t : Text} {fault : Fault} (valueless : Number.Valueless (token t) fault)
      (not_zero : ∀ n, fault ≠ .zeroDenominator n) : Defect t fault
  | escape {rest : Text} (large : Unrepresentable (token rest)) :
      Defect (.backslash :: .scalar 'x' :: rest) .codePointOverflow
  /-- A character by number, after case folding if that is on. -/
  | character {fold : Bool} {first : CodePoint} {rest digits : Text}
      (numbered : (if fold then Text.fold (first :: token rest) else first :: token rest) =
        .scalar 'x' :: digits)
      (large : Unrepresentable digits) :
      Defect (.scalar '#' :: .backslash :: first :: rest) .codePointOverflow

theorem hexCodePoint_eq_error {digits : Text} {fault : Fault}
    (h : hexCodePoint digits = .error fault) :
    Unrepresentable digits ∧ fault = .codePointOverflow := by
  unfold hexCodePoint at h
  split at h
  · cases h
  · rename_i n value
    unfold codePointOf at h
    split at h
    · rename_i large
      cases h
      exact ⟨⟨n, value, large⟩, rfl⟩
    · split at h <;> cases h

theorem defect_of_escape {q : Quotation} {start : Nat} {t : Text} {fault : Fault}
    (h : escape q start t = .error (.fault fault)) : Defect (.backslash :: t) fault := by
  unfold escape at h
  split at h
  · cases h
  · split at h
    · cases h
    · split at h
      · rename_i letter
        subst letter
        simp only at h
        split at h
        · cases h
        · split at h
          · rename_i failed
            cases h
            obtain ⟨large, rfl⟩ := hexCodePoint_eq_error failed
            exact .escape large
          · cases h
          · cases h
      · split at h
        · split at h <;> cases h
        · cases h

/-- A fault inside quotes is that of an escape in the text from here on. -/
theorem defect_of_quotedFrom {q : Quotation} {skip start : Nat} {t : Text} {fault : Fault}
    (h : quotedFrom q skip start t = .error (.fault fault)) :
    ∃ rest, rest <:+ t ∧ Defect rest fault := by
  have step {x : CodePoint} {t : Text} : (∃ rest, rest <:+ t ∧ Defect rest fault) →
      ∃ rest, rest <:+ x :: t ∧ Defect rest fault := by
    rintro ⟨rest, part, defect⟩
    exact ⟨rest, part.trans (List.suffix_cons x t), defect⟩
  fun_induction quotedFrom q skip start t with
  | case1 => cases h
  | case2 skip start x rest ih => exact step (ih h)
  | case3 => cases h
  | case4 start rest _ failed _ =>
    cases h
    exact ⟨_, List.suffix_rfl, defect_of_escape failed⟩
  | case5 start rest _ meaning n _ ih => exact step (ih (map_eq_error.mp h))
  | case6 start c rest _ _ ih => exact step (ih (map_eq_error.mp h))

theorem defect_of_character {fold : Bool} {rest : Text} {fault : Fault}
    (h : character fold (.scalar '#' :: .backslash :: rest) = .error (.fault fault)) :
    Defect (.scalar '#' :: .backslash :: rest) fault := by
  unfold character at h
  simp only [List.drop_succ_cons, List.drop_zero] at h
  split at h
  · cases h
  · split at h
    · cases h
    · split at h
      · cases h
      · split at h
        · rename_i numbered
          split at h
          · rename_i failed
            cases h
            obtain ⟨large, rfl⟩ := hexCodePoint_eq_error failed
            exact .character numbered large
          · cases h
          · cases h
        · cases h

theorem valueless_of_radixNumber {radix : Nat} {word digits : Text} {fault : Fault}
    (h : radixNumber radix word digits = .error (.fault fault)) :
    radix = 10 ∧ Number.Valueless digits fault := by
  unfold radixNumber at h
  split at h
  · rename_i failed
    cases h
    unfold Number.parseRadix at failed
    split at failed
    · rename_i ten
      exact ⟨ten, Number.parse_eq_error failed⟩
    · split at failed <;> cases failed
  · cases h
  · cases h

theorem defect_of_hashToken {t : Text} {fault : Fault} (opened : startsHashToken t = true)
    (h : hashToken t = .error (.fault fault)) : Defect t fault := by
  obtain ⟨rest, rfl⟩ := head_of_startsHashToken opened
  unfold hashToken at h
  simp only [List.drop_succ_cons, List.drop_zero] at h
  split at h
  · cases h
  · split at h
    · cases h
    · split at h
      · rename_i letter digit more word
        split at h
        · rename_i radix known
          obtain ⟨rfl, valueless⟩ := valueless_of_radixNumber h
          -- the mark is not a delimiter, so what is after it is a token of its own
          obtain ⟨after, rfl, digits⟩ : ∃ after, rest = letter :: after ∧
              token after = digit :: more := by
            cases rest with
            | nil => cases word
            | cons x after =>
              unfold token at word ⊢
              rw [List.takeWhile_cons] at word
              split at word
              · obtain ⟨rfl, same⟩ := List.cons_eq_cons.mp word
                exact ⟨after, rfl, same⟩
              · cases word
          exact .marked known (digits ▸ valueless)
        · cases h
      · cases h

theorem defect_of_atom {fold : Bool} {t : Text} {fault : Fault}
    (h : atom fold t = .error (.fault fault)) : Defect t fault := by
  have some_token : token t ≠ [] := by
    intro nothing
    unfold atom at h
    rw [nothing] at h
    cases t with
    | nil => cases h
    | cons c rest => cases h
  rw [atom_of_token some_token] at h
  split at h
  · cases h
  · split at h
    · cases h
    · rename_i failed not_zero parsed
      cases h
      exact .bare (Number.parse_eq_error parsed) fun n same => not_zero n same
    · cases h
    · cases h

theorem Misspells.defect {fold : Bool} {t : Text} {fault : Fault}
    (h : Misspells fold t (.fault fault)) : ∃ rest, rest <:+ t ∧ Defect rest fault := by
  cases h with
  | string opened failed | symbol opened failed =>
    obtain ⟨rest, part, defect⟩ := defect_of_quotedFrom failed
    exact ⟨rest, part.trans (List.drop_suffix 1 t), defect⟩
  | character opened failed =>
    subst opened
    exact ⟨_, List.suffix_rfl, defect_of_character failed⟩
  | hash opened failed => exact ⟨t, List.suffix_rfl, defect_of_hashToken opened failed⟩
  | atom opened failed => exact ⟨t, List.suffix_rfl, defect_of_atom failed⟩

end Lexeme

/-! ## 2. Failures of a read -/

/-- What a failure to read a text is put down to, when the given directives are on record after it:
a complaint, of one of the three kinds; a spelling somewhere in the text; or a directive that has a
numeral or something spelled like one with too many digits to be written. -/
inductive Failure.Accounted (t : Text) (recorded : List Directive) : Failure → Prop
  | diagnosed (error : ReadError) : Accounted t recorded (.diagnosed error)
  | defect {rest : Text} {fault : Fault} (part : rest <:+ t) (bad : Lexeme.Defect rest fault) :
      Accounted t recorded (.fault fault)
  | unwritable {d : Directive} {fault : Fault} (kept : d ∈ recorded)
      (failed : d.write = .error fault) (long : ¬ Datum.WithinDigitLimitItems d.datums) :
      Accounted t recorded (.fault fault)

theorem Failure.Accounted.mono {t u : Text} {recorded : List Directive} {e : Failure}
    (h : e.Accounted t recorded) (part : t <:+ u) : e.Accounted u recorded := by
  cases h with
  | diagnosed error => exact .diagnosed error
  | defect inner bad => exact .defect (inner.trans part) bad
  | unwritable kept failed long => exact .unwritable kept failed long

theorem Failure.Accounted.behind {c c' : Cursor} {recorded : List Directive} {e : Failure}
    (h : e.Accounted c'.rest recorded) (ahead : c.Reaches c') : e.Accounted c.rest recorded :=
  h.mono ahead.rest_suffix

/-- Well-formed data are written unless there are too many digits. -/
theorem Directive.not_withinDigitLimit {d : Directive} {fault : Fault}
    (formed : Datum.wellFormedItems d.datums = true) (failed : d.write = .error fault) :
    ¬ Datum.WithinDigitLimitItems d.datums := by
  intro short
  obtain ⟨texts, written⟩ := Datum.exists_writeItems d.datums formed short
  rw [Directive.write, written] at failed
  cases failed

theorem Context.accounted_record {ctx : Context} {d : Directive} {t : Text} {s s' : ReaderState}
    {e : Failure} (formed : Datum.wellFormedItems d.datums = true)
    (h : (ctx.record d).Raises s e s') : e.Accounted t s'.directives := by
  unfold record at h
  simp only at h
  split at h
  · simp at h
  · simp at h
  · obtain failed | ⟨_, s₁, kept, rest⟩ := ReadM.raises_bind.mp h
    · simp at failed
    · obtain rfl := ReadM.returns_modify.mp kept
      obtain failed | ⟨_, _, -, reported⟩ := ReadM.raises_bind.mp rest
      · obtain ⟨fault, unwritten, rfl, rfl⟩ := ReadM.raises_liftFault.mp failed
        exact .unwritable (by simp) unwritten (d.not_withinDigitLimit formed unwritten)
      · simp at reported

theorem Refuses.accounted {ctx : Context} {mode : Mode} {fold : Bool} {c : Cursor} {e : Failure}
    {recorded : List Directive} (h : Refuses ctx mode fold c e) : e.Accounted c.rest recorded := by
  cases h with
  | ended nothing => exact .diagnosed _
  | closer head closes => exact .diagnosed _
  | @lexeme f misspelled =>
    cases f with
    | malformed cause distance => exact .diagnosed _
    | fault fault =>
      obtain ⟨rest, part, bad⟩ := misspelled.defect
      exact .defect part bad
  | nested inside starts => exact .diagnosed _
  | marker head declined => exact .diagnosed _

@[simp] theorem Failure.directives_reported (p : Position) (s : ReaderState) (e : Failure) :
    (e.reported p s).directives = s.directives := by
  cases e <;> rfl

theorem Fails.accounted {ctx : Context} {opened : Position} {task : Task} {c : Cursor}
    {s s' : ReaderState} {e : Failure} (h : Fails ctx opened task c s e s') :
    e.Accounted c.rest s'.directives := by
  -- by induction on the rules: what fails inside a read fails in a part of its text
  induction h with
  | codeSkip _ ih | directive _ ih | itemsSkip _ ih | remarkSkip _ _ ih | intralineSkip _ _ ih
  | datumsSkip _ ih => exact ih
  | refused refuses => exact refuses.accounted
  | code skipped _ ih | itemDatum skipped _ _ _ _ ih | remark _ skipped _ ih
  | intralineComment _ skipped _ _ ih => exact ih.behind skipped.reaches
  | list _ _ _ ih | blank _ _ _ ih | intralineBlank _ _ _ ih => exact ih.behind (Cursor.reaches_next _)
  | abbreviationSkip _ _ ih | vector _ _ ih | bytevector _ _ ih | datumComment _ _ ih
  | lineDatumSkip _ _ ih | lineDirective _ _ _ _ ih => exact ih.behind (Cursor.reaches_advance _ _)
  | missingAbbreviated | dottedVector | badBytevector | unterminated | wrongCloser | afterTail
  | leadingDot | missingTail | blockComment | crossingDatum => exact .diagnosed _
  | abbreviation _ skipped _ _ ih | lineDatumComment _ skipped _ _ _ ih =>
    exact (ih.behind skipped.reaches).behind (Cursor.reaches_advance _ _)
  | dotSkip skipped _ _ _ _ ih =>
    exact (ih.behind (Cursor.reaches_next _)).behind skipped.reaches
  | tail skipped _ _ _ skipped₂ _ _ ih =>
    exact ((ih.behind skipped₂.reaches).behind (Cursor.reaches_next _)).behind skipped.reaches
  | dot skipped _ _ _ skipped₂ _ read _ ih =>
    exact ((ih.behind (skipped₂.reaches.trans read.reaches)).behind (Cursor.reaches_next _)).behind
      skipped.reaches
  | item skipped _ _ _ read _ ih | lineDatum skipped _ _ read _ _ ih =>
    exact (ih.behind read.reaches).behind skipped.reaches
  | unrecorded _ _ _ scanned failed =>
    have formed : Datum.wellFormedItems _ = true := scanned.wellFormed rfl
    exact ctx.accounted_record formed failed
  | @lineDatumRead _ _ _ _ _ _ _ e s₂ skipped _ _ _ ih =>
    rw [Failure.directives_reported]
    exact ih.behind skipped.reaches

/-! ## 3. Failures of a session -/

theorem Misses.accounted {ctx : Context} {c : Cursor} {s s' : ReaderState} {e : Failure}
    (h : Misses ctx c s e s') : e.Accounted c.rest s'.directives := by
  induction h with
  | blank _ _ _ ih => exact ih.behind (Cursor.reaches_next _)
  | directive _ _ scan => exact scan.accounted.behind (Cursor.reaches_advance _ _)
  | unrecorded _ _ scanned failed =>
    have formed : Datum.wellFormedItems _ = true := scanned.wellFormed rfl
    exact Context.accounted_record formed failed
  | commentSkip _ _ skip => exact skip.accounted
  | comment _ _ skipped _ ih => exact ih.behind skipped.reaches
  | datum _ _ _ read => exact read.accounted

namespace Session

variable {s s' : Session} {e : Failure}

theorem rest_cursor_suffix (s : Session) : s.cursor.rest <:+ s.source.text := by
  unfold cursor Source.cursor
  split
  · exact List.nil_suffix
  · exact List.drop_suffix _ _

theorem accounted_of_next (h : s.next = (.error e, s')) :
    e.Accounted s.source.text s'.state.directives :=
  (misses_of_next h).accounted.mono s.rest_cursor_suffix

/-- Every directive takes up something, so the rounds last until a datum or the end is found. -/
theorem accounted_of_readDatumFor {rounds : Nat} (enough : s.cursor.rest.length < rounds)
    (h : readDatumFor rounds s = (.error e, s')) :
    e.Accounted s.source.text s'.state.directives ∨
      (e = .fault .endOfInput ∧ s'.cursor.rest = []) := by
  induction rounds generalizing s with
  | zero => omega
  | succ rounds ih =>
    unfold readDatumFor at h
    split at h
    · rename_i failed
      cases h
      exact .inl (accounted_of_next failed)
    · rename_i found
      cases h
      obtain ⟨c, finds, -, here⟩ := finds_of_next found
      exact .inr ⟨rfl, here ▸ finds.rest_eq_nil rfl⟩
    · cases h
    · rename_i d s₁ found
      obtain ⟨c, finds, same, here⟩ := finds_of_next found
      have shorter := finds.length_lt (by simp)
      rw [← same]
      exact ih (by rw [here]; omega) h

theorem accounted_of_formsFor {wanted : Bool} {rounds : Nat} {limit : Option Nat}
    (h : (formsFor wanted rounds limit s).1.failure = some e) :
    e.Accounted s.source.text (formsFor wanted rounds limit s).2.state.directives := by
  induction rounds, limit, s using formsFor.induct wanted with
  | case1 => cases h
  | case2 => cases h
  | case3 rounds limit s some_left failure s₁ failed =>
    simp only [formsFor, failed, Option.some.injEq] at h ⊢
    exact h ▸ accounted_of_next failed
  | case4 rounds limit s some_left s₁ found =>
    simp [formsFor, found] at h
  | case5 rounds limit s some_left d s₁ found ih =>
    obtain ⟨c, -, same, -⟩ := finds_of_next found
    simp only [formsFor, found] at h ⊢
    exact same ▸ ih s₁ h
  | case6 rounds limit s some_left d s₁ found wants ih =>
    obtain ⟨c, -, same, -⟩ := finds_of_next found
    simp only [formsFor, found, if_pos wants] at h ⊢
    exact same ▸ ih s₁ h
  | case7 rounds limit s some_left d s₁ found unwanted _ ih =>
    obtain ⟨c, -, same, -⟩ := finds_of_next found
    simp only [formsFor, found, if_neg unwanted] at h ⊢
    exact same ▸ ih h

end Session

/-- A source is read to the end of its session, and a failure there is the answer. -/
theorem Source.read_eq (src : Source) (policy : Policy) (fold : Bool) :
    src.read policy fold =
      match (src.session policy fold).forms.1.failure with
      | some failure => .error failure
      | none => .ok (src.session policy fold).forms.1.data :=
  rfl

/-- Whatever is done to read a source, all at once or step by step, either succeeds or fails with a
complaint about the text, except for the faults that are accounted for. Asking for a datum where
nothing is left fails as well. -/
theorem Source.failures_accounted (src : Source) :
    (∀ policy fold e, src.read policy fold = .error e →
      e.Accounted src.text (src.session policy fold).forms.2.state.directives) ∧
    ∀ s : Session, s.source = src →
      (∀ e s', s.next = (.error e, s') → e.Accounted src.text s'.state.directives) ∧
      (∀ e s', s.readDatum = (.error e, s') →
        e.Accounted src.text s'.state.directives ∨
          (e = .fault .endOfInput ∧ s'.cursor.rest = [])) ∧
      ∀ wanted limit e, (s.forms wanted limit).1.failure = some e →
        e.Accounted src.text (s.forms wanted limit).2.state.directives := by
  constructor
  · intro policy fold e failed
    have outcome : src.read policy fold =
        match (src.session policy fold).forms.1.failure with
        | some failure => .error failure
        | none => .ok (src.session policy fold).forms.1.data := rfl
    rw [outcome] at failed
    split at failed
    · rename_i failure reported
      cases failed
      exact Session.accounted_of_formsFor reported
    · cases failed
  · rintro s rfl
    refine ⟨?_, ?_, ?_⟩
    · intro e s' failed
      exact Session.accounted_of_next failed
    · intro e s' failed
      exact Session.accounted_of_readDatumFor (Nat.lt_succ_self _) failed
    · intro wanted limit e failed
      exact Session.accounted_of_formsFor failed

/-- A character whose number needs more than 32 bits, in a directive. -/
theorem Source.failures_accounted_character :
    ∃ (src : Source) (s : Session), src = ⟨"#! (#\\x80000000)", none⟩ ∧ s = src.session ∧
      src.read = .error (.fault .codePointOverflow) ∧
      s.next.1.isOk = false ∧ s.readDatum.1.isOk = false ∧
      (Failure.fault .codePointOverflow).Accounted src.text [] := by
  refine ⟨_, _, rfl, rfl, rfl, rfl, rfl, ?_⟩
  exact (failures_accounted _).1 {} false _ rfl

/-- A ratio over zero is complained about where it stands alone, and is a fault after its mark. -/
theorem Source.read_ratio_over_zero :
    (Source.mk "1/0" none).read =
        .error (.diagnosed ⟨.divisionByZero "1/0", .start, none⟩) ∧
      (Source.mk "#d1/0" none).read = .error (.fault (.zeroDenominator 1)) :=
  ⟨rfl, rfl⟩

end LineDirective
