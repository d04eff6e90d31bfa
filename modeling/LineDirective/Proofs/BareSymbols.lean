import LineDirective.Proofs.CaseFolding
import LineDirective.Proofs.Adequacy

/-!
# Symbols without bars

The writer asks of a name whether it would be read as one symbol, and answers by looking for what the
reader would take for something else. Here the answer is compared with the reader: a name goes without
bars exactly if, as a text of its own, it is read as the symbol of this name to its end.

What has to be excluded is that a text is read as the symbol of itself by a detour, between bars, after
whitespace or comments, or under case folding that a marker before it has switched on. Bars take up room
that the name does not have, and nothing folds to what starts whitespace or a comment.
-/

namespace LineDirective

/-! ## 1. Names between bars -/

namespace Lexeme

theorem length_quotedFrom {q : Quotation} {skip start : Nat} {t content : Text} {size : Nat}
    (h : quotedFrom q skip start t = .ok (content, size)) :
    content.length + skip + start + 1 ≤ size := by
  fun_induction quotedFrom q skip start t generalizing content size with
  | case1 => cases h
  | case2 skip start x rest ih =>
    have := ih h
    omega
  | case3 start rest =>
    cases h
    simp
  | case4 => cases h
  | case5 start rest meaning n _ _ ih =>
    obtain ⟨⟨more, _⟩, hrest, same⟩ := map_eq_ok.mp h
    cases same
    have := ih hrest
    have one : meaning.toList.length ≤ 1 := by cases meaning <;> simp
    rw [List.length_append]
    omega
  | case6 start c rest _ _ ih =>
    obtain ⟨⟨more, _⟩, hrest, same⟩ := map_eq_ok.mp h
    cases same
    have := ih hrest
    rw [List.length_cons]
    omega

/-- A quoted form is longer than what it holds by both its marks at least. -/
theorem length_quoted {q : Quotation} {t content : Text} {size : Nat}
    (h : quoted q t = .ok (content, size)) : content.length + 2 ≤ size := length_quotedFrom h

/-! ## 2. Spellings of symbols -/

variable {fold : Bool} {t name : Text} {size : Nat}

theorem hashToken_ne_symbol (h : hashToken t = .ok (.symbol name, size)) : False := by
  unfold hashToken at h
  simp only at h
  split at h
  · cases h
  · split at h
    · cases h
    · split at h
      · split at h
        · unfold radixNumber at h
          split at h <;> cases h
        · cases h
      · cases h

/-- A word that is read as a symbol. -/
structure BareWord (word : Text) : Prop where
  some_word : word ≠ []
  no_dot : word ≠ ("." : Text)
  plain : ∀ c ∈ word, c.isDelimiter = false
  ordinary : word.head?.any structuralInitials.contains = false
  no_number : Number.parse word = .ok none

/-- A symbol that is spelled by an atom. -/
theorem bareWord_of_atom (opened : startsAtom t = true) (read : atom fold t = .ok (.symbol name, size)) :
    BareWord (token t) ∧ size = (token t).length ∧
      name = if fold then Text.fold (token t) else token t := by
  obtain ⟨size_eq, some_word⟩ := atom_size read
  have ordinary : (token t).head?.any structuralInitials.contains = false := by
    cases t with
    | nil => exact absurd rfl some_word
    | cons x rest =>
      have plain : x.isDelimiter = false := by
        by_contra delimiter
        apply some_word
        simp [token, delimiter]
      simpa [token, plain, startsAtom] using opened
  rw [atom_of_token some_word] at read
  split at read
  · cases read
  · rename_i no_dot
    split at read
    · cases read
    · cases read
    · cases read
    · rename_i parsed
      have same : (if fold then Text.fold (token t) else token t) = name := by
        simpa using (Prod.mk.inj (Except.ok.inj read)).1
      exact ⟨⟨some_word, no_dot, fun c => plain_of_mem_token, ordinary, parsed⟩, size_eq, same.symm⟩

theorem spells_symbol_cases (h : Spells fold t (.symbol name) size) :
    name.length + 2 ≤ size ∨ (BareWord (token t) ∧ size = (token t).length ∧
      name = if fold then Text.fold (token t) else token t) := by
  cases h with
  | symbol _ read => exact .inl (length_quoted read)
  | hash _ read => exact (hashToken_ne_symbol read).elim
  | atom opened read => exact .inr (bareWord_of_atom opened read)

end Lexeme

/-- A name goes without bars exactly if it is a word that is read as a symbol. -/
theorem needsBars_eq_ok_false {name : Text} :
    needsBars name = .ok false ↔ Lexeme.BareWord name := by
  have initials : ∀ c ∈ specialInitials, Lexeme.structuralInitials.contains c = true := by decide
  constructor
  · intro bare
    obtain ⟨some_name, no_dot, plain, ordinary, parsed⟩ := bare_of_needsBars bare
    exact ⟨some_name, no_dot, plain, Lexeme.ordinary_of_plain plain ordinary, parsed⟩
  · intro word
    have plain : ¬ name.any CodePoint.isDelimiter = true := by
      simpa using word.plain
    have ordinary : ¬ name.head?.any specialInitials.contains = true := by
      have structural := word.ordinary
      cases name with
      | nil => simp
      | cons x more =>
        rw [List.head?_cons, Option.any_some] at structural ⊢
        intro special
        rw [initials x (by simpa using special)] at structural
        cases structural
    rw [needsBars, if_neg (not_or.mpr ⟨word.some_word, word.no_dot⟩), if_neg plain, if_neg ordinary,
      word.no_number]
    rfl

/-! ## 3. What stands before a symbol -/

def CodePoint.opensAtmosphere (c : CodePoint) : Bool :=
  c.isBlank || c = .scalar ';' || c = .scalar '#'

/-- Nothing folds to the start of whitespace or a comment but that itself. -/
theorem CodePoint.opensAtmosphere_of_mem_fold {c x : CodePoint} (mem : x ∈ c.fold)
    (visible : c.opensAtmosphere = false) : x.opensAtmosphere = false := by
  have targets : ∀ n ∈ foldTargets, inRanges n blankRanges = false ∧ n ≠ 59 ∧ n ≠ 35 := by
    decide +kernel
  rcases c.fold_cases with same | ⟨-, among⟩
  · rw [same, List.mem_singleton] at mem
    rwa [mem]
  · obtain ⟨no_blank, no_semicolon, no_hash⟩ := targets _ (among x mem)
    have other : x ≠ .scalar ';' ∧ x ≠ .scalar '#' := by
      constructor
      · rintro rfl
        exact no_semicolon rfl
      · rintro rfl
        exact no_hash rfl
    simp [opensAtmosphere, isBlank, no_blank, other]

/-- The name of a bare symbol starts neither whitespace nor a comment, folded or not. -/
theorem Lexeme.BareWord.visible {word : Text} (bare : BareWord word) (fold : Bool) :
    (if fold then Text.fold word else word).head?.any CodePoint.opensAtmosphere = false := by
  cases word with
  | nil => exact absurd rfl bare.some_word
  | cons x more =>
    have delimiter := bare.plain x (List.mem_cons_self ..)
    have ordinary : structuralInitials.contains x = false := bare.ordinary
    have blank : x.isBlank = false := (Bool.or_eq_false_iff.mp delimiter).1
    have no_semicolon : x ≠ .scalar ';' := by
      rintro rfl
      cases delimiter
    have no_hash : x ≠ .scalar '#' := by
      rintro rfl
      cases ordinary
    have visible : x.opensAtmosphere = false := by
      simp [CodePoint.opensAtmosphere, blank, no_semicolon, no_hash]
    cases fold with
    | false => exact visible
    | true =>
      simp only [if_true, Text.fold_cons]
      cases folded : x.fold with
      | nil =>
        rcases x.fold_cases with same | ⟨some_target, -⟩
        · rw [same] at folded
          cases folded
        · exact absurd folded some_target
      | cons y rest =>
        have mem : y ∈ x.fold := by
          rw [folded]
          exact List.mem_cons_self ..
        exact CodePoint.opensAtmosphere_of_mem_fold mem visible

section Reading

variable {ctx : Context} {mode : Mode} {c next : Cursor} {s s' : ReaderState} {name : Text}

/-- Where neither whitespace nor a comment starts nothing is skipped. -/
theorem Reads.atmosphere_of_visible {c₁ : Cursor} {s₁ : ReaderState}
    (visible : c.rest.head?.any CodePoint.opensAtmosphere = false)
    (skipped : Reads ctx (.atmosphere mode) c s .nothing c₁ s₁) : c₁ = c ∧ s₁ = s := by
  have clear : Reads ctx (.atmosphere mode) c s .nothing c s := by
    cases head : c.rest with
    | nil => exact .clear (by rw [head]; rfl) (by rw [head]; rfl)
    | cons x rest =>
      rw [head] at visible
      have apart : (x.isBlank = false ∧ x ≠ .scalar ';') ∧ x ≠ .scalar '#' := by
        simpa [CodePoint.opensAtmosphere] using visible
      refine .clear ?_ ?_
      · rw [head]
        exact apart.1.1
      · rw [head]
        exact startsComment_eq_false apart.1.2 apart.2
  obtain ⟨-, place, state⟩ := skipped.unique clear
  exact ⟨place, state⟩

/-- No other form than a lexeme is read as a symbol. -/
theorem Reads.spells_of_symbol (read : Reads ctx (.here mode) c s (.datum (.symbol name)) next s') :
    ∃ size, Lexeme.Spells s.foldCase c.rest (.symbol name) size ∧ next = c.advance size := by
  generalize same : Yield.datum (.symbol name) = y at read
  generalize task : Task.here mode = here at read
  cases read with
  | flat spelled =>
    cases same
    exact ⟨_, spelled, rfl⟩
  | @list _ _ _ _ _ parts =>
    obtain ⟨items, tail⟩ := parts
    cases tail <;> cases same
  | abbreviation => cases same
  | vector => cases same
  | bytevector => cases same
  | _ => cases task

/-- A text that is read as the symbol of itself is a word that is read as a symbol. -/
theorem Lexeme.bareWord_of_reads (unfolded : s.foldCase = false)
    (read : Reads ctx (.datum mode) (.ofText name) s (.datum (.symbol name)) next s')
    (whole : next.rest = []) : BareWord name := by
  -- what was skipped leaves a cursor from which the rest of the text is the symbol
  have here : ∃ c₁ s₁, Reads ctx (.here mode) c₁ s₁ (.datum (.symbol name)) next s' ∧
      (Cursor.ofText name).Reaches c₁ ∧
      (name.head?.any CodePoint.opensAtmosphere = false → c₁ = .ofText name ∧ s₁ = s) := by
    cases read with
    | code skipped read => exact ⟨_, _, read, skipped.reaches, skipped.atmosphere_of_visible⟩
    | directive read => exact ⟨_, _, read, .refl _, fun _ => ⟨rfl, rfl⟩⟩
  obtain ⟨c₁, s₁, read, ahead, clear⟩ := here
  obtain ⟨size, spelled, rfl⟩ := read.spells_of_symbol
  rcases spells_symbol_cases spelled with long | ⟨bare, size_eq, name_eq⟩
  · have short := spelled.size.2
    have behind : c₁.rest.length ≤ name.length := ahead.length_le
    omega
  · have visible := bare.visible s₁.foldCase
    rw [← name_eq] at visible
    obtain ⟨rfl, rfl⟩ := clear visible
    rw [unfolded] at name_eq
    have same : name = token name := name_eq
    rw [same]
    exact bare

theorem Lexeme.BareWord.reads (bare : BareWord name) (unfolded : s.foldCase = false) :
    ∃ last, Reads ctx (.datum mode) (.ofText name) s (.datum (.symbol name)) last s ∧ last.rest = [] := by
  have spelled : Spells false (name ++ []) (datumOf name none) name.length :=
    spells_atom bare.some_word bare.no_dot bare.plain bare.ordinary bare.no_number rfl
  rw [List.append_nil, ← unfolded] at spelled
  refine ⟨_, Reads.datum_of_here (.flat spelled), ?_⟩
  rw [Cursor.rest_advance]
  exact List.drop_length

end Reading

/-! ## 4. Bars -/

/-- Bars are written exactly where they are needed. Of every name that is not spelled like an integer
or a ratio with too many digits it is known whether it needs bars, and it does without them if and only
if the bare name, as a text of its own and without case folding, is read as the symbol of this name to
the end of the text. -/
theorem Datum.needsBars_iff_misread {name : Text} (short : (Datum.symbol name).WithinDigitLimit) :
    ∃ barred, needsBars name = .ok barred ∧
      ∀ (ctx : Context) (mode : Mode) (s : ReaderState), s.foldCase = false →
        (barred = false ↔ ∃ next s',
          (Reader.readDatum ctx mode (.ofText name)).Returns s (.symbol name, next) s' ∧
            next.rest = []) := by
  obtain ⟨w, written⟩ := exists_writeSymbol short
  obtain ⟨barred, decided, -⟩ := bind_eq_ok.mp written
  refine ⟨barred, decided, ?_⟩
  intro ctx mode s unfolded
  constructor
  · rintro rfl
    obtain ⟨last, read, whole⟩ := (needsBars_eq_ok_false.mp decided).reads unfolded
    exact ⟨last, s, Reader.returns_readDatum.mpr read, whole⟩
  · rintro ⟨next, s', returned, whole⟩
    have bare := Lexeme.bareWord_of_reads unfolded (Reader.returns_readDatum.mp returned) whole
    rw [needsBars_eq_ok_false.mpr bare] at decided
    exact (Except.ok.inj decided).symm

/-- A name that starts like a number is read back bare, and one with a marker of case folding before it
is not. -/
theorem Datum.needsBars_iff_misread_marker :
    (Datum.symbol "+inf").WithinDigitLimit ∧ needsBars "+inf" = .ok false ∧
      (∃ next s', (Reader.readDatum {} .code (.ofText "+inf")).Returns {} (.symbol "+inf", next) s' ∧
        next.rest = []) ∧
      (Datum.symbol "#!fold-case A").WithinDigitLimit ∧ needsBars "#!fold-case A" = .ok true ∧
      ¬ ∃ next s', (Reader.readDatum {} .code (.ofText "#!fold-case A")).Returns {}
        (.symbol "#!fold-case A", next) s' ∧ next.rest = [] := by
  have short : (Datum.symbol "+inf").WithinDigitLimit := withinDigitLimit_symbol (by decide)
  have short' : (Datum.symbol "#!fold-case A").WithinDigitLimit := withinDigitLimit_symbol (by decide)
  have bare : needsBars "+inf" = .ok false := by decide
  have barred : needsBars "#!fold-case A" = .ok true := by decide
  obtain ⟨b, decided, back⟩ := needsBars_iff_misread short
  obtain ⟨b', decided', back'⟩ := needsBars_iff_misread short'
  rw [bare] at decided
  rw [barred] at decided'
  cases decided
  cases decided'
  refine ⟨short, bare, (back {} .code {} rfl).mp rfl, short', barred, ?_⟩
  intro read
  cases (back' {} .code {} rfl).mpr read

end LineDirective
