import LineDirective.Proofs.RoundTrip

/-!
# Case folding

What folding does to code points, to texts and to the words of the language.

The first part is about the tables. What a folding produces is never folded again, decimal digits of
every script fold to themselves, and no code point but itself folds to a digit, a sign or a slash. The
tables are compared as sets of bits, so that one conjunction of two numbers settles a statement about
all their entries.

The second part is about spellings. A literal, a character name and a number mean the same when they
are folded, so that a datum without nested data that is read without folding is read with folding as
well, and only the name of a bare symbol may change (`Lexeme.Spells.folded`).
-/

namespace LineDirective

/-! ## 1. Sets of numbers as bits -/

/-- A set of numbers as the bits of one number. -/
def bitsOf (ns : List Nat) : Nat := ns.foldr (fun n bits => 1 <<< n ||| bits) 0

theorem testBit_bitsOf (ns : List Nat) (n : Nat) : (bitsOf ns).testBit n = decide (n ∈ ns) := by
  induction ns with
  | nil => simp [bitsOf]
  | cons m ns ih =>
    have step : bitsOf (m :: ns) = 1 <<< m ||| bitsOf ns := rfl
    rw [step, Nat.testBit_or, ih, Nat.one_shiftLeft, Nat.testBit_two_pow, ← Bool.decide_or]
    simp only [List.mem_cons, eq_comm]

theorem disjoint_of_bitsOf {ms ns : List Nat} (apart : bitsOf ms &&& bitsOf ns = 0) {n : Nat}
    (first : n ∈ ms) (second : n ∈ ns) : False := by
  have common : (bitsOf ms &&& bitsOf ns).testBit n = true := by
    rw [Nat.testBit_and, testBit_bitsOf, testBit_bitsOf, decide_eq_true first,
      decide_eq_true second, Bool.and_self]
  rw [apart, Nat.zero_testBit] at common
  cases common

/-! ## 2. The tables -/

def FoldRun.members (r : FoldRun) : List Nat :=
  (List.range ((r.last - r.first) / r.stride + 1)).map fun k => r.first + r.stride * k

def foldSources : List Nat := foldRuns.flatMap FoldRun.members ++ foldExpansions.map Prod.fst

def foldTargets : List Nat :=
  foldRuns.flatMap (fun r => r.members.map fun (n : Nat) => ((n : Int) + r.shift).toNat) ++
    foldExpansions.flatMap Prod.snd

def digitNumbers : List Nat :=
  decimalDigitBlocks.flatMap fun block => (List.range block.2).map (block.1 + ·)

def exactNumbers : List Nat := digitNumbers ++ ("+-/" : Text).map CodePoint.toNat

theorem foldTargets_apart : bitsOf foldTargets &&& bitsOf (foldSources ++ exactNumbers) = 0 := by
  decide +kernel

theorem foldSources_apart : bitsOf foldSources &&& bitsOf digitNumbers = 0 := by
  decide +kernel

theorem foldShift?_eq_some {n : Nat} {shift : Int} {runs : List FoldRun}
    (h : foldShift? n runs = some shift) : ∃ r ∈ runs, n ∈ r.members ∧ r.shift = shift := by
  fun_induction foldShift? n runs with
  | case1 => cases h
  | case2 => cases h
  | case3 r rest from_first to_last whole =>
    have place := Nat.div_add_mod (n - r.first) r.stride
    have within : (n - r.first) / r.stride ≤ (r.last - r.first) / r.stride :=
      Nat.div_le_div_right (by omega)
    refine ⟨r, List.mem_cons_self .., List.mem_map.mpr ⟨(n - r.first) / r.stride, ?_, ?_⟩, ?_⟩
    · exact List.mem_range.mpr (by omega)
    · omega
    · exact Option.some.inj h
  | case4 r rest _ _ _ ih =>
    obtain ⟨r', mem, found⟩ := ih h
    exact ⟨r', List.mem_cons_of_mem _ mem, found⟩
  | case5 r rest _ _ ih =>
    obtain ⟨r', mem, found⟩ := ih h
    exact ⟨r', List.mem_cons_of_mem _ mem, found⟩

theorem mem_of_lookup {α β : Type} [BEq α] [LawfulBEq α] {key : α} {value : β}
    {table : List (α × β)} (h : table.lookup key = some value) : (key, value) ∈ table := by
  obtain ⟨before, after, rfl, -⟩ := List.lookup_eq_some_iff.mp h
  simp

theorem mem_of_digitInBlocks? {n d : Nat} {blocks : List (Nat × Nat)}
    (h : digitInBlocks? n blocks = some d) :
    n ∈ blocks.flatMap fun block => (List.range block.2).map (block.1 + ·) := by
  fun_induction digitInBlocks? n blocks with
  | case1 => cases h
  | case2 => cases h
  | case3 first count rest from_first inside =>
    have here : n ∈ (List.range count).map (first + ·) :=
      List.mem_map.mpr ⟨n - first, List.mem_range.mpr (by omega), by omega⟩
    exact List.mem_append_left _ here
  | case4 first count rest _ _ ih => exact List.mem_append_right _ (ih h)

theorem digitInBlocks?_lt {n d : Nat} {blocks : List (Nat × Nat)}
    (h : digitInBlocks? n blocks = some d) : d < 10 := by
  fun_induction digitInBlocks? n blocks with
  | case1 => cases h
  | case2 => cases h
  | case3 first count rest from_first inside =>
    obtain rfl := Option.some.inj h
    exact Nat.mod_lt _ (by decide)
  | case4 first count rest _ _ ih => exact ih h

namespace CodePoint

theorem toNat_of_ofNat? {n : Nat} {c : CodePoint} (h : ofNat? n = some c) : c.toNat = n := by
  unfold ofNat? at h
  by_cases scalar : n.isValidChar
  · rw [dif_pos scalar] at h
    cases h
    rfl
  · rw [dif_neg scalar] at h
    by_cases inside : 0xD800 ≤ n ∧ n - 0xD800 < 2048
    · rw [dif_pos inside] at h
      cases h
      show 0xD800 + (n - 0xD800) = n
      omega
    · rw [dif_neg inside] at h
      cases h

/-- The code points that are in no table. -/
theorem fold_of_not_mem {c : CodePoint} (unfolded : c.toNat ∉ foldSources) : c.fold = [c] := by
  unfold fold
  split
  · rename_i shift found
    obtain ⟨r, mem, among, -⟩ := foldShift?_eq_some found
    exact absurd (List.mem_append_left _ (List.mem_flatMap.mpr ⟨r, mem, among⟩)) unfolded
  · split
    · rename_i numbers found
      have mem := List.mem_map_of_mem (f := Prod.fst) (mem_of_lookup found)
      exact absurd (List.mem_append_right _ mem) unfolded
    · rfl

/-- A code point stays, or all it becomes is in the tables. -/
theorem fold_cases (c : CodePoint) :
    c.fold = [c] ∨ c.fold ≠ [] ∧ ∀ x ∈ c.fold, x.toNat ∈ foldTargets := by
  unfold fold
  split
  · rename_i shift found
    obtain ⟨r, mem, among, rfl⟩ := foldShift?_eq_some found
    cases target : ofNat? ((c.toNat : Int) + r.shift).toNat with
    | none => exact .inl rfl
    | some x =>
      refine .inr ⟨by simp, ?_⟩
      intro y there
      obtain rfl : y = x := by simpa using there
      rw [toNat_of_ofNat? target]
      exact List.mem_append_left _
        (List.mem_flatMap.mpr ⟨r, mem, List.mem_map.mpr ⟨_, among, rfl⟩⟩)
  · split
    · rename_i numbers found
      have entry := mem_of_lookup found
      have some_target : ∀ e ∈ foldExpansions, e.2.filterMap ofNat? ≠ [] := by decide +kernel
      refine .inr ⟨some_target _ entry, ?_⟩
      intro x there
      obtain ⟨n, among, target⟩ := List.mem_filterMap.mp there
      rw [toNat_of_ofNat? target]
      exact List.mem_append_right _ (List.mem_flatMap.mpr ⟨_, entry, among⟩)
    · exact .inl rfl

/-- What a folding produces is not folded any further. -/
theorem fold_of_mem_fold {c x : CodePoint} (mem : x ∈ c.fold) : x.fold = [x] := by
  rcases c.fold_cases with same | ⟨-, targets⟩
  · rw [same] at mem
    obtain rfl := List.mem_singleton.mp mem
    exact same
  · apply fold_of_not_mem
    intro source
    exact disjoint_of_bitsOf foldTargets_apart (targets x mem) (List.mem_append_left _ source)

/-- Only itself folds to a code point that spells integers and ratios. -/
theorem fold_of_exact {c : CodePoint} (exact : ∀ x ∈ c.fold, x.toNat ∈ exactNumbers) :
    c.fold = [c] := by
  rcases c.fold_cases with same | ⟨some_target, targets⟩
  · exact same
  · obtain ⟨x, mem⟩ := List.exists_mem_of_ne_nil _ some_target
    exact (disjoint_of_bitsOf foldTargets_apart (targets x mem)
      (List.mem_append_right _ (exact x mem))).elim

theorem mem_digitNumbers {c : CodePoint} (digit : c.isDecimalDigit = true) :
    c.toNat ∈ digitNumbers := by
  obtain ⟨d, value⟩ := Option.isSome_iff_exists.mp digit
  exact mem_of_digitInBlocks? value

theorem fold_digit {c : CodePoint} (digit : c.isDecimalDigit = true) : c.fold = [c] :=
  fold_of_not_mem fun source =>
    disjoint_of_bitsOf foldSources_apart source (mem_digitNumbers digit)

end CodePoint

/-! ## 3. ASCII and literals -/

namespace CodePoint

def capitals : Text := "ABCDEFGHIJKLMNOPQRSTUVWXYZ"

/-- A capital letter of ASCII as a small one; other code points stay. -/
def small (c : CodePoint) : CodePoint :=
  if c ∈ capitals then (ofNat? (c.toNat + 32)).getD c else c

theorem small_of_not_mem {c : CodePoint} (other : c ∉ capitals) : c.small = c := if_neg other

/-- A statement about all code points and their small forms is one about the capitals. -/
theorem small_cases {P : CodePoint → CodePoint → Prop} (same : ∀ c, c ∉ capitals → P c c)
    (capital : ∀ c ∈ capitals, P c c.small) (c : CodePoint) : P c c.small := by
  by_cases mem : c ∈ capitals
  · exact capital c mem
  · rw [small_of_not_mem mem]
    exact same c mem

theorem asciiDigit?_small (c : CodePoint) : c.small.asciiDigit? = c.asciiDigit? :=
  small_cases (P := fun c x => x.asciiDigit? = c.asciiDigit?) (fun _ _ => rfl) (by decide) c

theorem small_eq_iff {x : CodePoint} (other : x ∉ capitals) (unrelated : ∀ c ∈ capitals, c.small ≠ x)
    (c : CodePoint) : c.small = x ↔ c = x := by
  apply small_cases (P := fun c y => y = x ↔ c = x)
  · exact fun _ _ => Iff.rfl
  · intro c mem
    refine ⟨fun same => absurd same (unrelated c mem), ?_⟩
    rintro rfl
    exact absurd mem other

/-- In ASCII folding makes small letters of capitals. -/
theorem fold_ascii {c : CodePoint} (ascii : c.toNat < 128) : c.fold = [c.small] := by
  have all : ∀ n ∈ List.range 128, (ofNat? n).all fun c => c.fold = [c.small] := by decide +kernel
  have this := all c.toNat (List.mem_range.mpr ascii)
  rw [ofNat?_toNat] at this
  exact of_decide_eq_true this

theorem lt_of_asciiDigit? {c : CodePoint} {d : Nat} (h : c.asciiDigit? = some d) : c.toNat < 128 := by
  cases c with
  | surrogate index => cases h
  | scalar x =>
    have last {y : Char} (below : x ≤ y) (ascii : y.toNat < 128) : x.toNat < 128 :=
      Nat.lt_of_le_of_lt (UInt32.le_iff_toNat_le.mp below) ascii
    simp only [asciiDigit?] at h
    split at h
    · rename_i range
      exact last range.2 (by decide)
    · split at h
      · rename_i range
        exact last range.2 (by decide)
      · split at h
        · rename_i range
          exact last range.2 (by decide)
        · cases h

end CodePoint

namespace IntegerLiteral

open CodePoint

theorem asciiForm_small (c : CodePoint) : asciiForm c.small = (asciiForm c).small := by
  apply small_cases (P := fun c x => asciiForm x = (asciiForm c).small)
  · intro c other
    unfold asciiForm
    split
    · rename_i d value
      have plain : ∀ d ∈ List.range 10, (Text.digit d).small = Text.digit d := by decide
      exact (plain d (List.mem_range.mpr (digitInBlocks?_lt value))).symm
    · exact (small_of_not_mem other).symm
  · decide

theorem splitSign_small (t : Text) :
    splitSign (t.map small) = ((splitSign t).1, (splitSign t).2.map small) := by
  cases t with
  | nil => rfl
  | cons c rest =>
    by_cases minus : c = .scalar '-'
    · subst minus
      rfl
    · by_cases plus : c = .scalar '+'
      · subst plus
        rfl
      · have no_minus := mt (small_eq_iff (x := .scalar '-') (by decide) (by decide) c).mp minus
        have no_plus := mt (small_eq_iff (x := .scalar '+') (by decide) (by decide) c).mp plus
        simp [splitSign, minus, plus, no_minus, no_plus]

theorem dropUnderscore_small (t : Text) :
    dropUnderscore (t.map small) = (dropUnderscore t).map small := by
  cases t with
  | nil => rfl
  | cons c rest =>
    by_cases underscore : c = .scalar '_'
    · subst underscore
      rfl
    · have other := mt (small_eq_iff (x := .scalar '_') (by decide) (by decide) c).mp underscore
      simp [dropUnderscore, underscore, other]

theorem isMarkLetter_small (c : CodePoint) : isMarkLetter 16 c.small = isMarkLetter 16 c :=
  small_cases (P := fun c x => isMarkLetter 16 x = isMarkLetter 16 c) (fun _ _ => rfl) (by decide) c

theorem dropMark_small (t : Text) : dropMark 16 (t.map small) = (dropMark 16 t).map small := by
  match t with
  | [] => rfl
  | [c] => simp [dropMark]
  | c :: letter :: rest =>
    by_cases zero : c = .scalar '0'
    · subst zero
      have kept : (CodePoint.scalar '0').small = .scalar '0' := by decide
      simp only [List.map_cons, kept, dropMark, isMarkLetter_small]
      split
      · exact dropUnderscore_small rest
      · rw [List.map_cons, List.map_cons, kept]
    · have other := mt (small_eq_iff (x := .scalar '0') (by decide) (by decide) c).mp zero
      simp [dropMark, zero, other]

theorem groupedDigits?_small (afterDigit : Bool) (t : Text) :
    groupedDigits? 16 afterDigit (t.map small) = groupedDigits? 16 afterDigit t := by
  have value (c : CodePoint) : digitBelow? 16 c.small = digitBelow? 16 c := by
    rw [digitBelow?, digitBelow?, asciiDigit?_small]
  have underscore (c : CodePoint) : c.small = .scalar '_' ↔ c = .scalar '_' :=
    small_eq_iff (by decide) (by decide) c
  induction t generalizing afterDigit with
  | nil => rfl
  | cons c rest ih => simp only [List.map_cons, groupedDigits?, value, underscore, ih]

/-- A hexadecimal literal means the same in small letters. -/
theorem parse?_small (t : Text) : parse? 16 (t.map small) = parse? 16 t := by
  have forms : (t.map small).map asciiForm = (t.map asciiForm).map small := by
    simp [List.map_map, Function.comp_def, asciiForm_small]
  unfold parse?
  rw [forms, splitSign_small]
  simp only [dropMark_small, groupedDigits?_small]

theorem ascii_of_groupedDigits? {base : Nat} {afterDigit : Bool} {t : Text} {values : List Nat}
    (h : groupedDigits? base afterDigit t = some values) : ∀ c ∈ t, c.toNat < 128 := by
  fun_induction groupedDigits? base afterDigit t generalizing values with
  | case1 | case2 => simp
  | case3 afterDigit c rest d value ih =>
    obtain ⟨others, found, -⟩ := Option.map_eq_some_iff.mp h
    obtain ⟨digit, -⟩ := Option.filter_eq_some_iff.mp value
    intro x mem
    rcases List.mem_cons.mp mem with rfl | later
    · exact lt_of_asciiDigit? digit
    · exact ih found x later
  | case4 afterDigit c rest _ separates ih =>
    intro x mem
    rcases List.mem_cons.mp mem with rfl | later
    · rw [separates.2]
      decide
    · exact ih h x later
  | case5 => cases h

theorem ascii_of_dropUnderscore {t : Text} (h : ∀ c ∈ dropUnderscore t, c.toNat < 128) :
    ∀ c ∈ t, c.toNat < 128 := by
  unfold dropUnderscore at h
  split at h
  · exact List.forall_mem_cons.mpr ⟨by decide, h⟩
  · exact h

theorem ascii_of_dropMark {t : Text} (h : ∀ c ∈ dropMark 16 t, c.toNat < 128) :
    ∀ c ∈ t, c.toNat < 128 := by
  unfold dropMark at h
  split at h
  · rename_i letter rest
    split at h
    · rename_i mark
      have letters : letter = .scalar 'x' ∨ letter = .scalar 'X' := by
        simpa [isMarkLetter] using mark
      have small : letter.toNat < 128 := by
        rcases letters with rfl | rfl <;> decide
      exact List.forall_mem_cons.mpr ⟨by decide,
        List.forall_mem_cons.mpr ⟨small, ascii_of_dropUnderscore h⟩⟩
    · exact h
  · exact h

/-- A literal is made of ASCII and of decimal digits of any script. -/
theorem plain_of_parse? {t : Text} {n : Int} (h : parse? 16 t = some n) :
    ∀ c ∈ t, c.isDecimalDigit = true ∨ c.toNat < 128 := by
  obtain ⟨values, found, -⟩ := Option.map_eq_some_iff.mp h
  obtain ⟨sign, signed, text⟩ := eq_append_of_splitSign (t := t.map asciiForm) rfl
  have ascii : ∀ c ∈ t.map asciiForm, c.toNat < 128 := by
    have marks : ∀ sign ∈ [[], [CodePoint.scalar '+'], [CodePoint.scalar '-']],
        ∀ c ∈ sign, c.toNat < 128 := by decide
    rw [text]
    intro c mem
    rcases List.mem_append.mp mem with first | later
    · exact marks sign signed c first
    · exact ascii_of_dropMark (ascii_of_groupedDigits? found) c later
  intro c mem
  cases value : c.decimalDigit? with
  | some d => exact .inl (by simp [isDecimalDigit, value])
  | none =>
    have form : asciiForm c = c := by simp [asciiForm, value]
    exact .inr (form ▸ ascii _ (List.mem_map_of_mem mem))

end IntegerLiteral

/-! ## 4. Texts -/

namespace Text

theorem fold_cons (c : CodePoint) (t : Text) : fold (c :: t) = c.fold ++ fold t := rfl

theorem fold_of_fixed {t : Text} (fixed : ∀ c ∈ t, c.fold = [c]) : t.fold = t := by
  induction t with
  | nil => rfl
  | cons c rest ih =>
    obtain ⟨first, others⟩ := List.forall_mem_cons.mp fixed
    rw [fold_cons, first, ih others]
    rfl

/-- Folding twice is folding once. -/
@[simp] theorem fold_fold (t : Text) : t.fold.fold = t.fold := by
  apply fold_of_fixed
  intro x mem
  obtain ⟨c, -, among⟩ := List.mem_flatMap.mp mem
  exact CodePoint.fold_of_mem_fold among

/-- A text whose folding spells an integer or a ratio is its own folding. -/
theorem fold_of_exact {t : Text} (exact : ∀ x ∈ t.fold, x.toNat ∈ exactNumbers) : t.fold = t := by
  apply fold_of_fixed
  intro c mem
  exact CodePoint.fold_of_exact fun x among => exact x (List.mem_flatMap.mpr ⟨c, mem, among⟩)

theorem fold_eq_map_small {t : Text} (plain : ∀ c ∈ t, c.isDecimalDigit = true ∨ c.toNat < 128) :
    t.fold = t.map CodePoint.small := by
  induction t with
  | nil => rfl
  | cons c rest ih =>
    obtain ⟨first, others⟩ := List.forall_mem_cons.mp plain
    have letter : c.fold = [c.small] := by
      rcases first with digit | ascii
      · have no_digit : ∀ c ∈ CodePoint.capitals, c.isDecimalDigit = false := by decide
        have other : c ∉ CodePoint.capitals := by
          intro mem
          rw [no_digit c mem] at digit
          cases digit
        rw [CodePoint.fold_digit digit, CodePoint.small_of_not_mem other]
      · exact CodePoint.fold_ascii ascii
    rw [fold_cons, letter, ih others]
    rfl

end Text

/-! ## 5. Data -/

namespace Datum

def folded (d : Datum) : Datum := d.mapSymbols Text.fold

theorem folded_list (items : List Datum) : (list items).folded = list (items.map folded) :=
  mapSymbols_list Text.fold items

theorem folded_vector (items : List Datum) : (vector items).folded = vector (items.map folded) :=
  mapSymbols_vector Text.fold items

theorem folded_dotted (items : List Datum) (tail : Datum) :
    (dotted items tail).folded = dotted (items.map folded) tail.folded :=
  mapSymbols_dotted Text.fold items tail

theorem byte?_folded (d : Datum) : byte? d.folded = byte? d := by
  cases d <;> rfl

end Datum

namespace Lexeme

theorem hexCodePoint_fold {digits : Text} {c : CodePoint} (h : hexCodePoint digits = .ok (some c)) :
    hexCodePoint digits.fold = .ok (some c) := by
  have parsed : ∃ n, IntegerLiteral.parse? 16 digits = some n := by
    unfold hexCodePoint at h
    split at h
    · cases h
    · exact ⟨_, ‹_›⟩
  obtain ⟨n, parsed⟩ := parsed
  rw [hexCodePoint, Text.fold_eq_map_small (IntegerLiteral.plain_of_parse? parsed),
    IntegerLiteral.parse?_small]
  exact h

theorem namedCharacter?_fold {name : Text} {c : CodePoint} (h : namedCharacter? name = some c) :
    name.fold = name := by
  have fixed : ∀ entry ∈ characterNames, entry.1.fold = entry.1 := by decide
  exact fixed _ (mem_of_lookup h)

theorem namedCharacter?_hex (digits : Text) : namedCharacter? (.scalar 'x' :: digits) = none := by
  have other : ∀ entry ∈ characterNames, entry.1.head? ≠ some (.scalar 'x') := by decide
  apply List.lookup_eq_none_iff.mpr
  intro entry mem
  apply bne_iff_ne.mpr
  intro same
  exact other entry mem (by rw [← same]; rfl)

/-- A character literal that is known without folding is known with it, as the same character. -/
theorem character_fold {t : Text} {c : CodePoint} {size : Nat}
    (h : character false t = .ok (c, size)) : character true t = .ok (c, size) := by
  unfold character at h ⊢
  cases content : t.drop 2 with
  | nil => rw [content] at h; cases h
  | cons first rest =>
    rw [content] at h
    simp only [Bool.false_eq_true, if_false, if_true] at h ⊢
    split
    · rename_i alone
      rw [if_pos alone] at h
      exact h
    · rename_i longer
      rw [if_neg longer] at h
      split at h
      · rename_i named
        rw [namedCharacter?_fold named, named]
        exact h
      · split at h
        · rename_i digits spelled
          have hex : (CodePoint.scalar 'x').fold = [.scalar 'x'] := by decide
          rw [spelled, Text.fold_cons, hex, List.singleton_append, namedCharacter?_hex]
          split at h
          · cases h
          · cases h
          · rename_i found
            cases h
            simp only [hexCodePoint_fold found, ← spelled]
        · cases h

theorem folded_hashToken {t : Text} {d : Datum} {size : Nat} (h : hashToken t = .ok (d, size)) :
    d.folded = d := by
  unfold hashToken radixNumber at h
  simp only at h
  split at h
  · cases h; rfl
  · split at h
    · cases h; rfl
    · split at h
      · split at h
        · split at h
          · cases h
          · cases h; rfl
          · cases h
        · cases h
      · cases h

theorem startsAtom_ne_bar {t : Text} (h : startsAtom t = true) : t.head? ≠ some (.scalar '|') := by
  intro bar
  simp [startsAtom, bar, structuralInitials] at h

/-- What is spelled without folding is spelled with it: folding renames bare symbols and changes
neither what the other spellings mean nor where a spelling ends. -/
theorem Spells.folded {t : Text} {d : Datum} {size : Nat} (h : Spells false t d size) :
    Spells true t (if t.head? = some (.scalar '|') then d else d.folded) size := by
  cases h with
  | string opened read =>
    rw [if_neg (by rw [opened]; decide)]
    exact .string opened read
  | symbol opened read =>
    rw [if_pos opened]
    exact .symbol opened read
  | character opened read =>
    rw [if_neg (by simp [opened])]
    exact .character opened (character_fold read)
  | hash opened read =>
    rw [folded_hashToken read, ite_self]
    exact .hash opened read
  | atom opened read =>
    rw [if_neg (startsAtom_ne_bar opened)]
    refine .atom opened ?_
    obtain ⟨-, some_token⟩ := atom_size read
    rw [atom_of_token some_token] at read ⊢
    split at read
    · cases read
    · rename_i no_dot
      rw [if_neg no_dot]
      split at read
      · cases read
      · cases read
      · cases read
        rfl
      · cases read
        rfl

end Lexeme

end LineDirective
