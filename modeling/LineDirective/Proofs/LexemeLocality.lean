import LineDirective.Proofs.Motion
import LineDirective.Proofs.Spelling
import LineDirective.Proofs.Reads

/-!
# Lexemes see no further than their line

A lexeme that takes up `q` in `q ++ y` does so in `q ++ z` as well, if `z` ends a token wherever `y`
does (`Lexeme.Spells.before`). Most lexemes see a delimiter after them and no more; quoted forms and
block comments are followed code point by code point up to their closing mark, and what comes after it
does not matter at all. A lexeme may also end inside `q` (`Lexeme.Spells.within`).

So what follows a line does not matter to a lexeme that ends on the line; nor does it matter to what
starts on the line, as all of that is seen in two code points or in the name of a marker.
-/

namespace LineDirective

variable {q y z : Text}

/-! ## 1. Tokens -/

theorem takeWhile_append_of_lt {p : CodePoint → Bool}
    (inside : ((q ++ y).takeWhile p).length < q.length) (z : Text) :
    (q ++ z).takeWhile p = (q ++ y).takeWhile p := by
  induction q with
  | nil => simp at inside
  | cons c q ih =>
    simp only [List.cons_append, List.takeWhile_cons] at inside ⊢
    split
    · rename_i holds
      rw [if_pos holds, List.length_cons, List.length_cons] at inside
      rw [ih (by omega)]
    · rfl

theorem takeWhile_append_of_head {p : CodePoint → Bool} (q : Text)
    (stops : y.head?.all (fun c => !p c) = true) : (q ++ y).takeWhile p = q.takeWhile p := by
  have none : y.takeWhile p = [] := by
    cases y with
    | nil => rfl
    | cons c more =>
      have fails : p c = false := by simpa using stops
      simp [fails]
  rw [List.takeWhile_append, none, List.append_nil]
  split
  · rename_i whole
    exact ((List.takeWhile_prefix _).eq_of_length whole).symm
  · rfl

/-- A line ends before `y` at the latest. -/
theorem takeWhile_line_append (q : Text) (ends : y.AtLineEnd) :
    ((q ++ y).takeWhile fun x => !x.isNewline) = q.takeWhile fun x => !x.isNewline :=
  takeWhile_append_of_head q (by simpa [Text.AtLineEnd] using ends)

/-- No word with a line break in it is looked for. -/
theorem isPrefixOf_append {word : Text} (inside : ∀ c ∈ word, c.isNewline = false)
    (ends : y.AtLineEnd) : word.isPrefixOf (q ++ y) = word.isPrefixOf q := by
  induction word generalizing q with
  | nil => simp
  | cons c word ih =>
    cases q with
    | nil =>
      cases y with
      | nil => rfl
      | cons x y =>
        have other := ends.ne (inside c (List.mem_cons_self ..))
        simp [List.isPrefixOf, Ne.symm other]
    | cons x q =>
      have others := ih (q := q) fun c mem => inside c (List.mem_cons_of_mem _ mem)
      simp only [List.cons_append, List.isPrefixOf_cons_cons, others]

namespace Lexeme

theorem token_eq_nil {t : Text} : token t = [] ↔ t.atDelimiter = true := by
  cases t with
  | nil => exact iff_of_true rfl rfl
  | cons c t =>
    show token (c :: t) = [] ↔ c.isDelimiter = true
    cases delimiter : c.isDelimiter <;> simp [token, delimiter]

/-- A token that ends with `q` ends as well before anything else that ends a token. -/
theorem token_congr (whole : (token (q ++ y)).length = q.length)
    (stops : y.atDelimiter = true → z.atDelimiter = true) : token (q ++ z) = token (q ++ y) := by
  induction q with
  | nil =>
    have nothing : token y = [] := List.eq_nil_of_length_eq_zero whole
    have nothing' : token z = [] := token_eq_nil.mpr (stops (token_eq_nil.mp nothing))
    exact nothing'.trans nothing.symm
  | cons c q ih =>
    unfold token at whole ih ⊢
    simp only [List.cons_append, List.takeWhile_cons] at whole ⊢
    split
    · rename_i plain
      rw [if_pos plain, List.length_cons, List.length_cons] at whole
      rw [ih (by omega)]
    · rfl

theorem atom_congr {fold : Bool} {d : Datum} {size : Nat}
    (stops : y.atDelimiter = true → z.atDelimiter = true)
    (h : atom fold (q ++ y) = .ok (d, size)) (whole : size = q.length) :
    atom fold (q ++ z) = .ok (d, size) := by
  obtain ⟨rfl, some_token⟩ := atom_size h
  have same := token_congr whole stops
  rw [atom_of_token some_token] at h
  rw [atom_of_token (by rw [same]; exact some_token), same]
  exact h

theorem hashToken_congr {x : CodePoint} {d : Datum} {size : Nat}
    (stops : y.atDelimiter = true → z.atDelimiter = true)
    (h : hashToken (x :: (q ++ y)) = .ok (d, size)) (whole : size = q.length + 1) :
    hashToken (x :: (q ++ z)) = .ok (d, size) := by
  have size_eq := hashToken_size h
  have same : token (q ++ z) = token (q ++ y) := token_congr (by simp at size_eq; omega) stops
  unfold hashToken at h ⊢
  simp only [List.drop_succ_cons, List.drop_zero, same] at h ⊢
  exact h

theorem character_congr {fold : Bool} {a b first x : CodePoint} {size : Nat}
    (stops : y.atDelimiter = true → z.atDelimiter = true)
    (h : character fold (a :: b :: first :: (q ++ y)) = .ok (x, size))
    (whole : size = q.length + 3) :
    character fold (a :: b :: first :: (q ++ z)) = .ok (x, size) := by
  have size_eq := (character_size_token h).1
  have same : token (q ++ z) = token (q ++ y) := token_congr (by simp at size_eq; omega) stops
  unfold character at h ⊢
  simp only [List.drop_succ_cons, List.drop_zero, same] at h ⊢
  exact h

theorem hashToken_ne_ok {x : CodePoint} {t : Text} {r : Datum × Nat} (plain : x.isDelimiter = false)
    (no_radix : radix? x = none) (no_boolean : x ≠ .scalar 't' ∧ x ≠ .scalar 'f') :
    hashToken (.scalar '#' :: x :: t) ≠ .ok r := by
  have word : token (x :: t) = x :: token t := by simp [token, plain]
  have other : ∀ u : Text, some x ≠ u.head? → x :: token t ≠ u := by
    rintro u differs rfl
    exact differs rfl
  have no_t : some x ≠ some (.scalar 't') := fun same => no_boolean.1 (Option.some.inj same)
  have no_f : some x ≠ some (.scalar 'f') := fun same => no_boolean.2 (Option.some.inj same)
  unfold hashToken
  simp only [List.drop_succ_cons, List.drop_zero, word]
  rw [if_neg (not_or.mpr ⟨other "t" no_t, other "true" no_t⟩),
    if_neg (not_or.mpr ⟨other "f" no_f, other "false" no_f⟩)]
  cases token t with
  | nil => nofun
  | cons digit more =>
    simp only [no_radix]
    nofun

/-- What is read as a boolean or a number starts like one. -/
theorem startsHashToken_of_read {t : Text} {d : Datum} {size : Nat}
    (h : hashToken (.scalar '#' :: t) = .ok (d, size)) :
    startsHashToken (.scalar '#' :: t) = true := by
  unfold startsHashToken
  split
  · rename_i same
    cases same
    cases h
  · rename_i same
    cases same
    cases h
  · rename_i same
    cases same
    exact absurd h (hashToken_ne_ok (by decide) (by decide) (by decide))
  · rename_i same
    cases same
    exact absurd h (hashToken_ne_ok (by decide) (by decide) (by decide))
  · rfl
  · rename_i other
    exact absurd rfl (other t)

/-! ## 2. Quoted forms -/

theorem newlineLength_pair (a b : CodePoint) (t : Text) :
    newlineLength (a :: b :: t) =
      if a = .carriageReturn ∧ b = .lineFeed then 2 else if a.isNewline then 1 else 0 := by
  by_cases pair : a = .carriageReturn ∧ b = .lineFeed
  · obtain ⟨rfl, rfl⟩ := pair
    rfl
  · rw [if_neg pair, newlineLength.eq_2]
    rintro tail rfl same
    cases same
    exact pair ⟨rfl, rfl⟩

theorem newlineLength_eq_zero {x : CodePoint} {t : Text} :
    newlineLength (x :: t) = 0 ↔ x.isNewline = false := by
  cases t with
  | nil => simp [newlineLength]
  | cons b t =>
    rw [newlineLength_pair]
    split
    · rename_i pair
      rw [pair.1]
      simp [CodePoint.isNewline]
    · simp

theorem newlineLength_congr (inside : newlineLength (q ++ y) < q.length) (z : Text) :
    newlineLength (q ++ z) = newlineLength (q ++ y) := by
  match q, inside with
  | [x], inside =>
    have none : newlineLength (x :: y) = 0 := by
      rw [List.singleton_append, List.length_singleton] at inside
      omega
    show newlineLength (x :: z) = newlineLength (x :: y)
    rw [none, newlineLength_eq_zero]
    exact newlineLength_eq_zero.mp none
  | a :: b :: q, _ =>
    show newlineLength (a :: b :: (q ++ z)) = newlineLength (a :: b :: (q ++ y))
    rw [newlineLength_pair, newlineLength_pair]

theorem continuation?_eq_some {t : Text} {n : Nat} :
    continuation? t = some n ↔ ∃ lead newline,
      (t.takeWhile CodePoint.isIntralineBlank).length = lead ∧
      newlineLength (t.drop lead) = newline ∧ newline ≠ 0 ∧
      lead + newline + ((t.drop (lead + newline)).takeWhile CodePoint.isIntralineBlank).length =
        n := by
  unfold continuation?
  simp only
  constructor
  · intro h
    split at h
    · cases h
    · rename_i some_break
      exact ⟨_, _, rfl, rfl, some_break, Option.some.inj h⟩
  · rintro ⟨lead, newline, rfl, rfl, some_break, rfl⟩
    rw [if_neg some_break]

theorem continuation?_congr {n : Nat} (h : continuation? (q ++ y) = some n) (inside : n < q.length)
    (z : Text) : continuation? (q ++ z) = some n := by
  obtain ⟨lead, newline, hlead, hnewline, some_break, total⟩ := continuation?_eq_some.mp h
  rw [List.drop_append_of_le_length (by omega)] at hnewline total
  have short := List.length_drop (i := lead) (l := q)
  have short' := List.length_drop (i := lead + newline) (l := q)
  refine continuation?_eq_some.mpr ⟨lead, newline, ?_, ?_, some_break, ?_⟩
  · rw [takeWhile_append_of_lt (y := y) (by omega) z]
    exact hlead
  · rw [List.drop_append_of_le_length (by omega), newlineLength_congr (y := y) (by omega) z]
    exact hnewline
  · rw [List.drop_append_of_le_length (by omega), takeWhile_append_of_lt (y := y) (by omega) z]
    exact total

theorem escape_congr {k : Quotation} {start n : Nat} {meaning : Option CodePoint}
    (h : escape k start (q ++ y) = .ok (meaning, n)) (inside : n < q.length) (z : Text) :
    escape k start (q ++ z) = .ok (meaning, n) := by
  cases q with
  | nil => simp at inside
  | cons letter q =>
    rw [List.cons_append] at h ⊢
    rw [List.length_cons] at inside
    unfold escape at h ⊢
    simp only at h ⊢
    cases simple : simpleEscape? letter with
    | some c =>
      rw [simple] at h
      exact h
    | none =>
      rw [simple] at h
      simp only at h ⊢
      split at h
      · rename_i hex
        rw [if_pos hex]
        split at h
        · cases h
        · rename_i closed
          -- the digits and the semicolon after them lie inside `q`
          have digits : (token (q ++ y)).length + 1 < q.length := by
            split at h
            · cases h
            · cases h
            · cases h
              omega
          have same : token (q ++ z) = token (q ++ y) :=
            takeWhile_append_of_lt (Nat.lt_of_succ_lt digits) z
          have short := List.length_drop (i := (token (q ++ y)).length) (l := q)
          rw [List.drop_append_of_le_length (by omega)] at closed
          rw [same, List.drop_append_of_le_length (by omega)]
          cases rest : q.drop (token (q ++ y)).length with
          | nil =>
            rw [rest, List.length_nil] at short
            omega
          | cons x more =>
            rw [rest] at closed
            rw [List.cons_append, List.head?_cons] at closed ⊢
            rw [if_neg closed]
            exact h
      · rename_i other
        rw [if_neg other]
        split at h
        · rename_i blank
          rw [if_pos blank]
          split at h
          · cases h
          · rename_i m found
            cases h
            -- a line continuation that ends inside `q` has its line break there
            have same : continuation? (letter :: q ++ z) = some n :=
              continuation?_congr found (by rw [List.length_cons]; exact inside) z
            rw [List.cons_append] at same
            rw [same]
        · cases h

/-- The closing mark is in `q`, so every step up to it sees the same text. -/
theorem quotedFrom_congr {k : Quotation} {skip start size : Nat} {content : Text}
    (h : quotedFrom k skip start (q ++ y) = .ok (content, size))
    (inside : size ≤ start + q.length) (z : Text) :
    quotedFrom k skip start (q ++ z) = .ok (content, size) := by
  induction q generalizing skip start content with
  | nil =>
    have bounds := quotedFrom_size h
    simp at inside
    omega
  | cons c q ih =>
    rw [List.length_cons] at inside
    rw [List.cons_append] at h ⊢
    cases skip with
    | succ skip =>
      rw [quotedFrom] at h ⊢
      exact ih h (by omega)
    | zero =>
      rw [quotedFrom] at h ⊢
      split
      · rename_i mark
        rw [if_pos mark] at h
        exact h
      · rename_i no_mark
        rw [if_neg no_mark] at h
        split
        · rename_i backslash
          rw [if_pos backslash] at h
          split at h
          · cases h
          · rename_i meaning n escaped
            obtain ⟨⟨more, size'⟩, rest, same⟩ := map_eq_ok.mp h
            cases same
            have bounds := quotedFrom_size rest
            rw [escape_congr escaped (by omega) z]
            simp only [ih rest (by omega), Except.map]
        · rename_i plain
          rw [if_neg plain] at h
          obtain ⟨⟨more, size'⟩, rest, same⟩ := map_eq_ok.mp h
          cases same
          simp only [ih rest (by omega), Except.map]

theorem quoted_congr {k : Quotation} {size : Nat} {content : Text} {x : CodePoint}
    (h : quoted k (x :: (q ++ y)) = .ok (content, size)) (inside : size ≤ q.length + 1) (z : Text) :
    quoted k (x :: (q ++ z)) = .ok (content, size) :=
  quotedFrom_congr (y := y) h (by omega) z

/-! ## 3. Block comments -/

theorem blockComment_pair (depth : Int) (a b : CodePoint) (t : Text) :
    blockComment depth (a :: b :: t) =
      if a = .scalar '#' ∧ b = .scalar '|' then (blockComment (depth + 1) t).map (· + 2)
      else if a = .scalar '|' ∧ b = .scalar '#' then
        if depth = 1 then .ok 2 else (blockComment (depth - 1) t).map (· + 2)
      else (blockComment depth (b :: t)).map (· + 1) := by
  by_cases opens : a = .scalar '#' ∧ b = .scalar '|'
  · obtain ⟨rfl, rfl⟩ := opens
    rfl
  · by_cases closes : a = .scalar '|' ∧ b = .scalar '#'
    · obtain ⟨rfl, rfl⟩ := closes
      rfl
    · rw [if_neg opens, if_neg closes, blockComment.eq_3]
      · rintro rest rfl same
        cases same
        exact opens ⟨rfl, rfl⟩
      · rintro rest rfl same
        cases same
        exact closes ⟨rfl, rfl⟩

theorem blockComment_congr {q : Text} {depth : Int} {size : Nat}
    (h : blockComment depth (q ++ y) = .ok size) (inside : size ≤ q.length) (z : Text) :
    blockComment depth (q ++ z) = .ok size := by
  -- by recursion on `q` as the comment is followed: both texts show the same two code points
  have two := two_le_blockComment h
  match q, inside with
  | [], inside =>
    rw [List.length_nil] at inside
    omega
  | [a], inside =>
    rw [List.length_singleton] at inside
    omega
  | a :: b :: q, inside =>
    rw [List.length_cons, List.length_cons] at inside
    rw [List.cons_append, List.cons_append, blockComment_pair] at h ⊢
    split
    · rename_i opens
      rw [if_pos opens] at h
      obtain ⟨n, deeper, rfl⟩ := map_eq_ok.mp h
      rw [blockComment_congr deeper (by omega) z]
      rfl
    · rename_i no_opening
      rw [if_neg no_opening] at h
      split
      · rename_i closes
        rw [if_pos closes] at h
        split
        · rename_i outermost
          rw [if_pos outermost] at h
          exact h
        · rename_i nested
          rw [if_neg nested] at h
          obtain ⟨n, outer, rfl⟩ := map_eq_ok.mp h
          rw [blockComment_congr outer (by omega) z]
          rfl
      · rename_i no_closing
        rw [if_neg no_closing] at h
        obtain ⟨n, rest, rfl⟩ := map_eq_ok.mp h
        rw [← List.cons_append] at rest ⊢
        rw [blockComment_congr rest (by rw [List.length_cons]; omega) z]
        rfl
termination_by q.length

/-! ## 4. Spellings and the starts of comments -/

/-- A lexeme that ends with `q` is there as well before anything else that ends a token, if it needs
that; and quoted forms end with their closing mark. -/
theorem Spells.before {fold : Bool} {d : Datum} {size : Nat}
    (stops : y.atDelimiter = true → z.atDelimiter = true) (h : Spells fold (q ++ y) d size)
    (whole : size = q.length) : Spells fold (q ++ z) d size := by
  have bounds := h.size
  match q, whole with
  | [], whole =>
    rw [List.length_nil] at whole
    omega
  | x :: q, whole =>
    rw [List.length_cons] at whole
    cases h with
    | string opened read => exact .string opened (quoted_congr read (by omega) z)
    | symbol opened read => exact .symbol opened (quoted_congr read (by omega) z)
    | character opened read =>
      have long := (character_size read).1
      match q, whole with
      | [], whole | [_], whole =>
        simp only [List.length_cons, List.length_nil] at whole
        omega
      | b :: first :: q, whole =>
        obtain ⟨rfl, same⟩ := List.cons.inj opened
        obtain ⟨rfl, -⟩ := List.cons.inj same
        exact .character rfl (character_congr stops read (by simpa using whole))
    | hash opened read =>
      obtain ⟨more, head⟩ := head_of_startsHashToken opened
      obtain ⟨rfl, -⟩ := List.cons.inj head
      have read' := hashToken_congr stops read whole
      exact .hash (startsHashToken_of_read read') read'
    | atom opened read => exact .atom opened (atom_congr stops read whole)

/-- What ends the lexeme may also stand in `q`. -/
theorem Spells.within {fold : Bool} {d : Datum} {size : Nat}
    (stops : y.atDelimiter = true → z.atDelimiter = true) (h : Spells fold (q ++ y) d size)
    (inside : size ≤ q.length) : Spells fold (q ++ z) d size := by
  have parts : ∀ u, q ++ u = q.take size ++ (q.drop size ++ u) := by
    intro u
    rw [← List.append_assoc, List.take_append_drop]
  rw [parts] at h ⊢
  refine h.before ?_ (by rw [List.length_take]; omega)
  cases q.drop size with
  | nil => exact stops
  | cons c more => exact id

end Lexeme

theorem Text.atDelimiter_append (ends : y.AtLineEnd) : (q ++ y).atDelimiter = q.atDelimiter := by
  cases q with
  | nil => exact ends.atDelimiter
  | cons c q => rfl

theorem abbreviation?_pair (a b : CodePoint) (t : Text) :
    abbreviation? (a :: b :: t) = abbreviation? [a, b] := by
  by_cases quote : a = .apostrophe
  · subst quote
    rfl
  · by_cases quasi : a = .graveAccent
    · subst quasi
      rfl
    · by_cases comma : a = .scalar ','
      · subst comma
        by_cases splice : b = .scalar '@'
        · subst splice
          rfl
        · have single : ∀ u : Text, abbreviation? (.scalar ',' :: b :: u) = some .unquote := by
            intro u
            apply abbreviation?.eq_4
            intro tail same
            cases same
            exact splice rfl
          rw [single t, single []]
      · have unmarked : ∀ u : Text, abbreviation? (a :: b :: u) = none := by
          intro u
          apply abbreviation?.eq_5
          · intro tail same
            cases same
            exact quote rfl
          · intro tail same
            cases same
            exact quasi rfl
          · intro tail same
            cases same
            exact comma rfl
          · intro tail same
            cases same
            exact comma rfl
        rw [unmarked t, unmarked []]

theorem abbreviation?_congr {q y z : Text} (long : 2 ≤ q.length) :
    abbreviation? (q ++ z) = abbreviation? (q ++ y) := by
  match q, long with
  | a :: b :: q, _ =>
    show abbreviation? (a :: b :: (q ++ z)) = abbreviation? (a :: b :: (q ++ y))
    rw [abbreviation?_pair a b (q ++ z), abbreviation?_pair a b (q ++ y)]

theorem NamedMarker.matchesAt_append (m : NamedMarker) (ends : y.AtLineEnd) :
    m.matchesAt (q ++ y) = m.matchesAt q := by
  have inside : ∀ c ∈ m.name, c.isNewline = false := by cases m <;> decide
  unfold matchesAt Text.startsWith
  rw [isPrefixOf_append inside ends]
  cases found : m.name.isPrefixOf q with
  | false => rfl
  | true =>
    have short := (List.isPrefixOf_iff_prefix.mp found).length_le
    rw [List.drop_append_of_le_length short, Text.atDelimiter_append ends]

theorem NamedMarker.name_of_detect? {t : Text} {m : NamedMarker} (h : detect? t = some m) :
    m.name <+: t := by
  have found := List.find?_some h
  unfold matchesAt Text.startsWith at found
  exact List.isPrefixOf_iff_prefix.mp (Bool.and_eq_true_iff.mp found).1

theorem NamedMarker.detect?_append (ends : y.AtLineEnd) : detect? (q ++ y) = detect? q := by
  unfold detect?
  congr 1
  funext m
  exact m.matchesAt_append ends

theorem startsComment_pair (policy : WhitespacePolicy) (a b : CodePoint) (t : Text) :
    startsComment policy .directive (a :: b :: t) =
      (a = .scalar ';' || a = .scalar '#' && (b = .scalar '|' || b = .scalar ';' ||
        b = .scalar '!' && (NamedMarker.detect? t).isSome)) := by
  unfold startsComment
  split
  · rename_i same
    cases same
    rfl
  · rename_i same
    cases same
    rfl
  · rename_i same
    cases same
    rfl
  · rename_i same
    cases same
    simp
  · rename_i no_line no_block no_datum no_marker
    have first : a ≠ .scalar ';' := by
      rintro rfl
      exact no_line _ rfl
    by_cases hash : a = .scalar '#'
    · subst hash
      have second : b ≠ .scalar '|' ∧ b ≠ .scalar ';' ∧ b ≠ .scalar '!' := by
        refine ⟨?_, ?_, ?_⟩
        · rintro rfl
          exact no_block _ rfl
        · rintro rfl
          exact no_datum _ rfl
        · rintro rfl
          exact no_marker _ rfl
      simp [second]
    · simp [first, hash]

theorem startsComment_singleton (policy : WhitespacePolicy) (a : CodePoint) :
    startsComment policy .directive [a] = (a = .scalar ';') := by
  by_cases line : a = .scalar ';'
  · subst line
    simp [startsComment]
  · unfold startsComment
    split
    · rename_i same
      cases same
      exact absurd rfl line
    · rename_i same
      cases same
    · rename_i same
      cases same
    · rename_i same
      cases same
    · simp [line]

/-- In a directive the whitespace policy has no say: no directive can start there. -/
theorem startsComment_policy (policy policy' : WhitespacePolicy) (t : Text) :
    startsComment policy .directive t = startsComment policy' .directive t := by
  unfold startsComment
  split
  · rfl
  · rfl
  · rfl
  · rfl
  · rfl

theorem startsComment_append (policy : WhitespacePolicy) (some_text : q ≠ [])
    (ends : y.AtLineEnd) :
    startsComment policy .directive (q ++ y) = startsComment policy .directive q := by
  match q, some_text with
  | [a], _ =>
    cases y with
    | nil => rfl
    | cons b y =>
      have second : b ≠ .scalar '|' ∧ b ≠ .scalar ';' ∧ b ≠ .scalar '!' :=
        ⟨ends.ne (by decide), ends.ne (by decide), ends.ne (by decide)⟩
      have alone := startsComment_singleton policy a
      rw [List.singleton_append, startsComment_pair, Bool.eq_iff_iff, alone]
      simp [second]
  | a :: b :: q, _ =>
    rw [List.cons_append, List.cons_append, startsComment_pair, startsComment_pair,
      NamedMarker.detect?_append ends]

end LineDirective
