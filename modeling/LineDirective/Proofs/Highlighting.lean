import LineDirective.Highlight
import LineDirective.Proofs.Coherence
import LineDirective.Proofs.LexemeLocality

/-!
# Highlighting and detection

What `#!` introduces is decided twice: by the rules of the highlighter, which see the text from a
place on, and by the reader, which asks for a named marker first and then whether a directive starts.

On named markers the two agree, also on where the marker ends. On directives the highlighter is the
narrower: of the whitespace that stays on its line it knows the space and the tab only, so that a line
that the reader takes for a directive because of a form feed is not highlighted.
-/

namespace LineDirective

/-! ## 1. The rules on a text -/

/-- The words of the two markers differ in their first code point, so that it does not matter which of
them is looked for first. -/
theorem NamedMarker.matchesAt_foldCase_of_noFoldCase {t : Text}
    (found : noFoldCase.matchesAt t = true) : foldCase.matchesAt t = false := by
  obtain ⟨rest, rfl⟩ := List.isPrefixOf_iff_prefix.mp (Bool.and_eq_true_iff.mp found).1
  rfl

namespace Highlight

variable {t : Text}

/-- A rule that begins with the marker says nothing of a text that does not. -/
theorem markerLength?_of_unmarked (unmarked : t.startsWith directiveMarker = false) :
    markerLength? t = none := by
  have refused (word : Text) : t.startsWith (directiveMarker ++ word) = false := by
    apply Bool.eq_false_iff.mpr
    intro begins
    obtain ⟨rest, rfl⟩ := List.isPrefixOf_iff_prefix.mp begins
    rw [Text.startsWith, List.append_assoc, List.isPrefixOf_iff_prefix.mpr ⟨_, rfl⟩] at unmarked
    cases unmarked
  simp [markerLength?, refused]

theorem directiveLength?_of_unmarked (unmarked : t.startsWith directiveMarker = false) :
    directiveLength? t = none := by
  simp [directiveLength?, unmarked]

/-- After the marker the first rule looks for the words that the reader looks for. -/
theorem markerLength?_marker (t : Text) :
    markerLength? (directiveMarker ++ t) =
      (NamedMarker.detect? t).map fun m => directiveMarker.length + m.name.length := by
  have rules : markerLength? (directiveMarker ++ t) =
      (if NamedMarker.noFoldCase.matchesAt t then some 14 else none).or
        (if NamedMarker.foldCase.matchesAt t then some 11 else none) := rfl
  have words : NamedMarker.detect? t =
      if NamedMarker.foldCase.matchesAt t then some .foldCase
      else if NamedMarker.noFoldCase.matchesAt t then some .noFoldCase else none := by
    simp only [NamedMarker.detect?, NamedMarker.all, List.find?]
    cases NamedMarker.foldCase.matchesAt t <;> cases NamedMarker.noFoldCase.matchesAt t <;> rfl
  rw [rules, words]
  cases named : NamedMarker.noFoldCase.matchesAt t with
  | true =>
    rw [NamedMarker.matchesAt_foldCase_of_noFoldCase named]
    rfl
  | false => cases NamedMarker.foldCase.matchesAt t <;> rfl

/-- What the second rule asks of the text after the marker, in terms of what the reader asks. -/
theorem opensLine_iff (unnamed : NamedMarker.detect? t = none) :
    opensLine t = true ↔ startsDirective .strictNoSpace t = true ∧
      ∀ c, t.head? = some c → c.isIntralineBlank = true → c = .scalar ' ' ∨ c = .scalar '\t' := by
  cases t with
  | nil => simp [opensLine, startsDirective, unnamed]
  | cons c rest =>
    have spelled : opensLine (c :: rest) = true ↔
        (c = .scalar ' ' ∨ c = .scalar '\t') ∨ c.isNewline = true := by simp [opensLine]
    have detected : startsDirective .strictNoSpace (c :: rest) = c.isBlank := by
      simp [startsDirective, unnamed]
    have narrower : (∀ b, (c :: rest).head? = some b → b.isIntralineBlank = true →
          b = .scalar ' ' ∨ b = .scalar '\t') ↔
        (c.isIntralineBlank = true → c = .scalar ' ' ∨ c = .scalar '\t') := by simp
    rw [spelled, detected, narrower]
    constructor
    · rintro ((rfl | rfl) | newline)
      · exact ⟨rfl, fun _ => .inl rfl⟩
      · exact ⟨rfl, fun _ => .inr rfl⟩
      · exact ⟨CodePoint.isBlank_of_isNewline newline, fun stays => by
          simp [CodePoint.isIntralineBlank, newline] at stays⟩
    · rintro ⟨blank, narrow⟩
      cases newline : c.isNewline with
      | true => exact .inr rfl
      | false => exact .inl (narrow (by simp [CodePoint.isIntralineBlank, newline, blank]))

/-- A token is a named marker where the first rule applies. -/
theorem token?_eq_namedMarker_iff {n : Nat} :
    token? t = some (.namedMarker, n) ↔ markerLength? t = some n := by
  unfold token?
  cases markerLength? t with
  | some size => simp
  | none => simp

/-- A token is a directive where the first rule does not apply and the second does. -/
theorem exists_token?_eq_directive_iff :
    (∃ n, token? t = some (.directive, n)) ↔ markerLength? t = none ∧
      t.startsWith directiveMarker = true ∧ opensLine (t.drop directiveMarker.length) = true := by
  unfold token? directiveLength?
  cases markerLength? t with
  | some size => simp
  | none => simp

end Highlight

/-! ## 2. The rules at a place of a source -/

namespace Source

variable {src : Source} {p q : Position}

/-- The text that the rules see and the text that the reader sees, at a marker and after it. -/
theorem suffix_of_marked (inside : 0 ≤ p.offset) (after : src.advance p 2 = .ok q)
    (marked : src.startsWith p directiveMarker = true) :
    q.offset = p.offset + 2 ∧ src.suffix p.offset = directiveMarker ++ (src.cursor q).rest := by
  rw [src.startsWith_of_nonneg inside (by decide)] at marked
  obtain ⟨rest, head⟩ := startsWith_directiveMarker.mp marked
  rw [src.advance_of_nonneg inside] at after
  obtain rfl := Except.ok.inj after
  have there : src.cursor ((src.cursor p).advance 2).position = (src.cursor p).advance 2 :=
    cursor_of_reaches ((src.cursor p).reaches_advance 2)
  constructor
  · show ((src.cursor p).advance 2).position.offset = p.offset + 2
    rw [Cursor.offset_advance, head, src.position_cursor]
    rfl
  · show _ = directiveMarker ++ (src.cursor ((src.cursor p).advance 2).position).rest
    rw [← src.rest_cursor inside, there, Cursor.rest_advance, head]
    rfl

/-- Nothing is highlighted where no marker stands. -/
theorem token?_of_unmarked (inside : 0 ≤ p.offset)
    (unmarked : src.startsWith p directiveMarker = false) :
    Highlight.token? (src.suffix p.offset) = none := by
  rw [src.startsWith_of_nonneg inside (by decide), src.rest_cursor inside] at unmarked
  rw [Highlight.token?, Highlight.markerLength?_of_unmarked unmarked,
    Highlight.directiveLength?_of_unmarked unmarked]
  rfl

/-- A marker's word that is found lies in the text as a whole, so that its end is as far on as the word
is long. -/
theorem exists_namedMarker?_iff {last : Int} (inside : 0 ≤ q.offset) :
    (∃ m r, src.namedMarker? q = .ok (some (m, r)) ∧ r.offset = last) ↔
      ∃ m, NamedMarker.detect? (src.cursor q).rest = some m ∧ q.offset + m.name.length = last := by
  have ends {m : NamedMarker} (named : NamedMarker.detect? (src.cursor q).rest = some m) :
      ((src.cursor q).advance m.name.length).position.offset = q.offset + m.name.length := by
    have short := (NamedMarker.name_of_detect? named).length_le
    rw [Cursor.offset_advance, Nat.min_eq_left short, src.position_cursor]
  rw [src.namedMarker?_of_nonneg inside]
  constructor
  · rintro ⟨m, r, found, rfl⟩
    obtain ⟨m', named, same⟩ := Option.map_eq_some_iff.mp (Except.ok.inj found)
    obtain ⟨rfl, rfl⟩ := Prod.mk.inj same
    exact ⟨m', named, (ends named).symm⟩
  · rintro ⟨m, named, rfl⟩
    exact ⟨m, _, congrArg Except.ok (Option.map_eq_some_iff.mpr ⟨m, named, rfl⟩), ends named⟩

/-- At every place of a source the first rule of the highlighter matches exactly where the reader
finds a named marker, up to where the marker ends. The second matches exactly where the reader
detects a directive, except behind whitespace that stays on its line and is neither a space nor a
tab. -/
theorem highlighted_as_detected (coherent : src.Coherent p) (after : src.advance p 2 = .ok q) :
    (∀ n : Nat, Highlight.token? (src.suffix p.offset) = some (.namedMarker, n) ↔
      src.startsWith p directiveMarker = true ∧
        ∃ m r, src.namedMarker? q = .ok (some (m, r)) ∧ r.offset = p.offset + n) ∧
    ((∃ n, Highlight.token? (src.suffix p.offset) = some (.directive, n)) ↔
      src.startsWith p directiveMarker = true ∧ src.startsDirective .strictNoSpace q = .ok true ∧
        ∀ c, src.peek? q = some c → c.isIntralineBlank = true →
          c = .scalar ' ' ∨ c = .scalar '\t') := by
  have inside := coherent.1
  cases marked : src.startsWith p directiveMarker with
  | false => simp [token?_of_unmarked inside marked]
  | true =>
    obtain ⟨further, text⟩ := suffix_of_marked inside after marked
    have within : 0 ≤ q.offset := by omega
    have first : src.peek? q = (src.cursor q).rest.head? := src.peek?_of_nonneg within 0
    have marker : directiveMarker.length = 2 := rfl
    have begins : (directiveMarker ++ (src.cursor q).rest).startsWith directiveMarker = true :=
      List.isPrefixOf_iff_prefix.mpr ⟨_, rfl⟩
    rw [text]
    constructor
    · intro n
      rw [Highlight.token?_eq_namedMarker_iff, Highlight.markerLength?_marker,
        exists_namedMarker?_iff within, Option.map_eq_some_iff]
      have same (m : NamedMarker) : directiveMarker.length + m.name.length = n ↔
          q.offset + m.name.length = p.offset + n := by omega
      simp only [same, true_and]
    · rw [Highlight.exists_token?_eq_directive_iff, Highlight.markerLength?_marker, begins,
        List.drop_left, src.startsDirective_of_nonneg _ within, first]
      cases named : NamedMarker.detect? (src.cursor q).rest with
      | some m => simp [LineDirective.startsDirective, named]
      | none => simp [Highlight.opensLine_iff named]

/-- A marker in the middle of a line, before a bracket. -/
theorem highlighted_as_detected_bracket :
    Source.Coherent ⟨"x\n #!fold-case)", none⟩ ⟨2, 1, 3⟩ ∧
    Source.advance ⟨"x\n #!fold-case)", none⟩ ⟨2, 1, 3⟩ 2 = .ok ⟨2, 3, 5⟩ ∧
    Highlight.token? ("#!fold-case)" : Text) = some (.namedMarker, 11) ∧
    ∃ m r, Source.namedMarker? ⟨"x\n #!fold-case)", none⟩ ⟨2, 3, 5⟩ = .ok (some (m, r)) ∧
      r.offset = 14 := by
  have coherent : Source.Coherent ⟨"x\n #!fold-case)", none⟩ ⟨2, 1, 3⟩ :=
    ⟨by decide, by decide, rfl⟩
  have after : Source.advance ⟨"x\n #!fold-case)", none⟩ ⟨2, 1, 3⟩ 2 = .ok ⟨2, 3, 5⟩ := by decide
  have token : Highlight.token? ("#!fold-case)" : Text) = some (.namedMarker, 11) := by decide
  exact ⟨coherent, after, token, (((highlighted_as_detected coherent after).1 11).mp token).2⟩

/-- A form feed after the `#!` makes a directive, but not for the highlighter. -/
theorem directive_not_highlighted :
    Source.Coherent ⟨"#!\x0cfoo", none⟩ .start ∧
    Source.advance ⟨"#!\x0cfoo", none⟩ .start 2 = .ok ⟨1, 2, 2⟩ ∧
    Source.startsDirective ⟨"#!\x0cfoo", none⟩ .strictNoSpace ⟨1, 2, 2⟩ = .ok true ∧
    Highlight.token? ("#!\x0cfoo" : Text) = none :=
  ⟨coherent_start _, rfl, rfl, rfl⟩

end Source

end LineDirective
