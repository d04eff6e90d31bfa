import LineDirective.Proofs.DirectiveLog
import LineDirective.Proofs.LexemeLocality

/-!
# Directives in the midst of code

To the code around it a directive is whitespace. Put spaces in the place of every directive that is on
record, up to where its scan ended and line breaks apart: the text is read to its end as before, item
by item and place by place, and there is nothing left to put on record (`Session.forms_of_masked`).

The proof follows the read of the text rule by rule on the masked text (`Reads.masked`). Along a
stretch of the text the mask covers what the trace tells of (`Masks`); where nothing was put on record
both texts are the same, and what a token needs to see after it is a delimiter in both.
-/

namespace LineDirective

/-! ## 1. Masked texts -/

/-- A space in the place of a code point that is covered. Line breaks stay. -/
def CodePoint.masked (covered : Bool) (x : CodePoint) : CodePoint :=
  if covered && !x.isNewline then .scalar ' ' else x

namespace CodePoint

variable {covered : Bool} {x : CodePoint}

@[simp] theorem masked_false (x : CodePoint) : x.masked false = x := rfl

theorem masked_cases (covered : Bool) (x : CodePoint) :
    x.masked covered = x ∨ x.isNewline = false ∧ x.masked covered = .scalar ' ' := by
  unfold masked
  split
  · rename_i hidden
    exact .inr ⟨by simpa using (Bool.and_eq_true_iff.mp hidden).2, rfl⟩
  · exact .inl rfl

theorem isBlank_masked_true (x : CodePoint) : (x.masked true).isBlank = true := by
  cases newline : x.isNewline with
  | true =>
    simp only [masked, newline]
    exact isBlank_of_isNewline newline
  | false =>
    simp only [masked, newline]
    exact (by decide : isBlank (.scalar ' ') = true)

theorem isBlank_masked (white : x.isBlank = true) : (x.masked covered).isBlank = true := by
  rcases x.masked_cases covered with same | ⟨-, space⟩
  · rwa [same]
  · rw [space]
    decide

theorem isDelimiter_masked (ends : x.isDelimiter = true) : (x.masked covered).isDelimiter = true := by
  rcases x.masked_cases covered with same | ⟨-, space⟩
  · rwa [same]
  · rw [space]
    decide

@[simp] theorem isNewline_masked (covered : Bool) (x : CodePoint) :
    (x.masked covered).isNewline = x.isNewline := by
  rcases x.masked_cases covered with same | ⟨inside, space⟩
  · rw [same]
  · rw [space, inside]
    decide

theorem eq_of_masked {c : CodePoint} (visible : c ≠ .scalar ' ') (h : x.masked covered = c) :
    x = c := by
  rcases x.masked_cases covered with same | ⟨-, space⟩
  · rw [← h, same]
  · exact absurd (h.symm.trans space) visible

theorem masked_of_isNewline (newline : x.isNewline = true) : x.masked covered = x := by
  simp [masked, newline]

end CodePoint

/-- The text from an offset on, with the offsets given covered. -/
def Text.masked (covered : Int → Bool) : Int → Text → Text
  | _, [] => []
  | k, x :: t => x.masked (covered k) :: masked covered (k + 1) t

def Cursor.masked (covered : Int → Bool) (c : Cursor) : Cursor :=
  ⟨c.rest.masked covered c.position.offset, c.position⟩

section Masked

variable {covered : Int → Bool}

@[simp] theorem Text.head?_masked (k : Int) (t : Text) :
    (t.masked covered k).head? = t.head?.map (·.masked (covered k)) := by
  cases t <;> rfl

theorem Text.atDelimiter_masked {k : Int} {t : Text} (ends : t.atDelimiter = true) :
    (t.masked covered k).atDelimiter = true := by
  cases t with
  | nil => rfl
  | cons x t => exact CodePoint.isDelimiter_masked ends

theorem Text.head?_of_masked {k : Int} {t : Text} {c : CodePoint} (visible : c ≠ .scalar ' ')
    (h : (t.masked covered k).head? = some c) : t.head? = some c := by
  cases t with
  | nil => cases h
  | cons x t => exact congrArg some (CodePoint.eq_of_masked visible (Option.some.inj h))

/-- A line ends at the same place. -/
theorem Text.length_line_masked (k : Int) (t : Text) :
    ((t.masked covered k).takeWhile fun x => !x.isNewline).length =
      (t.takeWhile fun x => !x.isNewline).length := by
  induction t generalizing k with
  | nil => rfl
  | cons x t ih =>
    simp only [masked, List.takeWhile_cons, CodePoint.isNewline_masked]
    split
    · rw [List.length_cons, List.length_cons, ih]
    · rfl

/-- What is covered matters only for the code points that are no line breaks. -/
theorem Text.masked_congr {covered' : Int → Bool} {k : Int} {t : Text}
    (same : ∀ (n : Nat) (x : CodePoint), t[n]? = some x → x.isNewline = false →
      covered (k + n) = covered' (k + n)) : t.masked covered k = t.masked covered' k := by
  induction t generalizing k with
  | nil => rfl
  | cons x t ih =>
    have first : x.masked (covered k) = x.masked (covered' k) := by
      cases newline : x.isNewline with
      | true => rw [CodePoint.masked_of_isNewline newline, CodePoint.masked_of_isNewline newline]
      | false =>
        have here := same 0 x rfl newline
        rw [Int.natCast_zero, Int.add_zero] at here
        rw [here]
    have others : Text.masked covered (k + 1) t = Text.masked covered' (k + 1) t := by
      apply ih
      intro n y at_n inside
      have there := same (n + 1) y at_n inside
      rwa [show k + ((n + 1 : Nat) : Int) = k + 1 + n by omega] at there
    show _ :: _ = _ :: _
    rw [first, others]

namespace Cursor

variable {c : Cursor}

@[simp] theorem position_masked (c : Cursor) : (c.masked covered).position = c.position := rfl

theorem rest_masked_of_head {x : CodePoint} {rest : Text} (head : c.rest = x :: rest) :
    (c.masked covered).rest = x.masked (covered c.position.offset) :: (c.next.masked covered).rest := by
  unfold masked next
  simp only [head, Text.masked, Position.offset_after]

theorem next_masked (c : Cursor) : (c.masked covered).next = c.next.masked covered := by
  cases head : c.rest with
  | nil =>
    have nothing : (c.masked covered).rest = [] := by simp [masked, head, Text.masked]
    rw [next_of_atEnd (by simp [atEnd, nothing]), next_of_atEnd (by simp [atEnd, head])]
  | cons x rest =>
    have place : c.position.after (x.masked (covered c.position.offset))
        (Text.masked covered (c.position.offset + 1) rest) = c.position.after x rest := by
      -- covering leaves the code points of line breaks, and makes none
      have kept {y : CodePoint} (newline : y.isNewline = true) (b : Bool) (z : CodePoint) :
          z.masked b = y ↔ z = y := by
        constructor
        · exact CodePoint.eq_of_masked (by rintro rfl; cases newline)
        · rintro rfl
          exact CodePoint.masked_of_isNewline newline
      have feed : (Text.masked covered (c.position.offset + 1) rest).head? = some .lineFeed ↔
          rest.head? = some .lineFeed := by
        cases rest with
        | nil => exact Iff.rfl
        | cons y rest => simpa using kept (y := .lineFeed) rfl _ y
      unfold Position.after
      simp only [ne_eq, feed, kept (y := .lineFeed) rfl, kept (y := .carriageReturn) rfl]
    unfold next masked
    simp only [head, Text.masked, place, Position.offset_after]

theorem advance_masked (c : Cursor) (n : Nat) :
    (c.masked covered).advance n = (c.advance n).masked covered := by
  induction n generalizing c with
  | zero => rfl
  | succ n ih => rw [advance_succ, advance_succ, next_masked, ih]

theorem lineEnd_masked (c : Cursor) : (c.masked covered).lineEnd = c.lineEnd.masked covered := by
  unfold lineEnd skipWhile span
  rw [advance_masked]
  congr 2
  exact Text.length_line_masked _ _

/-- What is not covered is the same in the masked text. -/
theorem rest_masked_of_bare {q y : Text} (text : c.rest = q ++ y)
    (bare : ∀ k, c.position.offset ≤ k → k < c.position.offset + q.length → covered k = false) :
    (c.masked covered).rest = q ++ ((c.advance q.length).masked covered).rest := by
  induction q generalizing c with
  | nil => rfl
  | cons x q ih =>
    have moved : c.next.position.offset = c.position.offset + 1 := by
      rw [offset_next, text]
      simp
    rw [List.length_cons] at bare
    rw [rest_masked_of_head text, bare _ (Int.le_refl _) (by omega), CodePoint.masked_false,
      List.cons_append, List.length_cons, advance_succ, ih]
    · rw [rest_next, text]
      rfl
    · intro k from_here to_there
      exact bare k (by omega) (by omega)

end Cursor

end Masked

/-! ## 2. What is covered -/

section Stretches

variable {ctx : Context} {covered : Int → Bool} {c c₁ next : Cursor} {s s₁ s' : ReaderState}

/-- Whatever is put on record between the two states stands between the two places. -/
def Stretch (ctx : Context) (c : Cursor) (s : ReaderState) (next : Cursor) (s' : ReaderState) : Prop :=
  c.Reaches next ∧ ∃ scans, LoggedTo ctx c s scans next s'

theorem Stretch.still (s : ReaderState) (ahead : c.Reaches next) : Stretch ctx c s next s :=
  ⟨ahead, [], .of_silent _ _ rfl rfl⟩

theorem Stretch.trans (first : Stretch ctx c s c₁ s₁) (second : Stretch ctx c₁ s₁ next s') :
    Stretch ctx c s next s' := by
  obtain ⟨ahead, scans, log⟩ := first
  obtain ⟨further, more, log'⟩ := second
  exact ⟨ahead.trans further, _, log.trans ahead log' further⟩

theorem Reads.stretch (keeps : ctx.sink ≠ .discard) {task : Task} {y : Yield}
    (h : Reads ctx task c s y next s') (outside : task.isScan = false) :
    Stretch ctx c s next s' :=
  ⟨h.reaches, h.logged keeps outside⟩

theorem LoggedTo.bounds {scans : List Scan} (log : LoggedTo ctx c s scans next s') {scan : Scan}
    (mem : scan ∈ scans) : c.position.offset ≤ scan.content.position.offset - 2 ∧
      scan.last.position.offset ≤ next.position.offset := by
  obtain ⟨ahead, runs⟩ := log.runs scan mem
  have marker : scan.content.position.offset - 2 = scan.marker.position.offset :=
    congrArg Position.offset runs.position_marker
  have before := ahead.offset_mono
  have after := (scan.reaches_stop.trans (log.ends scan mem)).offset_mono
  omega

/-- Along a stretch the directives that the trace tells of are covered, each from its marker to the
end of its data, and nothing else is. -/
def Masks (covered : Int → Bool) (c : Cursor) (s : ReaderState) (next : Cursor) (s' : ReaderState) :
    Prop :=
  ∃ added, s'.contents.2 = s.contents.2 ++ added ∧
    ∀ k, c.position.offset ≤ k → k < next.position.offset →
      (covered k = true ↔ ∃ e ∈ added, e.1.offset - 2 ≤ k ∧ k < e.2.offset)

/-- Each part of a stretch has its own directives. -/
theorem Masks.split (h : Masks covered c s next s') (first : Stretch ctx c s c₁ s₁)
    (second : Stretch ctx c₁ s₁ next s') :
    Masks covered c s c₁ s₁ ∧ Masks covered c₁ s₁ next s' := by
  obtain ⟨added, contents, covers⟩ := h
  obtain ⟨ahead, scans, log⟩ := first
  obtain ⟨further, more, log'⟩ := second
  rw [log'.contents, log.contents, List.append_assoc] at contents
  obtain rfl := List.append_cancel_left contents
  have onward := ahead.offset_mono
  have onward' := further.offset_mono
  constructor
  · refine ⟨_, log.contents, ?_⟩
    intro k from_here to_there
    rw [covers k from_here (by omega)]
    constructor
    · rintro ⟨e, mem, within⟩
      rcases List.mem_append.mp mem with mem | mem
      · exact ⟨e, mem, within⟩
      · obtain ⟨scan, listed, rfl⟩ := List.mem_map.mp mem
        have bounds := log'.bounds listed
        dsimp only at within
        omega
    · rintro ⟨e, mem, within⟩
      exact ⟨e, List.mem_append_left _ mem, within⟩
  · refine ⟨_, log'.contents, ?_⟩
    intro k from_here to_there
    rw [covers k (by omega) to_there]
    constructor
    · rintro ⟨e, mem, within⟩
      rcases List.mem_append.mp mem with mem | mem
      · obtain ⟨scan, listed, rfl⟩ := List.mem_map.mp mem
        have bounds := log.bounds listed
        dsimp only at within
        omega
      · exact ⟨e, mem, within⟩
    · rintro ⟨e, mem, within⟩
      exact ⟨e, List.mem_append_right _ mem, within⟩

theorem Masks.of_contents (h : Masks covered c s next s') (same : s₁.contents.2 = s.contents.2) :
    Masks covered c s₁ next s' := by
  obtain ⟨added, contents, covers⟩ := h
  exact ⟨added, by rw [contents, same], covers⟩

/-- A word that belongs to the code is there in the masked text. -/
theorem Masks.lead {rest : Text} (word : Text) (h : Masks covered c s (c.advance word.length) s')
    (silent : s'.contents.2 = s.contents.2) (head : c.rest = word ++ rest) :
    (c.masked covered).rest = word ++ ((c.advance word.length).masked covered).rest := by
  obtain ⟨added, contents, covers⟩ := h
  rw [silent] at contents
  obtain rfl : added = [] := by simpa using contents.symm
  have moved : (c.advance word.length).position.offset = c.position.offset + word.length := by
    rw [Cursor.offset_advance, head, List.length_append, Nat.min_eq_left (Nat.le_add_right _ _)]
  refine Cursor.rest_masked_of_bare head ?_
  intro k from_here to_there
  have uncovered := covers k from_here (by omega)
  simpa using uncovered

theorem Masks.first {x : CodePoint} {rest : Text} (h : Masks covered c s c.next s)
    (head : c.rest = x :: rest) :
    (c.masked covered).rest = x :: (c.next.masked covered).rest := by
  rw [← Cursor.advance_one] at h ⊢
  exact h.lead [x] rfl head

theorem Masks.take {n : Nat} (h : Masks covered c s (c.advance n) s) (inside : n ≤ c.rest.length) :
    (c.masked covered).rest = c.rest.take n ++ ((c.advance n).masked covered).rest := by
  have length : (c.rest.take n).length = n := by rw [List.length_take, Nat.min_eq_left inside]
  have lead := Masks.lead (c.rest.take n) (by rwa [length]) rfl (List.take_append_drop n c.rest).symm
  rwa [length] at lead

end Stretches

/-! ## 3. In the place of a directive -/

namespace Cursor

variable {a b c : Cursor} {x : CodePoint} {rest : Text}

theorem Reaches.of_offset_le (ha : c.Reaches a) (hb : c.Reaches b)
    (before : a.position.offset ≤ b.position.offset) : a.Reaches b := by
  have here := ha.offset
  have there := hb.offset
  have shorter := hb.length_le
  refine ⟨a.rest.length - b.rest.length, ?_⟩
  rw [ha.eq_advance, ← advance_add, hb.eq_advance]
  congr 1
  rw [← ha.eq_advance, ← hb.eq_advance]
  have within := ha.length_le
  omega

/-- Skipping a line break skips nothing else. -/
theorem isNewline_of_skipNewline (ahead : c.Reaches a)
    (before : a.position.offset < c.skipNewline.position.offset) (head : a.rest = x :: rest) :
    x.isNewline = true := by
  obtain ⟨n, rfl⟩ := ahead
  have inside : n < c.rest.length := by
    have some_rest := congrArg List.length head
    rw [rest_advance, List.length_drop, List.length_cons] at some_rest
    omega
  rw [rest_advance] at head
  rw [offset_advance, Nat.min_eq_left (Nat.le_of_lt inside)] at before
  unfold skipNewline at before
  split at before
  · rename_i more text
    rw [offset_advance, text] at before
    rw [text] at head
    match n with
    | 0 =>
      cases head
      rfl
    | 1 =>
      cases head
      rfl
    | n + 2 =>
      simp only [List.length_cons] at before
      omega
  · rename_i y more _ text
    rw [text] at head
    split at before
    · rename_i newline
      rw [offset_next, text, List.length_cons] at before
      obtain rfl : n = 0 := by omega
      cases head
      exact newline
    · omega
  · omega

theorem isNewline_of_afterDirective {anchor : Int} (ahead : c.Reaches a)
    (before : a.position.offset < (c.afterDirective anchor).position.offset)
    (head : a.rest = x :: rest) : x.isNewline = true := by
  unfold afterDirective at before
  split at before
  · exact isNewline_of_skipNewline ahead before head
  · have onward := ahead.offset_mono
    omega

end Cursor

section Blanks

variable {ctx : Context} {mode : Mode} {covered : Int → Bool} {c next : Cursor}

theorem Reader.continues_next_masked {x : CodePoint} {rest : Text} (t : ReaderState)
    (head : c.rest = x :: rest) (white : (x.masked (covered c.position.offset)).isBlank = true) :
    (skipAtmosphere ctx mode (c.masked covered)).ContinuesAs t
      (skipAtmosphere ctx mode (c.next.masked covered)) t := by
  rw [← Cursor.next_masked]
  exact continues_blank t (Cursor.rest_masked_of_head head) white

theorem Reader.continues_masked (t : ReaderState) (ahead : c.Reaches next)
    (blank : ∀ d x rest, c.Reaches d → d.position.offset < next.position.offset →
      d.rest = x :: rest → (x.masked (covered d.position.offset)).isBlank = true) :
    (skipAtmosphere ctx mode (c.masked covered)).ContinuesAs t
      (skipAtmosphere ctx mode (next.masked covered)) t := by
  obtain ⟨n, rfl⟩ := ahead
  induction n generalizing c with
  | zero => rfl
  | succ n ih =>
    rw [Cursor.advance_succ] at blank ⊢
    have others := ih (c := c.next) fun d x rest ahead => blank d x rest (c.reaches_next.trans ahead)
    cases head : c.rest with
    | nil => rwa [Cursor.next_of_atEnd (by simp [Cursor.atEnd, head])] at others ⊢
    | cons x rest =>
      have onward := (c.next.reaches_advance n).offset_mono
      have moved := c.offset_next
      rw [head, List.length_cons] at moved
      have white := blank c x rest (.refl c) (by omega) head
      exact (continues_next_masked t head white).trans others

end Blanks

/-! ## 4. Code on both sides -/

/-- A mark is there in front of any other text, unless that makes it a longer one. -/
theorem abbreviation?_before {t z : Text} {a : Abbreviation} (h : abbreviation? t = some a)
    (splice : z.head? = some (.scalar '@') → (t.drop a.mark.length).head? = some (.scalar '@')) :
    t = a.mark ++ t.drop a.mark.length ∧ abbreviation? (a.mark ++ z) = some a := by
  unfold abbreviation? at h
  split at h
  · cases h
    exact ⟨rfl, rfl⟩
  · cases h
    exact ⟨rfl, rfl⟩
  · cases h
    exact ⟨rfl, rfl⟩
  · rename_i rest no_splice
    cases h
    refine ⟨rfl, ?_⟩
    apply abbreviation?.eq_4
    rintro more rfl
    have second := splice rfl
    cases rest with
    | nil => cases second
    | cons y rest =>
      cases Option.some.inj second
      exact no_splice rest rfl
  · cases h

theorem NamedMarker.detect?_before {t z : Text} {m : NamedMarker} (h : detect? t = some m)
    (stops : Text.atDelimiter (t.drop m.name.length) = true → z.atDelimiter = true) :
    t = m.name ++ t.drop m.name.length ∧ detect? (m.name ++ z) = some m := by
  have found := List.find?_some h
  unfold matchesAt at found
  obtain ⟨word, ends⟩ := Bool.and_eq_true_iff.mp found
  have whole := List.prefix_iff_eq_append.mp (name_of_detect? h)
  have there : m.matchesAt (m.name ++ z) = true := by
    unfold matchesAt Text.startsWith
    rw [List.drop_left, stops ends, Bool.and_true, List.isPrefixOf_iff_prefix]
    exact List.prefix_append _ _
  refine ⟨whole.symm, ?_⟩
  unfold detect? all
  cases m with
  | foldCase => simp [there]
  | noFoldCase =>
    have other : foldCase.matchesAt (noFoldCase.name ++ z) = false := rfl
    simp [there, other]

namespace Reads

variable {ctx : Context} {c next : Cursor} {s s' : ReaderState}

/-- The place after the atmosphere before a datum. -/
theorem exists_startsDatum {d : Datum} (h : Reads ctx (.datum .code) c s (.datum d) next s') :
    ∃ c₁ s₁, Reads ctx (.atmosphere .code) c s .nothing c₁ s₁ ∧ StartsDatum c₁.rest ∧
      Reads ctx (.datum .code) c₁ s₁ (.datum d) next s' := by
  cases h with
  | code skipped read => exact ⟨_, _, skipped, read.startsDatum, read.datum_of_here⟩

end Reads

theorem Mode.eq_code {mode : Mode} (other : decide (mode = .directive) = false) : mode = .code := by
  cases mode with
  | code => rfl
  | directive => cases other

section Simulation

variable {ctx : Context} {covered : Int → Bool} {c next last : Cursor} {s s₁ s' : ReaderState}

/-- Every lexeme of the code is one in the masked text. -/
theorem Masks.spells {fold : Bool} {d : Datum} {size : Nat} (h : Masks covered c s (c.advance size) s)
    (spelled : Lexeme.Spells fold c.rest d size) :
    Lexeme.Spells fold (c.masked covered).rest d size := by
  have inside := spelled.size.2
  have stops : Text.atDelimiter (c.rest.drop size) = true →
      Text.atDelimiter ((c.advance size).masked covered).rest = true := by
    rw [← Cursor.rest_advance]
    exact Text.atDelimiter_masked
  rw [← List.take_append_drop size c.rest] at spelled
  rw [h.take inside]
  exact spelled.before stops (by rw [List.length_take, Nat.min_eq_left inside])

theorem Masks.abbreviation {a : Abbreviation} (h : Masks covered c s (c.advance a.mark.length) s)
    (mark : abbreviation? c.rest = some a) : abbreviation? (c.masked covered).rest = some a := by
  have splice : ((c.advance a.mark.length).masked covered).rest.head? = some (.scalar '@') →
      (c.rest.drop a.mark.length).head? = some (.scalar '@') := by
    rw [← Cursor.rest_advance]
    exact Text.head?_of_masked (by decide)
  obtain ⟨text, mark'⟩ := abbreviation?_before mark splice
  rwa [h.lead a.mark rfl text]

theorem Masks.blockComment {rest : Text} {size : Nat} (h : Masks covered c s (c.advance size) s)
    (head : c.rest = .scalar '#' :: .scalar '|' :: rest)
    (ends : Lexeme.blockComment 0 c.rest = .ok size) :
    ∃ more, (c.masked covered).rest = .scalar '#' :: .scalar '|' :: more ∧
      Lexeme.blockComment 0 (c.masked covered).rest = .ok size := by
  have inside := Lexeme.blockComment_size ends
  have long := Lexeme.two_le_blockComment ends
  have lead := h.take inside
  obtain ⟨n, rfl⟩ : ∃ n, size = n + 2 := ⟨size - 2, by omega⟩
  rw [← List.take_append_drop (n + 2) c.rest] at ends
  have ends' := Lexeme.blockComment_congr ends
    (by rw [List.length_take, Nat.min_eq_left inside]) ((c.advance (n + 2)).masked covered).rest
  rw [← lead] at ends'
  refine ⟨rest.take n ++ ((c.advance (n + 2)).masked covered).rest, ?_, ends'⟩
  rw [lead, head]
  rfl

theorem Masks.marker {rest : Text} {m : NamedMarker}
    (h : Masks covered c s (c.advance (2 + m.name.length)) s')
    (silent : s'.contents.2 = s.contents.2) (head : c.rest = .scalar '#' :: .scalar '!' :: rest)
    (found : NamedMarker.detect? rest = some m) :
    ∃ more, (c.masked covered).rest = .scalar '#' :: .scalar '!' :: more ∧
      NamedMarker.detect? more = some m := by
  have after : (c.advance (2 + m.name.length)).rest = rest.drop m.name.length := by
    rw [Cursor.rest_advance, head, Nat.add_comm]
    rfl
  have stops : Text.atDelimiter (rest.drop m.name.length) = true →
      Text.atDelimiter ((c.advance (2 + m.name.length)).masked covered).rest = true := by
    rw [← after]
    exact Text.atDelimiter_masked
  obtain ⟨name, found'⟩ := NamedMarker.detect?_before found stops
  have text : c.rest = (.scalar '#' :: .scalar '!' :: m.name) ++ rest.drop m.name.length := by
    rw [head]
    exact congrArg (_ :: _ :: ·) name
  have length : 2 + m.name.length = (CodePoint.scalar '#' :: .scalar '!' :: m.name).length :=
    Nat.add_comm _ _
  rw [length] at h found'
  exact ⟨_, h.lead _ silent text, found'⟩

theorem Context.foldCase_record (d : Directive) (s : ReaderState) :
    ((ctx.record d).final s).foldCase = s.foldCase := by
  unfold record
  split
  · rfl
  · rfl
  · cases d.write <;> rfl

/-- In the place of a directive skipping goes on to its end. -/
theorem Masks.continues_directive {mode : Mode} {rest : Text} {ds : List Datum} (t : ReaderState)
    (h : Masks covered c s (last.afterDirective (c.advance 2).position.line) s')
    (head : c.rest = .scalar '#' :: .scalar '!' :: rest)
    (scanned : Reads ctx (.datums (c.advance 2).position.line []) (c.advance 2)
      (s.emit (.phase .start .skipping (c.advance 2).position)) (.datums ds) last s₁)
    (handed : s' = (ctx.record ⟨ds, some (c.advance 2).position.beforeMarker⟩).final s₁) :
    (Reader.skipAtmosphere ctx mode (c.masked covered)).ContinuesAs t (Reader.skipAtmosphere ctx mode
      ((last.afterDirective (c.advance 2).position.line).masked covered)) t := by
  have content := scanned.scan_contents (p := (c.advance 2).position) (by simp [contentProgress])
  obtain ⟨added, contents, covers⟩ := h
  rw [handed, Context.contents_record, content, ReaderState.contents_emit] at contents
  obtain rfl := List.append_cancel_left contents
  have marker : (c.advance 2).position.offset - 2 = c.position.offset :=
    congrArg Position.offset (Cursor.position_beforeMarker head)
  have ahead : c.Reaches last := (c.reaches_advance 2).trans scanned.reaches
  have whole := ahead.trans (Cursor.reaches_afterDirective (c.advance 2).position.line last)
  refine Reader.continues_masked t whole ?_
  intro d x more there before head'
  have onward := there.offset_mono
  by_cases inside : d.position.offset < last.position.offset
  · have hidden := (covers _ onward before).mpr
      ⟨_, List.mem_singleton_self _, by dsimp only; omega, inside⟩
    rw [hidden]
    exact CodePoint.isBlank_masked_true x
  · have beyond : last.Reaches d := ahead.of_offset_le there (by omega)
    have newline := Cursor.isNewline_of_afterDirective beyond before head'
    exact CodePoint.isBlank_masked (CodePoint.isBlank_of_isNewline newline)

theorem Reads.masked (keeps : ctx.sink ≠ .discard) {task : Task} {y : Yield}
    (h : Reads ctx task c s y next s') (outside : task.ofDirective = false)
    (masks : Masks covered c s next s') {t : ReaderState} (same : t.foldCase = s.foldCase) :
    ∃ t', t'.foldCase = s'.foldCase ∧ t'.directives = t.directives ∧
      Proceeds ctx task (c.masked covered) t y (next.masked covered) t' := by
  -- by induction on the rules. A part of the read that puts nothing on record finds its own text
  -- again in the masked one; a directive has become atmosphere, which the atmosphere around it
  -- takes up.
  induction h generalizing t with
  | code skipped read ih₁ ih₂ =>
    obtain ⟨masks₁, masks₂⟩ := masks.split (skipped.stretch keeps rfl) (read.stretch keeps rfl)
    obtain ⟨t₁, same₁, kept₁, skip⟩ := ih₁ rfl masks₁ same
    obtain ⟨t', same', kept', read'⟩ := ih₂ rfl masks₂ same₁
    have starts := Reads.startsDatum read'
    exact ⟨t', same', kept'.trans kept₁, .code (skip.atmosphere (.clear_of_startsDatum starts)) read'⟩
  | @flat mode c s d size spelled =>
    rw [← same] at spelled
    rw [← Cursor.advance_masked]
    exact ⟨t, same, rfl, .flat (masks.spells spelled)⟩
  | list head opener items ih =>
    obtain rfl := Mode.eq_code outside
    obtain ⟨masks₁, masks₂⟩ := masks.split (.still _ (Cursor.reaches_next _)) (items.stretch keeps rfl)
    obtain ⟨t', same', kept', items'⟩ := ih rfl masks₂ same
    rw [← Cursor.next_masked] at items'
    exact ⟨t', same', kept', .list (masks₁.first head) opener items'⟩
  | @abbreviation mode c s a c₁ s₁ d next s' mark skipped follows read ih₁ ih₂ =>
    obtain rfl := Mode.eq_code outside
    obtain ⟨masks₁, masks₂⟩ := masks.split (.still _ (c.reaches_advance a.mark.length))
      ((skipped.stretch keeps rfl).trans (read.stretch keeps rfl))
    obtain ⟨masks₂, masks₃⟩ := masks₂.split (skipped.stretch keeps rfl) (read.stretch keeps rfl)
    obtain ⟨t₁, same₁, kept₁, skip⟩ := ih₁ rfl masks₂ same
    obtain ⟨t', same', kept', read'⟩ := ih₂ rfl masks₃ same₁
    obtain ⟨c₂, t₂, skip', starts, read'⟩ := Reads.exists_startsDatum read'
    refine ⟨t', same', kept'.trans kept₁,
      .abbreviation (masks₁.abbreviation mark) ?_ starts.follows read'⟩
    rw [Cursor.advance_masked]
    exact skip.atmosphere skip'
  | @vector mode c s rest items next s' head read ih =>
    obtain rfl := Mode.eq_code outside
    obtain ⟨masks₁, masks₂⟩ := masks.split (.still _ (c.reaches_advance 2)) (read.stretch keeps rfl)
    obtain ⟨t', same', kept', read'⟩ := ih rfl masks₂ same
    have lead := masks₁.lead [.scalar '#', .scalar '('] rfl head
    rw [← Cursor.advance_masked] at read'
    exact ⟨t', same', kept', .vector lead read'⟩
  | @bytevector mode c s rest items elements next s' head read bytes ih =>
    obtain rfl := Mode.eq_code outside
    obtain ⟨masks₁, masks₂⟩ := masks.split (.still _ (c.reaches_advance 4)) (read.stretch keeps rfl)
    obtain ⟨t', same', kept', read'⟩ := ih rfl masks₂ same
    have lead := masks₁.lead [.scalar '#', .scalar 'u', .scalar '8', .scalar '('] rfl head
    rw [← Cursor.advance_masked] at read'
    exact ⟨t', same', kept', .bytevector lead read' bytes⟩
  | @close mode closer parts c s c₁ s₁ rest skipped head closes ih =>
    obtain rfl := Mode.eq_code outside
    obtain ⟨masks₁, masks₂⟩ := masks.split (skipped.stretch keeps rfl) (.still _ c₁.reaches_next)
    obtain ⟨t₁, same₁, kept₁, skip⟩ := ih rfl masks₁ same
    have head' := masks₂.first head
    have clear := skip.atmosphere (clear_of_head head' (plain_of_isCloser closes))
    rw [← Cursor.next_masked]
    exact ⟨t₁, same₁, kept₁, .close clear head' closes⟩
  | @dot mode closer items c s c₁ s₁ rest c₂ s₂ d next s₃ parts last s' skipped head lone some_item
      skipped₂ follows read others ih₁ ih₂ ih₃ ih₄ =>
    obtain rfl := Mode.eq_code outside
    have stretch₃ := (read.stretch keeps rfl).trans (others.stretch keeps rfl)
    have stretch₂ := (skipped₂.stretch keeps rfl).trans stretch₃
    obtain ⟨masks₁, masks₂⟩ := masks.split (skipped.stretch keeps rfl)
      ((Stretch.still _ c₁.reaches_next).trans stretch₂)
    obtain ⟨masks_dot, masks₂⟩ := masks₂.split (.still _ c₁.reaches_next) stretch₂
    obtain ⟨masks₂, masks₃⟩ := masks₂.split (skipped₂.stretch keeps rfl) stretch₃
    obtain ⟨masks₃, masks₄⟩ := masks₃.split (read.stretch keeps rfl) (others.stretch keeps rfl)
    obtain ⟨t₁, same₁, kept₁, skip₁⟩ := ih₁ rfl masks₁ same
    obtain ⟨t₂, same₂, kept₂, skip₂⟩ := ih₂ rfl masks₂ same₁
    obtain ⟨t₃, same₃, kept₃, read'⟩ := ih₃ rfl masks₃ same₂
    obtain ⟨t', same', kept', others'⟩ := ih₄ rfl masks₄ same₃
    -- a directive at the front of the tail is atmosphere now, and taken up by what is skipped before it
    obtain ⟨b₂, u₂, skip', starts, read'⟩ := Reads.exists_startsDatum read'
    have head' := masks_dot.first head
    have lone' : Text.atDelimiter (c₁.next.masked covered).rest = true := by
      apply Text.atDelimiter_masked
      rwa [Cursor.rest_next, head]
    have clear := skip₁.atmosphere (clear_of_head head' (by decide))
    have skipped' := skip₂.atmosphere skip'
    rw [← Cursor.next_masked] at skipped'
    exact ⟨t', same', kept'.trans (kept₃.trans (kept₂.trans kept₁)),
      .dot clear head' lone' some_item skipped' starts.follows read' others'⟩
  | item skipped head open_ no_dot read others ih₁ ih₂ ih₃ =>
    obtain rfl := Mode.eq_code outside
    have stretch₂ := (read.stretch keeps rfl).trans (others.stretch keeps rfl)
    obtain ⟨masks₁, masks₂⟩ := masks.split (skipped.stretch keeps rfl) stretch₂
    obtain ⟨masks₂, masks₃⟩ := masks₂.split (read.stretch keeps rfl) (others.stretch keeps rfl)
    obtain ⟨t₁, same₁, kept₁, skip⟩ := ih₁ rfl masks₁ same
    obtain ⟨t₂, same₂, kept₂, read'⟩ := ih₂ rfl masks₂ same₁
    obtain ⟨t', same', kept', others'⟩ := ih₃ rfl masks₃ same₂
    obtain ⟨b₁, u₁, skip', starts, read'⟩ := Reads.exists_startsDatum read'
    refine ⟨t', same', kept'.trans (kept₂.trans kept₁), ?_⟩
    obtain ⟨x, rest, head'⟩ := List.exists_cons_of_ne_nil starts.some_text
    have no_closer := starts.no_closer
    rw [head'] at no_closer
    refine .item (skip.atmosphere skip') head' no_closer ?_ read' others'
    rintro ⟨rfl, lone⟩
    exact absurd lone (by simp [starts.no_dot rest head'])
  | @blank mode c s x rest next s' head white others ih =>
    obtain rfl := Mode.eq_code outside
    obtain ⟨-, masks₂⟩ := masks.split (.still _ c.reaches_next) (others.stretch keeps rfl)
    obtain ⟨t', same', kept', others'⟩ := ih rfl masks₂ same
    exact ⟨t', same', kept', ReadM.ContinuesAs.trans
      (Reader.continues_next_masked t head (CodePoint.isBlank_masked white)) others'⟩
  | remark visible skipped others ih₁ ih₂ =>
    obtain rfl := Mode.eq_code outside
    obtain ⟨masks₁, masks₂⟩ := masks.split (skipped.stretch keeps rfl) (others.stretch keeps rfl)
    obtain ⟨t₁, same₁, kept₁, remark⟩ := ih₁ rfl masks₁ same
    obtain ⟨t', same', kept', others'⟩ := ih₂ rfl masks₂ same₁
    exact ⟨t', same', kept'.trans kept₁, ReadM.ContinuesAs.trans remark others'⟩
  | clear =>
    obtain rfl := Mode.eq_code outside
    exact ⟨t, same, rfl, rfl⟩
  | @lineComment mode c s rest head =>
    obtain rfl := Mode.eq_code outside
    have ahead : c.next.Reaches c.lineEnd := by
      rw [← Cursor.lineEnd_next head (by decide)]
      exact c.next.reaches_lineEnd
    have first : Stretch ctx c s c.next s := .still s c.reaches_next
    obtain ⟨masks₁, -⟩ := masks.split first (.still s ahead)
    rw [← Cursor.lineEnd_masked]
    exact ⟨t, same, rfl, .of_comment (.lineComment (masks₁.first head))⟩
  | @blockComment mode c s rest size head ends =>
    obtain rfl := Mode.eq_code outside
    obtain ⟨more, head', ends'⟩ := masks.blockComment head ends
    rw [← Cursor.advance_masked]
    exact ⟨t, same, rfl, .of_comment (.blockComment head' ends')⟩
  | @datumComment c s rest d next s' head read ih =>
    obtain ⟨masks₁, masks₂⟩ := masks.split (.still _ (c.reaches_advance 2)) (read.stretch keeps rfl)
    obtain ⟨t', same', kept', read'⟩ := ih rfl masks₂ same
    have lead := masks₁.lead [.scalar '#', .scalar ';'] rfl head
    rw [← Cursor.advance_masked] at read'
    exact ⟨t', same', kept', .of_comment (.datumComment lead read')⟩
  | @marker mode c s rest m head found =>
    obtain rfl := Mode.eq_code outside
    -- a marker is reported, but it is no content that would be masked
    have silent : ({ s with foldCase := m.folds }.emit (.marker m c.position)).contents.2 =
        s.contents.2 := by
      rw [ReaderState.contents_emit]
      rfl
    obtain ⟨more, head', found'⟩ := masks.marker silent head found
    have marked : Reads ctx (.comment .code) (c.masked covered) t .nothing _ _ := .marker head' found'
    rw [Cursor.advance_masked] at marked
    refine ⟨_, ?_, ?_, .of_comment marked⟩
    · rfl
    · rfl
  | @lineDirective c s rest ds last s₁ s' head unnamed starts scanned kept _ =>
    have handed := kept.final.symm
    -- the directive itself is masked: nothing is read in its place, and it had not changed the folding
    have fold : s'.foldCase = s.foldCase := by
      rw [handed, Context.foldCase_record]
      exact (scanned.untouched rfl).foldCase
    exact ⟨t, same.trans fold.symm, rfl, masks.continues_directive t head scanned handed⟩
  | directive | emptyComment | lineDatumComment | intralineBlank | intralineComment | crossingComment
  | intralineClear | lastDatum | crossingDatum | lineDatum => cases outside

theorem Finds.stretch (keeps : ctx.sink ≠ .discard) {item : Item} (h : Finds ctx c s item next s') :
    Stretch ctx c s next s' :=
  ⟨h.reaches, h.logged keeps⟩

/-- An item of the text is the next datum of the masked text, or nothing there. -/
theorem Finds.masked (keeps : ctx.sink ≠ .discard) {item : Item} (h : Finds ctx c s item next s')
    (masks : Masks covered c s next s') {t : ReaderState} (same : t.foldCase = s.foldCase) :
    ∃ t', t'.foldCase = s'.foldCase ∧ t'.directives = t.directives ∧
      ∀ forms u, ReadsAll ctx (next.masked covered) t' forms u →
        ReadsAll ctx (c.masked covered) t (forms.after item next.position) u := by
  induction h generalizing t with
  | ended => exact ⟨t, same, rfl, fun _ _ reads => reads⟩
  | @blank c s x rest item next s' head white others ih =>
    obtain ⟨-, masks₂⟩ := masks.split (.still _ c.reaches_next) (others.stretch keeps)
    obtain ⟨t', same', kept', onward⟩ := ih masks₂ same
    refine ⟨t', same', kept', ?_⟩
    intro forms u reads
    exact (onward forms u reads).of_continues
      (Reader.continues_next_masked t head (CodePoint.isBlank_masked white))
  | directive head starts scanned kept =>
    have remark := Reads.lineDirective head (detect?_of_startsDirective starts) starts scanned kept
    obtain ⟨t', same', kept', skip⟩ := remark.masked keeps rfl masks same
    exact ⟨t', same', kept', fun _ _ reads => reads.of_continues skip⟩
  | @comment c s c₁ s₁ item next s' visible no_directive skipped others ih =>
    obtain ⟨masks₁, masks₂⟩ := (masks.of_contents (by rw [contents_declining])).split
      (skipped.stretch keeps rfl) (others.stretch keeps)
    obtain ⟨t₁, same₁, kept₁, skip⟩ := skipped.masked keeps rfl masks₁ (by simpa using same)
    obtain ⟨t', same', kept', onward⟩ := ih masks₂ same₁
    exact ⟨t', same', kept'.trans kept₁, fun forms u reads => (onward forms u reads).of_continues skip⟩
  | @datum c s d next s' some_rest visible none_starts read =>
    obtain ⟨t', same', kept', read'⟩ := read.masked keeps rfl
      (masks.of_contents (by rw [contents_declining])) (by simpa using same)
    obtain ⟨c₁, t₁, skipped, starts, read'⟩ := Reads.exists_startsDatum read'
    refine ⟨t', same', kept', ?_⟩
    intro forms u reads
    rw [← next.position_masked]
    exact .datum skipped starts.some_text read' reads

end Simulation

/-! ## 5. Masked sources -/

def Extent.covers (e : Extent) (k : Int) : Bool := e.start.offset ≤ k && k < e.stop.offset

/-- The source with spaces in the place of the stretches, line breaks apart. -/
def Source.masked (src : Source) (extents : List Extent) : Source :=
  { src with text := src.text.masked (fun k => extents.any (·.covers k)) 0 }

/-- Whether an offset lies between the marker of a scan and the end of its data. -/
def Scan.hides (scan : Scan) (k : Int) : Bool :=
  scan.content.position.offset - 2 ≤ k && k < scan.last.position.offset

theorem LoggedTo.masks {ctx : Context} {c next : Cursor} {s s' : ReaderState} {scans : List Scan}
    (log : LoggedTo ctx c s scans next s') : Masks (fun k => scans.any (·.hides k)) c s next s' := by
  refine ⟨_, log.contents, ?_⟩
  intro k _ _
  simp [Scan.hides]

/-- The end of a scan and the end of its data differ by line breaks only. -/
theorem Scan.Runs.covers_eq {ctx : Context} {scan : Scan} {start d : Cursor} {x : CodePoint}
    {rest : Text} (runs : scan.Runs ctx) (ahead : start.Reaches scan.marker) (there : start.Reaches d)
    (head : d.rest = x :: rest) (inside : x.isNewline = false) :
    scan.extent.covers d.position.offset = scan.hides d.position.offset := by
  have marker : scan.content.position.offset - 2 = scan.marker.position.offset :=
    congrArg Position.offset runs.position_marker
  have last := (ahead.trans (scan.marker.reaches_advance 2)).trans runs.reaches_last
  have onward := scan.reaches_stop.offset_mono
  have same : d.position.offset < scan.stop.position.offset ↔
      d.position.offset < scan.last.position.offset := by
    constructor
    · intro before
      by_contra beyond
      have after : scan.last.Reaches d := last.of_offset_le there (by omega)
      rw [Cursor.isNewline_of_afterDirective after before head] at inside
      cases inside
    · intro before
      omega
  unfold Extent.covers Scan.hides
  rw [marker, ← decide_eq_decide.mpr same]
  rfl

namespace Session

variable {s : Session}

theorem stretch_formsFor {wanted : Bool} {limit : Option Nat} {rounds : Nat}
    (enough : s.cursor.rest.length < rounds)
    (succeeds : (formsFor wanted rounds limit s).1.failure = none) :
    Stretch s.context s.cursor s.state (formsFor wanted rounds limit s).2.cursor
      (formsFor wanted rounds limit s).2.state := by
  obtain ⟨taken, takes, -⟩ := takes_of_formsFor enough succeeds
  obtain ⟨-, -, ahead, log⟩ := takes.logged
  exact ⟨ahead, log⟩

/-- One item of a run: the rest of the masked text follows it. -/
theorem masked_next {covered : Int → Bool} {s₁ last : Session} {item : Item} {t : ReaderState}
    (found : s.next = (.ok item, s₁))
    (stretch : Stretch s₁.context s₁.cursor s₁.state last.cursor last.state)
    (masks : Masks covered s.cursor s.state last.cursor last.state)
    (same : t.foldCase = s.state.foldCase) :
    Masks covered s₁.cursor s₁.state last.cursor last.state ∧
      ∃ t₁, t₁.foldCase = s₁.state.foldCase ∧ t₁.directives = t.directives ∧
        ∀ forms u, ReadsAll s₁.context (s₁.cursor.masked covered) t₁ forms u →
          ReadsAll s.context (s.cursor.masked covered) t (forms.after item s₁.position) u := by
  obtain ⟨c, finds, -, rfl⟩ := finds_of_next found
  rw [(context_of_next found).1] at stretch ⊢
  obtain ⟨masks₁, masks₂⟩ := masks.split (finds.stretch s.keeps) stretch
  rw [← position_cursor s₁]
  exact ⟨masks₂, finds.masked s.keeps masks₁ same⟩

theorem masked_formsFor {covered : Int → Bool} {rounds : Nat} (enough : s.cursor.rest.length < rounds)
    (succeeds : (formsFor false rounds none s).1.failure = none)
    (masks : Masks covered s.cursor s.state (formsFor false rounds none s).2.cursor
      (formsFor false rounds none s).2.state) {t : ReaderState}
    (same : t.foldCase = s.state.foldCase) :
    ∃ t', t'.foldCase = (formsFor false rounds none s).2.state.foldCase ∧
      t'.directives = t.directives ∧
      ReadsAll s.context (s.cursor.masked covered) t (formsFor false rounds none s).1 t' := by
  -- by induction on the rounds, each of which is one item
  induction rounds generalizing s t with
  | zero => omega
  | succ rounds ih =>
    obtain ⟨r, s₁, outcome⟩ : ∃ r s₁, s.next = (r, s₁) := ⟨_, _, rfl⟩
    cases r with
    | error e => simp [formsFor, outcome] at succeeds
    | ok item =>
      obtain ⟨c, finds, -, rfl⟩ := finds_of_next outcome
      cases item with
      | endOfInput =>
        simp only [formsFor, outcome] at masks ⊢
        obtain ⟨-, t', same', kept', onward⟩ :=
          masked_next outcome (.still _ (.refl _)) masks same
        have nothing : (s₁.cursor.masked covered).rest = [] := by
          simp [Cursor.masked, finds.rest_eq_nil rfl, Text.masked]
        refine ⟨t', same', kept', onward {} t' (.ended (.clear ?_ ?_) nothing)⟩
        · simp [nothing]
        · simp [nothing, startsComment]
      | datum d | directive d =>
        have shorter := finds.length_lt (by simp)
        simp only [formsFor, outcome] at succeeds masks ⊢
        have stretch := stretch_formsFor (s := s₁) (by omega) succeeds
        obtain ⟨masks₁, t₁, same₁, kept₁, onward⟩ := masked_next outcome stretch masks same
        obtain ⟨t', same', kept', others⟩ := ih (s := s₁) (by omega) succeeds masks₁ same₁
        exact ⟨t', same', kept'.trans kept₁, onward _ _ others⟩

/-- The mask of the stretches and that of the data come to the same text. -/
theorem cursor_masked {src : Source} {ctx : Context} {scans : List Scan}
    (runs : ∀ scan ∈ scans, (src.cursor .start).Reaches scan.marker ∧ scan.Runs ctx) :
    (src.masked (scans.map Scan.extent)).cursor .start =
      (src.cursor .start).masked fun k => scans.any (·.hides k) := by
  show (⟨_, .start⟩ : Cursor) = ⟨_, .start⟩
  congr 1
  apply Text.masked_congr
  intro n x found inside
  have within : n < src.text.length := (List.getElem?_eq_some_iff.mp found).1
  have there := (src.cursor .start).reaches_advance n
  have place : ((src.cursor .start).advance n).position.offset = 0 + (n : Int) := by
    rw [Cursor.offset_advance]
    show (0 : Int) + (min n src.text.length : Nat) = _
    omega
  have head : ((src.cursor .start).advance n).rest = x :: src.text.drop (n + 1) := by
    rw [Cursor.rest_advance]
    show src.text.drop n = _
    rw [List.drop_eq_getElem?_toList_append, found]
    rfl
  rw [← place, List.any_map, Bool.eq_iff_iff, List.any_eq_true, List.any_eq_true]
  have each : ∀ scan ∈ scans, scan.extent.covers ((src.cursor .start).advance n).position.offset =
      scan.hides ((src.cursor .start).advance n).position.offset :=
    fun scan mem => (runs scan mem).2.covers_eq (runs scan mem).1 there head inside
  constructor
  · rintro ⟨scan, mem, within⟩
    exact ⟨scan, mem, (each scan mem).symm.trans within⟩
  · rintro ⟨scan, mem, within⟩
    exact ⟨scan, mem, (each scan mem).trans within⟩

/-- Where a text is read to its end, it is read so as well with spaces in the place of its directives,
line breaks apart: the same data with the same places after them, and case folding comes out the same.
No directive is left. The stretches that are covered are those of the directives on record, from the
marker to where the scan ended. -/
theorem forms_of_masked (src : Source) (policy : Policy) (registry : Registry) (foldCase : Bool)
    {s u : Session} (of_text : s = src.sessionWith policy registry foldCase)
    (of_masked : u = (src.masked s.forms.2.extents).sessionWith policy registry foldCase)
    (succeeds : s.forms.1.failure = none) :
    u.forms.1 = s.forms.1 ∧ u.forms.2.state.foldCase = s.forms.2.state.foldCase ∧
    u.forms.2.state.directives = [] ∧
    List.Forall₂ (Extent.Holds src s.context) s.forms.2.state.directives s.forms.2.extents := by
  have enough : s.cursor.rest.length < s.cursor.rest.length + 1 := Nat.lt_succ_self _
  obtain ⟨taken, takes, -⟩ := takes_of_formsFor enough succeeds
  change Takes s taken s.forms.2 at takes
  obtain ⟨-, source, -, scans, log⟩ := takes.logged
  have same : u.state.foldCase = s.state.foldCase := by rw [of_masked, of_text]; rfl
  obtain ⟨t', same', kept', reads⟩ := masked_formsFor enough succeeds log.masks same
  change t'.foldCase = s.forms.2.state.foldCase at same'
  change ReadsAll _ _ _ s.forms.1 _ at reads
  have start : s.cursor = src.cursor .start := by rw [of_text]; rfl
  have source : s.forms.2.source = src := source.trans (by rw [of_text]; rfl)
  have fresh : s.state.directives = [] ∧ s.state.contents.2 = [] := by rw [of_text]; exact ⟨rfl, rfl⟩
  rw [start] at log reads
  have extents : s.forms.2.extents = scans.map Scan.extent := extents_of_logged source fresh.2 log
  have context : u.context = s.context := by rw [of_masked, of_text]; rfl
  have cursor : u.cursor = (src.cursor .start).masked fun k => scans.any (·.hides k) := by
    rw [← cursor_masked log.runs, ← extents, of_masked]
    rfl
  obtain ⟨t, untouched, reads'⟩ := readsAll_forms (s := u) (by rw [cursor]; exact Int.le_refl 1)
  rw [context, cursor] at reads'
  obtain ⟨forms, rfl⟩ := reads'.unique reads
  refine ⟨forms, ?_, ?_, holds_of_logged source fresh log⟩
  · rw [← untouched.foldCase]
    exact same'
  · rw [← untouched.directives, kept', of_masked]
    rfl

/-- A directive that ends after a comment on the next line, one between a quotation mark and its datum,
one in a datum comment and an empty one after a dot. -/
theorem forms_of_masked_list :
    ∃ (src : Source) (s u : Session), src = ⟨"#! x #|\n|#'#! y\n(A #;#! z\nB . #!\nC)", none⟩ ∧
      s = src.sessionWith {} .standard false ∧
      u = (Source.mk "       \n  '    \n(A #;    \nB .   \nC)" none).sessionWith {} .standard false ∧
      s.forms.1.data.map Datum.write = [.ok "(quote (A . C))"] ∧
      s.forms.2.state.directives.length = 4 ∧
      u.forms.1 = s.forms.1 ∧ u.forms.2.state.directives = [] := by
  have text : (Source.mk "#! x #|\n|#'#! y\n(A #;#! z\nB . #!\nC)" none).masked ((Source.mk
      "#! x #|\n|#'#! y\n(A #;#! z\nB . #!\nC)" none).sessionWith {} .standard false).forms.2.extents =
        Source.mk "       \n  '    \n(A #;    \nB .   \nC)" none := by decide +kernel
  obtain ⟨forms, -, none_left, -⟩ := forms_of_masked
    ⟨"#! x #|\n|#'#! y\n(A #;#! z\nB . #!\nC)", none⟩ {} .standard false rfl rfl (by decide +kernel)
  rw [text] at forms none_left
  exact ⟨_, _, _, rfl, rfl, rfl, by decide +kernel, by decide +kernel, forms, none_left⟩

end Session

end LineDirective
