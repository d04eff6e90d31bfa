import LineDirective.Proofs.Programs
import LineDirective.Proofs.RoundTrip
import LineDirective.Proofs.Tokens

/-!
# Code read as directive content

A stretch of code in which no directive stands can be passed over inside a directive as well, and ends
at the same place (`Reads.mirrored`). What stands there need not be taken for the same. A datum comment
with nothing left on its line comments out nothing inside a directive (`Dangles`), so that the datum
behind it is one datum more. In a list it is one more item. Behind an abbreviation mark it is taken for
the datum that the mark stands before, and what the mark stands before in code is one datum more again.
So inside a directive the stretch is a run of blanks, comments and data (`Passage`).

Only three things can stop such a run: a character that is one only after a named marker, which inside
a directive is not obeyed; a bytevector with an element that is no byte; and something behind the tail
of a list (`Unobstructed`).
-/

namespace LineDirective

/-! ## 1. Obstacles -/

/-- A datum comment with nothing left on its line. -/
def Dangles (ctx : Context) (fold : Bool) (q : Cursor) : Prop :=
  (∃ rest, q.rest = .scalar '#' :: .scalar ';' :: rest) ∧
    ∃ s k s', s.foldCase = fold ∧
      (Reader.skipIntraline ctx q.position.line (q.advance 2)).Returns s k s' ∧
      (k.position.line ≠ q.position.line ∨ k.atLineEnd = true)

def Dangling (ctx : Context) (fold : Bool) (c : Cursor) (p : Position) : Prop :=
  ∃ q, c.LeadsTo q ∧ q.position.offset < p.offset ∧ Dangles ctx fold q

/-- Inside a directive the abbreviation mark at the first cursor stands before the second one. -/
def Marks (ctx : Context) (fold : Bool) (c h : Cursor) : Prop :=
  ∃ a s s', abbreviation? c.rest = some a ∧ s.foldCase = fold ∧
    (Reader.skipAtmosphere ctx .directive (c.advance a.mark.length)).Returns s h s'

/-- The datum that code reads at a cursor ends before the place `p`. -/
def EndsBy (ctx : Context) (p : Position) (h : Cursor) : Prop :=
  ∃ s d e s', (Reader.readDatum ctx .code h).Returns s (d, e) s' ∧ e.position.offset ≤ p.offset

/-- Inside a directive the datum after the lone dot at the first cursor is read, and with the
atmosphere behind it the second cursor is reached. -/
def TailLeadsTo (ctx : Context) (fold : Bool) (q h : Cursor) : Prop :=
  (∃ rest, q.rest = .scalar '.' :: rest ∧ Text.atDelimiter rest = true) ∧
    ∃ s c₁ s₁ d c₂ s₂ s₃, s.foldCase = fold ∧
      (Reader.skipAtmosphere ctx .directive q.next).Returns s c₁ s₁ ∧
      (Reader.readDatum ctx .directive c₁).Returns s₁ (d, c₂) s₂ ∧
      (Reader.skipAtmosphere ctx .directive c₂).Returns s₂ h s₃

/-- One datum more, which code comments out, does no harm between a cursor and a place ahead. -/
structure Harmless (ctx : Context) (fold : Bool) (c : Cursor) (p : Position) : Prop where
  /-- Abbreviation marks at the cursor do not stand before a datum that ends too early. -/
  marks : ∀ h, Relation.TransGen (Marks ctx fold) c h → ¬ EndsBy ctx p h
  /-- The elements of a bytevector are bytes. -/
  bytevectors : ∀ q rest t t', c.LeadsTo q → q.position.offset < p.offset →
    q.rest = .scalar '#' :: .scalar 'u' :: .scalar '8' :: .scalar '(' :: rest → t.foldCase = fold →
    ¬ (Reader.readDatum ctx .directive q).Raises t (ctx.complaint .badBytevector q.position) t'
  /-- A tail is followed by a closing bracket. -/
  tails : ∀ q h, c.LeadsTo q → TailLeadsTo ctx fold q h → h.rest.head?.any isCloser = true

/-- Nothing between a cursor and a place ahead keeps a directive from being read up to there, nor is
the place itself the one behind the tail of a list. -/
structure Unobstructed (ctx : Context) (fold : Bool) (c : Cursor) (p : Position) : Prop where
  comments : Dangling ctx fold c p → Harmless ctx fold c p
  characters : ∀ q rest, c.LeadsTo q → q.position.offset < p.offset →
    q.rest = .scalar '#' :: .backslash :: rest → (Lexeme.character fold q.rest).isOk = true
  tails : ∀ q h, c.LeadsTo q → TailLeadsTo ctx fold q h → h.position ≠ p

/-- What a run needs, at any place on the way. A datum comment may dangle where `loose` holds. -/
structure Passable (ctx : Context) (fold : Bool) (loose : Prop) (c : Cursor) (p : Position) : Prop where
  dangling : Dangling ctx fold c p → loose
  characters : ∀ q rest, c.LeadsTo q → q.position.offset < p.offset →
    q.rest = .scalar '#' :: .backslash :: rest → (Lexeme.character fold q.rest).isOk = true
  bytevectors : loose → ∀ q rest t t', c.LeadsTo q → q.position.offset < p.offset →
    q.rest = .scalar '#' :: .scalar 'u' :: .scalar '8' :: .scalar '(' :: rest → t.foldCase = fold →
    ¬ (Reader.readDatum ctx .directive q).Raises t (ctx.complaint .badBytevector q.position) t'
  tails : ∀ q h, c.LeadsTo q → TailLeadsTo ctx fold q h → h.position = p ∨ loose →
    h.rest.head?.any isCloser = true

section Obstacles

variable {ctx : Context} {fold : Bool} {loose : Prop} {c c' : Cursor} {p : Position}

theorem Passable.later (h : Passable ctx fold loose c p) (ahead : c.LeadsTo c') :
    Passable ctx fold loose c' p where
  dangling := fun ⟨q, onward, before, dangles⟩ => h.dangling ⟨q, ahead.trans onward, before, dangles⟩
  characters q rest onward := h.characters q rest (ahead.trans onward)
  bytevectors loose q rest t t' onward := h.bytevectors loose q rest t t' (ahead.trans onward)
  tails q k onward := h.tails q k (ahead.trans onward)

end Obstacles

/-! ## 2. The same bytes -/

/-- As far as the reader asks, the parts of two lists are the same: items in both or in none, a tail
in both or in none, and the same bytes in the same places unless one datum more may stand among
them. -/
structure ListParts.Alike (loose : Prop) (a b : ListParts) : Prop where
  some_item : a.1 ≠ [] → b.1 ≠ []
  tail : b.2.isSome = a.2.isSome
  bytes : a.1.map byte? = b.1.map byte? ∨ loose

def Yield.Alike (loose : Prop) : Yield → Yield → Prop
  | .datum a, .datum b => byte? a = byte? b ∨ loose
  | .parts a, .parts b => a.Alike loose b
  | _, _ => False

theorem ListParts.Alike.refl (loose : Prop) (a : ListParts) : a.Alike loose a := ⟨id, rfl, .inl rfl⟩

theorem ListParts.Alike.append {loose : Prop} {as bs more : List Datum}
    (h : ListParts.Alike loose (as, none) (bs, none)) (astray : more = [] ∨ loose) :
    ListParts.Alike loose (as, none) (bs ++ more, none) := by
  refine ⟨fun some_item => List.append_ne_nil_of_left_ne_nil (h.some_item some_item) more, rfl, ?_⟩
  rcases astray with rfl | astray
  · simpa using h.bytes
  · exact .inr astray

theorem ListParts.Alike.concat {loose : Prop} {as bs : List Datum} {a b : Datum}
    (h : ListParts.Alike loose (as, none) (bs, none)) (same : byte? a = byte? b ∨ loose) :
    ListParts.Alike loose (as ++ [a], none) (bs ++ [b], none) := by
  refine ⟨fun _ => by simp, rfl, ?_⟩
  rcases h.bytes with bytes | astray
  · rcases same with same | astray
    · simp only [List.map_append, List.map_cons, List.map_nil] at bytes ⊢
      exact .inl (by rw [bytes, same])
    · exact .inr astray
  · exact .inr astray

theorem ListParts.Alike.dotted {loose : Prop} {as bs : List Datum} {a : Datum}
    (h : ListParts.Alike loose (as, none) (bs, none)) (b : Datum) :
    ListParts.Alike loose (as, some a) (bs, some b) := ⟨h.some_item, rfl, h.bytes⟩

@[simp] theorem ListParts.byte?_toDatum (a : ListParts) : byte? a.toDatum = none := by
  obtain ⟨items, tail⟩ := a
  cases tail <;> rfl

theorem mapM_byte?_congr {as bs : List Datum} (h : as.map byte? = bs.map byte?) :
    as.mapM byte? = bs.mapM byte? := by
  have through (l : List Datum) : l.mapM byte? = (l.map byte?).mapM id := by
    rw [List.mapM_map]
    rfl
  rw [through, through, h]

namespace Lexeme

theorem atom_refold {fold : Bool} (fold' : Bool) {t : Text} {d : Datum} {size : Nat}
    (h : atom fold t = .ok (d, size)) :
    ∃ d', atom fold' t = .ok (d', size) ∧ byte? d = byte? d' := by
  obtain ⟨rfl, some_token⟩ := atom_size h
  rw [atom_of_token some_token] at h ⊢
  split at h
  · cases h
  · rename_i no_dot
    rw [if_neg no_dot]
    split at h
    · cases h
    · cases h
    · cases h
      exact ⟨_, rfl, rfl⟩
    · cases h
      exact ⟨_, rfl, rfl⟩

/-- Folding changes the name of a symbol and which character names are known, and nothing else. -/
theorem Spells.refold {fold fold' : Bool} {t : Text} {d : Datum} {size : Nat}
    (h : Spells fold t d size)
    (known : ∀ rest, t = .scalar '#' :: .backslash :: rest →
      (Lexeme.character fold' t).isOk = true) :
    ∃ d', Spells fold' t d' size ∧ byte? d = byte? d' := by
  cases h with
  | string opened read => exact ⟨_, .string opened read, rfl⟩
  | symbol opened read => exact ⟨_, .symbol opened read, rfl⟩
  | hash opened read => exact ⟨_, .hash opened read, rfl⟩
  | character opened read =>
    have ok := known _ opened
    cases other : Lexeme.character fold' t with
    | error e => rw [other] at ok; cases ok
    | ok p =>
      obtain ⟨x', size'⟩ := p
      obtain rfl : size' = size :=
        (character_size_token other).1.trans (character_size_token read).1.symm
      exact ⟨_, .character opened other, rfl⟩
  | atom opened read =>
    obtain ⟨d', read', same⟩ := atom_refold fold' read
    exact ⟨d', .atom opened read', same⟩

end Lexeme

/-! ## 3. Atmosphere and the rest of a line -/

section Atmosphere

variable {ctx : Context} {mode : Mode} {c next : Cursor} {s s' : ReaderState}

/-- Whatever starts a comment in a directive starts one in code. -/
theorem startsComment_directive {policy : WhitespacePolicy} {t : Text}
    (h : startsComment policy .code t = false) : startsComment policy .directive t = false := by
  unfold startsComment at h ⊢
  split at h
  · cases h
  · cases h
  · cases h
  · simp only [Bool.or_eq_false_iff] at h
    simp [h.1]
  · rfl

/-- Atmosphere ends where neither whitespace nor a comment starts. -/
theorem Reads.clear_of_atmosphere {y : Yield} (h : Reads ctx (.atmosphere mode) c s y next s') :
    next.rest.head?.any CodePoint.isBlank = false ∧
      startsComment ctx.policy.whitespace mode next.rest = false := by
  generalize skipping : Task.atmosphere mode = task at h
  induction h with
  | blank _ _ _ ih => exact ih skipping
  | remark _ _ _ _ ih => exact ih skipping
  | clear visible none_starts => cases skipping; exact ⟨visible, none_starts⟩
  | _ => cases skipping

theorem intraline_visible {t : Text} (visible : t.head?.any CodePoint.isBlank = false) :
    t.head?.any CodePoint.isIntralineBlank = false := by
  cases t with
  | nil => rfl
  | cons x rest =>
    have dark : x.isBlank = false := visible
    simp [CodePoint.isIntralineBlank, dark]

/-- At a line break the rest of a line is over. -/
theorem intraline_at_newline (ctx : Context) (anchor : Int) (s : ReaderState) {x : CodePoint}
    {rest : Text} (head : c.rest = x :: rest) (newline : x.isNewline = true) :
    Reads ctx (.intraline anchor) c s .nothing c s ∧ c.atLineEnd = true := by
  have ends : c.rest.AtLineEnd := by rw [head]; exact newline
  exact ⟨.intralineClear ends.no_intralineBlank (startsComment_of_atLineEnd _ _ ends),
    Cursor.atLineEnd_iff.mpr ends⟩

/-- Skipping the rest of a line goes the same way as skipping atmosphere, as long as it stays there. -/
theorem Reads.intraline_of_atmosphere {y : Yield} (anchor : Int)
    (h : Reads ctx (.atmosphere .directive) c s y next s') :
    ∃ k s₁, Reads ctx (.intraline anchor) c s .nothing k s₁ ∧
      Reads ctx (.atmosphere .directive) k s₁ .nothing next s' ∧
      ((k = next ∧ s₁ = s') ∨ k.position.line ≠ anchor ∨ k.atLineEnd = true) := by
  generalize skipping : Task.atmosphere .directive = task at h
  induction h with
  | @blank _ c s x _ _ _ head white others ih =>
    cases skipping
    cases newline : x.isNewline with
    | true =>
      obtain ⟨stays, ends⟩ := intraline_at_newline ctx anchor s head newline
      exact ⟨c, s, stays, .blank head white others, .inr (.inr ends)⟩
    | false =>
      obtain ⟨k, s₁, line, rest, way⟩ := ih rfl
      exact ⟨k, s₁, .intralineBlank head (by simp [CodePoint.isIntralineBlank, newline, white]) line,
        rest, way⟩
  | @remark _ c s c₁ s₁ _ _ visible skipped others _ ih =>
    cases skipping
    by_cases same : c₁.position.line = anchor
    · obtain ⟨k, s₂, line, rest, way⟩ := ih rfl
      exact ⟨k, s₂, .intralineComment (intraline_visible visible) skipped same line, rest, way⟩
    · exact ⟨c₁, s₁, .crossingComment (intraline_visible visible) skipped same, others,
        .inr (.inl same)⟩
  | clear visible none_starts =>
    cases skipping
    exact ⟨_, _, .intralineClear (intraline_visible visible) none_starts, .clear visible none_starts,
      .inl ⟨rfl, rfl⟩⟩
  | _ => cases skipping

theorem Fails.intraline_of_atmosphere {opened : Position} {e : Failure} (anchor : Int)
    (h : Fails ctx opened (.atmosphere .directive) c s e s') :
    Fails ctx opened (.intraline anchor) c s e s' ∨
      ∃ k s₁, Reads ctx (.intraline anchor) c s .nothing k s₁ ∧
        Fails ctx opened (.atmosphere .directive) k s₁ e s' ∧
        (k.position.line ≠ anchor ∨ k.atLineEnd = true) := by
  generalize skipping : Task.atmosphere .directive = task at h
  induction h with
  | @blank _ _ c s x _ _ _ head white others ih =>
    cases skipping
    cases newline : x.isNewline with
    | true =>
      obtain ⟨stays, ends⟩ := intraline_at_newline ctx anchor s head newline
      exact .inr ⟨c, s, stays, .blank head white others, .inr ends⟩
    | false =>
      have white : x.isIntralineBlank = true := by simp [CodePoint.isIntralineBlank, newline, white]
      rcases ih rfl with failed | ⟨k, s₁, line, failed, way⟩
      · exact .inl (.intralineBlank head white failed)
      · exact .inr ⟨k, s₁, .intralineBlank head white line, failed, way⟩
  | remarkSkip visible skip _ =>
    cases skipping
    exact .inl (.intralineSkip (intraline_visible visible) skip)
  | @remark _ _ c s c₁ s₁ _ _ visible skipped others ih =>
    cases skipping
    by_cases same : c₁.position.line = anchor
    · rcases ih rfl with failed | ⟨k, s₂, line, failed, way⟩
      · exact .inl (.intralineComment (intraline_visible visible) skipped same failed)
      · exact .inr ⟨k, s₂, .intralineComment (intraline_visible visible) skipped same line, failed, way⟩
    · exact .inr ⟨c₁, s₁, .crossingComment (intraline_visible visible) skipped same, others, .inl same⟩
  | _ => cases skipping

end Atmosphere

/-! ## 4. Runs inside a directive -/

section

variable (ctx : Context) (fold : Bool) (loose : Prop) (p : Position)

/-- A datum that ends before the place `p` stands at the cursor, or behind abbreviation marks there. -/
def Early (c : Cursor) : Prop := ∃ h, Relation.ReflTransGen (Marks ctx fold) c h ∧ EndsBy ctx p h

/-- Inside a directive a run of blanks, comments and data leads from one place to the other. Only
where `loose` holds are there data in it. -/
inductive Passage : Cursor → ReaderState → Cursor → ReaderState → Prop
  | nothing {c t} : Passage c t c t
  | blank {c t x rest k t'} (head : c.rest = x :: rest) (white : x.isBlank = true)
      (others : Passage c.next t k t') : Passage c t k t'
  | comment {c t c₁ t₁ k t'} (skipped : Reads ctx (.comment .directive) c t .nothing c₁ t₁)
      (others : Passage c₁ t₁ k t') : Passage c t k t'
  | datum {c t d c₁ t₁ k t'} (astray : loose) (early : Early ctx fold p c)
      (read : Reads ctx (.datum .directive) c t (.datum d) c₁ t₁) (others : Passage c₁ t₁ k t') :
      Passage c t k t'

/-- Inside a directive a datum is read after atmosphere, and a run leads on from its end. -/
def Meets (c : Cursor) (t : ReaderState) (y : Yield) (next : Cursor) : Prop :=
  ∃ h t₀ d k t₁ t', Reads ctx (.atmosphere .directive) c t .nothing h t₀ ∧ Early ctx fold p h ∧
    Reads ctx (.datum .directive) h t₀ (.datum d) k t₁ ∧ y.Alike loose (.datum d) ∧
    Passage ctx fold loose p k t₁ next t'

/-- Inside a directive the atmosphere ends where more than a closing bracket stands: at the place `p`,
or at one datum more. -/
def Overruns (c : Cursor) (t : ReaderState) : Prop :=
  ∃ h t₀, Reads ctx (.atmosphere .directive) c t .nothing h t₀ ∧
    h.rest.head?.any isCloser = false ∧ (h.position = p ∨ loose)

/-- Inside a directive the rest of a list comes out as the rest from a later place does, with the
parts that have been read by then. -/
structure RestOfList (closer : CodePoint) (before : ListParts) (c : Cursor) (t : ReaderState)
    (after : ListParts) (k : Cursor) (t' : ReaderState) : Prop where
  reads : ∀ {b last u}, Reads ctx (.items .directive closer after) k t' (.parts b) last u →
    Reads ctx (.items .directive closer before) c t (.parts b) last u
  fails : ∀ {opened e u}, Fails ctx opened (.items .directive closer after) k t' e u →
    Fails ctx opened (.items .directive closer before) c t e u

end

section Passage

variable {ctx : Context} {fold : Bool} {loose : Prop} {p : Position} {c c₁ k h next : Cursor}
  {t t₀ t₁ t' : ReaderState}

theorem Early.of_reads {s s' : ReaderState} {d : Datum} (read : Reads ctx (.here .code) c s (.datum d) next s')
    (before : next.position.offset ≤ p.offset) : Early ctx fold p c :=
  ⟨c, .refl, s, d, next, s', Reader.returns_readDatum.mpr read.datum_of_here, before⟩

namespace RestOfList

variable {closer : CodePoint} {a b d : ListParts}

theorem trans (first : RestOfList ctx closer a c t b c₁ t₁)
    (second : RestOfList ctx closer b c₁ t₁ d k t') : RestOfList ctx closer a c t d k t' :=
  ⟨fun rest => first.reads (second.reads rest), fun rest => first.fails (second.fails rest)⟩

theorem of_continues (skips : (Reader.skipAtmosphere ctx .directive c).ContinuesAs t
    (Reader.skipAtmosphere ctx .directive k) t') : RestOfList ctx closer a c t a k t' :=
  ⟨Reads.items_of_continues skips, Fails.items_of_continues skips⟩

theorem of_item {before : List Datum} {d : Datum}
    (skip : Reads ctx (.atmosphere .directive) c t .nothing c₁ t₁)
    (read : Reads ctx (.datum .directive) c₁ t₁ (.datum d) k t') :
    RestOfList ctx closer (before, none) c t (before ++ [d], none) k t' := by
  obtain ⟨x, rest, head, open_, no_dot⟩ := read.startsDatum_here.exists_head
  exact ⟨.item skip head open_ no_dot read, .item skip head open_ no_dot read⟩

theorem of_tail {before : List Datum} {d : Datum} {q : Cursor} {rest : Text}
    (clear : Reads ctx (.atmosphere .directive) q t .nothing q t) (head : q.rest = .scalar '.' :: rest)
    (lone : Text.atDelimiter rest = true) (some_item : before ≠ [])
    (skip : Reads ctx (.atmosphere .directive) q.next t .nothing c₁ t₁)
    (read : Reads ctx (.datum .directive) c₁ t₁ (.datum d) k t') :
    RestOfList ctx closer (before, none) q t (before, some d) k t' := by
  have follows := read.startsDatum_here.follows
  exact ⟨.dot clear head lone some_item skip follows read, .dot clear head lone some_item skip follows read⟩

end RestOfList

namespace Passage

theorem trans (first : Passage ctx fold loose p c t c₁ t₁) (second : Passage ctx fold loose p c₁ t₁ k t') :
    Passage ctx fold loose p c t k t' := by
  induction first with
  | nothing => exact second
  | blank head white _ ih => exact .blank head white (ih second)
  | comment skipped _ ih => exact .comment skipped (ih second)
  | datum astray early read _ ih => exact .datum astray early read (ih second)

theorem foldCase (h : Passage ctx fold loose p c t k t') : t'.foldCase = t.foldCase := by
  induction h with
  | nothing => rfl
  | blank _ _ _ ih => exact ih
  | comment skipped _ ih => exact ih.trans (skipped.onlyMarkers rfl).foldCase
  | datum _ _ read _ ih => exact ih.trans (read.onlyMarkers rfl).foldCase

theorem of_atmosphere {y : Yield} (skipped : Reads ctx (.atmosphere .directive) c t y k t') :
    Passage ctx fold loose p c t k t' := by
  generalize skipping : Task.atmosphere .directive = task at skipped
  induction skipped with
  | blank head white _ ih =>
    cases skipping
    exact .blank head white (ih rfl)
  | remark _ skipped _ _ ih =>
    cases skipping
    exact .comment skipped (ih rfl)
  | clear => exact .nothing
  | _ => cases skipping

/-- A run without data is skipped. Otherwise the first datum on it follows atmosphere. -/
theorem skips (h : Passage ctx fold loose p c t k t') :
    (Reader.skipAtmosphere ctx .directive c).ContinuesAs t (Reader.skipAtmosphere ctx .directive k) t' ∨
      loose ∧ ∃ h t₀ d k₁ t₁, Reads ctx (.atmosphere .directive) c t .nothing h t₀ ∧
        Early ctx fold p h ∧ Reads ctx (.datum .directive) h t₀ (.datum d) k₁ t₁ ∧
        Passage ctx fold loose p k₁ t₁ k t' := by
  induction h with
  | nothing => exact .inl rfl
  | @blank c t _ _ _ _ head white _ ih =>
    rcases ih with others | ⟨astray, h, t₀, d, k₁, t₁, skip, found⟩
    · exact .inl (ReadM.ContinuesAs.trans (Reader.continues_blank t head white) others)
    · exact .inr ⟨astray, h, t₀, d, k₁, t₁, .blank head white skip, found⟩
  | comment skipped _ ih =>
    have visible := skipped.visible_of_comment
    rcases ih with others | ⟨astray, h, t₀, d, k₁, t₁, skip, found⟩
    · exact .inl (ReadM.ContinuesAs.trans (Reader.continues_remark visible skipped) others)
    · exact .inr ⟨astray, h, t₀, d, k₁, t₁, .remark visible skipped skip, found⟩
  | @datum c t d c₁ t₁ _ _ astray early read others =>
    exact .inr ⟨astray, c, t, d, c₁, t₁, .clear_of_startsDatum read.startsDatum_here, early, read, others⟩

/-- In a list each datum on a run is one more item. -/
theorem exists_items (h : Passage ctx fold loose p c t k t') :
    ∃ more : List Datum, (more = [] ∨ loose) ∧
      ∀ closer before, RestOfList ctx closer (before, none) c t (before ++ more, none) k t' := by
  induction h with
  | @nothing c t =>
    refine ⟨[], .inl rfl, fun closer before => ?_⟩
    rw [List.append_nil]
    exact ⟨id, id⟩
  | @blank c t _ _ _ _ head white _ ih =>
    obtain ⟨more, astray, others⟩ := ih
    exact ⟨more, astray, fun closer before =>
      .trans (.of_continues (Reader.continues_blank t head white)) (others closer before)⟩
  | comment skipped _ ih =>
    obtain ⟨more, astray, others⟩ := ih
    exact ⟨more, astray, fun closer before =>
      .trans (.of_continues (Reader.continues_remark skipped.visible_of_comment skipped))
        (others closer before)⟩
  | @datum c t d _ _ _ _ astray _ read _ ih =>
    obtain ⟨more, -, others⟩ := ih
    refine ⟨d :: more, .inr astray, fun closer before => ?_⟩
    rw [List.append_cons]
    exact .trans (.of_item (.clear_of_startsDatum read.startsDatum_here) read) (others closer _)

end Passage

end Passage

/-! ## 5. Mirrored reads -/

/-- Where a task of code succeeds, a run inside a directive ends up at the same place. -/
def Mirrored (ctx : Context) (fold : Bool) (loose : Prop) (p : Position) :
    Task → Cursor → Yield → Cursor → Prop
  | .datum .code, c, y, next => ∀ t, t.foldCase = fold → Meets ctx fold loose p c t y next
  | .here .code, c, y, next => ∀ t, t.foldCase = fold → ∃ d k t₁ t',
      Reads ctx (.datum .directive) c t (.datum d) k t₁ ∧ y.Alike loose (.datum d) ∧
        Passage ctx fold loose p k t₁ next t'
  | .items .code closer parts, c, y, next => ∀ parts', parts.Alike loose parts' →
      ∀ t, t.foldCase = fold →
      (∃ b t', Reads ctx (.items .directive closer parts') c t (.parts b) next t' ∧
        y.Alike loose (.parts b)) ∨ (parts.2.isSome = true ∧ Overruns ctx loose p c t)
  | .atmosphere .code, c, _, next | .comment .code, c, _, next =>
      ∀ t, t.foldCase = fold → ∃ t', Passage ctx fold loose p c t next t'
  | _, _, _, _ => True

section Mirror

variable {ctx : Context} {fold : Bool} {loose : Prop} {c c₁ k h next : Cursor} {p : Position}
  {t t₀ t₁ t' : ReaderState} {y : Yield}

theorem Passage.meets (h : Passage ctx fold loose p c t c₁ t₁)
    (meets : Meets ctx fold loose p c₁ t₁ y next) : Meets ctx fold loose p c t y next := by
  obtain ⟨h₁, t₂, d, k, t₃, t', skip, early, read, alike, onward⟩ := meets
  rcases h.skips with others | ⟨astray, h₀, t₀, d₀, k₀, t₄, skip₀, early₀, read₀, rest⟩
  · exact ⟨h₁, t₂, d, k, t₃, t', Proceeds.atmosphere others skip, early, read, alike, onward⟩
  -- the first datum on the way is taken for the one that is looked for
  · have alike₀ : y.Alike loose (.datum d₀) := by
      cases y with
      | datum a => exact .inr astray
      | _ => cases alike
    exact ⟨h₀, t₀, d₀, k₀, t₄, t', skip₀, early₀, read₀, alike₀,
      rest.trans ((Passage.of_atmosphere skip).trans (.datum astray early read onward))⟩

/-- Behind a tail a run goes on as its end does, or there is one datum more. -/
theorem Passage.overruns (h : Passage ctx fold loose p c t k t') :
    (Reader.skipAtmosphere ctx .directive c).ContinuesAs t (Reader.skipAtmosphere ctx .directive k) t' ∨
      Overruns ctx loose p c t := by
  rcases h.skips with others | ⟨astray, h, t₀, d, _, _, skip, -, read, -⟩
  · exact .inl others
  · exact .inr ⟨h, t₀, skip, read.startsDatum_here.no_closer, .inr astray⟩

theorem Overruns.of_continues
    (skips : (Reader.skipAtmosphere ctx .directive c).ContinuesAs t
      (Reader.skipAtmosphere ctx .directive k) t') (h : Overruns ctx loose p k t') :
    Overruns ctx loose p c t := by
  obtain ⟨h, t₀, skip, open_, cause⟩ := h
  exact ⟨h, t₀, Proceeds.atmosphere skips skip, open_, cause⟩

/-- The closing bracket follows the tail that is read inside a directive. -/
theorem Passable.not_overruns {d : Datum} {q : Cursor} {rest : Text}
    (clear : Passable ctx fold loose c p) (ahead : c.LeadsTo q) (head : q.rest = .scalar '.' :: rest)
    (lone : Text.atDelimiter rest = true) (same_fold : t.foldCase = fold)
    (skip : Reads ctx (.atmosphere .directive) q.next t .nothing h t₀)
    (read : Reads ctx (.datum .directive) h t₀ (.datum d) k t₁) : ¬ Overruns ctx loose p k t₁ := by
  rintro ⟨h', t₂, skip', open_, cause⟩
  have closes := clear.tails q h' ahead ⟨⟨rest, head, lone⟩, t, h, t₀, d, k, t₁, t₂, same_fold,
    Reader.returns_skipAtmosphere.mpr skip, Reader.returns_readDatum.mpr read,
    Reader.returns_skipAtmosphere.mpr skip'⟩ cause
  rw [open_] at closes
  cases closes

/-- One item, with those that a run reads behind it. -/
theorem Meets.exists_item (meets : Meets ctx fold loose p c t y next) :
    ∃ d more t', t'.foldCase = t.foldCase ∧ y.Alike loose (.datum d) ∧ (more = [] ∨ loose) ∧
      ∀ closer before, RestOfList ctx closer (before, none) c t (before ++ [d] ++ more, none) next t' := by
  obtain ⟨h, t₀, d, k, t₁, t', skip, -, read, alike, onward⟩ := meets
  obtain ⟨more, astray, list⟩ := onward.exists_items
  have same_fold : t'.foldCase = t.foldCase := onward.foldCase.trans
    ((read.onlyMarkers rfl).foldCase.trans (skip.onlyMarkers rfl).foldCase)
  exact ⟨d, more, t', same_fold, alike, astray, fun closer before =>
    .trans (.of_item skip read) (list closer _)⟩

/-- The tail of a list, and no datum more behind it. -/
theorem Meets.exists_tail {q : Cursor} {rest : Text} (clear : Passable ctx fold loose c p)
    (ahead : c.LeadsTo q) (head : q.rest = .scalar '.' :: rest) (lone : Text.atDelimiter rest = true)
    (here : Reads ctx (.atmosphere .directive) q t .nothing q t) (same_fold : t.foldCase = fold)
    (meets : Meets ctx fold loose p q.next t y next) :
    ∃ d t', t'.foldCase = fold ∧ ¬ Overruns ctx loose p next t' ∧ ∀ closer before, before ≠ [] →
      RestOfList ctx closer (before, none) q t (before, some d) next t' := by
  obtain ⟨h, t₀, d, k, t₁, t', skip, -, read, -, onward⟩ := meets
  have closing := clear.not_overruns ahead head lone same_fold skip read
  have continues := onward.overruns.resolve_right closing
  have same_fold' : t'.foldCase = fold := onward.foldCase.trans
    ((read.onlyMarkers rfl).foldCase.trans ((skip.onlyMarkers rfl).foldCase.trans same_fold))
  exact ⟨d, t', same_fold', fun overrun => closing (overrun.of_continues continues),
    fun closer before some_item =>
      .trans (.of_tail here head lone some_item skip read) (.of_continues continues)⟩

theorem Reads.clear_in_directive {s s' : ReaderState}
    (skipped : Reads ctx (.atmosphere .code) c s y next s') :
    Reads ctx (.atmosphere .directive) next t .nothing next t :=
  .clear skipped.clear_of_atmosphere.1 (startsComment_directive skipped.clear_of_atmosphere.2)

/-- A datum comment that dangles is passed over as far as its line, and the datum behind it is read. -/
theorem Meets.of_datumComment {rest : Text} {y' : Yield}
    (head : c.rest = .scalar '#' :: .scalar ';' :: rest)
    (dangles : Dangles ctx t.foldCase c → loose)
    (meets : Meets ctx fold loose p (c.advance 2) t y' next) :
    ∃ t', Passage ctx fold loose p c t next t' := by
  obtain ⟨h, t₀, d, k, t₁, t', skip, early, read, -, onward⟩ := meets
  obtain ⟨k₀, t₂, line, others, way⟩ := skip.intraline_of_atmosphere c.position.line
  by_cases ended : k₀.position.line ≠ c.position.line ∨ k₀.atLineEnd = true
  · have astray := dangles ⟨⟨rest, head⟩, t, k₀, t₂, rfl, Reader.returns_skipIntraline.mpr line, ended⟩
    exact ⟨t', .comment (.emptyComment head line ended)
      ((Passage.of_atmosphere others).trans (.datum astray early read onward))⟩
  · obtain ⟨rfl, rfl⟩ := way.resolve_right ended
    obtain ⟨same, follows⟩ := not_or.mp ended
    exact ⟨t', .comment (.lineDatumComment head line (by simpa using same) (by simpa using follows) read)
      onward⟩

theorem Reads.mirrored (keeps : ctx.sink ≠ .discard) {task : Task} {s s' : ReaderState} {y : Yield}
    (h : Reads ctx task c s y next s') (quiet : s'.directives = s.directives)
    (clear : Passable ctx fold loose c p) (before : next.position.offset ≤ p.offset) :
    Mirrored ctx fold loose p task c y next := by
  -- by induction on the rules: what code reads is a run inside a directive
  induction h with
  | code skipped read ih₁ ih₂ =>
    intro t same_fold
    obtain ⟨quiet₁, quiet₂⟩ := eq_of_prefix_between (skipped.directives_prefix keeps rfl)
      (read.directives_prefix keeps rfl) quiet
    have ends := read.reaches.offset_mono
    obtain ⟨t₁, passage⟩ := ih₁ quiet₁ clear (by omega) t same_fold
    have onward := clear.later (skipped.leadsTo keeps rfl quiet₁)
    obtain ⟨d, k, t₂, t', here, alike, rest⟩ :=
      ih₂ quiet₂ onward before t₁ (passage.foldCase.trans same_fold)
    exact passage.meets ⟨_, t₁, d, k, t₂, t', .clear_of_startsDatum read.startsDatum,
      .of_reads read before, here, alike, rest⟩
  | @flat mode c s d size spelled =>
    cases mode with
    | directive => trivial
    | code =>
      intro t same_fold
      have read : Reads ctx (.here .code) c s (.datum d) (c.advance size) s := .flat spelled
      have moved := (Cursor.Reaches.refl c).offset_lt read.reaches (read.length_lt rfl)
      -- no marker folds inside a directive: a symbol may be named otherwise, but it ends where it did
      obtain ⟨d', spelled', alike⟩ := spelled.refold (fun rest head =>
        same_fold ▸ clear.characters c rest (.refl c) (by omega) head)
      exact ⟨d', _, t, t, .directive (.flat spelled'), .inl alike, .nothing⟩
  | @list mode c _ x _ parts _ _ head opener _ ih =>
    cases mode with
    | directive => trivial
    | code =>
      intro t same_fold
      have onward := clear.later (Cursor.Passes.opener head opener).leadsTo
      rcases ih quiet onward before _ (.refl loose _) t same_fold with ⟨b, t', items, -⟩ | ⟨tail, -⟩
      · exact ⟨_, _, t', t', .directive (.list head opener items), .inl (by simp), .nothing⟩
      · cases tail
  | @abbreviation mode c _ a _ _ _ _ _ mark skipped _ read ih₁ ih₂ =>
    cases mode with
    | directive => trivial
    | code =>
      intro t same_fold
      obtain ⟨quiet₁, quiet₂⟩ := eq_of_prefix_between (skipped.directives_prefix keeps rfl)
        (read.directives_prefix keeps rfl) quiet
      have ends := read.reaches.offset_mono
      have onward := clear.later (Cursor.Passes.abbreviation mark).leadsTo
      obtain ⟨t₁, passage⟩ := ih₁ quiet₁ onward (by omega) t same_fold
      have further := onward.later (skipped.leadsTo keeps rfl quiet₁)
      obtain ⟨h, t₂, d, k, t₃, t', skip, -, datum, -, rest⟩ :=
        passage.meets (ih₂ quiet₂ further before t₁ (passage.foldCase.trans same_fold))
      exact ⟨_, k, t₃, t', .directive (.abbreviation mark skip datum.startsDatum_here.follows datum),
        .inl rfl, rest⟩
  | @vector mode c _ _ _ _ _ head _ ih =>
    cases mode with
    | directive => trivial
    | code =>
      intro t same_fold
      have onward := clear.later (Cursor.Passes.vector head).leadsTo
      rcases ih quiet onward before _ (.refl loose _) t same_fold with
        ⟨⟨items', tail⟩, t', items, alike⟩ | ⟨tail, -⟩
      · obtain rfl : tail = none := by simpa using alike.tail
        exact ⟨_, _, t', t', .directive (.vector head items), .inl rfl, .nothing⟩
      · cases tail
  | @bytevector mode c s _ elements _ next s' head read bytes ih =>
    cases mode with
    | directive => trivial
    | code =>
      intro t same_fold
      have onward := clear.later (Cursor.Passes.bytevector head).leadsTo
      have whole : Reads ctx (.here .code) c s _ next s' := .bytevector head read bytes
      have moved := (Cursor.Reaches.refl c).offset_lt whole.reaches (whole.length_lt rfl)
      rcases ih quiet onward before _ (.refl loose _) t same_fold with
        ⟨⟨items', tail⟩, t', items, alike⟩ | ⟨tail, -⟩
      · obtain rfl : tail = none := by simpa using alike.tail
        cases bytes' : items'.mapM byte? with
        | some elements =>
          exact ⟨_, _, t', t', .directive (.bytevector head items bytes'), .inl rfl, .nothing⟩
        -- an item that is no byte can only stem from a datum comment that dangles there
        | none =>
          have failed : Fails ctx c.position (.datum .directive) c t
              (ctx.complaint .badBytevector c.position) t' :=
            .directive (.badBytevector head items (.inr bytes'))
          have astray : loose := by
            refine alike.bytes.resolve_left fun same => ?_
            have some_bytes := (mapM_byte?_congr same).symm.trans bytes
            rw [bytes'] at some_bytes
            cases some_bytes
          exact absurd ((Reader.raises_readDatum c.position).mpr failed)
            (clear.bytevectors astray c _ t t' (.refl c) (by omega) head same_fold)
      · cases tail
  | @close mode closer parts c _ c₁ _ _ skipped head closes ih =>
    cases mode with
    | directive => trivial
    | code =>
      rintro ⟨items', tail'⟩ alike t same_fold
      have ends := c₁.reaches_next.offset_mono
      obtain ⟨t₁, passage⟩ := ih quiet clear (by omega) t same_fold
      have closed (b : ListParts) :
          Reads ctx (.items .directive closer b) c₁ t₁ (.parts b) c₁.next t₁ :=
        .close skipped.clear_in_directive head closes
      cases tail' with
      | none =>
        obtain ⟨more, astray, list⟩ := passage.exists_items
        obtain ⟨items, tail⟩ := parts
        obtain rfl : tail = none := by simpa using alike.tail.symm
        exact .inl ⟨_, t₁, (list closer items').reads (closed _), alike.append astray⟩
      | some tail =>
        rcases passage.overruns with others | overrun
        · exact .inl ⟨_, t₁, .items_of_continues others (closed _), alike⟩
        · exact .inr ⟨alike.tail.symm, overrun⟩
  | @dot mode closer items c _ c₁ _ _ _ _ d next _ _ _ _ skipped head lone some_item skipped₂ _ read
      others ih₁ ih₂ ih₃ ih₄ =>
    cases mode with
    | directive => trivial
    | code =>
      rintro ⟨items', tail'⟩ alike t same_fold
      obtain rfl : tail' = none := by simpa using alike.tail
      obtain ⟨quiet₁, rest⟩ := eq_of_prefix_between (skipped.directives_prefix keeps rfl)
        ((skipped₂.directives_prefix keeps rfl).trans ((read.directives_prefix keeps rfl).trans
          (others.directives_prefix keeps rfl))) quiet
      obtain ⟨quiet₂, rest⟩ := eq_of_prefix_between (skipped₂.directives_prefix keeps rfl)
        ((read.directives_prefix keeps rfl).trans (others.directives_prefix keeps rfl)) rest
      obtain ⟨quiet₃, quiet₄⟩ := eq_of_prefix_between (read.directives_prefix keeps rfl)
        (others.directives_prefix keeps rfl) rest
      have ends := c₁.reaches_next.offset_mono
      have ends₂ := skipped₂.reaches.offset_mono
      have ends₃ := read.reaches.offset_mono
      have ends₄ := others.reaches.offset_mono
      -- up to the dot
      obtain ⟨t₁, passage⟩ := ih₁ quiet₁ clear (by omega) t same_fold
      obtain ⟨more, astray, list⟩ := passage.exists_items
      have fold₁ := passage.foldCase.trans same_fold
      have leads := skipped.leadsTo keeps rfl quiet₁
      have onward := clear.later (leads.trans (Cursor.Passes.dot head lone).leadsTo)
      -- the tail
      obtain ⟨t₂, passage₂⟩ := ih₂ quiet₂ onward (by omega) t₁ fold₁
      have further := onward.later (skipped₂.leadsTo keeps rfl quiet₂)
      have meets := passage₂.meets
        (ih₃ quiet₃ further (by omega) t₂ (passage₂.foldCase.trans fold₁))
      obtain ⟨d', t₃, fold₃, closing, tail⟩ :=
        meets.exists_tail clear leads head lone skipped.clear_in_directive fold₁
      -- the closing bracket
      have last := further.later (read.leadsTo keeps rfl quiet₃)
      have alike' := alike.append astray
      rcases ih₄ quiet₄ last before _ (alike'.dotted d') t₃ fold₃ with ⟨b, t', rest', same⟩ | ⟨-, overrun⟩
      · exact .inl ⟨b, t', (list closer items').reads
          ((tail closer _ (alike'.some_item some_item)).reads rest'), same⟩
      · exact absurd overrun closing
  | @item mode closer items c _ _ _ _ _ _ _ _ _ _ _ skipped _ _ _ read others ih₁ ih₂ ih₃ =>
    cases mode with
    | directive => trivial
    | code =>
      rintro ⟨items', tail'⟩ alike t same_fold
      obtain rfl : tail' = none := by simpa using alike.tail
      obtain ⟨quiet₁, rest⟩ := eq_of_prefix_between (skipped.directives_prefix keeps rfl)
        ((read.directives_prefix keeps rfl).trans (others.directives_prefix keeps rfl)) quiet
      obtain ⟨quiet₂, quiet₃⟩ := eq_of_prefix_between (read.directives_prefix keeps rfl)
        (others.directives_prefix keeps rfl) rest
      have ends₂ := read.reaches.offset_mono
      have ends₃ := others.reaches.offset_mono
      obtain ⟨t₁, passage⟩ := ih₁ quiet₁ clear (by omega) t same_fold
      have onward := clear.later (skipped.leadsTo keeps rfl quiet₁)
      have meets := passage.meets
        (ih₂ quiet₂ onward (by omega) t₁ (passage.foldCase.trans same_fold))
      obtain ⟨d', more, t₂, fold₂, same, astray, list⟩ := meets.exists_item
      have further := onward.later (read.leadsTo keeps rfl quiet₂)
      rcases ih₃ quiet₃ further before _ ((alike.concat same).append astray) t₂
        (fold₂.trans same_fold) with ⟨b, t', rest', same'⟩ | ⟨tail, -⟩
      · exact .inl ⟨b, t', (list closer items').reads rest', same'⟩
      · cases tail
  | @blank mode c _ _ _ _ _ head white _ ih =>
    cases mode with
    | directive => trivial
    | code =>
      intro t same_fold
      have onward := clear.later (Cursor.Passes.blank head white).leadsTo
      obtain ⟨t', others⟩ := ih quiet onward before t same_fold
      exact ⟨t', .blank head white others⟩
  | @remark mode c _ _ _ _ _ _ skipped others ih₁ ih₂ =>
    cases mode with
    | directive => trivial
    | code =>
      intro t same_fold
      obtain ⟨quiet₁, quiet₂⟩ := eq_of_prefix_between (skipped.directives_prefix keeps rfl)
        (others.directives_prefix keeps rfl) quiet
      have ends := others.reaches.offset_mono
      obtain ⟨t₁, first⟩ := ih₁ quiet₁ clear (by omega) t same_fold
      have onward := clear.later (skipped.leadsTo keeps rfl quiet₁)
      obtain ⟨t', second⟩ := ih₂ quiet₂ onward before t₁ (first.foldCase.trans same_fold)
      exact ⟨t', first.trans second⟩
  | @clear mode _ _ _ _ =>
    cases mode with
    | directive => trivial
    | code => exact fun t _ => ⟨t, .nothing⟩
  | @lineComment mode _ _ _ head =>
    cases mode with
    | directive => trivial
    | code => exact fun t _ => ⟨t, .comment (.lineComment head) .nothing⟩
  | @blockComment mode _ _ _ _ head ends =>
    cases mode with
    | directive => trivial
    | code => exact fun t _ => ⟨t, .comment (.blockComment head ends) .nothing⟩
  | @datumComment c s _ _ next s' head read ih =>
    intro t same_fold
    have onward := clear.later (Cursor.Passes.datumComment head).leadsTo
    have moved : c.position.offset < p.offset := by
      have comment : Reads ctx (.comment .code) c s .nothing next s' := .datumComment head read
      have := (Cursor.Reaches.refl c).offset_lt comment.reaches (comment.length_lt rfl)
      omega
    exact (ih quiet onward before t same_fold).of_datumComment head
      fun dangles => clear.dangling ⟨c, .refl c, moved, same_fold ▸ dangles⟩
  | @marker mode _ _ _ m head found =>
    cases mode with
    | directive => trivial
    | code => exact fun t _ => ⟨_, .comment (.marker head found) .nothing⟩
  | lineDirective _ _ _ scanned kept _ =>
    -- a directive would be on record
    have once := scanned.directives_of_kept keeps kept
    rw [quiet] at once
    simp at once
  | directive | emptyComment | lineDatumComment | intralineBlank | intralineComment
  | crossingComment | intralineClear | lastDatum | crossingDatum | lineDatum => trivial

end Mirror

end LineDirective
