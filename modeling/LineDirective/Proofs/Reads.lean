import LineDirective.Proofs.Action
import LineDirective.Proofs.Motion
import LineDirective.Proofs.Spelling

/-!
# Successful reads

`Reads ctx task c s y next s'` says that the task `task`, begun at the cursor `c` in the state `s`,
succeeds: it yields `y`, ends at `next` and leaves the state `s'`. There is one rule for each way in
which a part of the reader can succeed, with what it checks on the way, and no bound on rounds or
depth occurs. What holds of every successful read is proved by induction on these rules;
`Reader.readDatum` and its companions succeed exactly as the rules say (module `Adequacy`).

The first fact of that kind is here: a read ends at or after its start, and a datum, a comment and
the rest of a list take up something.
-/

namespace LineDirective

/-- Whether a comment starts a text; in code a line directive counts as one. -/
def startsComment (policy : WhitespacePolicy) (mode : Mode) : Text → Bool
  | .scalar ';' :: _ => true
  | .scalar '#' :: .scalar '|' :: _ => true
  | .scalar '#' :: .scalar ';' :: _ => true
  | .scalar '#' :: .scalar '!' :: rest =>
    (NamedMarker.detect? rest).isSome || (mode = .code && startsDirective policy rest)
  | _ => false

theorem startsComment_eq_false {policy : WhitespacePolicy} {mode : Mode} {x : CodePoint}
    {rest : Text} (no_semicolon : x ≠ .scalar ';') (no_hash : x ≠ .scalar '#') :
    startsComment policy mode (x :: rest) = false := by
  unfold startsComment
  split
  · rename_i same
    cases same
    exact absurd rfl no_semicolon
  · rename_i same
    cases same
    exact absurd rfl no_hash
  · rename_i same
    cases same
    exact absurd rfl no_hash
  · rename_i same
    cases same
    exact absurd rfl no_hash
  · rfl

theorem startsComment_of_atLineEnd {t : Text} (policy : WhitespacePolicy) (mode : Mode)
    (ends : t.AtLineEnd) : startsComment policy mode t = false := by
  cases t with
  | nil => rfl
  | cons x more => exact startsComment_eq_false (ends.ne (by decide)) (ends.ne (by decide))

/-- The end of a directive whose data end at a cursor: after the line break, unless the line has been
left already. -/
def Cursor.afterDirective (anchor : Int) (last : Cursor) : Cursor :=
  if last.position.line = anchor then last.skipNewline else last

inductive Task where
  /-- A datum, in code with the atmosphere before it. -/
  | datum (mode : Mode)
  /-- A datum that starts here. -/
  | here (mode : Mode)
  /-- The rest of a list after the parts that have been read. -/
  | items (mode : Mode) (closer : CodePoint) (parts : ListParts)
  | atmosphere (mode : Mode)
  /-- One comment. -/
  | comment (mode : Mode)
  /-- Whitespace and comments of a directive on its anchor line. -/
  | intraline (anchor : Int)
  /-- The data of a directive after those that have been read. -/
  | datums (anchor : Int) (before : List Datum)

inductive Yield where
  | nothing
  | datum (d : Datum)
  | parts (parts : ListParts)
  | datums (ds : List Datum)

/-- A task succeeds: begun at the first cursor in the first state, it yields the value given and ends
at the second cursor in the second state. -/
inductive Reads (ctx : Context) :
    Task → Cursor → ReaderState → Yield → Cursor → ReaderState → Prop
  /-- In code the atmosphere before a datum is skipped. -/
  | code {c c₁ next s s₁ s' d}
      (skipped : Reads ctx (.atmosphere .code) c s .nothing c₁ s₁)
      (read : Reads ctx (.here .code) c₁ s₁ (.datum d) next s') :
      Reads ctx (.datum .code) c s (.datum d) next s'
  /-- In a directive a datum starts where it is looked for. -/
  | directive {c next s s' d} (read : Reads ctx (.here .directive) c s (.datum d) next s') :
      Reads ctx (.datum .directive) c s (.datum d) next s'
  | flat {mode c s d size} (spelled : Lexeme.Spells s.foldCase c.rest d size) :
      Reads ctx (.here mode) c s (.datum d) (c.advance size) s
  | list {mode c s x rest parts next s'} (head : c.rest = x :: rest)
      (opener : x = .scalar '(' ∨ x = .scalar '[')
      (items : Reads ctx (.items mode (closerOf x) ([], none)) c.next s (.parts parts) next s') :
      Reads ctx (.here mode) c s (.datum parts.toDatum) next s'
  | abbreviation {mode c s a c₁ s₁ d next s'} (mark : abbreviation? c.rest = some a)
      (skipped : Reads ctx (.atmosphere mode) (c.advance a.mark.length) s .nothing c₁ s₁)
      (follows : (c₁.atEnd || c₁.atCloser) = false)
      (read : Reads ctx (.datum mode) c₁ s₁ (.datum d) next s') :
      Reads ctx (.here mode) c s (.datum (.list [.symbol a.name, d])) next s'
  | vector {mode c s rest items next s'} (head : c.rest = .scalar '#' :: .scalar '(' :: rest)
      (read : Reads ctx (.items mode (.scalar ')') ([], none)) (c.advance 2) s
        (.parts (items, none)) next s') :
      Reads ctx (.here mode) c s (.datum (.vector items)) next s'
  | bytevector {mode c s rest items elements next s'}
      (head : c.rest = .scalar '#' :: .scalar 'u' :: .scalar '8' :: .scalar '(' :: rest)
      (read : Reads ctx (.items mode (.scalar ')') ([], none)) (c.advance 4) s
        (.parts (items, none)) next s')
      (bytes : items.mapM byte? = some elements) :
      Reads ctx (.here mode) c s (.datum (.bytes elements)) next s'
  /-- The closing bracket ends a list. -/
  | close {mode closer parts c s c₁ s₁ rest}
      (skipped : Reads ctx (.atmosphere mode) c s .nothing c₁ s₁) (head : c₁.rest = closer :: rest)
      (closes : isCloser closer = true) :
      Reads ctx (.items mode closer parts) c s (.parts parts) c₁.next s₁
  /-- A lone dot with the last datum after it. -/
  | dot {mode closer items c s c₁ s₁ rest c₂ s₂ d next s₃ parts last s'}
      (skipped : Reads ctx (.atmosphere mode) c s .nothing c₁ s₁)
      (head : c₁.rest = .scalar '.' :: rest) (lone : Text.atDelimiter rest = true)
      (some_item : items ≠ [])
      (skipped₂ : Reads ctx (.atmosphere mode) c₁.next s₁ .nothing c₂ s₂)
      (follows : (c₂.atEnd || c₂.atCloser) = false)
      (read : Reads ctx (.datum mode) c₂ s₂ (.datum d) next s₃)
      (others : Reads ctx (.items mode closer (items, some d)) next s₃ (.parts parts) last s') :
      Reads ctx (.items mode closer (items, none)) c s (.parts parts) last s'
  | item {mode closer items c s c₁ s₁ x rest d next s₂ parts last s'}
      (skipped : Reads ctx (.atmosphere mode) c s .nothing c₁ s₁)
      (head : c₁.rest = x :: rest) (open_ : isCloser x = false)
      (no_dot : ¬ (x = .scalar '.' ∧ Text.atDelimiter rest = true))
      (read : Reads ctx (.datum mode) c₁ s₁ (.datum d) next s₂)
      (others : Reads ctx (.items mode closer (items ++ [d], none)) next s₂ (.parts parts) last s') :
      Reads ctx (.items mode closer (items, none)) c s (.parts parts) last s'
  | blank {mode c s x rest next s'} (head : c.rest = x :: rest) (white : x.isBlank = true)
      (others : Reads ctx (.atmosphere mode) c.next s .nothing next s') :
      Reads ctx (.atmosphere mode) c s .nothing next s'
  | remark {mode c s c₁ s₁ next s'} (visible : c.rest.head?.any CodePoint.isBlank = false)
      (skipped : Reads ctx (.comment mode) c s .nothing c₁ s₁)
      (others : Reads ctx (.atmosphere mode) c₁ s₁ .nothing next s') :
      Reads ctx (.atmosphere mode) c s .nothing next s'
  /-- Atmosphere ends where neither whitespace nor a comment starts. -/
  | clear {mode c s} (visible : c.rest.head?.any CodePoint.isBlank = false)
      (none_starts : startsComment ctx.policy.whitespace mode c.rest = false) :
      Reads ctx (.atmosphere mode) c s .nothing c s
  | lineComment {mode c s rest} (head : c.rest = .scalar ';' :: rest) :
      Reads ctx (.comment mode) c s .nothing c.lineEnd s
  | blockComment {mode c s rest size} (head : c.rest = .scalar '#' :: .scalar '|' :: rest)
      (ends : Lexeme.blockComment 0 c.rest = .ok size) :
      Reads ctx (.comment mode) c s .nothing (c.advance size) s
  | datumComment {c s rest d next s'} (head : c.rest = .scalar '#' :: .scalar ';' :: rest)
      (read : Reads ctx (.datum .code) (c.advance 2) s (.datum d) next s') :
      Reads ctx (.comment .code) c s .nothing next s'
  /-- In a directive a datum comment with nothing left on its line comments out nothing. -/
  | emptyComment {c s rest c₁ s₁} (head : c.rest = .scalar '#' :: .scalar ';' :: rest)
      (skipped : Reads ctx (.intraline c.position.line) (c.advance 2) s .nothing c₁ s₁)
      (ended : c₁.position.line ≠ c.position.line ∨ c₁.atLineEnd = true) :
      Reads ctx (.comment .directive) c s .nothing c₁ s₁
  | lineDatumComment {c s rest c₁ s₁ d next s'} (head : c.rest = .scalar '#' :: .scalar ';' :: rest)
      (skipped : Reads ctx (.intraline c.position.line) (c.advance 2) s .nothing c₁ s₁)
      (same : c₁.position.line = c.position.line) (follows : c₁.atLineEnd = false)
      (read : Reads ctx (.datum .directive) c₁ s₁ (.datum d) next s') :
      Reads ctx (.comment .directive) c s .nothing next s'
  /-- A named marker switches case folding in code only. -/
  | marker {mode c s rest m} (head : c.rest = .scalar '#' :: .scalar '!' :: rest)
      (found : NamedMarker.detect? rest = some m) :
      Reads ctx (.comment mode) c s .nothing (c.advance (2 + m.name.length))
        ((if mode = .code then { s with foldCase := m.folds } else s).emit (.marker m c.position))
  /-- A line directive in code, which is handed over. -/
  | lineDirective {c s rest ds last s₁ s'} (head : c.rest = .scalar '#' :: .scalar '!' :: rest)
      (unnamed : NamedMarker.detect? rest = none)
      (starts : startsDirective ctx.policy.whitespace rest = true)
      (scanned : Reads ctx (.datums (c.advance 2).position.line []) (c.advance 2)
        (s.emit (.phase .start .skipping (c.advance 2).position)) (.datums ds) last s₁)
      (kept : (ctx.record ⟨ds, some (c.advance 2).position.beforeMarker⟩).Returns s₁ () s') :
      Reads ctx (.comment .code) c s .nothing
        (last.afterDirective (c.advance 2).position.line) s'
  | intralineBlank {anchor c s x rest next s'} (head : c.rest = x :: rest)
      (white : x.isIntralineBlank = true)
      (others : Reads ctx (.intraline anchor) c.next s .nothing next s') :
      Reads ctx (.intraline anchor) c s .nothing next s'
  | intralineComment {anchor c s c₁ s₁ next s'}
      (visible : c.rest.head?.any CodePoint.isIntralineBlank = false)
      (skipped : Reads ctx (.comment .directive) c s .nothing c₁ s₁)
      (same : c₁.position.line = anchor)
      (others : Reads ctx (.intraline anchor) c₁ s₁ .nothing next s') :
      Reads ctx (.intraline anchor) c s .nothing next s'
  /-- Skipping stops after a comment that has left the line. -/
  | crossingComment {anchor c s c₁ s₁}
      (visible : c.rest.head?.any CodePoint.isIntralineBlank = false)
      (skipped : Reads ctx (.comment .directive) c s .nothing c₁ s₁)
      (left : c₁.position.line ≠ anchor) :
      Reads ctx (.intraline anchor) c s .nothing c₁ s₁
  | intralineClear {anchor c s} (visible : c.rest.head?.any CodePoint.isIntralineBlank = false)
      (none_starts : startsComment ctx.policy.whitespace .directive c.rest = false) :
      Reads ctx (.intraline anchor) c s .nothing c s
  /-- The data of a directive end with its line. -/
  | lastDatum {anchor before c s c₁ s₁}
      (skipped : Reads ctx (.intraline anchor) c s .nothing c₁ s₁)
      (ended : c₁.position.line ≠ anchor ∨ c₁.atLineEnd = true) :
      Reads ctx (.datums anchor before) c s (.datums before) c₁
        (s₁.emit (.phase .skipping .done c₁.position))
  /-- A datum that leaves the line ends a directive, if the policy lets it. -/
  | crossingDatum {anchor before c s c₁ s₁ d next s₂}
      (skipped : Reads ctx (.intraline anchor) c s .nothing c₁ s₁)
      (same : c₁.position.line = anchor) (follows : c₁.atLineEnd = false)
      (read : Reads ctx (.datum .directive) c₁
        (s₁.emit (.phase .skipping .readingDatum c₁.position)) (.datum d) next s₂)
      (left : next.position.line ≠ anchor) (allowed : ctx.policy.lineCrossing = .truncate) :
      Reads ctx (.datums anchor before) c s (.datums (before ++ [d])) next
        (((s₂.emit (.truncated c₁.position next.position.line)).emit
          (.datumRead (before.length + 1) c₁.position)).emit
            (.phase .readingDatum .done next.position))
  | lineDatum {anchor before c s c₁ s₁ d next s₂ ds last s'}
      (skipped : Reads ctx (.intraline anchor) c s .nothing c₁ s₁)
      (same : c₁.position.line = anchor) (follows : c₁.atLineEnd = false)
      (read : Reads ctx (.datum .directive) c₁
        (s₁.emit (.phase .skipping .readingDatum c₁.position)) (.datum d) next s₂)
      (stays : next.position.line = anchor)
      (others : Reads ctx (.datums anchor (before ++ [d])) next
        ((s₂.emit (.datumRead (before.length + 1) c₁.position)).emit
          (.phase .readingDatum .skipping next.position)) (.datums ds) last s') :
      Reads ctx (.datums anchor before) c s (.datums ds) last s'

/-! ## Reads move forward -/

/-- Whether a task takes up something whenever it succeeds. -/
def Task.consumes : Task → Bool
  | .datum _ | .here _ | .items .. | .comment _ => true
  | .atmosphere _ | .intraline _ | .datums .. => false

theorem Cursor.reaches_afterDirective (anchor : Int) (last : Cursor) :
    last.Reaches (last.afterDirective anchor) := by
  unfold Cursor.afterDirective
  split
  · exact last.reaches_skipNewline
  · exact .refl last

/-- How much is left after moving over something that is there. -/
theorem Cursor.length_advance_lt {c : Cursor} {n : Nat} (some_move : 1 ≤ n)
    (some_rest : c.rest ≠ []) : (c.advance n).rest.length < c.rest.length := by
  have := List.length_pos_iff.mpr some_rest
  rw [rest_advance, List.length_drop]
  omega

theorem abbreviation?_mark {t : Text} {a : Abbreviation} (h : abbreviation? t = some a) :
    1 ≤ a.mark.length ∧ t ≠ [] := by
  constructor
  · cases a <;> decide
  · rintro rfl
    cases h

namespace Reads

variable {ctx : Context} {task : Task} {c next : Cursor} {s s' : ReaderState} {y : Yield}

/-- A read ends at or after its start, and some reads always take up something. -/
theorem progress (h : Reads ctx task c s y next s') :
    c.Reaches next ∧ (task.consumes = true → next.rest.length < c.rest.length) := by
  induction h with
  | code _ _ ih₁ ih₂ =>
    have := ih₁.1.length_le
    have := ih₂.2 rfl
    exact ⟨ih₁.1.trans ih₂.1, fun _ => by omega⟩
  | directive _ ih => exact ⟨ih.1, fun _ => ih.2 rfl⟩
  | @flat mode c s d size spelled =>
    have bounds := spelled.size
    have some_rest : c.rest ≠ [] := by
      rintro nothing
      rw [nothing, List.length_nil] at bounds
      omega
    exact ⟨c.reaches_advance _, fun _ => Cursor.length_advance_lt bounds.1 some_rest⟩
  | @list _ c _ _ _ _ _ _ head _ _ ih =>
    have := Cursor.length_next_lt head
    have := ih.1.length_le
    exact ⟨c.reaches_next.trans ih.1, fun _ => by omega⟩
  | @abbreviation _ c _ a _ _ _ _ _ mark _ _ _ ih₁ ih₂ =>
    obtain ⟨some_mark, some_rest⟩ := abbreviation?_mark mark
    have := Cursor.length_advance_lt some_mark some_rest
    have := ih₁.1.length_le
    have := ih₂.1.length_le
    exact ⟨(c.reaches_advance _).trans (ih₁.1.trans ih₂.1), fun _ => by omega⟩
  | @vector _ c _ _ _ _ _ head _ ih =>
    have := Cursor.length_advance_lt (c := c) (n := 2) (by omega) (by simp [head])
    have := ih.1.length_le
    exact ⟨(c.reaches_advance _).trans ih.1, fun _ => by omega⟩
  | @bytevector _ c _ _ _ _ _ _ head _ _ ih =>
    have := Cursor.length_advance_lt (c := c) (n := 4) (by omega) (by simp [head])
    have := ih.1.length_le
    exact ⟨(c.reaches_advance _).trans ih.1, fun _ => by omega⟩
  | @close _ _ _ _ _ c₁ _ _ _ head _ ih =>
    have := Cursor.length_next_lt head
    have := ih.1.length_le
    exact ⟨ih.1.trans c₁.reaches_next, fun _ => by omega⟩
  | @dot _ _ _ _ _ c₁ _ _ _ _ _ _ _ _ _ _ _ head _ _ _ _ _ _ ih₁ ih₂ ih₃ ih₄ =>
    have := ih₁.1.length_le
    have := c₁.reaches_next.length_le
    have := ih₂.1.length_le
    have := ih₃.1.length_le
    have := ih₄.2 rfl
    exact ⟨ih₁.1.trans (c₁.reaches_next.trans (ih₂.1.trans (ih₃.1.trans ih₄.1))), fun _ => by omega⟩
  | item _ _ _ _ _ _ ih₁ ih₂ ih₃ =>
    have := ih₁.1.length_le
    have := ih₂.1.length_le
    have := ih₃.2 rfl
    exact ⟨ih₁.1.trans (ih₂.1.trans ih₃.1), fun _ => by omega⟩
  | @blank _ c _ _ _ _ _ _ _ _ ih => exact ⟨c.reaches_next.trans ih.1, by simp [Task.consumes]⟩
  | remark _ _ _ ih₁ ih₂ => exact ⟨ih₁.1.trans ih₂.1, by simp [Task.consumes]⟩
  | clear _ _ => exact ⟨.refl _, by simp [Task.consumes]⟩
  | @lineComment _ c _ rest head =>
    -- the semicolon is no line break, so the end of the line is behind it
    have first := Cursor.lineEnd_next head (by decide)
    have := Cursor.length_next_lt head
    have := c.next.reaches_lineEnd.length_le
    rw [first] at this
    exact ⟨c.reaches_lineEnd, fun _ => by omega⟩
  | @blockComment _ c _ _ size head ends =>
    have := Lexeme.two_le_blockComment ends
    exact ⟨c.reaches_advance _,
      fun _ => Cursor.length_advance_lt (by omega) (by simp [head])⟩
  | @datumComment c _ _ _ _ _ head _ ih =>
    have := Cursor.length_advance_lt (c := c) (n := 2) (by omega) (by simp [head])
    have := ih.1.length_le
    exact ⟨(c.reaches_advance _).trans ih.1, fun _ => by omega⟩
  | @emptyComment c _ _ _ _ head _ _ ih =>
    have := Cursor.length_advance_lt (c := c) (n := 2) (by omega) (by simp [head])
    have := ih.1.length_le
    exact ⟨(c.reaches_advance _).trans ih.1, fun _ => by omega⟩
  | @lineDatumComment c _ _ _ _ _ _ _ head _ _ _ _ ih₁ ih₂ =>
    have := Cursor.length_advance_lt (c := c) (n := 2) (by omega) (by simp [head])
    have := ih₁.1.length_le
    have := ih₂.1.length_le
    exact ⟨(c.reaches_advance _).trans (ih₁.1.trans ih₂.1), fun _ => by omega⟩
  | @marker _ c _ _ _ head _ =>
    exact ⟨c.reaches_advance _,
      fun _ => Cursor.length_advance_lt (by omega) (by simp [head])⟩
  | @lineDirective c _ _ _ last _ _ head _ _ _ _ ih =>
    have := Cursor.length_advance_lt (c := c) (n := 2) (by omega) (by simp [head])
    have after := Cursor.reaches_afterDirective (c.advance 2).position.line last
    have := ih.1.length_le
    have := after.length_le
    exact ⟨(c.reaches_advance _).trans (ih.1.trans after), fun _ => by omega⟩
  | @intralineBlank _ c _ _ _ _ _ _ _ _ ih =>
    exact ⟨c.reaches_next.trans ih.1, by simp [Task.consumes]⟩
  | intralineComment _ _ _ _ ih₁ ih₂ => exact ⟨ih₁.1.trans ih₂.1, by simp [Task.consumes]⟩
  | crossingComment _ _ _ ih => exact ⟨ih.1, by simp [Task.consumes]⟩
  | intralineClear _ _ => exact ⟨.refl _, by simp [Task.consumes]⟩
  | lastDatum _ _ ih => exact ⟨ih.1, by simp [Task.consumes]⟩
  | crossingDatum _ _ _ _ _ _ ih₁ ih₂ => exact ⟨ih₁.1.trans ih₂.1, by simp [Task.consumes]⟩
  | lineDatum _ _ _ _ _ _ ih₁ ih₂ ih₃ =>
    exact ⟨ih₁.1.trans (ih₂.1.trans ih₃.1), by simp [Task.consumes]⟩

theorem reaches (h : Reads ctx task c s y next s') : c.Reaches next := h.progress.1

theorem length_le (h : Reads ctx task c s y next s') : next.rest.length ≤ c.rest.length :=
  h.reaches.length_le

theorem length_lt (h : Reads ctx task c s y next s') (consumes : task.consumes = true) :
    next.rest.length < c.rest.length := h.progress.2 consumes

end Reads

end LineDirective
