import LineDirective.Proofs.DirectiveRoundTrip
import LineDirective.Proofs.LexemeLocality

/-!
# Cursors abreast

Two texts start with the same `q` and part there: one goes on with `y`, the other with `z`. Two cursors
that stand at the same place before `q` move together through it (`Cursor.Abreast`), and what they look
at is the same as long as it stands in `q`. Only where a carriage return ends `q` may a line end in one
text and not in the other; where both texts part at the end of a line this cannot happen either.
-/

namespace LineDirective

/-! ## 1. Where texts part -/

/-- Where the common part of two texts ends. -/
inductive Parting where
  | lineEnd
  | anywhere

/-- How much of the common part has to be left for the positions to be the same: where a carriage return
ends it, a line may end there in one text and not in the other. -/
def Parting.margin : Parting → Nat
  | .lineEnd => 0
  | .anywhere => 1

theorem Parting.margin_le_one (p : Parting) : p.margin ≤ 1 := by cases p <;> decide

variable {p : Parting} {q y z : Text} {x : CodePoint}

/-- What follows the common part ends a token in both texts or in neither: both are at the end of a
line, or their next code points are the same. -/
def Text.Alike (p : Parting) (y z : Text) : Prop :=
  (y.AtLineEnd ∧ z.AtLineEnd) ∨ (p = .anywhere ∧ y.head? = z.head?)

namespace Text.Alike

theorem append (h : y.Alike .anywhere z) (q : Text) : (q ++ y).Alike .anywhere (q ++ z) := by
  cases q with
  | nil => exact h
  | cons x q => exact .inr ⟨rfl, rfl⟩

theorem at_line_end (h : Alike .lineEnd y z) : y.AtLineEnd ∧ z.AtLineEnd := by
  rcases h with ends | ⟨other, -⟩
  · exact ends
  · cases other

theorem atDelimiter_eq (h : Alike p y z) (q : Text) : (q ++ z).atDelimiter = (q ++ y).atDelimiter := by
  cases q with
  | cons x q => rfl
  | nil =>
    rcases h with ⟨ends, ends'⟩ | ⟨-, same⟩
    · exact ends'.atDelimiter.trans ends.atDelimiter.symm
    · rw [List.nil_append, List.nil_append, Text.atDelimiter_eq, Text.atDelimiter_eq, same]

theorem head_iff (h : Alike p y z) (inside : x.isNewline = false) :
    z.head? = some x ↔ y.head? = some x := by
  have none_ends : ∀ {t : Text}, t.AtLineEnd → ¬ t.head? = some x := by
    intro t ends head
    cases t with
    | nil => cases head
    | cons c t => exact ends.ne inside (Option.some.inj head)
  rcases h with ⟨ends, ends'⟩ | ⟨-, same⟩
  · exact iff_of_false (none_ends ends') (none_ends ends)
  · rw [same]

end Text.Alike

/-! ## 2. Cursors abreast -/

/-- Two cursors after equally many code points and before the same `q`, after which one text goes on
with `y` and the other with `z`. As long as something of `q` is left their positions are the same, and
at its end as well if the texts part at a line end: a carriage return at the end of `q` is followed by
a line feed in both texts or in neither. -/
structure Cursor.Abreast (p : Parting) (y z q : Text) (a b : Cursor) : Prop where
  left : a.rest = q ++ y
  right : b.rest = q ++ z
  offset : b.position.offset = a.position.offset
  position : p = .lineEnd ∨ q ≠ [] → b.position = a.position
  pair : p = .lineEnd → q.getLast? = some .carriageReturn →
    (y.head? = some .lineFeed ↔ z.head? = some .lineFeed)

namespace Cursor.Abreast

variable {a b : Cursor}

theorem start (y z q : Text) : Abreast .anywhere y z q (.ofText (q ++ y)) (.ofText (q ++ z)) := by
  refine ⟨rfl, rfl, rfl, fun _ => rfl, ?_⟩
  intro other
  cases other

theorem symm (h : Abreast p y z q a b) : Abreast p z y q b a :=
  ⟨h.right, h.left, h.offset.symm, fun known => (h.position known).symm,
    fun line last => (h.pair line last).symm⟩

theorem length (h : Abreast p y z q a b) : a.rest.length = q.length + y.length := by
  rw [h.left, List.length_append]

theorem some_text (h : Abreast p y z q a b) (inside : y.length < a.rest.length) : q ≠ [] := by
  rintro rfl
  have := h.length
  rw [List.length_nil] at this
  omega

theorem position_eq (h : Abreast p y z q a b) (within : y.length + p.margin ≤ a.rest.length) :
    b.position = a.position := by
  cases p with
  | lineEnd => exact h.position (.inl rfl)
  | anywhere => exact h.position (.inr (h.some_text within))

theorem next (h : Abreast p y z (x :: q) a b) : Abreast p y z q a.next b.next := by
  obtain ⟨left, right, offset, position, pair⟩ := h
  have same : b.position = a.position := position (.inr (List.cons_ne_nil x q))
  refine ⟨?_, ?_, ?_, ?_, ?_⟩
  · rw [rest_next, left]
    rfl
  · rw [rest_next, right]
    rfl
  · have first : min 1 a.rest.length = min 1 b.rest.length := by simp [left, right]
    rw [offset_next, offset_next, offset, first]
  · intro known
    unfold Cursor.next
    rw [left, right]
    show b.position.after x (q ++ z) = a.position.after x (q ++ y)
    rw [same]
    -- what follows matters only to a carriage return at the end of the common part
    cases q with
    | cons c q => rfl
    | nil =>
      have line : p = .lineEnd := known.resolve_right (fun some_text => some_text rfl)
      unfold Position.after
      by_cases return_ : x = .carriageReturn
      · have both := pair line (by rw [return_]; rfl)
        simp only [List.nil_append, ne_eq, both]
      · simp [return_]
  · intro line last
    cases q with
    | nil => cases last
    | cons c q => exact pair line (by rw [List.getLast?_cons_cons]; exact last)

theorem advance {n : Nat} (h : Abreast p y z q a b) (inside : n ≤ q.length) :
    Abreast p y z (q.drop n) (a.advance n) (b.advance n) := by
  induction n generalizing q a b with
  | zero => exact h
  | succ n ih =>
    cases q with
    | nil => simp at inside
    | cons x q =>
      rw [advance_succ, advance_succ, List.drop_succ_cons]
      exact ih h.next (by simpa using inside)

/-- What stands at the front of one text within the common part stands at the front of the other. -/
theorem lead (word : Text) {rest : Text} (h : Abreast p y z q a b) (head : a.rest = word ++ rest)
    (inside : y.length + word.length ≤ a.rest.length) :
    ∃ q', q = word ++ q' ∧ rest = q' ++ y ∧ b.rest = word ++ (q' ++ z) := by
  have total := h.length
  have whole : word ++ rest = q ++ y := by rw [← head, h.left]
  obtain ⟨q', rfl⟩ : word <+: q := List.prefix_of_prefix_length_le
    (whole ▸ List.prefix_append word rest) (List.prefix_append q y) (by omega)
  rw [List.append_assoc] at whole
  exact ⟨q', rfl, List.append_cancel_left whole, by rw [h.right, List.append_assoc]⟩

theorem head {rest : Text} (h : Abreast p y z q a b) (head : a.rest = x :: rest)
    (inside : y.length < a.rest.length) :
    ∃ q', q = x :: q' ∧ rest = q' ++ y ∧ b.rest = x :: (q' ++ z) :=
  h.lead [x] head inside

theorem head?_eq (h : Abreast p y z q a b) (some_text : q ≠ []) : b.rest.head? = a.rest.head? := by
  obtain ⟨x, q', rfl⟩ := List.exists_cons_of_ne_nil some_text
  rw [h.left, h.right]
  rfl

theorem follows_eq (h : Abreast p y z q a b) (some_text : q ≠ []) :
    (b.atEnd || b.atCloser) = (a.atEnd || a.atCloser) := by
  obtain ⟨x, q', rfl⟩ := List.exists_cons_of_ne_nil some_text
  unfold Cursor.atEnd Cursor.atCloser
  rw [h.left, h.right]
  rfl

/-- At the end of the common part both texts are at the end of a line. -/
theorem cases_of_within (h : Abreast p y z q a b) (alike : y.Alike p z)
    (within : y.length + p.margin ≤ a.rest.length) :
    y.length < a.rest.length ∨ (a.rest.AtLineEnd ∧ b.rest.AtLineEnd) := by
  by_cases some_text : q = []
  · cases p with
    | lineEnd =>
      have ends := alike.at_line_end
      rw [h.left, h.right, some_text]
      exact .inr ends
    | anywhere => exact .inl within
  · have := h.length
    have := List.length_pos_iff.mpr some_text
    exact .inl (by omega)

theorem atLineEnd_eq_of_ends (h : Abreast p y z q a b) (ends : y.AtLineEnd) (ends' : z.AtLineEnd) :
    b.atLineEnd = a.atLineEnd := by
  rw [Bool.eq_iff_iff, atLineEnd_iff, atLineEnd_iff, h.left, h.right]
  cases q with
  | cons x q => exact Iff.rfl
  | nil => exact iff_of_true ends' ends

theorem atLineEnd_eq (h : Abreast p y z q a b) (alike : y.Alike p z)
    (within : y.length + p.margin ≤ a.rest.length) : b.atLineEnd = a.atLineEnd := by
  rcases alike with ⟨ends, ends'⟩ | ⟨rfl, -⟩
  · exact h.atLineEnd_eq_of_ends ends ends'
  · rw [Bool.eq_iff_iff, atLineEnd_iff, atLineEnd_iff, Text.AtLineEnd, Text.AtLineEnd,
      h.head?_eq (h.some_text within)]

theorem intralineBlank_eq (h : Abreast p y z q a b) (alike : y.Alike p z)
    (within : y.length + p.margin ≤ a.rest.length) :
    b.rest.head?.any CodePoint.isIntralineBlank = a.rest.head?.any CodePoint.isIntralineBlank := by
  rcases h.cases_of_within alike within with inside | ⟨ends, ends'⟩
  · rw [h.head?_eq (h.some_text inside)]
  · rw [ends.no_intralineBlank, ends'.no_intralineBlank]

theorem lineEnd_of_ends (h : Abreast p y z q a b) (ends : y.AtLineEnd) (ends' : z.AtLineEnd) :
    ∃ q', Abreast p y z q' a.lineEnd b.lineEnd := by
  unfold Cursor.lineEnd Cursor.skipWhile Cursor.span
  rw [h.left, h.right, takeWhile_line_append q ends, takeWhile_line_append q ends']
  exact ⟨_, h.advance (List.takeWhile_prefix _).length_le⟩

theorem lineEnd (h : Abreast p y z q a b) (alike : y.Alike p z)
    (within : y.length + p.margin ≤ a.lineEnd.rest.length) :
    ∃ q', Abreast p y z q' a.lineEnd b.lineEnd := by
  rcases alike with ⟨ends, ends'⟩ | ⟨rfl, -⟩
  · exact h.lineEnd_of_ends ends ends'
  · have total := h.length
    have within : y.length + 1 ≤ a.lineEnd.rest.length := within
    unfold Cursor.lineEnd Cursor.skipWhile Cursor.span at within ⊢
    rw [rest_advance, List.length_drop, h.left, List.length_append] at within
    have short : ((q ++ y).takeWhile fun x => !x.isNewline).length < q.length := by omega
    rw [h.left, h.right, takeWhile_append_of_lt short z]
    exact ⟨_, h.advance (Nat.le_of_lt short)⟩

theorem skipNewline (h : Abreast p y z q a b) (inside : y.length < a.skipNewline.rest.length) :
    ∃ q', Abreast p y z q' a.skipNewline b.skipNewline := by
  rw [skipNewline_eq_advance] at inside
  rw [skipNewline_eq_advance, skipNewline_eq_advance]
  rw [rest_advance, List.length_drop, h.left, List.length_append] at inside
  have short : Lexeme.newlineLength (q ++ y) < q.length := by omega
  rw [h.left, h.right, Lexeme.newlineLength_congr short z]
  exact ⟨_, h.advance (Nat.le_of_lt short)⟩

theorem afterDirective (h : Abreast p y z q a b) (anchor : Int)
    (inside : y.length < (a.afterDirective anchor).rest.length) :
    ∃ q', Abreast p y z q' (a.afterDirective anchor) (b.afterDirective anchor) := by
  have short := (reaches_afterDirective anchor a).length_le
  have same := h.position (.inr (h.some_text (by omega)))
  unfold Cursor.afterDirective at inside ⊢
  rw [same]
  split
  · rename_i stays
    rw [if_pos stays] at inside
    exact h.skipNewline inside
  · exact ⟨q, h⟩

end Cursor.Abreast

end LineDirective
