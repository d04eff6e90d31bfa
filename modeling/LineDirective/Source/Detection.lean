import LineDirective.Directive.Basic
import LineDirective.Directive.Policy
import LineDirective.Source.Basic

/-!
# Detection at a position

What `#!` introduces, asked of a source and a position. In the text the answers are those of
`NamedMarker.detect?` and `startsDirective` on what follows the position. For a position that counts
from the end a marker's word is looked for at the end of the text, but the code point after the word
is seen only if it lies at the start or later.
-/

namespace LineDirective.Source

/-- Whether the word of a marker stands at a position and ends there. -/
def hasMarker (s : Source) (p : Position) (m : NamedMarker) : Bool :=
  s.startsWith p m.name && (s.peek? p m.name.length).all CodePoint.isDelimiter

/-- The named marker whose word stands at a position, with the position after the word. -/
def namedMarker? (s : Source) (p : Position) : Except Fault (Option (NamedMarker × Position)) :=
  match NamedMarker.all.find? (s.hasMarker p) with
  | none => .ok none
  | some m => do return some (m, ← s.advance p m.name.length)

def startsDirective (s : Source) (policy : WhitespacePolicy) (p : Position) :
    Except Fault Bool := do
  if (← s.namedMarker? p).isSome then
    return false
  match s.peek? p with
  | none => return true
  | some c => return c.isBlank || policy = .allowSpace

def atDirective (s : Source) (policy : WhitespacePolicy) (p : Position) : Except Fault Bool := do
  if s.startsWith p directiveMarker then
    s.startsDirective policy (← s.advance p directiveMarker.length)
  else
    return false

/-! ## In the text -/

theorem peek?_of_nonneg (s : Source) {p : Position} (inside : 0 ≤ p.offset) (ahead : Nat) :
    s.peek? p ahead = ((s.cursor p).rest.drop ahead).head? := by
  have nonneg : ¬ p.offset + (ahead : Int) < 0 := by omega
  have sum : (p.offset + (ahead : Int)).toNat = p.offset.toNat + ahead := by omega
  rw [peek?, if_neg nonneg, sum, cursor, if_neg (Int.not_lt.mpr inside), List.drop_drop,
    List.head?_drop]

theorem startsWith_of_nonneg (s : Source) {p : Position} (inside : 0 ≤ p.offset) {lead : Text}
    (some_lead : lead ≠ []) : s.startsWith p lead = (s.cursor p).rest.startsWith lead := by
  rw [startsWith, ← s.rest_cursor inside]
  by_cases within : p.offset ≤ s.length
  · simp [within]
  · have beyond : s.text.length ≤ p.offset.toNat := by
      unfold length at within
      omega
    have nothing : (s.cursor p).rest = [] := by
      rw [cursor, if_neg (Int.not_lt.mpr inside)]
      exact List.drop_eq_nil_of_le beyond
    cases lead with
    | nil => exact absurd rfl some_lead
    | cons c more => simp [within, nothing, Text.startsWith]

theorem hasMarker_of_nonneg (s : Source) {p : Position} (inside : 0 ≤ p.offset)
    (m : NamedMarker) : s.hasMarker p m = m.matchesAt (s.cursor p).rest := by
  have word : m.name ≠ [] := by cases m <;> decide
  rw [hasMarker, s.startsWith_of_nonneg inside word, s.peek?_of_nonneg inside,
    NamedMarker.matchesAt, Text.atDelimiter_eq]

/-- In the text a named marker is found by what follows the position. -/
theorem namedMarker?_of_nonneg (s : Source) {p : Position} (inside : 0 ≤ p.offset) :
    s.namedMarker? p = .ok ((NamedMarker.detect? (s.cursor p).rest).map fun m =>
      (m, ((s.cursor p).advance m.name.length).position)) := by
  have same : s.hasMarker p = fun m => m.matchesAt (s.cursor p).rest :=
    funext fun m => s.hasMarker_of_nonneg inside m
  rw [namedMarker?, NamedMarker.detect?, same]
  cases NamedMarker.all.find? fun m => m.matchesAt (s.cursor p).rest with
  | none => rfl
  | some m =>
    dsimp only
    rw [s.advance_of_nonneg inside]
    rfl

/-- In the text a directive is detected by what follows the position. -/
theorem startsDirective_of_nonneg (s : Source) (policy : WhitespacePolicy) {p : Position}
    (inside : 0 ≤ p.offset) :
    s.startsDirective policy p = .ok (LineDirective.startsDirective policy (s.cursor p).rest) := by
  have first : s.peek? p = (s.cursor p).rest.head? := s.peek?_of_nonneg inside 0
  rw [startsDirective, s.namedMarker?_of_nonneg inside, first]
  unfold LineDirective.startsDirective
  cases NamedMarker.detect? (s.cursor p).rest with
  | some m => rfl
  | none =>
    cases (s.cursor p).rest with
    | nil => rfl
    | cons c more => rfl

end LineDirective.Source
