/-!
# Code points and texts

A text is a list of Unicode code points. Surrogates count as code points here, because a hex escape
may name one, so a text is wider than a `String`. All offsets and lengths of this library count
code points.
-/

namespace LineDirective

/-- A Unicode code point: a scalar value, or one of the 2048 surrogates. -/
inductive CodePoint where
  | scalar (c : Char)
  | surrogate (index : Fin 2048)
deriving DecidableEq, Repr, Inhabited

namespace CodePoint

instance : Coe Char CodePoint := ⟨.scalar⟩

/-- The number of a code point, below `0x110000`. -/
def toNat : CodePoint → Nat
  | scalar c => c.toNat
  | surrogate index => 0xD800 + index.val

def isSurrogate : CodePoint → Bool
  | scalar _ => false
  | surrogate _ => true

def ofNat? (n : Nat) : Option CodePoint :=
  if h : n.isValidChar then
    some (.scalar (Char.ofNatAux n h))
  else if h : 0xD800 ≤ n ∧ n - 0xD800 < 2048 then
    some (.surrogate ⟨n - 0xD800, h.2⟩)
  else
    none

/-- Every code point is the one with its number. -/
theorem ofNat?_toNat (c : CodePoint) : ofNat? c.toNat = some c := by
  cases c with
  | scalar c =>
    have valid : c.toNat.isValidChar := c.valid
    rw [toNat, ofNat?, dif_pos valid]
    rfl
  | surrogate index =>
    have small := index.isLt
    have invalid : ¬ (0xD800 + index.val).isValidChar := by
      simp only [Nat.isValidChar]
      omega
    have inside : 0xD800 ≤ 0xD800 + index.val ∧ 0xD800 + index.val - 0xD800 < 2048 := by omega
    rw [toNat, ofNat?, dif_neg invalid, dif_pos inside]
    simp

@[match_pattern] abbrev quotationMark : CodePoint := .scalar '\x22'
@[match_pattern] abbrev apostrophe : CodePoint := .scalar '\x27'
@[match_pattern] abbrev backslash : CodePoint := .scalar '\x5c'
@[match_pattern] abbrev graveAccent : CodePoint := .scalar '\x60'
@[match_pattern] abbrev lineFeed : CodePoint := .scalar '\n'
@[match_pattern] abbrev carriageReturn : CodePoint := .scalar '\r'

end CodePoint

abbrev Text := List CodePoint

namespace Text

def ofString (s : String) : Text := s.toList.map .scalar

instance : Coe String Text := ⟨ofString⟩

/-- The text as a `String`; a surrogate has no place there and shows as U+FFFD. -/
def toString (t : Text) : String :=
  String.ofList (t.map fun
    | .scalar c => c
    | .surrogate _ => '\uFFFD')

def intercalate (separator : Text) : List Text → Text
  | [] => []
  | [t] => t
  | t :: ts => t ++ separator ++ intercalate separator ts

def startsWith (t lead : Text) : Bool := lead.isPrefixOf t

def endsWith (t tail : Text) : Bool := tail.isSuffixOf t

end Text

end LineDirective
