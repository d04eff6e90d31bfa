import LineDirective.Datum.Basic
import LineDirective.Datum.Escape
import LineDirective.Diagnostic
import LineDirective.Text.CaseFold

/-!
# Lexemes

The parts of the language without nesting: tokens, strings, symbols between bars, characters and
block comments. Each function takes the text from the start of a lexeme and answers with a value and
the number of code points that the lexeme takes up. Failures are placed by their distance from the
start.
-/

namespace LineDirective

inductive LexemeFailure where
  /-- The text is wrong at this distance from the start of the lexeme. -/
  | malformed (cause : Cause) (distance : Nat)
  | fault (fault : Fault)
deriving DecidableEq, Repr

namespace Lexeme

abbrev Result (α : Type) := Except LexemeFailure (α × Nat)

/-! ## Tokens -/

/-- The code points up to the next delimiter. -/
def token (t : Text) : Text := t.takeWhile fun c => !c.isDelimiter

/-- The code point with a given number: none outside the code space, a fault outside the range of a
machine integer. -/
def codePointOf (n : Int) : Except Fault (Option CodePoint) :=
  if n < -0x80000000 ∨ 0x7fffffff < n then .error .codePointOverflow
  else if n < 0 then .ok none
  else .ok (CodePoint.ofNat? n.toNat)

/-- The code point that a hexadecimal literal names, if it names one. -/
def hexCodePoint (digits : Text) : Except Fault (Option CodePoint) :=
  match IntegerLiteral.parse? 16 digits with
  | none => .ok none
  | some n => codePointOf n

/-! ## Block comments -/

/-- The length of a block comment from here to the `|#` that brings the depth to zero, or the depth
at the end of the text if there is none. -/
def blockComment : Int → Text → Except Int Nat
  | depth, .scalar '#' :: .scalar '|' :: rest => (blockComment (depth + 1) rest).map (· + 2)
  | depth, .scalar '|' :: .scalar '#' :: rest =>
    if depth = 1 then .ok 2 else (blockComment (depth - 1) rest).map (· + 2)
  | depth, _ :: rest => (blockComment depth rest).map (· + 1)
  | depth, [] => .error depth

/-! ## Strings and symbols between bars -/

inductive Quotation where
  | string
  | symbol
deriving DecidableEq, Repr

namespace Quotation

def mark : Quotation → CodePoint
  | string => .quotationMark
  | symbol => .scalar '|'

def unterminated : Quotation → Cause
  | string => .unterminatedString
  | symbol => .unterminatedSymbol

def unknownEscape : Quotation → Text → Cause
  | string => .unknownStringEscape
  | symbol => .unknownSymbolEscape

end Quotation

/-- The number of code points in the line break at the start of a text. -/
def newlineLength : Text → Nat
  | .carriageReturn :: .lineFeed :: _ => 2
  | c :: _ => if c.isNewline then 1 else 0
  | [] => 0

/-- The length of a line continuation after its backslash: a line break with the whitespace around
it. -/
def continuation? (t : Text) : Option Nat :=
  let lead := (t.takeWhile CodePoint.isIntralineBlank).length
  let newline := newlineLength (t.drop lead)
  if newline = 0 then none
  else
    some (lead + newline + ((t.drop (lead + newline)).takeWhile CodePoint.isIntralineBlank).length)

/-- The escape after a backslash at distance `start`: what it stands for, nothing in the case of a
line continuation, and its length without the backslash. -/
def escape (q : Quotation) (start : Nat) (t : Text) : Result (Option CodePoint) :=
  match t with
  | [] => .error (.malformed (q.unknownEscape []) start)
  | letter :: rest =>
    match simpleEscape? letter with
    | some c => .ok (some c, 1)
    | none =>
      if letter = .scalar 'x' then
        let digits := token rest
        if (rest.drop digits.length).head? ≠ some (.scalar ';') then
          .error (.malformed .unterminatedHexEscape start)
        else
          match hexCodePoint digits with
          | .error fault => .error (.fault fault)
          | .ok none => .error (.malformed (.invalidHexEscape digits) start)
          | .ok (some c) => .ok (some c, digits.length + 2)
      else if q = .string ∧ letter.isBlank then
        match continuation? t with
        | none => .error (.malformed .strayBackslash start)
        | some n => .ok (none, n)
      else
        .error (.malformed (q.unknownEscape [letter]) start)

/-- The content of a quoted form from distance `start` on. The first `skip` code points belong to an
escape that has been read already. -/
def quotedFrom (q : Quotation) : (skip start : Nat) → Text → Result Text
  | _, _, [] => .error (.malformed q.unterminated 0)
  | skip + 1, start, _ :: rest => quotedFrom q skip (start + 1) rest
  | 0, start, c :: rest =>
    if c = q.mark then .ok ([], start + 1)
    else if c = .backslash then
      match escape q start rest with
      | .error e => .error e
      | .ok (meaning, n) =>
        (quotedFrom q n (start + 1) rest).map fun (content, size) =>
          (meaning.toList ++ content, size)
    else
      (quotedFrom q 0 (start + 1) rest).map fun (content, size) => (c :: content, size)

/-- The content of a quoted form; the text starts with the opening mark. -/
def quoted (q : Quotation) (t : Text) : Result Text := quotedFrom q 0 1 (t.drop 1)

/-! ## Characters -/

/-- A character literal; the text starts with `#\`. One code point stands for itself whatever it is;
more are a name or `x` and a number, after case folding if that is on. -/
def character (fold : Bool) (t : Text) : Result CodePoint :=
  match t.drop 2 with
  | [] => .error (.malformed .endInCharacter 0)
  | first :: rest =>
    let more := token rest
    let name := first :: more
    if more = [] then .ok (first, 3)
    else
      let folded := if fold then Text.fold name else name
      let size := name.length + 2
      match namedCharacter? folded with
      | some c => .ok (c, size)
      | none =>
        match folded with
        | .scalar 'x' :: digits =>
          match hexCodePoint digits with
          | .error fault => .error (.fault fault)
          | .ok none => .error (.malformed (.unknownCharacter name) 0)
          | .ok (some c) => .ok (c, size)
        | _ => .error (.malformed (.unknownCharacter name) 0)

/-! ## Atoms -/

def radix? (letter : CodePoint) : Option Nat :=
  if letter = .scalar 'x' ∨ letter = .scalar 'X' then some 16
  else if letter = .scalar 'b' ∨ letter = .scalar 'B' then some 2
  else if letter = .scalar 'o' ∨ letter = .scalar 'O' then some 8
  else if letter = .scalar 'd' ∨ letter = .scalar 'D' then some 10
  else none

def radixNumber (radix : Nat) (word digits : Text) : Result Datum :=
  match Number.parseRadix radix digits with
  | .error fault => .error (.fault fault)
  | .ok (some n) => .ok (.number n, word.length + 1)
  | .ok none => .error (.malformed (.invalidNumber word) 0)

/-- A boolean or a number with a radix; the text starts with `#`. -/
def hashToken (t : Text) : Result Datum :=
  let word := token (t.drop 1)
  if word = ("t" : Text) ∨ word = ("true" : Text) then .ok (.boolean true, word.length + 1)
  else if word = ("f" : Text) ∨ word = ("false" : Text) then .ok (.boolean false, word.length + 1)
  else
    match word with
    | letter :: digit :: more =>
      match radix? letter with
      | some radix => radixNumber radix word (digit :: more)
      | none => .error (.malformed (.unknownHash word) 0)
    | _ => .error (.malformed (.unknownHash word) 0)

/-- A number or a bare symbol; symbols are folded if that is on. -/
def atom (fold : Bool) (t : Text) : Result Datum :=
  match token t, t with
  | [], [] => .error (.malformed .unexpectedEnd 0)
  | [], c :: _ => .error (.malformed (.unexpectedCharacter c) 0)
  | word, _ =>
    if word = ("." : Text) then .error (.malformed .unexpectedDot 0)
    else
      match Number.parse word with
      -- of the faults of a number this one alone can be blamed on the token
      | .error (.zeroDenominator _) => .error (.malformed (.divisionByZero word) 0)
      | .error fault => .error (.fault fault)
      | .ok (some n) => .ok (.number n, word.length)
      | .ok none => .ok (.symbol (if fold then Text.fold word else word), word.length)

end Lexeme

end LineDirective
