import LineDirective.Text.Blank

/-!
# Detection of directives

Two policies govern line directives: whether `#!` must be followed by whitespace, and what becomes
of a directive whose datum runs onto a later line. The named markers `#!fold-case` and
`#!no-fold-case` are never directives. Detection looks at the text after `#!` and consumes nothing.
-/

namespace LineDirective

/-- Whether `#!` must be followed by whitespace to start a directive. -/
inductive WhitespacePolicy where
  /-- `#!r6rs` is not a directive. -/
  | strictNoSpace
  /-- `#!r6rs` and `#! r6rs` are the same directive. -/
  | allowSpace
deriving DecidableEq, Repr

/-- What becomes of a directive with a datum that ends on a later line. -/
inductive LineCrossing where
  /-- It is refused at the start of the datum. -/
  | error
  /-- It ends with that datum. -/
  | truncate
deriving DecidableEq, Repr

def WhitespacePolicy.name : WhitespacePolicy → Text
  | strictNoSpace => "strict_no_space"
  | allowSpace => "allow_space"

def LineCrossing.name : LineCrossing → Text
  | error => "error"
  | truncate => "truncate"

structure Policy where
  whitespace : WhitespacePolicy := .strictNoSpace
  lineCrossing : LineCrossing := .error
deriving DecidableEq, Repr

def Policy.describe (p : Policy) : Text :=
  "whitespace=" ++ p.whitespace.name ++ ", line_crossing=" ++ p.lineCrossing.name

inductive NamedMarker where
  | foldCase
  | noFoldCase
deriving DecidableEq, Repr

namespace NamedMarker

def name : NamedMarker → Text
  | foldCase => "fold-case"
  | noFoldCase => "no-fold-case"

def folds : NamedMarker → Bool
  | foldCase => true
  | noFoldCase => false

/-- Whether a marker's word stands at the start of a text and ends there. -/
def matchesAt (m : NamedMarker) (t : Text) : Bool :=
  t.startsWith m.name && Text.atDelimiter (t.drop m.name.length)

def all : List NamedMarker := [foldCase, noFoldCase]

def detect? (t : Text) : Option NamedMarker := all.find? (·.matchesAt t)

end NamedMarker

/-- Whether the `#!` before a text starts a line directive. -/
def startsDirective (policy : WhitespacePolicy) (t : Text) : Bool :=
  if (NamedMarker.detect? t).isSome then false
  else
    match t with
    | [] => true
    | c :: _ => c.isBlank || policy = .allowSpace

end LineDirective
