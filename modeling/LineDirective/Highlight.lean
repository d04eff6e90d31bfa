import LineDirective.Directive.Basic
import LineDirective.Directive.Policy

/-!
# Highlighting

Two rules colour what is special to this language: a named marker up to a delimiter, and after it a
whole directive line. They see only the text from a place on. The second rule is narrower than the
reader: only a space, a tab, a line break or the end may follow the `#!`. What the rules leave is
coloured as in any other source, and laid out as a page, by the library that runs them.
-/

namespace LineDirective.Highlight

inductive Token where
  | namedMarker
  | directive
deriving DecidableEq, Repr

def Token.name : Token → Text
  | namedMarker => "Comment.Preproc"
  | directive => "Comment.Hashbang"

def markerLength? (t : Text) : Option Nat :=
  let lengthWith (word : Text) : Option Nat :=
    let whole := directiveMarker ++ word
    if t.startsWith whole && Text.atDelimiter (t.drop whole.length) then some whole.length else none
  (lengthWith "no-fold-case").or (lengthWith "fold-case")

/-- Whether a directive line may go on like this after its `#!`. -/
def opensLine : Text → Bool
  | [] => true
  | c :: _ => c = .scalar ' ' || c = .scalar '\t' || c.isNewline

def directiveLength? (t : Text) : Option Nat :=
  let after := t.drop directiveMarker.length
  if t.startsWith directiveMarker && opensLine after then
    some (directiveMarker.length + (after.takeWhile fun c => !c.isNewline).length)
  else
    none

/-- The token that starts a text, with its length. -/
def token? (t : Text) : Option (Token × Nat) :=
  ((markerLength? t).map fun n => (.namedMarker, n)).or
    ((directiveLength? t).map fun n => (.directive, n))

end LineDirective.Highlight
