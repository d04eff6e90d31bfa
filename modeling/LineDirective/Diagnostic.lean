import LineDirective.Fault
import LineDirective.Source.Position
import LineDirective.Text.Quoted

/-!
# Diagnostics

A diagnostic says what is wrong with a text and where. `Cause` lists everything the reader can
complain about, `Cause.message` holds the wording, and `Diagnostic.text` puts the place in front of
it.
-/

namespace LineDirective

inductive DiagnosticKind where
  /-- No valid datum starts at the place reported. -/
  | malformedDatum
  /-- The content of a line directive would itself start a line directive. -/
  | nestedDirective
  /-- A datum inside a line directive ends on a later line than the directive. -/
  | crossesLine
deriving DecidableEq, Repr

/-- A complaint in words, with its place as far as it is known. -/
structure Diagnostic where
  kind : DiagnosticKind
  message : Text
  position : Option Position := none
  sourceName : Option Text := none
deriving DecidableEq, Repr

/-- The whole wording, `name:line:column: message`, without the parts that are unknown. An empty
name counts as unknown. -/
def Diagnostic.text (d : Diagnostic) : Text :=
  let name : Text :=
    match d.sourceName with
    | none | some [] => []
    | some n => n ++ [.scalar ':']
  let place : Text :=
    match d.position with
    | none => []
    | some p => p.text ++ [.scalar ':']
  if name ++ place = [] then d.message else name ++ place ++ .scalar ' ' :: d.message

/-- The marks that abbreviate a list of a symbol and one datum. -/
inductive Abbreviation where
  | quote
  | quasiquote
  | unquote
  | unquoteSplicing
deriving DecidableEq, Repr

namespace Abbreviation

def mark : Abbreviation → Text
  | quote => [.apostrophe]
  | quasiquote => [.graveAccent]
  | unquote => ","
  | unquoteSplicing => ",@"

def name : Abbreviation → Text
  | quote => "quote"
  | quasiquote => "quasiquote"
  | unquote => "unquote"
  | unquoteSplicing => "unquote-splicing"

end Abbreviation

inductive Cause where
  | unexpectedEnd
  | unexpectedCloser (closer : CodePoint)
  | unexpectedCharacter (c : CodePoint)
  | unexpectedDot
  | unterminatedList
  | wrongCloser (expected : CodePoint)
  | itemAfterTail
  | missingTail
  | missingAbbreviated (mark : Abbreviation)
  | unterminatedString
  | unterminatedSymbol
  | unknownStringEscape (letter : Text)
  | unknownSymbolEscape (letter : Text)
  | strayBackslash
  | unterminatedHexEscape
  | invalidHexEscape (digits : Text)
  | unterminatedBlockComment
  | dottedVector
  | badBytevector
  | unrecognizedMarker
  | invalidNumber (token : Text)
  | unknownHash (token : Text)
  | endInCharacter
  | unknownCharacter (name : Text)
  | divisionByZero (token : Text)
  | nestedDirective
  | crossesLine (line : Int)
deriving DecidableEq, Repr

namespace Cause

def kind : Cause → DiagnosticKind
  | nestedDirective => .nestedDirective
  | crossesLine _ => .crossesLine
  | _ => .malformedDatum

def inQuotes (t : Text) : Text := .apostrophe :: (t ++ [.apostrophe])

def message : Cause → Text
  | unexpectedEnd => "unexpected end of input"
  | unexpectedCloser closer => "unexpected " ++ inQuotes [closer]
  | unexpectedCharacter c => "unexpected character " ++ Text.quoted [c]
  | unexpectedDot => "unexpected '.'"
  | unterminatedList => "unterminated list"
  | wrongCloser expected => "expected " ++ inQuotes [expected] ++ " to close list"
  | itemAfterTail => "expected end of list after dotted tail"
  | missingTail => "missing datum after '.'"
  | missingAbbreviated mark => "missing datum after " ++ inQuotes mark.mark
  | unterminatedString => "unterminated string"
  | unterminatedSymbol => "unterminated |symbol|"
  | unknownStringEscape letter => "unknown string escape " ++ inQuotes (.backslash :: letter)
  | unknownSymbolEscape letter => "unknown symbol escape " ++ inQuotes (.backslash :: letter)
  | strayBackslash => "backslash in string must precede a line break"
  | unterminatedHexEscape => "hex escape must end with ';'"
  | invalidHexEscape digits => "invalid hex escape " ++ inQuotes digits
  | unterminatedBlockComment => "unterminated block comment"
  | dottedVector => "vector literal cannot be dotted"
  | badBytevector => "bytevector elements must be integers 0-255"
  | unrecognizedMarker => "unrecognized '#!' syntax"
  | invalidNumber token => "invalid number " ++ inQuotes (.scalar '#' :: token)
  | unknownHash token => "unknown syntax " ++ inQuotes (.scalar '#' :: token)
  | endInCharacter => "unexpected end of input in character"
  | unknownCharacter name => "unknown character name " ++ inQuotes name
  | divisionByZero token => "division by zero in " ++ inQuotes token
  | nestedDirective => "line directive inside a line directive"
  | crossesLine line => "datum in line directive continues onto line " ++ Text.ofInt line

end Cause

structure ReadError where
  cause : Cause
  position : Position
  sourceName : Option Text := none
deriving DecidableEq, Repr

def ReadError.diagnostic (e : ReadError) : Diagnostic where
  kind := e.cause.kind
  message := e.cause.message
  position := some e.position
  sourceName := e.sourceName

inductive Failure where
  /-- The text is at fault. -/
  | diagnosed (error : ReadError)
  /-- Something else is. -/
  | fault (fault : Fault)
deriving DecidableEq, Repr

end LineDirective
