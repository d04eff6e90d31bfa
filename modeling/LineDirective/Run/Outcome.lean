import LineDirective.Datum.Writer
import LineDirective.Text.Quoted
import LineDirective.Value

/-!
# The outcome of a run

What became of a report, as values under names: where the report and the highlighted source are, and
how much was read. A run that starts with an outcome shows that one as it is, so entries may be
missing or hold any value.
-/

namespace LineDirective

namespace Value

def displayReal : Binary64 → Text
  | .nan => "nan"
  | .infinity negative => if negative then "-inf" else "inf"
  | x => x.write

mutual

/-- A value inside a sequence or a mapping in a message; texts are quoted. -/
def displayInside : Value → Text
  | nothing => "None"
  | flag b => if b then "True" else "False"
  | integer n => Text.ofInt n
  | real x => displayReal x
  | text t => Text.quoted t
  | sequence items => .scalar '[' :: (Text.intercalate ", " (displayItems items) ++ [.scalar ']'])
  | mapping entries =>
    .scalar '\x7b' :: (Text.intercalate ", " (displayEntries entries) ++ [.scalar '\x7d'])

def displayItems : List Value → List Text
  | [] => []
  | v :: vs => displayInside v :: displayItems vs

def displayEntries : List (Text × Value) → List Text
  | [] => []
  | (name, v) :: rest => (Text.quoted name ++ ": " ++ displayInside v) :: displayEntries rest

end

def display : Value → Text
  | text t => t
  | v => v.displayInside

end Value

abbrev Outcome := Details

namespace Outcome

def written (reportFile : Text) (highlightFile : Option Text) (directives forms : Nat) : Outcome :=
  [("status", .flag true), ("report_file", .text reportFile),
   ("highlight_file", (highlightFile.map Value.text).getD .nothing),
   ("directive_count", .integer directives), ("form_count", .integer forms)]

def entry (o : Outcome) (name : Text) : Except Fault Value :=
  match o.get? name with
  | some v => .ok v
  | none => .error (.noEntry name)

end Outcome

end LineDirective
