import LineDirective.Directive.Policy

/-!
# Settings

Where the settings come from, variables of the environment or a file of settings, is up to the program
that starts a run.
-/

namespace LineDirective

/-- What a run can be told. -/
structure Settings where
  policy : Policy := {}
  /-- Whether reading starts with case folding. -/
  foldCase : Bool := false
  /-- The name of the report file. -/
  reportFile : Text := "directives.yaml"
  /-- The name of the file with the highlighted source. -/
  highlightFile : Text := "source.html"
  /-- Whether the origin of a reader error is shown in full. -/
  debug : Bool := false
deriving DecidableEq, Repr

end LineDirective
