import LineDirective.Highlight
import LineDirective.Log
import LineDirective.Report.Basic
import LineDirective.Run.Outcome
import LineDirective.Run.Workspace
import LineDirective.Session
import LineDirective.Settings
import LineDirective.Text.Utf8

/-!
# The stages of a run

A run goes through four stages: find the source file, read it, write the report, and say what was
done. Each takes the progress so far and adds to it. A stage that cannot go on prints why and ends
the run with status 1; a fault that no stage expects ends it without a status.
-/

namespace LineDirective

structure Options where
  inputFile : Text := []
  allowSpace : Bool := false
  truncate : Bool := false
  foldCase : Bool := false
  highlight : Bool := false
  verbosity : Int := 1
deriving DecidableEq, Repr

/-- What the stages have found out so far. -/
structure Progress where
  environmentOk : Bool := false
  sourceFile : Path := .ofText "/"
  outputDirectory : Path := .ofText "/"
  /-- The settings that the source was read with. -/
  settings : Option Settings := none
  sourceText : Text := []
  forms : Option (List Datum) := none
  directives : Option (List (Directive × Option Spec)) := none
  outcome : Option Outcome := none

/-- What a run has left behind so far. -/
structure RunState where
  workspace : Workspace := {}
  log : List Message := []
  /-- The text on the error channel. -/
  errors : Text := []
  /-- The report that was written last. -/
  report : Option Report := none
  /-- Whether the origin of a reader error was shown. -/
  originShown : Bool := false

/-- How a run ends before its last stage is through. -/
inductive Stop where
  | exit (status : Nat)
  | fault (fault : Fault)
  /-- A file could not even be looked for. -/
  | storage (fault : StorageFault) (path : Path)
deriving DecidableEq, Repr

abbrev RunM := ExceptT Stop (StateM RunState)

namespace RunM

def log (level : Int) (text : Text) : RunM Unit :=
  modify fun s => { s with log := s.log ++ [⟨text, level⟩] }

def complain (line : Text) : RunM Unit :=
  modify fun s => { s with errors := s.errors ++ line ++ [.lineFeed] }

def abort {α : Type} (line : Text) : RunM α := do
  complain line
  throw (.exit 1)

def liftFault {α : Type} : Except Fault α → RunM α
  | .ok a => pure a
  | .error fault => throw (.fault fault)

end RunM

/-- What a run has others write: the document of a plain value, and the page of a source under a title.
The tokens of the source are marked on the page as the rules find them. -/
structure Layout where
  document : Value → Text
  page : (rules : Text → Option (Highlight.Token × Nat)) → (title source : Text) → Text

/-- Where a run looks for its input and puts its output, and what it was told. -/
structure RunContext where
  inputDirectory : Path
  outputDirectory : Path
  settings : Settings := {}
  options : Options := {}

inductive Stage where
  | checkEnvironment
  | readSource
  | writeReport
  | showResults
deriving DecidableEq, Repr

namespace Stage

/-- Finds the source file and makes the output directory. -/
def runCheckEnvironment (ctx : RunContext) (p : Progress) : RunM Progress := do
  RunM.log 2 "Checking environment..."
  let file := ctx.inputDirectory.join (.ofText ctx.options.inputFile)
  match (← get).workspace.isFile file with
  | .ok true => pure ()
  | .ok false => RunM.abort ("Error: Input file not found: " ++ file.text)
  | .error fault => throw (.storage fault file)
  RunM.log 2 ("Input file: " ++ file.text)
  modify fun s =>
    { s with workspace := s.workspace.makeDirectories ctx.outputDirectory.place }
  RunM.log 2 ("Output directory: " ++ ctx.outputDirectory.text)
  return { p with
    sourceFile := file, outputDirectory := ctx.outputDirectory, environmentOk := true }

/-- The settings with what the command line adds to them. -/
def effectiveSettings (s : Settings) (o : Options) : Settings :=
  { s with
    policy :=
      { whitespace := if o.allowSpace then .allowSpace else s.policy.whitespace
        lineCrossing := if o.truncate then .truncate else s.policy.lineCrossing }
    foldCase := o.foldCase || s.foldCase }

/-- The text of the file at a path, with all line breaks as line feeds, or why there is none. -/
def fileText (w : Workspace) (p : Path) : Except Text Text :=
  match w.read p with
  | .error fault => .error (fault.message p)
  | .ok content =>
    match Utf8.decode content with
    | .ok t => .ok t.normalizeNewlines
    | .error e => .error e.message

/-- Prints a reader's complaint with the line it concerns and a caret under the place. -/
def complainAbout (source : Source) (e : ReadError) : RunM Unit := do
  RunM.complain ("Read error: " ++ e.diagnostic.text)
  RunM.complain ("  " ++ source.line e.position.line)
  RunM.complain (("  " : Text) ++ List.replicate e.position.column.toNat (.scalar ' ') ++ [.scalar '^'])

def runReadSource (ctx : RunContext) (p : Progress) : RunM Progress := do
  let settings := effectiveSettings ctx.settings ctx.options
  RunM.log 2 ("Reader policy: " ++ settings.policy.describe)
  RunM.log 1 "Reading source file..."
  match fileText (← get).workspace p.sourceFile with
  | .error reason => RunM.abort ("Error reading input file: " ++ reason)
  | .ok text =>
    let name := p.sourceFile.name
    RunM.log 2 ("Read " ++ Text.ofNat text.length ++ " characters from " ++ name)
    let source : Source := ⟨text, some name⟩
    let (forms, session) := (source.session settings.policy settings.foldCase).forms
    for event in session.state.trace do
      RunM.log event.level event.message
    match forms.failure with
    | some (.fault fault) => throw (.fault fault)
    | some (.diagnosed e) =>
      complainAbout source e
      if settings.debug then
        modify fun s => { s with originShown := true }
      throw (.exit 1)
    | none =>
      let data := forms.data
      RunM.log 2 ("Read " ++ Text.ofNat data.length ++ " forms and " ++
        Text.ofNat session.log.length ++ " directives")
      return { p with
        settings := some settings, sourceText := text, forms := some data,
        directives := some session.log }

def store (path : Path) (text : Text) : RunM Unit := do
  if let some fault := path.nameFault? then
    throw (.fault fault)
  match (← get).workspace.write path (Utf8.encode text) with
  | .ok workspace =>
    modify fun s => { s with workspace }
    RunM.log 2 ("Wrote " ++ path.text)
  | .error fault => RunM.abort ("Error writing report: " ++ fault.message path)

/-- Writes the report and, if wanted, the highlighted source. -/
def runWriteReport (layout : Layout) (ctx : RunContext) (p : Progress) : RunM Progress := do
  match p.forms, p.directives with
  | some forms, some directives =>
    RunM.log 1 "Writing directive report..."
    match p.settings with
    | none => throw (.fault .noSettings)
    | some settings =>
      let report ← RunM.liftFault
        (Report.build p.sourceFile.text settings.policy forms.length (directives.map Prod.fst))
      let reportFile := p.outputDirectory.join (.ofText settings.reportFile)
      store reportFile (layout.document report.toValue)
      modify fun s => { s with report := some report }
      let highlightFile := p.outputDirectory.join (.ofText settings.highlightFile)
      if ctx.options.highlight then
        store highlightFile (layout.page Highlight.token? p.sourceFile.name p.sourceText)
      let outcome := Outcome.written reportFile.text
        (if ctx.options.highlight then some highlightFile.text else none)
        report.entries.length report.forms
      return { p with outcome := some outcome }
  | _, _ => RunM.abort "Error: No read source available"

def runShowResults (p : Progress) : RunM Progress := do
  match p.outcome with
  | none | some [] => RunM.abort "Error: Report failed"
  | some outcome =>
    let entry (name : Text) : RunM Value := RunM.liftFault (outcome.entry name)
    RunM.log 1 "\n✓ Report written"
    RunM.log 1 ("  Report: " ++ (← entry "report_file").display)
    let highlightFile ← entry "highlight_file"
    if highlightFile.holds then
      RunM.log 1 ("  Source: " ++ highlightFile.display)
    RunM.log 1 ("  Directives: " ++ (← entry "directive_count").display)
    RunM.log 1 ("  Forms: " ++ (← entry "form_count").display)
    return p

def run (layout : Layout) (ctx : RunContext) (stage : Stage) (p : Progress) : RunM Progress :=
  match stage with
  | checkEnvironment => runCheckEnvironment ctx p
  | readSource => runReadSource ctx p
  | writeReport => runWriteReport layout ctx p
  | showResults => runShowResults p

def runAll (layout : Layout) (ctx : RunContext) : List Stage → Progress → RunM Progress
  | [], p => pure p
  | stage :: rest, p => do runAll layout ctx rest (← stage.run layout ctx p)

def whole : List Stage := [checkEnvironment, readSource, writeReport, showResults]

end Stage

end LineDirective
