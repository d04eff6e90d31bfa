import LineDirective.Run.CommandLine

/-!
# The program

`INPUTDIR OUTPUTDIR --inputFile FILE [options]` reads one file below the input directory and writes a
report on its line directives below the output directory. The settings, the document of a report and the
page of a source come from elsewhere.
-/

open LineDirective

namespace LineDirective.Program

def usage : String :=
  "usage: INPUTDIR OUTPUTDIR --inputFile FILE [--allowSpace] [--truncate] [--foldCase] " ++
    "[--highlight] [-v ...]"

def attempt? {α : Type} (action : IO α) : IO (Option α) := do
  try
    return some (← action)
  catch _ =>
    return none

/-- The workspace with the one file that a run reads, if that is there. -/
def loadWorkspace (file outputDirectory : Path) : IO Workspace := do
  let w : Workspace := Workspace.makeDirectories {} outputDirectory.place
  match ← attempt? (IO.FS.readBinFile file.text.toString) with
  | some content => return w.addFile file.place content.toList
  | none => return w

/-- Carries out a run and answers with its exit status. -/
def runWith (layout : Layout) (inputDirectory outputDirectory : Path) (options : Options)
    (settings : Settings) : IO UInt32 := do
  let file := inputDirectory.join (.ofText options.inputFile)
  let before ← loadWorkspace file outputDirectory
  let ctx : RunContext := { inputDirectory, outputDirectory, settings, options }
  let (outcome, state) := (Stage.runAll layout ctx Stage.whole {}).run.run { workspace := before }
  for (place, content) in state.workspace.files do
    if before.files.get? place ≠ some content then
      let path : Path := { root := place.headD [], parts := place.drop 1 }
      IO.FS.writeBinFile path.text.toString ⟨content.toArray⟩
  for line in (LogBinding.verbose options.verbosity).shown state.log do
    IO.eprintln line.toString
  IO.eprint state.errors.toString
  match outcome with
  | .ok _ => return 0
  | .error (.exit status) => return UInt32.ofNat status
  | .error (.fault fault) =>
    IO.eprintln fault.message.toString
    return 1
  | .error (.storage fault path) =>
    IO.eprintln (fault.message path).toString
    return 1

/-- Runs the program on its arguments. Settings that cannot be used end it before it looks at them. -/
def run (layout : Layout) (loadSettings : IO (Except Text Settings)) (args : List String) :
    IO UInt32 := do
  match ← loadSettings, args with
  | .error complaint, _ =>
    IO.eprintln complaint.toString
    return 1
  | .ok settings, input :: output :: rest =>
    match CommandLine.parse (rest.map Text.ofString) with
    | .ok options =>
      IO.FS.createDirAll output
      let input ← IO.FS.realPath input
      let output ← IO.FS.realPath output
      runWith layout (.ofText (Text.ofString input.toString))
        (.ofText (Text.ofString output.toString)) options settings
    | .error .information =>
      IO.println usage
      return 0
    | .error .wrongUsage =>
      IO.eprintln usage
      return 2
  | .ok _, _ =>
    IO.eprintln usage
    return 2

end LineDirective.Program
