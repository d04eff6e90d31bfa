import LineDirective.Run.Pipeline

/-!
# The command line

Options have a long name, some also a short one. A long name may be cut short as long as it stays
unambiguous, and its value may follow after an equals sign. Short options without a value may share
one dash. There are no positional arguments.
-/

namespace LineDirective.CommandLine

inductive Switch where
  | inputFile
  | allowSpace
  | truncate
  | foldCase
  | highlight
  | verbosity
  | help
  | version
deriving DecidableEq, Repr

def names : Table Text Switch :=
  [("-h", .help), ("--help", .help), ("--inputFile", .inputFile), ("--allowSpace", .allowSpace),
   ("--truncate", .truncate), ("--foldCase", .foldCase), ("--highlight", .highlight),
   ("-v", .verbosity), ("--verbosity", .verbosity), ("-V", .version), ("--version", .version)]

inductive Refusal where
  /-- The arguments are wrong. -/
  | wrongUsage
  /-- They ask for help or for the version instead. -/
  | information
deriving DecidableEq, Repr

inductive Argument where
  /-- An option with the value attached to it, if there is one. -/
  | option (switch : Switch) (attached : Option Text)
  /-- Short options behind one dash: the first and the letters after it. -/
  | cluster (first : Switch) (more : Text)
  /-- Something that looks like an option and is none. -/
  | unknown
  | plain (t : Text)
deriving DecidableEq, Repr

def splitValue (t : Text) : Text × Option Text :=
  match t.dropWhile (· ≠ .scalar '=') with
  | [] => (t, none)
  | _ :: value => (t.takeWhile (· ≠ .scalar '='), some value)

def dropFinalNewline (t : Text) : Text := if t.getLast? = some .lineFeed then t.dropLast else t

/-- Whether a text is a negative number; a line feed may follow it. -/
def isNegativeNumber (t : Text) : Bool :=
  match dropFinalNewline t with
  | .scalar '-' :: body =>
    let whole := body.takeWhile CodePoint.isDecimalDigit
    match body.dropWhile CodePoint.isDecimalDigit with
    | [] => !whole.isEmpty
    | .scalar '.' :: fraction => Number.isDigits fraction
    | _ => false
  | _ => false

def classifyOther (t : Text) : Except Refusal Argument :=
  let (name, value) := splitValue t
  let other : Argument :=
    if isNegativeNumber t || t.contains (.scalar ' ') then .plain t else .unknown
  match (if value.isSome then names.get? name else none), t with
  -- a whole name before an equals sign; a short one has its value read as more letters
  | some switch, _ =>
    if name.length = 2 then .ok (.cluster switch (value.getD [])) else .ok (.option switch value)
  -- the beginning of a long name
  | none, .scalar '-' :: .scalar '-' :: _ =>
    match names.filter fun entry => Text.startsWith entry.1 name with
    | [] => .ok other
    | [entry] => .ok (.option entry.2 value)
    | _ => .error .wrongUsage
  -- short names behind one dash
  | none, dash :: letter :: more =>
    match names.get? [dash, letter] with
    | some switch => .ok (.cluster switch more)
    | none => .ok other
  | none, _ => .ok other

def classify (t : Text) : Except Refusal Argument :=
  match t with
  | .scalar '-' :: _ :: _ =>
    match names.get? t with
    | some switch => .ok (.option switch none)
    | none => classifyOther t
  | _ => .ok (.plain t)

/-- Sorts out all arguments; after a double dash all are plain, and so is the dash. -/
def classifyAll : List Text → Except Refusal (List Argument)
  | [] => .ok []
  | t :: rest =>
    if t = ("--" : Text) then .ok (.unknown :: rest.map .plain)
    else do
      let a ← classify t
      return a :: (← classifyAll rest)

structure Parsed where
  options : Options := {}
  hasInput : Bool := false
  /-- Whether something could not be used. -/
  hasExtras : Bool := false
deriving DecidableEq, Repr

def Parsed.apply (p : Parsed) : Switch → Except Refusal Parsed
  | .inputFile => .error .wrongUsage
  | .allowSpace => .ok { p with options := { p.options with allowSpace := true } }
  | .truncate => .ok { p with options := { p.options with truncate := true } }
  | .foldCase => .ok { p with options := { p.options with foldCase := true } }
  | .highlight => .ok { p with options := { p.options with highlight := true } }
  | .verbosity =>
    .ok { p with options := { p.options with verbosity := p.options.verbosity + 1 } }
  | .help | .version => .error .information

def Parsed.setInput (p : Parsed) (file : Text) : Parsed :=
  { p with options := { p.options with inputFile := file }, hasInput := true }

/-- The options of a cluster; every letter must name one. -/
def clusterSwitches (first : Switch) : Text → Except Refusal (List Switch)
  | [] => .ok [first]
  | letter :: more =>
    match names.get? [.scalar '-', letter] with
    | some next => return first :: (← clusterSwitches next more)
    | none => .error .wrongUsage

def obey (p : Parsed) : List Argument → Except Refusal Parsed
  | [] => .ok p
  | .option .inputFile (some value) :: rest => obey (p.setInput value) rest
  | .option .inputFile none :: .plain value :: rest => obey (p.setInput value) rest
  | .option switch none :: rest => do obey (← p.apply switch) rest
  | .option _ (some _) :: _ => .error .wrongUsage
  | .cluster _ [] :: _ => .error .wrongUsage
  | .cluster first more :: rest => do
    let switches ← clusterSwitches first more
    obey (← switches.foldlM Parsed.apply p) rest
  | .unknown :: rest | .plain _ :: rest => obey { p with hasExtras := true } rest

def parse (arguments : List Text) : Except Refusal Options := do
  let p ← obey {} (← classifyAll arguments)
  if p.hasExtras || !p.hasInput then .error .wrongUsage else .ok p.options

end LineDirective.CommandLine
