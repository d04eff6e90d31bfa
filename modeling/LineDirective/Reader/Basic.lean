import LineDirective.Directive.Basic
import LineDirective.Directive.Policy
import LineDirective.Reader.Lexeme
import LineDirective.Source.Cursor

/-!
# Actions of the reader

Reading is an action on a state that holds the case-folding mode, the directives met so far and a
trace of what happened. An action that fails keeps the state it has reached: directives handed over
and markers obeyed before the failure stay in force.

Every action moves a `Cursor` that it is given and returns; there is no hidden place in the text.
-/

namespace LineDirective

/-- What is being read: the code of a program, or the content of a line directive. -/
inductive Mode where
  | code
  | directive
deriving DecidableEq, Repr

inductive Phase where
  | start
  | skipping
  | readingDatum
  | done
  | error
deriving DecidableEq, Repr

def Phase.name : Phase → Text
  | start => "start"
  | skipping => "skipping"
  | readingDatum => "reading_datum"
  | done => "done"
  | error => "error"

inductive Event where
  /-- A named marker was met. -/
  | marker (m : NamedMarker) (position : Position)
  /-- The `#!` before a position does not start a directive. -/
  | declined (position : Position)
  /-- The scan of a directive entered another phase. -/
  | phase (current target : Phase) (position : Position)
  /-- A datum of a directive was read; it started at the position. -/
  | datumRead (number : Nat) (position : Position)
  /-- A directive was ended by a datum that runs onto a later line. -/
  | truncated (position : Position) (line : Int)
  /-- A directive was recorded under the name of its classification. -/
  | recorded (position : Option Position) (text label : Text)
deriving DecidableEq, Repr

namespace Event

/-- The verbosity from which on an event is shown. -/
def level : Event → Int
  | truncated .. | recorded .. => 2
  | marker .. | declined .. | phase .. | datumRead .. => 3

def message : Event → Text
  | marker m position => "#!" ++ m.name ++ " at " ++ position.text
  | declined position => "'#!' at " ++ position.text ++ " is not a line directive"
  | phase current target position =>
    "scanner: " ++ current.name ++ " -> " ++ target.name ++ " at " ++ position.text
  | datumRead number position =>
    "directive datum " ++ Text.ofNat number ++ " read at " ++ position.text
  | truncated position line =>
    "datum at " ++ position.text ++ " crosses onto line " ++ Text.ofInt line ++
      "; truncating directive"
  | recorded position text label =>
    let place : Text :=
      match position with
      | some p => p.text
      | none => "None"
    "Directive at " ++ place ++ ": " ++ text ++ " [" ++ label ++ "]"

end Event

structure ReaderState where
  /-- Whether symbols and character names are case folded. -/
  foldCase : Bool := false
  /-- The directives met outside directives, in textual order. -/
  directives : List Directive := []
  /-- The events so far. -/
  trace : Array Event := #[]
deriving Repr

/-- What is done with a directive met where a comment may stand. -/
inductive Sink where
  /-- Nothing. -/
  | discard
  /-- It is kept. -/
  | collect
  /-- It is kept, and reported under the name that a classification gives it. -/
  | announce (label : Directive → Text)

/-- The circumstances of a read, which do not change while it runs. -/
structure Context where
  policy : Policy := {}
  sourceName : Option Text := none
  sink : Sink := .collect

abbrev ReadM := ExceptT Failure (StateM ReaderState)

namespace ReadM

def emit (e : Event) : ReadM Unit :=
  modify fun s => { s with trace := s.trace.push e }

def liftFault {α : Type} : Except Fault α → ReadM α
  | .ok a => pure a
  | .error fault => throw (.fault fault)

end ReadM

namespace Context

def fail {α : Type} (ctx : Context) (cause : Cause) (position : Position) : ReadM α :=
  throw (.diagnosed ⟨cause, position, ctx.sourceName⟩)

def lexeme {α : Type} (ctx : Context) (c : Cursor) : Lexeme.Result α → ReadM (α × Cursor)
  | .ok (a, size) => pure (a, c.advance size)
  | .error (.malformed cause distance) => ctx.fail cause (c.advance distance).position
  | .error (.fault fault) => throw (.fault fault)

/-- Hands a directive over. It is kept before it is written for the report, so that a directive that
cannot be written is still on record. -/
def record (ctx : Context) (d : Directive) : ReadM Unit :=
  let keep : ReadM Unit := modify fun s => { s with directives := s.directives ++ [d] }
  match ctx.sink with
  | .discard => pure ()
  | .collect => keep
  | .announce label => do
    keep
    let text ← ReadM.liftFault d.write
    ReadM.emit (.recorded d.position text (label d))

end Context

end LineDirective
