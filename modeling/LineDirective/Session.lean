import LineDirective.Reader.Datum
import LineDirective.Registry.Standard
import LineDirective.Source.Basic

/-!
# Reading sessions

A session reads the top-level items of a source one after another: data, and line directives where a
comment may stand. Every directive is recorded, also one nested in a datum; a top-level directive is
an item as well. A read that fails leaves the session where it was, but what was recorded on the way
stays recorded.
-/

namespace LineDirective

/-- What stands next at the top level of a source. -/
inductive Item where
  | datum (d : Datum)
  | directive (d : Directive)
  | endOfInput
deriving Repr

structure Session where
  source : Source
  policy : Policy := {}
  registry : Registry := .standard
  /-- Where the next item is looked for. -/
  position : Position := .start
  state : ReaderState := {}

def nextItemFor (ctx : Context) : Nat → Cursor → ReadM (Item × Cursor)
  | 0, c => pure (.endOfInput, c)
  | rounds + 1, c =>
    let commentOrDatum : ReadM (Item × Cursor) := do
      match ← Reader.skipComment ctx .code c with
      | some next => nextItemFor ctx rounds next
      | none =>
        let (d, next) ← Reader.readDatum ctx .code c
        return (.datum d, next)
    match c.rest with
    | [] => pure (.endOfInput, c)
    | x :: _ =>
      if x.isBlank then
        nextItemFor ctx rounds c.next
      else if Text.startsWith c.rest directiveMarker then do
        match ← Reader.readDirective? ctx (c.advance directiveMarker.length) with
        | some (d, next) =>
          ctx.record d
          return (.directive d, next)
        -- a named marker is skipped as a comment; any other `#!` is no datum
        | none => commentOrDatum
      else
        commentOrDatum

def nextItem (ctx : Context) (c : Cursor) : ReadM (Item × Cursor) :=
  nextItemFor ctx (c.rest.length + 1) c

namespace Session

def context (s : Session) : Context where
  policy := s.policy
  sourceName := s.source.name
  sink := .announce s.registry.label

def cursor (s : Session) : Cursor := s.source.cursor s.position

def next (s : Session) : Except Failure Item × Session :=
  match (nextItem s.context s.cursor).run.run s.state with
  | (.ok (item, c), state) => (.ok item, { s with position := c.position, state := state })
  | (.error failure, state) => (.error failure, { s with state := state })

def readDatumFor : Nat → Session → Except Failure Datum × Session
  | 0, s => (.error (.fault .endOfInput), s)
  | rounds + 1, s =>
    match s.next with
    | (.error failure, s) => (.error failure, s)
    | (.ok .endOfInput, s) => (.error (.fault .endOfInput), s)
    | (.ok (.datum d), s) => (.ok d, s)
    | (.ok (.directive _), s) => readDatumFor rounds s

/-- Reads the next datum and passes over directives before it. -/
def readDatum (s : Session) : Except Failure Datum × Session :=
  readDatumFor (s.cursor.rest.length + 1) s

/-- Items with the position after each, and the failure that ended the reading, if one did. -/
structure Forms where
  items : List (Item × Position) := []
  failure : Option Failure := none
deriving Repr

def Forms.data (f : Forms) : List Datum :=
  f.items.filterMap fun
    | (.datum d, _) => some d
    | _ => none

/-- Reads items for a number of rounds, until there are as many as the limit says. Directives count
only if they are wanted. -/
def formsFor (wanted : Bool) : Nat → Option Nat → Session → Forms × Session
  | 0, _, s => ({}, s)
  | _ + 1, some 0, s => ({}, s)
  | rounds + 1, limit, s =>
    let continueWith (item : Item) (s : Session) : Forms × Session :=
      let (forms, last) := formsFor wanted rounds (limit.map (· - 1)) s
      ({ forms with items := (item, s.position) :: forms.items }, last)
    match s.next with
    | (.error failure, s) => ({ failure := some failure }, s)
    | (.ok .endOfInput, s) => ({}, s)
    | (.ok (.datum d), s) => continueWith (.datum d) s
    | (.ok (.directive d), s) =>
      if wanted then continueWith (.directive d) s else formsFor wanted rounds limit s

def forms (s : Session) (wanted : Bool := false) (limit : Option Nat := none) : Forms × Session :=
  formsFor wanted (s.cursor.rest.length + 1) limit s

def seek (s : Session) (p : Position) : Session := { s with position := p }

def advance (s : Session) (count : Int) : Except Fault Session :=
  (s.source.advance s.position count).map s.seek

def setFoldCase (s : Session) (fold : Bool) : Session :=
  { s with state := { s.state with foldCase := fold } }

def record (s : Session) (d : Directive) : Except Failure Unit × Session :=
  let (outcome, state) := (s.context.record d).run.run s.state
  (outcome, { s with state := state })

/-- The recorded directives, each with the specification that handles it. -/
def log (s : Session) : List (Directive × Option Spec) :=
  s.state.directives.map fun d => (d, s.registry.find? d)

end Session

def Source.session (s : Source) (policy : Policy := {}) (foldCase : Bool := false) : Session where
  source := s
  policy := policy
  state := { foldCase := foldCase }

/-- Reads every top-level datum of a source. -/
def Source.read (s : Source) (policy : Policy := {}) (foldCase : Bool := false) :
    Except Failure (List Datum) :=
  let (forms, _) := (s.session policy foldCase).forms
  match forms.failure with
  | some failure => .error failure
  | none => .ok forms.data

end LineDirective
