import LineDirective.Reader.Basic

/-!
# Atmosphere and directives

Whatever may stand between two data: whitespace, comments, named markers and line directives. The
functions here know nothing of the notation for data. They are given a `Grammar`, which reads one
datum and skips one comment, and use it only on text that comes after something they have consumed
themselves.

Loops are bounded by the length of the text: every round consumes something, so the bound is never
what ends them.
-/

namespace LineDirective

structure Grammar where
  /-- Reads one datum. In code it may be preceded by atmosphere; in a directive it starts here. -/
  readDatum : Mode → Cursor → ReadM (Datum × Cursor)
  /-- Skips one comment, if one starts here. -/
  skipComment : Mode → Cursor → ReadM (Option Cursor)

def skipAtmosphereFor (skip : Cursor → ReadM (Option Cursor)) : Nat → Cursor → ReadM Cursor
  | 0, c => pure c
  | rounds + 1, c =>
    if c.rest.head?.any CodePoint.isBlank then
      skipAtmosphereFor skip rounds c.next
    else do
      match ← skip c with
      | none => pure c
      | some next => skipAtmosphereFor skip rounds next

def skipAtmosphereBy (skip : Cursor → ReadM (Option Cursor)) (c : Cursor) : ReadM Cursor :=
  skipAtmosphereFor skip (c.rest.length + 1) c

def skipIntralineFor (skip : Cursor → ReadM (Option Cursor)) (anchor : Int) :
    Nat → Cursor → ReadM Cursor
  | 0, c => pure c
  | rounds + 1, c =>
    if c.rest.head?.any CodePoint.isIntralineBlank then
      skipIntralineFor skip anchor rounds c.next
    else do
      match ← skip c with
      | none => pure c
      | some next =>
        if next.position.line ≠ anchor then pure next
        else skipIntralineFor skip anchor rounds next

/-- Skips whitespace and comments without leaving the anchor line. A comment that runs onto a later
line is consumed whole, and skipping stops after it. -/
def skipIntralineBy (skip : Cursor → ReadM (Option Cursor)) (anchor : Int) (c : Cursor) :
    ReadM Cursor :=
  skipIntralineFor skip anchor (c.rest.length + 1) c

def skipBlockComment (ctx : Context) (c : Cursor) : ReadM Cursor :=
  match Lexeme.blockComment 0 c.rest with
  | .ok size => pure (c.advance size)
  | .error _ => ctx.fail .unterminatedBlockComment c.position

/-! ## Scanning a directive -/

/-- Reads the next datum of a directive and applies the line-crossing policy to it. -/
def readDirectiveDatum (ctx : Context) (g : Grammar) (anchor : Int) (c : Cursor) :
    ReadM (Datum × Cursor) :=
  let attempt : ReadM (Datum × Cursor) := do
    let (d, next) ← g.readDatum .directive c
    if next.position.line ≠ anchor then
      match ctx.policy.lineCrossing with
      | .error => ctx.fail (.crossesLine next.position.line) c.position
      | .truncate => ReadM.emit (.truncated c.position next.position.line)
    return (d, next)
  tryCatch attempt fun failure => do
    match failure with
    | .diagnosed _ => ReadM.emit (.phase .readingDatum .error c.position)
    -- a fault is no complaint about the text, and the trace does not tell of it
    | .fault _ => pure ()
    throw failure

/-- Reads data up to the end of the anchor line, for a number of rounds. The line boundary is tested
after every skip, that is, before every datum. -/
def scanDatumsFor (ctx : Context) (g : Grammar) (anchor : Int) :
    Nat → List Datum → Cursor → ReadM (List Datum × Cursor)
  | 0, datums, c => pure (datums, c)
  | rounds + 1, datums, c => do
    let c ← skipIntralineBy (g.skipComment .directive) anchor c
    if c.position.line ≠ anchor ∨ c.atLineEnd then
      ReadM.emit (.phase .skipping .done c.position)
      return (datums, c)
    ReadM.emit (.phase .skipping .readingDatum c.position)
    let (d, next) ← readDirectiveDatum ctx g anchor c
    let datums := datums ++ [d]
    ReadM.emit (.datumRead datums.length c.position)
    if next.position.line ≠ anchor then
      ReadM.emit (.phase .readingDatum .done next.position)
      return (datums, next)
    ReadM.emit (.phase .readingDatum .skipping next.position)
    scanDatumsFor ctx g anchor rounds datums next

/-- Reads a directive whose `#!` stands just before the cursor. The line break that ends the line is
consumed with it. -/
def scanDirectiveBy (ctx : Context) (g : Grammar) (c : Cursor) : ReadM (Directive × Cursor) := do
  let anchor := c.position.line
  ReadM.emit (.phase .start .skipping c.position)
  let (datums, last) ← scanDatumsFor ctx g anchor (c.rest.length + 1) [] c
  -- a datum or comment that left the line has taken its line break along
  let next := if last.position.line = anchor then last.skipNewline else last
  return (⟨datums, some c.position.beforeMarker⟩, next)

/-! ## Comments -/

/-- Skips a datum comment that starts here. In a directive a datum comment with nothing left on its
line comments out nothing. -/
def skipDatumComment (g : Grammar) (mode : Mode) (c : Cursor) : ReadM Cursor := do
  match mode with
  | .code =>
    let (_, next) ← g.readDatum .code (c.advance 2)
    return next
  | .directive =>
    let start ← skipIntralineBy (g.skipComment .directive) c.position.line (c.advance 2)
    if start.position.line ≠ c.position.line ∨ start.atLineEnd then
      return start
    let (_, next) ← g.readDatum .directive start
    return next

/-- Skips a named marker or, in code, a line directive that starts here. Inside a directive a named
marker does not switch case folding. -/
def skipMarker (ctx : Context) (g : Grammar) (mode : Mode) (c : Cursor) :
    ReadM (Option Cursor) := do
  let after := c.advance 2
  match NamedMarker.detect? after.rest with
  | some m =>
    if mode = .code then
      modify fun s => { s with foldCase := m.folds }
    ReadM.emit (.marker m c.position)
    return some (after.advance m.name.length)
  | none =>
    if mode = .code ∧ startsDirective ctx.policy.whitespace after.rest then
      let (d, next) ← scanDirectiveBy ctx g after
      ctx.record d
      return some next
    else
      return none

/-- Skips one comment, if one starts here: to the end of the line after `;`, a block comment, a datum
comment, a named marker or, in code, a line directive. -/
def skipCommentBy (ctx : Context) (g : Grammar) (mode : Mode) (c : Cursor) :
    ReadM (Option Cursor) :=
  match c.rest with
  | .scalar ';' :: _ => pure (some (c.skipWhile fun x => !x.isNewline))
  | .scalar '#' :: .scalar '|' :: _ => some <$> skipBlockComment ctx c
  | .scalar '#' :: .scalar ';' :: _ => some <$> skipDatumComment g mode c
  | .scalar '#' :: .scalar '!' :: _ => skipMarker ctx g mode c
  | _ => pure none

end LineDirective
