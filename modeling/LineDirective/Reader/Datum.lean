import LineDirective.Reader.Atmosphere

/-!
# Reading data

One datum with everything nested in it. `readDatumBy` reads the outermost level with a grammar for
what lies deeper, and `grammarAt` closes the circle: the grammar of a depth reads nested data with
the grammar of the depth below. Every level consumes at least one code point, so a depth equal to the
length of the text is never exhausted, and the operations in the namespace `Reader` start from there.
-/

namespace LineDirective

/-! ## Lists -/

def closerOf (opener : CodePoint) : CodePoint :=
  if opener = .scalar '[' then .scalar ']' else .scalar ')'

def isCloser (c : CodePoint) : Bool := c = .scalar ')' || c = .scalar ']'

/-- The items of a list and, for a dotted list, the datum after the dot. -/
abbrev ListParts := List Datum × Option Datum

/-- Reads the rest of a list that started at `start`, for a number of rounds. -/
def readItemsFor (ctx : Context) (g : Grammar) (mode : Mode) (start : Position)
    (closer : CodePoint) : Nat → ListParts → Cursor → ReadM (ListParts × Cursor)
  | 0, _, _ => ctx.fail .unterminatedList start
  | rounds + 1, (items, tail), c => do
    let c ← skipAtmosphereBy (skipCommentBy ctx g mode) c
    match c.rest with
    | [] => ctx.fail .unterminatedList start
    | x :: rest =>
      if isCloser x then
        if x ≠ closer then ctx.fail (.wrongCloser closer) c.position
        else return ((items, tail), c.next)
      else if tail.isSome then
        ctx.fail .itemAfterTail c.position
      else if x = .scalar '.' ∧ Text.atDelimiter rest then
        -- a lone dot: one datum must follow, and then the closing bracket
        if items.isEmpty then
          ctx.fail .unexpectedDot c.position
        else do
          let c ← skipAtmosphereBy (skipCommentBy ctx g mode) c.next
          if c.atEnd || c.atCloser then
            ctx.fail .missingTail c.position
          else do
            let (d, next) ← g.readDatum mode c
            readItemsFor ctx g mode start closer rounds (items, some d) next
      else do
        let (d, next) ← g.readDatum mode c
        readItemsFor ctx g mode start closer rounds (items ++ [d], none) next

def readListBy (ctx : Context) (g : Grammar) (mode : Mode) (c : Cursor) :
    ReadM (ListParts × Cursor) :=
  let closer := closerOf ((c.peek?).getD (.scalar '('))
  readItemsFor ctx g mode c.position closer (c.rest.length + 1) ([], none) c.next

def ListParts.toDatum : ListParts → Datum
  | (items, none) => .list items
  | (items, some tail) => .dotted items tail

/-! ## Forms with a mark in front -/

def readAbbreviationBy (ctx : Context) (g : Grammar) (mode : Mode) (a : Abbreviation) (c : Cursor) :
    ReadM (Datum × Cursor) := do
  let start ← skipAtmosphereBy (skipCommentBy ctx g mode) (c.advance a.mark.length)
  if start.atEnd || start.atCloser then
    ctx.fail (.missingAbbreviated a) c.position
  else do
    let (d, next) ← g.readDatum mode start
    return (.list [.symbol a.name, d], next)

def byte? : Datum → Option UInt8
  | .number (.integer n) => if 0 ≤ n ∧ n ≤ 255 then some (UInt8.ofNat n.toNat) else none
  | _ => none

def readVectorBy (ctx : Context) (g : Grammar) (mode : Mode) (c : Cursor) :
    ReadM (Datum × Cursor) := do
  match ← readListBy ctx g mode (c.advance 1) with
  | ((items, none), next) => return (.vector items, next)
  | _ => ctx.fail .dottedVector c.position

def readBytevectorBy (ctx : Context) (g : Grammar) (mode : Mode) (c : Cursor) :
    ReadM (Datum × Cursor) := do
  match ← readListBy ctx g mode (c.advance 3) with
  | ((items, none), next) =>
    match items.mapM byte? with
    | some elements => return (.bytes elements, next)
    | none => ctx.fail .badBytevector c.position
  | _ => ctx.fail .badBytevector c.position

def atDirective (policy : WhitespacePolicy) (c : Cursor) : Bool :=
  match c.rest with
  | .scalar '#' :: .scalar '!' :: rest => startsDirective policy rest
  | _ => false

def readHashBy (ctx : Context) (g : Grammar) (mode : Mode) (c : Cursor) :
    ReadM (Datum × Cursor) := do
  match c.rest with
  | .scalar '#' :: .scalar '(' :: _ => readVectorBy ctx g mode c
  | .scalar '#' :: .scalar 'u' :: .scalar '8' :: .scalar '(' :: _ => readBytevectorBy ctx g mode c
  | .scalar '#' :: .backslash :: _ =>
    let fold := (← get).foldCase
    let (x, next) ← ctx.lexeme c (Lexeme.character fold c.rest)
    return (.char x, next)
  | .scalar '#' :: .scalar '!' :: _ =>
    if mode = .directive ∧ atDirective ctx.policy.whitespace c then
      ctx.fail .nestedDirective c.position
    else
      ctx.fail .unrecognizedMarker c.position
  | _ => ctx.lexeme c (Lexeme.hashToken c.rest)

/-! ## Data -/

def abbreviation? : Text → Option Abbreviation
  | .apostrophe :: _ => some .quote
  | .graveAccent :: _ => some .quasiquote
  | .scalar ',' :: .scalar '@' :: _ => some .unquoteSplicing
  | .scalar ',' :: _ => some .unquote
  | _ => none

def readDatumHereBy (ctx : Context) (g : Grammar) (mode : Mode) (c : Cursor) :
    ReadM (Datum × Cursor) := do
  match c.rest with
  | [] => ctx.fail .unexpectedEnd c.position
  | x :: _ =>
    if x = .scalar '(' ∨ x = .scalar '[' then do
      let (parts, next) ← readListBy ctx g mode c
      return (parts.toDatum, next)
    else if isCloser x then
      ctx.fail (.unexpectedCloser x) c.position
    else if x = .quotationMark then do
      let (content, next) ← ctx.lexeme c (Lexeme.quoted .string c.rest)
      return (.string content, next)
    else if x = .scalar '|' then do
      let (name, next) ← ctx.lexeme c (Lexeme.quoted .symbol c.rest)
      return (.symbol name, next)
    else
      match abbreviation? c.rest with
      | some a => readAbbreviationBy ctx g mode a c
      | none =>
        if x = .scalar '#' then readHashBy ctx g mode c
        else do
          let fold := (← get).foldCase
          ctx.lexeme c (Lexeme.atom fold c.rest)

/-- Reads one datum. In code the atmosphere before it is skipped; in a directive it must start here,
because the caller watches over the line. -/
def readDatumBy (ctx : Context) (g : Grammar) (mode : Mode) (c : Cursor) :
    ReadM (Datum × Cursor) := do
  match mode with
  | .code =>
    let start ← skipAtmosphereBy (skipCommentBy ctx g .code) c
    readDatumHereBy ctx g .code start
  | .directive => readDatumHereBy ctx g .directive c

/-- The grammar that reads data nested to a given depth. At depth zero the text counts as ended. -/
def grammarAt (ctx : Context) : Nat → Grammar
  | 0 =>
    { readDatum := fun _ c => ctx.fail .unexpectedEnd c.position
      skipComment := fun _ _ => pure none }
  | depth + 1 =>
    { readDatum := fun mode c => readDatumBy ctx (grammarAt ctx depth) mode c
      skipComment := fun mode c => skipCommentBy ctx (grammarAt ctx depth) mode c }

namespace Reader

/-- A grammar deep enough for everything from a cursor on. -/
def grammar (ctx : Context) (c : Cursor) : Grammar := grammarAt ctx (c.rest.length + 1)

def readDatum (ctx : Context) (mode : Mode) (c : Cursor) : ReadM (Datum × Cursor) :=
  (grammar ctx c).readDatum mode c

def skipComment (ctx : Context) (mode : Mode) (c : Cursor) : ReadM (Option Cursor) :=
  (grammar ctx c).skipComment mode c

def skipAtmosphere (ctx : Context) (mode : Mode) (c : Cursor) : ReadM Cursor :=
  skipAtmosphereBy ((grammar ctx c).skipComment mode) c

def skipIntraline (ctx : Context) (anchor : Int) (c : Cursor) : ReadM Cursor :=
  skipIntralineBy ((grammar ctx c).skipComment .directive) anchor c

def scanDirective (ctx : Context) (c : Cursor) : ReadM (Directive × Cursor) :=
  scanDirectiveBy ctx (grammar ctx c) c

/-- Reports that the `#!` just before a position starts no directive. -/
def decline (p : Position) : ReadM (Option (Directive × Cursor)) := do
  ReadM.emit (.declined p)
  return none

/-- Reads a directive if the `#!` just before the cursor starts one; otherwise nothing is
consumed. -/
def readDirective? (ctx : Context) (c : Cursor) : ReadM (Option (Directive × Cursor)) := do
  if startsDirective ctx.policy.whitespace c.rest then
    some <$> scanDirective ctx c
  else
    decline c.position

end Reader

end LineDirective
