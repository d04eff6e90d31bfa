import LineDirective.Reader.Datum
import LineDirective.Source.Detection

/-!
# Reading at a position

The operations of the reader on a source and any position in it. In the text they are the operations
on the cursor there. Before the start of a text there is nothing to read, but the text has not ended
either; only a block comment is followed from a place that counts from the end, over the end and on
from the start.
-/

namespace LineDirective.Source

/-- The scan of a directive before the start of a text: neither a line break nor the end of the text
is there, so a datum is expected, and there is none. -/
def scanBeforeText (ctx : Context) (p : Position) : ReadM (Directive × Cursor) := do
  ReadM.emit (.phase .start .skipping p)
  ReadM.emit (.phase .skipping .readingDatum p)
  ReadM.emit (.phase .readingDatum .error p)
  ctx.fail .unexpectedEnd p

def scanDirective (s : Source) (ctx : Context) (p : Position) : ReadM (Directive × Cursor) :=
  if p.offset < 0 then scanBeforeText ctx p else Reader.scanDirective ctx (s.cursor p)

/-- Reads a directive if the `#!` just before a position starts one; otherwise nothing is
consumed. -/
def readDirective? (s : Source) (ctx : Context) (p : Position) :
    ReadM (Option (Directive × Cursor)) := do
  if ← ReadM.liftFault (s.startsDirective ctx.policy.whitespace p) then
    some <$> s.scanDirective ctx p
  else
    Reader.decline p

/-- The length of the block comment at a place that counts from the end. The text is gone through
once from there and once from its start; `#|` and `|#` do not reach over its end. -/
def blockCommentFromEnd? (s : Source) (offset : Int) : Option Nat :=
  let last := s.suffix offset
  match Lexeme.blockComment 0 last with
  | .ok size => some size
  | .error depth =>
    match Lexeme.blockComment depth s.text with
    | .ok size => some (last.length + size)
    | .error _ => none

def skipBlockComment (s : Source) (ctx : Context) (p : Position) : ReadM Position := do
  if 0 ≤ p.offset then
    return (← LineDirective.skipBlockComment ctx (s.cursor p)).position
  -- the first move already fails where there is nothing to move over
  let _ ← ReadM.liftFault (s.step p)
  match s.blockCommentFromEnd? p.offset with
  | some size => ReadM.liftFault (s.advance p size)
  | none => ctx.fail .unterminatedBlockComment p

end LineDirective.Source
