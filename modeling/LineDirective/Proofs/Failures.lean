import LineDirective.Proofs.Reads

/-!
# Failing reads

`Fails ctx opened task c s e s'` says that the task `task`, begun at the cursor `c` in the state `s`,
ends with the failure `e` and leaves the state `s'`; `opened` is the place of the bracket of the list
that is being read, which a list without an end is blamed on. There is one rule for each place where
a part of the reader can fail, after the reads that have succeeded before. Together with `Reads` this
says all that the reader does (module `FailureAdequacy`).
-/

namespace LineDirective

/-- A datum without nested data starts a text, and is not spelled as it must be. -/
inductive Lexeme.Misspells (fold : Bool) (t : Text) : LexemeFailure → Prop
  | string {f : LexemeFailure} (opened : t.head? = some .quotationMark)
      (failed : quoted .string t = .error f) : Misspells fold t f
  | symbol {f : LexemeFailure} (opened : t.head? = some (.scalar '|'))
      (failed : quoted .symbol t = .error f) : Misspells fold t f
  | character {f : LexemeFailure} {rest : Text} (opened : t = .scalar '#' :: .backslash :: rest)
      (failed : character fold t = .error f) : Misspells fold t f
  | hash {f : LexemeFailure} (opened : startsHashToken t = true)
      (failed : hashToken t = .error f) : Misspells fold t f
  | atom {f : LexemeFailure} (opened : startsAtom t = true)
      (failed : atom fold t = .error f) : Misspells fold t f

/-- What stands at a cursor starts no datum. -/
inductive Refuses (ctx : Context) (mode : Mode) (fold : Bool) (c : Cursor) : Failure → Prop
  | ended (nothing : c.rest = []) : Refuses ctx mode fold c (ctx.complaint .unexpectedEnd c.position)
  | closer {x : CodePoint} {rest : Text} (head : c.rest = x :: rest) (closes : isCloser x = true) :
      Refuses ctx mode fold c (ctx.complaint (.unexpectedCloser x) c.position)
  | lexeme {f : LexemeFailure} (misspelled : Lexeme.Misspells fold c.rest f) :
      Refuses ctx mode fold c (ctx.blame c f)
  /-- In a directive another one must not start. -/
  | nested (inside : mode = .directive) (starts : atDirective ctx.policy.whitespace c = true) :
      Refuses ctx mode fold c (ctx.complaint .nestedDirective c.position)
  | marker {rest : Text} (head : c.rest = .scalar '#' :: .scalar '!' :: rest)
      (declined : ¬ (mode = .directive ∧ atDirective ctx.policy.whitespace c = true)) :
      Refuses ctx mode fold c (ctx.complaint .unrecognizedMarker c.position)

/-- The state after the read of a directive's datum has failed: a complaint about the text is
reported, a fault is not. -/
def Failure.reported (p : Position) (s : ReaderState) : Failure → ReaderState
  | .diagnosed _ => s.emit (.phase .readingDatum .error p)
  | .fault _ => s

/-- A task fails: begun at the cursor in the first state, it ends with the failure given and leaves
the second state. -/
inductive Fails (ctx : Context) :
    Position → Task → Cursor → ReaderState → Failure → ReaderState → Prop
  | codeSkip {opened c s e s'} (skip : Fails ctx opened (.atmosphere .code) c s e s') :
      Fails ctx opened (.datum .code) c s e s'
  | code {opened c s c₁ s₁ e s'} (skipped : Reads ctx (.atmosphere .code) c s .nothing c₁ s₁)
      (here : Fails ctx opened (.here .code) c₁ s₁ e s') : Fails ctx opened (.datum .code) c s e s'
  | directive {opened c s e s'} (here : Fails ctx opened (.here .directive) c s e s') :
      Fails ctx opened (.datum .directive) c s e s'
  | refused {opened mode c s e} (refuses : Refuses ctx mode s.foldCase c e) :
      Fails ctx opened (.here mode) c s e s
  | list {opened mode c s x rest e s'} (head : c.rest = x :: rest)
      (opener : x = .scalar '(' ∨ x = .scalar '[')
      (items : Fails ctx c.position (.items mode (closerOf x) ([], none)) c.next s e s') :
      Fails ctx opened (.here mode) c s e s'
  | abbreviationSkip {opened mode c s a e s'} (mark : abbreviation? c.rest = some a)
      (skip : Fails ctx opened (.atmosphere mode) (c.advance a.mark.length) s e s') :
      Fails ctx opened (.here mode) c s e s'
  | missingAbbreviated {opened mode c s a c₁ s₁} (mark : abbreviation? c.rest = some a)
      (skipped : Reads ctx (.atmosphere mode) (c.advance a.mark.length) s .nothing c₁ s₁)
      (nothing : (c₁.atEnd || c₁.atCloser) = true) :
      Fails ctx opened (.here mode) c s (ctx.complaint (.missingAbbreviated a) c.position) s₁
  | abbreviation {opened mode c s a c₁ s₁ e s'} (mark : abbreviation? c.rest = some a)
      (skipped : Reads ctx (.atmosphere mode) (c.advance a.mark.length) s .nothing c₁ s₁)
      (follows : (c₁.atEnd || c₁.atCloser) = false)
      (read : Fails ctx opened (.datum mode) c₁ s₁ e s') : Fails ctx opened (.here mode) c s e s'
  | vector {opened mode c s rest e s'} (head : c.rest = .scalar '#' :: .scalar '(' :: rest)
      (items : Fails ctx (c.advance 1).position (.items mode (.scalar ')') ([], none)) (c.advance 2)
        s e s') : Fails ctx opened (.here mode) c s e s'
  | dottedVector {opened mode c s rest items tail next s'}
      (head : c.rest = .scalar '#' :: .scalar '(' :: rest)
      (read : Reads ctx (.items mode (.scalar ')') ([], none)) (c.advance 2) s
        (.parts (items, some tail)) next s') :
      Fails ctx opened (.here mode) c s (ctx.complaint .dottedVector c.position) s'
  | bytevector {opened mode c s rest e s'}
      (head : c.rest = .scalar '#' :: .scalar 'u' :: .scalar '8' :: .scalar '(' :: rest)
      (items : Fails ctx (c.advance 3).position (.items mode (.scalar ')') ([], none)) (c.advance 4)
        s e s') : Fails ctx opened (.here mode) c s e s'
  | badBytevector {opened mode c s rest parts next s'}
      (head : c.rest = .scalar '#' :: .scalar 'u' :: .scalar '8' :: .scalar '(' :: rest)
      (read : Reads ctx (.items mode (.scalar ')') ([], none)) (c.advance 4) s (.parts parts) next s')
      (bad : parts.2.isSome = true ∨ parts.1.mapM byte? = none) :
      Fails ctx opened (.here mode) c s (ctx.complaint .badBytevector c.position) s'
  | itemsSkip {opened mode closer parts c s e s'}
      (skip : Fails ctx opened (.atmosphere mode) c s e s') :
      Fails ctx opened (.items mode closer parts) c s e s'
  | unterminated {opened mode closer parts c s c₁ s₁}
      (skipped : Reads ctx (.atmosphere mode) c s .nothing c₁ s₁) (nothing : c₁.rest = []) :
      Fails ctx opened (.items mode closer parts) c s (ctx.complaint .unterminatedList opened) s₁
  | wrongCloser {opened mode closer parts c s c₁ s₁ x rest}
      (skipped : Reads ctx (.atmosphere mode) c s .nothing c₁ s₁) (head : c₁.rest = x :: rest)
      (closes : isCloser x = true) (other : x ≠ closer) :
      Fails ctx opened (.items mode closer parts) c s
        (ctx.complaint (.wrongCloser closer) c₁.position) s₁
  /-- Only the closing bracket may follow a tail. -/
  | afterTail {opened mode closer items tail c s c₁ s₁ x rest}
      (skipped : Reads ctx (.atmosphere mode) c s .nothing c₁ s₁) (head : c₁.rest = x :: rest)
      (open_ : isCloser x = false) :
      Fails ctx opened (.items mode closer (items, some tail)) c s
        (ctx.complaint .itemAfterTail c₁.position) s₁
  | leadingDot {opened mode closer c s c₁ s₁ rest}
      (skipped : Reads ctx (.atmosphere mode) c s .nothing c₁ s₁)
      (head : c₁.rest = .scalar '.' :: rest) (lone : Text.atDelimiter rest = true) :
      Fails ctx opened (.items mode closer ([], none)) c s
        (ctx.complaint .unexpectedDot c₁.position) s₁
  | dotSkip {opened mode closer items c s c₁ s₁ rest e s'}
      (skipped : Reads ctx (.atmosphere mode) c s .nothing c₁ s₁)
      (head : c₁.rest = .scalar '.' :: rest) (lone : Text.atDelimiter rest = true)
      (some_item : items ≠ []) (skip : Fails ctx opened (.atmosphere mode) c₁.next s₁ e s') :
      Fails ctx opened (.items mode closer (items, none)) c s e s'
  | missingTail {opened mode closer items c s c₁ s₁ rest c₂ s₂}
      (skipped : Reads ctx (.atmosphere mode) c s .nothing c₁ s₁)
      (head : c₁.rest = .scalar '.' :: rest) (lone : Text.atDelimiter rest = true)
      (some_item : items ≠ [])
      (skipped₂ : Reads ctx (.atmosphere mode) c₁.next s₁ .nothing c₂ s₂)
      (nothing : (c₂.atEnd || c₂.atCloser) = true) :
      Fails ctx opened (.items mode closer (items, none)) c s
        (ctx.complaint .missingTail c₂.position) s₂
  | tail {opened mode closer items c s c₁ s₁ rest c₂ s₂ e s'}
      (skipped : Reads ctx (.atmosphere mode) c s .nothing c₁ s₁)
      (head : c₁.rest = .scalar '.' :: rest) (lone : Text.atDelimiter rest = true)
      (some_item : items ≠ [])
      (skipped₂ : Reads ctx (.atmosphere mode) c₁.next s₁ .nothing c₂ s₂)
      (follows : (c₂.atEnd || c₂.atCloser) = false)
      (read : Fails ctx opened (.datum mode) c₂ s₂ e s') :
      Fails ctx opened (.items mode closer (items, none)) c s e s'
  | dot {opened mode closer items c s c₁ s₁ rest c₂ s₂ d next s₃ e s'}
      (skipped : Reads ctx (.atmosphere mode) c s .nothing c₁ s₁)
      (head : c₁.rest = .scalar '.' :: rest) (lone : Text.atDelimiter rest = true)
      (some_item : items ≠ [])
      (skipped₂ : Reads ctx (.atmosphere mode) c₁.next s₁ .nothing c₂ s₂)
      (follows : (c₂.atEnd || c₂.atCloser) = false)
      (read : Reads ctx (.datum mode) c₂ s₂ (.datum d) next s₃)
      (others : Fails ctx opened (.items mode closer (items, some d)) next s₃ e s') :
      Fails ctx opened (.items mode closer (items, none)) c s e s'
  | itemDatum {opened mode closer items c s c₁ s₁ x rest e s'}
      (skipped : Reads ctx (.atmosphere mode) c s .nothing c₁ s₁)
      (head : c₁.rest = x :: rest) (open_ : isCloser x = false)
      (no_dot : ¬ (x = .scalar '.' ∧ Text.atDelimiter rest = true))
      (read : Fails ctx opened (.datum mode) c₁ s₁ e s') :
      Fails ctx opened (.items mode closer (items, none)) c s e s'
  | item {opened mode closer items c s c₁ s₁ x rest d next s₂ e s'}
      (skipped : Reads ctx (.atmosphere mode) c s .nothing c₁ s₁)
      (head : c₁.rest = x :: rest) (open_ : isCloser x = false)
      (no_dot : ¬ (x = .scalar '.' ∧ Text.atDelimiter rest = true))
      (read : Reads ctx (.datum mode) c₁ s₁ (.datum d) next s₂)
      (others : Fails ctx opened (.items mode closer (items ++ [d], none)) next s₂ e s') :
      Fails ctx opened (.items mode closer (items, none)) c s e s'
  | blank {opened mode c s x rest e s'} (head : c.rest = x :: rest) (white : x.isBlank = true)
      (others : Fails ctx opened (.atmosphere mode) c.next s e s') :
      Fails ctx opened (.atmosphere mode) c s e s'
  | remarkSkip {opened mode c s e s'} (visible : c.rest.head?.any CodePoint.isBlank = false)
      (skip : Fails ctx opened (.comment mode) c s e s') :
      Fails ctx opened (.atmosphere mode) c s e s'
  | remark {opened mode c s c₁ s₁ e s'} (visible : c.rest.head?.any CodePoint.isBlank = false)
      (skipped : Reads ctx (.comment mode) c s .nothing c₁ s₁)
      (others : Fails ctx opened (.atmosphere mode) c₁ s₁ e s') :
      Fails ctx opened (.atmosphere mode) c s e s'
  | blockComment {opened mode c s rest depth} (head : c.rest = .scalar '#' :: .scalar '|' :: rest)
      (endless : Lexeme.blockComment 0 c.rest = .error depth) :
      Fails ctx opened (.comment mode) c s (ctx.complaint .unterminatedBlockComment c.position) s
  | datumComment {opened c s rest e s'} (head : c.rest = .scalar '#' :: .scalar ';' :: rest)
      (read : Fails ctx opened (.datum .code) (c.advance 2) s e s') :
      Fails ctx opened (.comment .code) c s e s'
  | lineDatumSkip {opened c s rest e s'} (head : c.rest = .scalar '#' :: .scalar ';' :: rest)
      (skip : Fails ctx opened (.intraline c.position.line) (c.advance 2) s e s') :
      Fails ctx opened (.comment .directive) c s e s'
  | lineDatumComment {opened c s rest c₁ s₁ e s'}
      (head : c.rest = .scalar '#' :: .scalar ';' :: rest)
      (skipped : Reads ctx (.intraline c.position.line) (c.advance 2) s .nothing c₁ s₁)
      (same : c₁.position.line = c.position.line) (follows : c₁.atLineEnd = false)
      (read : Fails ctx opened (.datum .directive) c₁ s₁ e s') :
      Fails ctx opened (.comment .directive) c s e s'
  | lineDirective {opened c s rest e s'} (head : c.rest = .scalar '#' :: .scalar '!' :: rest)
      (unnamed : NamedMarker.detect? rest = none)
      (starts : startsDirective ctx.policy.whitespace rest = true)
      (scan : Fails ctx opened (.datums (c.advance 2).position.line []) (c.advance 2)
        (s.emit (.phase .start .skipping (c.advance 2).position)) e s') :
      Fails ctx opened (.comment .code) c s e s'
  /-- A directive has been read, and handing it over fails. -/
  | unrecorded {opened c s rest ds last s₁ e s'}
      (head : c.rest = .scalar '#' :: .scalar '!' :: rest)
      (unnamed : NamedMarker.detect? rest = none)
      (starts : startsDirective ctx.policy.whitespace rest = true)
      (scanned : Reads ctx (.datums (c.advance 2).position.line []) (c.advance 2)
        (s.emit (.phase .start .skipping (c.advance 2).position)) (.datums ds) last s₁)
      (failed : (ctx.record ⟨ds, some (c.advance 2).position.beforeMarker⟩).Raises s₁ e s') :
      Fails ctx opened (.comment .code) c s e s'
  | intralineBlank {opened anchor c s x rest e s'} (head : c.rest = x :: rest)
      (white : x.isIntralineBlank = true)
      (others : Fails ctx opened (.intraline anchor) c.next s e s') :
      Fails ctx opened (.intraline anchor) c s e s'
  | intralineSkip {opened anchor c s e s'}
      (visible : c.rest.head?.any CodePoint.isIntralineBlank = false)
      (skip : Fails ctx opened (.comment .directive) c s e s') :
      Fails ctx opened (.intraline anchor) c s e s'
  | intralineComment {opened anchor c s c₁ s₁ e s'}
      (visible : c.rest.head?.any CodePoint.isIntralineBlank = false)
      (skipped : Reads ctx (.comment .directive) c s .nothing c₁ s₁)
      (same : c₁.position.line = anchor)
      (others : Fails ctx opened (.intraline anchor) c₁ s₁ e s') :
      Fails ctx opened (.intraline anchor) c s e s'
  | datumsSkip {opened anchor before c s e s'} (skip : Fails ctx opened (.intraline anchor) c s e s') :
      Fails ctx opened (.datums anchor before) c s e s'
  | lineDatumRead {opened anchor before c s c₁ s₁ e s₂}
      (skipped : Reads ctx (.intraline anchor) c s .nothing c₁ s₁)
      (same : c₁.position.line = anchor) (follows : c₁.atLineEnd = false)
      (read : Fails ctx opened (.datum .directive) c₁
        (s₁.emit (.phase .skipping .readingDatum c₁.position)) e s₂) :
      Fails ctx opened (.datums anchor before) c s e (e.reported c₁.position s₂)
  /-- A datum that leaves the line is refused, if the policy says so. -/
  | crossingDatum {opened anchor before c s c₁ s₁ d next s₂}
      (skipped : Reads ctx (.intraline anchor) c s .nothing c₁ s₁)
      (same : c₁.position.line = anchor) (follows : c₁.atLineEnd = false)
      (read : Reads ctx (.datum .directive) c₁
        (s₁.emit (.phase .skipping .readingDatum c₁.position)) (.datum d) next s₂)
      (left : next.position.line ≠ anchor) (refused : ctx.policy.lineCrossing = .error) :
      Fails ctx opened (.datums anchor before) c s
        (ctx.complaint (.crossesLine next.position.line) c₁.position)
        (s₂.emit (.phase .readingDatum .error c₁.position))
  | lineDatum {opened anchor before c s c₁ s₁ d next s₂ e s'}
      (skipped : Reads ctx (.intraline anchor) c s .nothing c₁ s₁)
      (same : c₁.position.line = anchor) (follows : c₁.atLineEnd = false)
      (read : Reads ctx (.datum .directive) c₁
        (s₁.emit (.phase .skipping .readingDatum c₁.position)) (.datum d) next s₂)
      (stays : next.position.line = anchor)
      (others : Fails ctx opened (.datums anchor (before ++ [d])) next
        ((s₂.emit (.datumRead (before.length + 1) c₁.position)).emit
          (.phase .readingDatum .skipping next.position)) e s') :
      Fails ctx opened (.datums anchor before) c s e s'

end LineDirective
