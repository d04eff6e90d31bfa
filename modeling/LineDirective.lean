import LineDirective.Text.CodePoint
import LineDirective.Text.Blank
import LineDirective.Text.Printable
import LineDirective.Text.Digit
import LineDirective.Text.CaseFold
import LineDirective.Source.Basic
import LineDirective.Source.Detection
import LineDirective.Reader.Position
import LineDirective.Number.Shortest
import LineDirective.Number.Basic
import LineDirective.Datum.Writer
import LineDirective.Diagnostic
import LineDirective.Directive.Basic
import LineDirective.Directive.Policy
import LineDirective.Reader.Datum
import LineDirective.Highlight
import LineDirective.Log
import LineDirective.Session
import LineDirective.Settings
import LineDirective.Text.Utf8
import LineDirective.Run.Pipeline
import LineDirective.Main
import LineDirective.Proofs.Action
import LineDirective.Proofs.Motion
import LineDirective.Proofs.Spelling
import LineDirective.Proofs.Reads
import LineDirective.Proofs.Adequacy
import LineDirective.Proofs.WellFormed
import LineDirective.Proofs.Rounding
import LineDirective.Proofs.Numerals
import LineDirective.Proofs.Reals
import LineDirective.Proofs.WrittenLexemes
import LineDirective.Proofs.RoundTrip
import LineDirective.Proofs.DirectiveRoundTrip
import LineDirective.Proofs.LineEffects
import LineDirective.Proofs.LexemeLocality
import LineDirective.Proofs.Locality
import LineDirective.Proofs.Extent
import LineDirective.Proofs.Failures
import LineDirective.Proofs.FailureAdequacy
import LineDirective.Proofs.Containment
import LineDirective.Proofs.Faults
import LineDirective.Proofs.Isolation
import LineDirective.Proofs.Tokens
import LineDirective.Proofs.Mirroring
import LineDirective.Proofs.Nesting
import LineDirective.Proofs.Rebasing
import LineDirective.Proofs.Programs
import LineDirective.Proofs.Requests
import LineDirective.Proofs.DirectiveLog
import LineDirective.Proofs.Concatenation
import LineDirective.Proofs.Transparency
import LineDirective.Proofs.Leniency
import LineDirective.Proofs.Coherence
import LineDirective.Proofs.Progress
import LineDirective.Proofs.Interspersion
import LineDirective.Proofs.CaseFolding
import LineDirective.Proofs.Highlighting
import LineDirective.Proofs.FoldedReading
import LineDirective.Proofs.FoldedRoundTrip
import LineDirective.Proofs.LineContent
import LineDirective.Proofs.RadixLiterals
import LineDirective.Proofs.BareSymbols
import LineDirective.Proofs.Lines
import LineDirective.Proofs.Reporting
import LineDirective.Proofs.LineBreaks
import LineDirective.Proofs.LineBreakIndependence
import LineDirective.Proofs.Continuations
import LineDirective.Proofs.HexScalars
import LineDirective.Proofs.Carets
import LineDirective.Proofs.Runs
import LineDirective.Proofs.OptionalSpace
import LineDirective.Proofs.Classification
import LineDirective.Proofs.ModeLines
import LineDirective.Proofs.Lookahead
