import LineDirective.Directive.Policy
import LineDirective.Registry.Standard
import LineDirective.Value

/-!
# Reports

A report describes the directives of one source: an entry per recorded directive with its place, its
written form and its classification, under a heading with the policies and the number of data.
-/

namespace LineDirective

structure ReportEntry where
  position : Position
  text : Text
  datums : List Text
  /-- The classification and what its handler extracts. -/
  description : Details
deriving Repr

structure Report where
  source : Text
  policy : Policy
  /-- The number of top-level data. -/
  forms : Nat
  entries : List ReportEntry
deriving Repr

def ReportEntry.ofDirective (registry : Registry) (d : Directive) : Except Fault ReportEntry := do
  let text ← d.write
  let datums ← Datum.writeItems d.datums
  let description ← registry.describe d
  return { position := d.position.getD .start, text, datums, description }

/-- An entry as a plain value: the description follows the place and the text. -/
def ReportEntry.toValue (e : ReportEntry) : Value :=
  let heading : Details :=
    [("line", .integer e.position.line), ("column", .integer e.position.column),
     ("text", .text e.text), ("datums", .sequence (e.datums.map .text))]
  .mapping (heading.insertAll e.description)

namespace Report

def build (source : Text) (policy : Policy) (forms : Nat) (directives : List Directive) :
    Except Fault Report := do
  let entries ← directives.mapM (ReportEntry.ofDirective .standard)
  return { source, policy, forms, entries }

def toValue (r : Report) : Value :=
  .mapping
    [("source", .text r.source),
     ("policy", .mapping
       [("whitespace", .text r.policy.whitespace.name),
        ("line_crossing", .text r.policy.lineCrossing.name)]),
     ("forms", .integer r.forms),
     ("directives", .sequence (r.entries.map ReportEntry.toValue))]

end Report

end LineDirective
