import LineDirective.Datum.Writer
import LineDirective.Source.Position

/-!
# Directives

A line directive is the sequence of data on the rest of a `#!` line, with the place of its marker.
It is a type of its own, so that it cannot be taken for a list in the text.

The sequence operations accept indexes that count from the end when negative. Membership and search
compare data by value.
-/

namespace LineDirective

def directiveMarker : Text := "#!"

/-- The data of one `#!` line, and where its marker stands. -/
structure Directive where
  datums : List Datum
  position : Option Position := none
deriving Repr, Inhabited

namespace Directive

def head? (d : Directive) : Option Datum := d.datums.head?

def headName? (d : Directive) : Option Text := d.head?.bind Datum.symbolName?

/-- The directive as a `#!` line without a line break: every datum after one space. -/
def write (d : Directive) : Except Fault Text := do
  let texts ← Datum.writeItems d.datums
  return directiveMarker ++ texts.flatMap (.scalar ' ' :: ·)

def symbolNames (d : Directive) : List Text := d.datums.filterMap Datum.symbolName?

/-- An index that may count from the end, as a count from the start. -/
def fromStart (d : Directive) (index : Int) : Int :=
  if index < 0 then d.datums.length + index else index

def get (d : Directive) (index : Int) : Except Fault Datum :=
  let i := d.fromStart index
  if !fitsIndex index then .error .indexOverflow
  else if i < 0 then .error .noDatumAtIndex
  else
    match d.datums[i.toNat]? with
    | some datum => .ok datum
    | none => .error .noDatumAtIndex

/-- The data from one index up to another; an absent bound is open, and bounds beyond the ends stop
there. -/
def slice (d : Directive) (first last : Option Int) : List Datum :=
  let start := (first.map fun i => (d.fromStart i).toNat).getD 0
  let stop := (last.map fun i => (d.fromStart i).toNat).getD d.datums.length
  (d.datums.take stop).drop start

def count (d : Directive) (datum : Datum) : Nat := d.datums.countP (·.sameValue datum)

def contains (d : Directive) (datum : Datum) : Bool := d.datums.any (·.sameValue datum)

/-- The index of the first datum at or after `start` and before `stop` that equals a datum by value.
A negative `start` before the beginning counts as the beginning. -/
def indexOf (d : Directive) (datum : Datum) (start : Int := 0) (stop : Option Int := none) :
    Except Fault Nat :=
  let first := (d.fromStart start).toNat
  let last := (stop.map fun i => (d.fromStart i).toNat).getD d.datums.length
  match ((d.datums.take last).drop first).findIdx? (·.sameValue datum) with
  | some i => .ok (first + i)
  | none => .error .absent

def sameDatums (d e : Directive) : Bool := Datum.sameItems d.datums e.datums

end Directive

structure DirectiveBuilder where
  position : Option Position := none
  datums : List Datum := []
  complete : Bool := false
deriving Repr

namespace DirectiveBuilder

def append (b : DirectiveBuilder) (datum : Datum) : Except Fault DirectiveBuilder :=
  if b.complete then .error .alreadyComplete
  else .ok { b with datums := b.datums ++ [datum] }

/-- Completes the directive; doing so again gives the same one. -/
def finish (b : DirectiveBuilder) : Directive × DirectiveBuilder :=
  (⟨b.datums, b.position⟩, { b with complete := true })

end DirectiveBuilder

end LineDirective
