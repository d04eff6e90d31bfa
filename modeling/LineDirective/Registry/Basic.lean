import LineDirective.Directive.Basic
import LineDirective.Value

/-!
# Classification of directives

A registry holds one specification per name and classifies a directive by its first datum, which must
be a symbol: an exact key wins over a lead, and among equals the specification registered first wins.
The handler of a specification extracts details for a report.
-/

namespace LineDirective

inductive Category where
  | interpreter
  | editor
  | generic
deriving DecidableEq, Repr

def Category.name : Category → Text
  | interpreter => "interpreter"
  | editor => "editor"
  | generic => "generic"

def Category.ofName (name : Text) : Except Fault Category :=
  match [interpreter, editor, generic].find? fun c => c.name = name with
  | some c => .ok c
  | none => .error (.noCategory name)

structure Spec where
  name : Text
  category : Category
  description : Text := []
  handler : Directive → Except Fault Details
  /-- Names of the first datum that select the specification. -/
  keys : List Text := []
  /-- What names of the first datum that select the specification begin with. -/
  lead : Option Text := none
  examples : List Text := []

namespace Spec

def hasKey (s : Spec) (name : Text) : Bool := s.keys.contains name

/-- Whether a name begins with the lead; an empty lead selects nothing. -/
def hasLead (s : Spec) (name : Text) : Bool :=
  match s.lead with
  | none | some [] => false
  | some lead => name.startsWith lead

def accepts (s : Spec) (d : Directive) : Bool :=
  d.headName?.any fun name => s.hasKey name || s.hasLead name

end Spec

/-- The specifications by name, in the order of first registration. -/
structure Registry where
  specs : Table Text Spec := []

namespace Registry

/-- Adds a specification, in place of one of the same name. -/
def register (r : Registry) (s : Spec) : Registry := ⟨r.specs.insert s.name s⟩

def get? (r : Registry) (name : Text) : Option Spec := r.specs.get? name

def all (r : Registry) : List Spec := r.specs.map Prod.snd

def find? (r : Registry) (d : Directive) : Option Spec :=
  d.headName?.bind fun name =>
    (r.all.find? (·.hasKey name)).or (r.all.find? (·.accepts d))

def ofCategory (r : Registry) (c : Category) : List Spec := r.all.filter (·.category = c)

def label (r : Registry) (d : Directive) : Text :=
  match r.find? d with
  | some s => s.name
  | none => "generic"

/-- The classification of a directive with the details that its handler extracts. A detail called
`name` or `category` takes the place of that entry. -/
def describe (r : Registry) (d : Directive) : Except Fault Details :=
  let heading (name : Text) (c : Category) : Details :=
    [("name", .text name), ("category", .text c.name)]
  match r.find? d with
  | none => .ok (heading "generic" .generic)
  | some s => do return (heading s.name s.category).insertAll (← s.handler d)

end Registry

end LineDirective
