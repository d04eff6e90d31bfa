import LineDirective.Number.Binary64
import LineDirective.Table
import LineDirective.Text.CodePoint

/-!
# Plain values

The values that settings take and reports hold. The entries of a mapping stay in insertion order.
-/

namespace LineDirective

inductive Value where
  | nothing
  | flag (b : Bool)
  | integer (n : Int)
  | real (x : Binary64)
  | text (t : Text)
  | sequence (items : List Value)
  | mapping (entries : List (Text × Value))
deriving Repr, Inhabited

abbrev Details := Table Text Value

/-- Whether a value counts as true; zero and whatever is empty do not. -/
def Value.holds : Value → Bool
  | nothing => false
  | flag b => b
  | integer n => n ≠ 0
  | real x => x.toRat? ≠ some 0
  | text t => !t.isEmpty
  | sequence items => !items.isEmpty
  | mapping entries => !entries.isEmpty

end LineDirective
