import LineDirective.Text.CodePoint

/-!
# Log messages

A message is shown when the verbosity of what the log is bound to is at least the message's level.
-/

namespace LineDirective

structure Message where
  text : Text
  /-- The verbosity from which on the message is shown. -/
  level : Int := 1
deriving DecidableEq, Repr

inductive LogBinding where
  /-- Nothing. -/
  | unbound
  /-- Something that does not say how much to show. -/
  | silent
  /-- Something with a verbosity. -/
  | verbose (verbosity : Int)
deriving DecidableEq, Repr

def LogBinding.verbosity : LogBinding → Int
  | unbound | silent => 0
  | verbose v => v

/-- The messages that are shown, in order. -/
def LogBinding.shown (b : LogBinding) (messages : List Message) : List Text :=
  (messages.filter fun m => m.level ≤ b.verbosity).map Message.text

end LineDirective
