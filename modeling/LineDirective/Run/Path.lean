import LineDirective.Text.CodePoint

/-!
# Paths

A path is its parts, from a root or from the working directory. Empty parts and single dots vanish;
double dots stay, because what they mean depends on the directories there are.
-/

namespace LineDirective

structure Path where
  /-- One or two slashes for an absolute path, nothing otherwise. -/
  root : Text := []
  parts : List Text := []
deriving DecidableEq, Repr

namespace Path

def separator : CodePoint := .scalar '/'

def pieces : Text → List Text
  | [] => [[]]
  | c :: rest =>
    if c = separator then [] :: pieces rest
    else
      match pieces rest with
      | piece :: more => (c :: piece) :: more
      | [] => [[c]]

/-- The path that a text denotes. Exactly two leading slashes are a root of their own. -/
def ofText (t : Text) : Path :=
  let slashes := (t.takeWhile (· = separator)).length
  { root := if slashes = 0 then [] else if slashes = 2 then "//" else "/"
    parts := (pieces t).filter fun p => p ≠ [] ∧ p ≠ ("." : Text) }

def text (p : Path) : Text :=
  if p.root = [] ∧ p.parts = [] then "." else p.root ++ Text.intercalate [separator] p.parts

/-- A path seen from another; an absolute one stays as it is. -/
def join (base p : Path) : Path :=
  if p.root = [] then { base with parts := base.parts ++ p.parts } else p

def name (p : Path) : Text := p.parts.getLast?.getD []

end Path

end LineDirective
