import LineDirective.Registry.Basic

/-!
# The well-known directives

Three specifications are always registered: interpreter lines, and the mode lines of two editors.
-/

namespace LineDirective

def Directive.words (d : Directive) : Except Fault (List Text) := d.datums.mapM Datum.word

/-! ## Interpreter lines -/

namespace Shebang

/-- The interpreter and its arguments. A launcher such as `/usr/bin/env` is named apart from the
interpreter that it launches. -/
def details (d : Directive) : Except Fault Details := do
  match ← d.words with
  | [] => .error .noFirstWord
  | first :: rest =>
    let arguments (words : List Text) : Value := .sequence (words.map .text)
    match rest with
    | [] => return [("interpreter", .text first), ("arguments", arguments [])]
    | second :: more =>
      if first.endsWith "/env" then
        return [("launcher", .text first), ("interpreter", .text second),
          ("arguments", arguments more)]
      else
        return [("interpreter", .text first), ("arguments", arguments rest)]

/-- Lines that start with an absolute path. -/
def spec : Spec where
  name := "shebang"
  category := .interpreter
  description := "Unix interpreter line: absolute interpreter path and its arguments"
  handler := details
  lead := some "/"
  examples := ["#! /usr/bin/env fantastic-scheme", "#! /usr/local/bin/scheme --script"]

end Shebang

/-! ## Emacs mode lines -/

namespace Emacs

def delimiter : Text := "-*-"

/-- The words between the marks; the closing mark may be missing, and so may both. -/
def content : List Text → List Text
  | [] => []
  | first :: rest => if first = delimiter then rest.takeWhile (· ≠ delimiter) else first :: rest

def endsInColon (word : Text) : Bool := word.endsWith ":"

/-- Adds the variables of a list of words: a word with a colon at its end names the word after it,
and any other word is passed over. -/
def assign (settings : Details) : List Text → Details
  | word :: value :: rest =>
    if endsInColon word && 1 < word.length then
      assign (settings.insert word.dropLast (.text value)) rest
    else
      assign settings (value :: rest)
  | _ => settings
termination_by words => words.length

/-- The variables of the words of a mode line. A single word without a colon is the mode. -/
def fileVariables (words : List Text) : Details :=
  match words with
  | [word] => if endsInColon word then assign [] words else [("mode", .text word)]
  | _ => assign [] words

def details (d : Directive) : Except Fault Details := do
  match ← d.words with
  | [] => .error .noFirstWord
  | words => return [("variables", .mapping (fileVariables (content words)))]

/-- Lines that start with `-*-` or `mode:`. -/
def spec : Spec where
  name := "emacs"
  category := .editor
  description := "Emacs file-local variables line"
  handler := details
  keys := [delimiter, "mode:"]
  examples := ["#! -*- mode: scheme -*-", "#! mode: scheme"]

end Emacs

/-! ## Vim mode lines -/

namespace Vim

def setCommands : List Text := ["set", "se"]

def stripColons (word : Text) : Text := (word.reverse.dropWhile (· = .scalar ':')).reverse

/-- Splits an option at its first equals sign; an option without one is switched on. -/
def splitOption (word : Text) : Text × Value :=
  let isEquals (c : CodePoint) : Bool := c = .scalar '='
  match word.dropWhile (!isEquals ·) with
  | [] => (word, .flag true)
  | _ :: value => (word.takeWhile (!isEquals ·), .text value)

/-- Adds the options of the data after the first, up to a word that ends in a colon. Data after it
are not looked at. -/
def collect (options : Details) : List Datum → Except Fault Details
  | [] => .ok options
  | d :: ds => do
    let word ← d.word
    if setCommands.contains word then
      collect options ds
    else
      let bare := stripColons word
      let options :=
        if bare = [] then options
        else
          let (name, value) := splitOption bare
          options.insert name value
      if word.endsWith ":" then return options else collect options ds

def details (d : Directive) : Except Fault Details := do
  return [("options", .mapping (← collect [] (d.datums.drop 1)))]

/-- Lines that start with `vim:`, `vi:` or `ex:`. -/
def spec : Spec where
  name := "vim"
  category := .editor
  description := "Vim modeline"
  handler := details
  keys := ["vim:", "vi:", "ex:"]
  examples := ["#! vim: ft=lisp tw=60 ts=2 expandtab fileencoding=euc-jp :"]

end Vim

/-- The registry that knows the three well-known directives. -/
def Registry.standard : Registry :=
  (((({} : Registry).register Shebang.spec).register Emacs.spec).register Vim.spec)

end LineDirective
