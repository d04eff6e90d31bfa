import LineDirective.Fault
import LineDirective.Run.Path
import LineDirective.Table
import LineDirective.Text.Utf8

/-!
# The workspace of a run

The files and directories that a run can see. A run works on such a picture of the file system; the
program around it supplies the files to read and carries out what was written.
-/

namespace LineDirective

inductive StorageFault where
  | missing
  | notDirectory
  | isDirectory
  | nameTooLong
deriving DecidableEq, Repr

def StorageFault.message (fault : StorageFault) (p : Path) : Text :=
  let reason : Text :=
    match fault with
    | missing => "[Errno 2] No such file or directory"
    | notDirectory => "[Errno 20] Not a directory"
    | isDirectory => "[Errno 21] Is a directory"
    | nameTooLong => "[Errno 36] File name too long"
  reason ++ ": " ++ Text.quoted p.text

/-! ## Names of files -/

def maxPartBytes : Nat := 255

def maxPathBytes : Nat := 4095

def byteLength (name : Text) : Nat := (Utf8.encode name).length

/-- The first run of surrogates in a name that have no bytes, from an index on: the surrogate it
starts with and the indexes of its ends. The surrogates from U+DC80 to U+DCFF stand for single bytes,
unless they come later in such a run. -/
def surrogateRun? : (index : Nat) → Text → Option (CodePoint × Nat × Nat)
  | _, [] => none
  | index, c :: rest =>
    if c.isSurrogate && !(0xDC80 ≤ c.toNat && c.toNat ≤ 0xDCFF) then
      some (c, index, index + (rest.takeWhile CodePoint.isSurrogate).length)
    else
      surrogateRun? (index + 1) rest

/-- Why a path cannot name anything at all, if it cannot. -/
def Path.nameFault? (p : Path) : Option Fault :=
  match surrogateRun? 0 p.text with
  | some (c, first, last) => some (.surrogatesInName c first last)
  | none => if p.text.contains (.scalar '\x00') then some .nulInName else none

/-! ## The picture of the file system -/

/-- The parts of a place from the working directory on, or from a root, which is then the first
part. Double dots at the start of a place lead out of the working directory. -/
abbrev Place := List Text

/-- The place that a path names if no double dots occur in it. -/
def Path.place (p : Path) : Place := if p.root = [] then p.parts else p.root :: p.parts

/-- Files and directories by place. The working directory and the roots are always there. -/
structure Workspace where
  files : Table Place (List UInt8) := []
  directories : List Place := []
deriving Repr

namespace Workspace

inductive Lookup where
  | directory
  | file (place : Place)
  /-- Nothing yet, in a directory that is there. -/
  | free (place : Place)
  | fault (fault : StorageFault)
deriving DecidableEq, Repr

def upward : Text := ".."

/-- The directory above a directory; above a root is the root again. -/
def above (root here : Place) : Place :=
  if root = [] ∧ (here = [] ∨ here.getLast? = some upward) then here ++ [upward]
  else if here = root then root
  else here.dropLast

/-- Follows parts from a directory. Double dots lead to the directory above. -/
def walk (w : Workspace) (root : Place) (here : Place) : List Text → Lookup
  | [] => .directory
  | part :: rest =>
    if part = upward then walk w root (above root here) rest
    else
      let there := here ++ [part]
      if maxPartBytes < byteLength part then .fault .nameTooLong
      else if w.directories.contains there then walk w root there rest
      else if (w.files.get? there).isSome then
        if rest = [] then .file there else .fault .notDirectory
      else if rest = [] then .free there
      else .fault .missing

def lookup (w : Workspace) (p : Path) : Lookup :=
  let root : Place := if p.root = [] then [] else [p.root]
  if maxPathBytes < byteLength p.text then .fault .nameTooLong
  else w.walk root root p.parts

/-- Whether a path leads to a file. That nothing is there is no fault, but an overlong name is. -/
def isFile (w : Workspace) (p : Path) : Except StorageFault Bool :=
  if p.nameFault?.isSome then .ok false
  else
    match w.lookup p with
    | .file _ => .ok true
    | .fault .nameTooLong => .error .nameTooLong
    | _ => .ok false

def read (w : Workspace) (p : Path) : Except StorageFault (List UInt8) :=
  match w.lookup p with
  | .file place => .ok ((w.files.get? place).getD [])
  | .directory => .error .isDirectory
  | .free _ => .error .missing
  | .fault fault => .error fault

def write (w : Workspace) (p : Path) (content : List UInt8) : Except StorageFault Workspace :=
  match w.lookup p with
  | .file place | .free place => .ok { w with files := w.files.insert place content }
  | .directory => .error .isDirectory
  | .fault fault => .error fault

def beginnings : Place → List Place
  | [] => []
  | part :: rest => [part] :: (beginnings rest).map (part :: ·)

/-- Makes all directories on the way to a place, unless they are there. -/
def makeDirectories (w : Workspace) (place : Place) : Workspace :=
  { w with directories := (w.directories ++ beginnings place).eraseDups }

def addFile (w : Workspace) (place : Place) (content : List UInt8) : Workspace :=
  let w := w.makeDirectories place.dropLast
  { w with files := w.files.insert place content }

end Workspace

end LineDirective
