/-
Opening the file that logs are appended to.

A file is created if it is missing, but the directory it lies in is not.  The
path is walked from the left, and the first step that fails is the one that is
reported.  A path that ends in a slash asks for a directory, which cannot be
opened for appending whether it is there or not.
-/

import LatencyBench.Net.IoError
import LatencyBench.Text.Quoted
import LatencyBench.Text.Utf8

namespace LatencyBench

open Net

/-- What a path leads to, as far as opening a file depends on it. -/
inductive PathEntry where
  | directory
  | file
  | missing
deriving DecidableEq, Repr

/-- The directories and files of a machine, each as its steps from the root,
and the directory that paths without a leading slash start in. -/
structure FileTree where
  directories : List (List String)
  files : List (List String)
  workingDirectory : List String
deriving Repr

namespace FileTree

def usual : FileTree :=
  { directories :=
      [[], ["bin"], ["dev"], ["etc"], ["home"], ["lib"], ["opt"], ["proc"],
       ["root"], ["run"], ["sbin"], ["sys"], ["tmp"], ["usr"],
       ["usr", "bin"], ["usr", "lib"], ["usr", "local"], ["usr", "share"],
       ["var"], ["var", "lib"], ["var", "log"], ["var", "tmp"]]
    files :=
      [["dev", "null"], ["dev", "zero"], ["etc", "hostname"],
       ["etc", "hosts"], ["etc", "passwd"]]
    workingDirectory := ["tmp"] }

def entry (tree : FileTree) (path : List String) : PathEntry :=
  if tree.directories.contains path then .directory
  else if tree.files.contains path then .file
  else .missing

end FileTree

/-- The longest name of one step, and the longest path, in bytes. -/
def longestName : Nat := 255
def longestPath : Nat := 4095

/-- Whether a step stands for the directory itself or the one above it. -/
def isDots (name : String) : Bool := name == "." || name == ".."

def followDots (directory : List String) (name : String) : List String :=
  if name = ".." then directory.dropLast else directory

/-- What a name leads to from a directory; one that is too long is refused
before it is looked for. -/
def FileTree.lookUp (tree : FileTree) (directory : List String)
    (name : String) : Except IoError PathEntry :=
  if longestName < name.utf8ByteSize then .error (.ofOs 36)
  else .ok (tree.entry (directory ++ [name]))

def FileTree.enter (tree : FileTree) (directory : List String)
    (name : String) : Except IoError (List String) :=
  if isDots name then .ok (followDots directory name)
  else
    match tree.lookUp directory name with
    | .error error => .error error
    | .ok .directory => .ok (directory ++ [name])
    | .ok .file => .error (.ofOs 20)
    | .ok .missing => .error (.ofOs 2)

/-- Opens what the last step leads to, creating it if it is missing.  `slash`
says whether a slash follows. -/
def FileTree.openLast (tree : FileTree) (directory : List String)
    (name : String) (slash : Bool) : Except IoError Unit :=
  if isDots name || slash then .error (.ofOs 21)
  else
    match tree.lookUp directory name with
    | .error error => .error error
    | .ok .directory => .error (.ofOs 21)
    | .ok .file => .ok ()
    | .ok .missing => .ok ()

/-- Walks the steps of a path and opens what the last one leads to.  A path
without steps names the directory it starts in. -/
def FileTree.openFrom (tree : FileTree) (directory : List String)
    (slash : Bool) : List String → Except IoError Unit
  | [] => .error (.ofOs 21)
  | [last] => tree.openLast directory last slash
  | name :: rest =>
      match tree.enter directory name with
      | .error error => .error error
      | .ok next => tree.openFrom next slash rest

def stepsOf (path : String) : List String :=
  (path.splitOn "/").filter fun name => name != ""

def FileTree.openForAppend (tree : FileTree) (path : String) :
    Except IoError Unit :=
  if path.toList.contains (Char.ofNat 0) then
    .error
      { kind := .invalidInput
        text := "file name contained an unexpected NUL byte" }
  else if path.isEmpty then .error (.ofOs 2)
  else if longestPath < path.utf8ByteSize then .error (.ofOs 36)
  else
    let start := if path.startsWith "/" then [] else tree.workingDirectory
    tree.openFrom start (path.endsWith "/") (stepsOf path)

inductive LogError where
  | file (path : String) (source : IoError)
  | configure (text : String)
deriving DecidableEq, Repr

def LogError.message : LogError → String
  | .file path source =>
      "failed to open log file " ++ Quoted.quote path ++ ": " ++ source.text
  | .configure text => "failed to configure logger: " ++ text

def openLog (tree : FileTree) (file : Option String) :
    Except LogError Unit :=
  match file with
  | none => .ok ()
  | some path =>
      match tree.openForAppend path with
      | .ok () => .ok ()
      | .error source => .error (.file path source)

end LatencyBench
