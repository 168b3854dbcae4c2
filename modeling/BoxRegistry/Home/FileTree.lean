import BoxRegistry.Path

/-!
This module contains a tree of directories and files, and what the operating system does when a path is
looked up in it, a directory is made or a file is opened. A path is walked part by part from the root
or from the working directory, and only what exists can be walked through.
-/

namespace BoxRegistry

inductive PathFailure where
  | missing
  | alreadyExists
  | notDirectory
  | isDirectory
  | nameTooLong
  | denied
  | holdsZero
deriving DecidableEq, Repr, Inhabited

namespace PathFailure

def message : PathFailure → String
  | missing => "No such file or directory (os error 2)"
  | alreadyExists => "File exists (os error 17)"
  | notDirectory => "Not a directory (os error 20)"
  | isDirectory => "Is a directory (os error 21)"
  | denied => "Permission denied (os error 13)"
  | nameTooLong => "File name too long (os error 36)"
  | holdsZero => "file name contained an unexpected NUL byte"

end PathFailure

/--
The names on the way from the root to a directory or file. As there are no links, two paths lead to the
same thing exactly if they lead to the same place.
-/
abbrev Place := List String

inductive Entry where
  | directory
  | file (text : String)
deriving DecidableEq, Repr, Inhabited

structure FileTree where
  entries : List (Place × Entry) := []
  origin : Place := []
deriving DecidableEq, Repr, Inhabited

namespace FileTree

def entry? (t : FileTree) (place : Place) : Option Entry :=
  if place.isEmpty then some .directory else t.entries.lookup place

def put (t : FileTree) (place : Place) (entry : Entry) : FileTree :=
  { t with entries := (place, entry) :: t.entries.filter fun e => e.1 ≠ place }

def nameLimit : Nat := 255

def isDirectoryAt (t : FileTree) (place : Place) : Bool :=
  t.entry? place = some .directory

def child (t : FileTree) (place : Place) (name : String) : Except PathFailure Place :=
  if !t.isDirectoryAt place then .error .notDirectory
  else if nameLimit < name.utf8ByteSize then .error .nameTooLong
  else .ok (place ++ [name])

/--
Walk from a place along the parts of a path. An empty part and a dot stay where they are, and two dots
go back, but only in a directory.
-/
def walk (t : FileTree) (place : Place) : List String → Except PathFailure Place
  | [] => .ok place
  | part :: rest => do
    let next ← t.child place part
    if part = "" ∨ part = "." then walk t place rest
    else if part = ".." then walk t place.dropLast rest
    else if (t.entry? next).isSome then walk t next rest
    else throw .missing

def start (t : FileTree) (path : String) : Except PathFailure (Place × List String) :=
  if path.toList.contains '\x00' then .error .holdsZero
  else if path.isEmpty then .error .missing
  else .ok (if Path.isAbsolute path then [] else t.origin, Path.parts path)

def resolve (t : FileTree) (path : String) : Except PathFailure Place := do
  let (place, parts) ← t.start path
  t.walk place parts

def find? (t : FileTree) (path : String) : Option Entry :=
  match t.resolve path with
  | .ok place => t.entry? place
  | .error _ => none

def isDirectory (t : FileTree) (path : String) : Bool :=
  t.find? path = some .directory

def read? (t : FileTree) (path : String) : Option String :=
  match t.find? path with
  | some (.file text) => some text
  | _ => none

def makeDirectory (t : FileTree) (path : String) : Except PathFailure FileTree := do
  let (place, parts) ← t.start path
  let parts := (parts.reverse.dropWhile String.isEmpty).reverse
  match parts.getLast? with
  | none => throw .alreadyExists
  | some name =>
    let place ← t.walk place parts.dropLast
    let target ← t.child place name
    if name = "." ∨ name = ".." ∨ (t.entry? target).isSome then
      throw .alreadyExists
    return t.put target .directory

/--
Make the directory that a path leads to and all that are missing on the way. The fuel bounds the number
of the latter.
-/
def makeAllWithin (t : FileTree) (path : String) : Nat → FileTree × Except PathFailure Unit
  | 0 => (t, .error .missing)
  | fuel + 1 =>
    if path.isEmpty then (t, .ok ())
    else
      match t.makeDirectory path with
      | .ok t => (t, .ok ())
      | .error .missing =>
        match Path.parent? path with
        | none => (t, .error .missing)
        | some parent =>
          match t.makeAllWithin parent fuel with
          | (t, .error e) => (t, .error e)
          | (t, .ok _) =>
            match t.makeDirectory path with
            | .ok t => (t, .ok ())
            | .error e => if t.isDirectory path then (t, .ok ()) else (t, .error e)
      | .error e => if t.isDirectory path then (t, .ok ()) else (t, .error e)

def makeAll (t : FileTree) (path : String) : FileTree × Except PathFailure Unit :=
  t.makeAllWithin path ((Path.steps path).length + 1)

/--
Open the file that a path leads to in order to write, and make an empty one if there is none. A path
that ends in a slash can only be that of a directory.
-/
def openFile (t : FileTree) (path : String) : Except PathFailure (Place × FileTree) := do
  let (place, parts) ← t.start path
  match parts.getLast? with
  | none => throw .missing
  | some name =>
    let place ← t.walk place parts.dropLast
    let target ← t.child place name
    if name = "" ∨ name = "." ∨ name = ".." then
      throw .isDirectory
    match t.entry? target with
    | some .directory => throw .isDirectory
    | some (.file _) => return (target, t)
    | none => return (target, t.put target (.file ""))

def write (t : FileTree) (path text : String) : Except PathFailure FileTree := do
  let (place, t) ← t.openFile path
  return t.put place (.file text)

end FileTree

end BoxRegistry
