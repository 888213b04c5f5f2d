import WireBindings.Assign
import WireBindings.Files.Fault
import WireBindings.Text.Pieces
import WireBindings.Text.Utf8

/-!
# Trees of files

A pure model of the files a program works on. Every file and directory has a *location*, the names
on the way down from the root, and a tree says what is at each location. A *path* is a text: its
steps are followed one after the other, from the root or from the current directory, and each step
starts from a directory. That is how a path can fail before its end: there is nothing at the place
to step from, or a file.

Reading asks for a file at the end of the path. Writing replaces the file there, or creates one in a
directory that exists; everything else stays as it was. A path that ends in a slash can only mean a
directory.

Paths and names have a greatest length, counted in octets. The length of the path is looked at
before any step is taken, and the length of a name when it is looked up in its directory.

The tree is that of a plain disk: devices, links and pipes are left out, and so are permissions and
the space there is. So what is written to a path is read back from it, and a write to a file that
can be located does not fail.
-/

namespace WireBindings.Files

/-- The names on the way from the root to a file or directory. -/
abbrev Location := List String

/-- What can be at a location: a regular file or a directory. There are no devices, links or pipes,
and nothing is protected by permissions. -/
inductive Node where
  /-- A file with its contents. -/
  | file (contents : List UInt8)
  /-- A directory. -/
  | directory
deriving DecidableEq, Repr

/-- The files and directories, and the directory in which a program runs. -/
structure Tree where
  /-- What is at each location but the root, which is always a directory. -/
  nodes : List (Location × Node)
  /-- The location from which relative paths start. -/
  current : Location
deriving DecidableEq, Repr

/-- The greatest number of octets of a path. -/
def pathLimit : Nat := 4095

/-- The greatest number of octets of a name. -/
def nameLimit : Nat := 255

/-- A path, taken apart. -/
structure Path where
  /-- The number of octets of the text. -/
  size : Nat
  /-- Whether the path starts from the root. -/
  absolute : Bool
  /-- The steps to take, `.` and `..` among them. -/
  steps : List String
  /-- Whether a slash follows the last step. -/
  endsInSlash : Bool
deriving DecidableEq, Repr

namespace Path

/-- Takes a path apart at its slashes; several in a row count as one. -/
def ofString (text : String) : Path where
  size := (Text.Utf8.encode text).length
  absolute := text.toList.head? == some '/'
  steps := ((Text.splitAt '/' text.toList).filter fun step => !step.isEmpty).map String.ofList
  endsInSlash := text.toList.getLast? == some '/'

/-- The path by which a file is created. A name with a slash after it could only be that of a
directory, so the name is not looked up: the path then leads to the directory around it. -/
def forCreation (path : Path) : Path :=
  if path.endsInSlash then { path with steps := path.steps.dropLast ++ ["."] } else path

end Path

/-- The location that one step leads to. There is nothing above the root. -/
def Location.step (location : Location) (name : String) : Location :=
  if name = "." then location
  else if name = ".." then location.dropLast
  else location ++ [name]

namespace Tree

/-- What is at a location. -/
def node? (tree : Tree) (location : Location) : Option Node :=
  if location.isEmpty then some .directory else tree.nodes.lookup location

/-- The location that the steps lead to. Nothing need be there, but each step starts from a
directory. -/
def walk (tree : Tree) (location : Location) : List String → Except Fault Location
  | [] => .ok location
  | name :: rest =>
    match tree.node? location with
    | none => .error .notFound
    | some (.file _) => .error .notADirectory
    | some .directory =>
      if nameLimit < (Text.Utf8.encode name).length then .error .nameTooLong
      else tree.walk (location.step name) rest

/-- The location that a path leads to; the empty path leads nowhere. -/
def locate (tree : Tree) (path : Path) : Except Fault Location :=
  if pathLimit < path.size then .error .nameTooLong
  else if path.steps.isEmpty && !path.absolute then .error .notFound
  else tree.walk (if path.absolute then [] else tree.current) path.steps

/-- The contents of the file at a path. -/
def read (tree : Tree) (path : String) : Except Fault (List UInt8) := do
  let path := Path.ofString path
  match tree.node? (← tree.locate path) with
  | none => throw .notFound
  | some .directory => throw .isADirectory
  | some (.file contents) =>
    if path.endsInSlash then throw .notADirectory else return contents

/-- The tree after the contents are written to a file at a path. -/
def write (tree : Tree) (path : String) (contents : List UInt8) : Except Fault Tree := do
  let location ← tree.locate (Path.ofString path).forCreation
  if tree.node? location == some .directory then throw .isADirectory
  else return { tree with nodes := assign location (.file contents) tree.nodes }

end Tree

end WireBindings.Files
