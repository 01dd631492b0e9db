import ProseTypes.FileTree.Basic
import ProseTypes.FileTree.Path

/-!
# File systems

A file tree together with the working directory, from which relative paths lead. A path is
followed segment by segment, and each segment needs a directory to start from, even an empty one
or one that stays where it is. Paths and the names of new files have a greatest size.
-/

namespace ProseTypes

/-- A file tree and the place of the working directory in it. -/
structure FileSystem where
  tree : FileTree
  here : List String

namespace FileSystem

def greatestName : Nat := 255

def greatestPath : Nat := 4095

/-- The place that one segment leads to. Above the top there is nothing but the top. -/
def enter? (system : FileSystem) (place : List String) (segment : String) :
    Option (List String) :=
  if !system.tree.hasDirectory place then none
  else if segment = "" || segment = "." then some place
  else if segment = ".." then some place.dropLast
  else if (system.tree.at? (place ++ [segment])).isSome then some (place ++ [segment])
  else none

def startOf (system : FileSystem) (path : String) : List String :=
  if Path.isAbsolute path then [] else system.here

def find? (system : FileSystem) (path : String) : Option (List String) :=
  if path = "" || greatestPath < path.utf8ByteSize then none
  else (Path.segments path).foldlM system.enter? (system.startOf path)

def isFile (system : FileSystem) (path : String) : Bool :=
  ((system.find? path).bind system.tree.read?).isSome

def isDirectory (system : FileSystem) (path : String) : Bool :=
  (system.find? path).any system.tree.hasDirectory

def readText? (system : FileSystem) (path : String) : Option String :=
  ((system.find? path).bind system.tree.read?).bind String.fromUTF8?

def withTree (system : FileSystem) (tree : FileTree) : FileSystem :=
  ⟨tree, system.here⟩

/-- One step on the way to a directory, which is made if there is nothing. -/
def makeStep? (made : FileSystem × List String) (segment : String) :
    Option (FileSystem × List String) :=
  let (system, place) := made
  match system.enter? place segment with
  | some next => some (system, next)
  | none =>
    if system.tree.hasDirectory place && segment.utf8ByteSize ≤ greatestName then
      some (system.withTree (system.tree.put .empty (place ++ [segment])), place ++ [segment])
    else none

/-- The system with all directories on a path made. A path that ends in `.` names a directory
that has to be there, so only the directories before it are made. -/
def makeDirectory? (system : FileSystem) (path : String) : Option FileSystem :=
  let wanted := if Path.endsHere path then Path.parent path else path
  ((Path.segments wanted).foldlM makeStep? (system, system.startOf wanted)).bind fun (made, _) =>
    if made.isDirectory path then some made else none

/-- The system with a file written, if its directory is there and its name is free or a
file's. -/
def write? (system : FileSystem) (path : String) (content : ByteArray) : Option FileSystem :=
  let segments := Path.segments path
  let name := segments.getLast?.getD ""
  if name = "" || name = "." || name = ".." then none
  else if greatestName < name.utf8ByteSize || greatestPath < path.utf8ByteSize then none
  else
    (segments.dropLast.foldlM system.enter? (system.startOf path)).bind fun home =>
      if system.tree.hasDirectory home && !system.tree.hasDirectory (home ++ [name]) then
        some (system.withTree (system.tree.put (.file content) (home ++ [name])))
      else none

end FileSystem

end ProseTypes
