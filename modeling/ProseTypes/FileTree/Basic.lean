/-!
# File trees

Files and directories as a tree. A place in a tree is given by the names that lead to it from the
top.
-/

namespace ProseTypes

/-- A file with its bytes, or a directory with named entries. -/
inductive FileTree where
  | file (content : ByteArray)
  | directory (entries : List (String × FileTree))

namespace FileTree

def empty : FileTree := .directory []

/-- The entries of a directory; a file has none. -/
def entries : FileTree → List (String × FileTree)
  | file _ => []
  | directory entries => entries

def child? (tree : FileTree) (name : String) : Option FileTree :=
  tree.entries.lookup name

def at? (tree : FileTree) : (place : List String) → Option FileTree
  | [] => some tree
  | name :: rest => (tree.child? name).bind fun child => child.at? rest

def isDirectory : FileTree → Bool
  | file _ => false
  | directory _ => true

def content? : FileTree → Option ByteArray
  | file content => some content
  | directory _ => none

def hasDirectory (tree : FileTree) (place : List String) : Bool :=
  (tree.at? place).any isDirectory

def read? (tree : FileTree) (place : List String) : Option ByteArray :=
  (tree.at? place).bind content?

/-- Entries with one replaced, or added at the end. -/
def setEntry (name : String) (node : FileTree) :
    List (String × FileTree) → List (String × FileTree)
  | [] => [(name, node)]
  | (other, old) :: rest =>
    if other = name then (name, node) :: rest else (other, old) :: setEntry name node rest

/-- The tree with a node put at a place; the directories on the way are made as needed. -/
def put (tree node : FileTree) : (place : List String) → FileTree
  | [] => node
  | name :: rest =>
    .directory (setEntry name (put ((tree.child? name).getD empty) node rest) tree.entries)

mutual

def places : FileTree → List (List String)
  | file _ => []
  | directory entries => entryPlaces entries

def entryPlaces : List (String × FileTree) → List (List String)
  | [] => []
  | (name, node) :: rest =>
    [name] :: (node.places.map fun place => name :: place) ++ entryPlaces rest

end

def files (tree : FileTree) : List (List String × ByteArray) :=
  tree.places.filterMap fun place => (tree.read? place).map fun content => (place, content)

end FileTree

end ProseTypes
