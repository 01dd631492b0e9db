import ProseTypes.FileTree.Pattern
import ProseTypes.FileTree.System

/-!
# Searching a file system

The places that a pattern leads to. Each place is known by the path that was spelled out on the
way, which repeats what the pattern says literally.
-/

namespace ProseTypes.Pattern

/-- A place together with the path that was followed to it. -/
structure Hit where
  path : String
  place : List String
deriving DecidableEq, Repr

namespace Hit

/-- The path to an entry; the current directory is not spelled out in front of it. -/
def pathTo (hit : Hit) (name : String) : String :=
  if Path.isHere hit.path then name else Path.join hit.path name

def enter? (system : FileSystem) (hit : Hit) (name : String) : Option Hit :=
  if name = "" && Path.isHere hit.path then none
  else (system.enter? hit.place name).map fun place => ⟨hit.pathTo name, place⟩

def entry (hit : Hit) (name : String) : Hit :=
  ⟨hit.pathTo name, hit.place ++ [name]⟩

/-- The entries whose names a segment accepts. -/
def matching (system : FileSystem) (hit : Hit) (segment : Segment) : List Hit :=
  let names := ((system.tree.at? hit.place).map fun node => node.entries.map Prod.fst).getD []
  (names.filter fun name => segment.accepts name).map hit.entry

def below (system : FileSystem) (hit : Hit) : List (List String) :=
  ((system.tree.at? hit.place).map FileTree.places).getD []

/-- Everything at any depth below a hit whose name a segment accepts. -/
def matchingBelow (system : FileSystem) (hit : Hit) (segment : Segment) : List Hit :=
  ((hit.below system).filter fun names => names.getLast?.any fun name => segment.accepts name).map
    fun names => names.foldl entry hit

def directoriesBelow (system : FileSystem) (hit : Hit) : List Hit :=
  ((hit.below system).map fun names => names.foldl entry hit).filter fun found =>
    system.tree.hasDirectory found.place

/-- The parent and the current directory, as far as a segment accepts them. -/
def special (system : FileSystem) (hit : Hit) (segment : Segment) : List Hit :=
  if segment.startsWithDot then
    (["..", "."].filter fun name => segment.accepts name).filterMap fun name =>
      (system.enter? hit.place name).map fun place => ⟨Path.join hit.path name, place⟩
  else []

end Hit

def search (system : FileSystem) : List Segment → Hit → List Hit
  | [], hit => [hit]
  | .literal name :: rest, hit => (hit.enter? system name).toList.flatMap (search system rest)
  | .wild wildcards :: rest, hit =>
    (hit.special system (.wild wildcards) ++ hit.matching system (.wild wildcards)).flatMap
      (search system rest)
  | [.anyDepth], hit => hit.directoriesBelow system
  | .anyDepth :: segment :: rest, hit =>
    (hit.matchingBelow system segment).flatMap (search system rest)

def start (system : FileSystem) (pattern : String) : Hit :=
  ⟨if Path.isAbsolute pattern then "/" else ".", system.startOf pattern⟩

/-- Says whether a pattern is about directories only, which a slash at its end says. -/
def wantsDirectory (pattern : String) : Bool :=
  pattern.toList.getLast? == some '/'

def files (system : FileSystem) (pattern : String) (segments : List Segment) : List String :=
  let hits := (search system segments (start system pattern)).filter fun hit =>
    !wantsDirectory pattern || system.tree.hasDirectory hit.place
  (hits.map Hit.path).filter system.isFile

end ProseTypes.Pattern
