import ProseTypes.Text.Basic

/-!
# File paths

A path is a text whose segments are separated by slashes. Two paths are the same if they have the
same components: empty segments count for nothing, and neither does a segment `.`, unless it is
the first one.
-/

namespace ProseTypes.Path

/-- A component of a path: the root, the current or the parent directory, or a name. -/
inductive Component where
  | root
  | here
  | up
  | name (text : String)
deriving DecidableEq, Repr

namespace Component

/-- The rank of a kind of component in the order of components. -/
def rank : Component → Nat
  | root => 0
  | here => 1
  | up => 2
  | name _ => 3

/-- The name in a component; the other kinds have none. -/
def name? : Component → Option String
  | name text => some text
  | _ => none

/-- The strict order of components: by kind, and names by their characters. -/
def before (a b : Component) : Bool :=
  match a, b with
  | name x, name y => decide (x < y)
  | _, _ => a.rank < b.rank

end Component

def segments (path : String) : List String :=
  (Text.pieces (· == '/') path.toList).map String.ofList

/-- The component for a segment; empty segments and `.` make none. -/
def component? (segment : String) : Option Component :=
  if segment = "" || segment = "." then none
  else if segment = ".." then some .up
  else some (.name segment)

def isAbsolute (path : String) : Bool :=
  path.toList.head? == some '/'

def components (path : String) : List Component :=
  let named := (segments path).filterMap component?
  if isAbsolute path then .root :: named
  else if (segments path).head? == some "." then .here :: named
  else named

def isHere (path : String) : Bool :=
  components path == [.here]

/-- The order of paths by their components. -/
def notAfter : List Component → List Component → Bool
  | [], _ => true
  | _ :: _, [] => false
  | a :: as, b :: bs => if a = b then notAfter as bs else a.before b

def join (directory name : String) : String :=
  if directory = "" || directory.toList.getLast? == some '/' then directory ++ name
  else directory ++ "/" ++ name

/-- A path without slashes and current directories at its end. -/
def dropEmptyEnd : (reversed : List Char) → List Char
  | '/' :: cs => dropEmptyEnd cs
  | '.' :: '/' :: cs => dropEmptyEnd cs
  | cs => cs

/-- The directory that a path lies in; a single name lies in the path that is empty. -/
def parent (path : String) : String :=
  let reversed := (dropEmptyEnd path.toList.reverse).dropWhile (· != '/')
  match dropEmptyEnd reversed with
  | [] => if reversed.isEmpty then "" else "/"
  | kept => String.ofList kept.reverse

/-- Says whether a path ends in `.`, perhaps with slashes behind it. -/
def endsHere (path : String) : Bool :=
  ((segments path).reverse.find? (· != "")).any (· == ".")

def dropStart? : (start : List Component) → List Component → Option (List Component)
  | [], cs => some cs
  | _ :: _, [] => none
  | s :: start, c :: cs => if s = c then dropStart? start cs else none

/-- The names in a path below a root directory. A path that does not lie below the root is taken
whole. -/
def relative (path : String) (root : Option String) : String :=
  let all := components path
  let below := (root.bind fun root => dropStart? (components root) all).getD all
  Text.join "/" (below.filterMap Component.name?)

end ProseTypes.Path
