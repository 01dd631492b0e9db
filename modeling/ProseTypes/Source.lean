import ProseTypes.Document.Basic
import ProseTypes.Failure
import ProseTypes.FileTree.Search
import ProseTypes.Note

/-!
# Sources

The files that the inputs of a run stand for, in order and each once, and what is read from them.
An input is a file, a directory with all documents below it, or a pattern.
-/

namespace ProseTypes

/-- A document file that has been read: its path below the source root, and its lines. -/
structure Source where
  path : String
  lines : List String
deriving DecidableEq, Repr

namespace Source

/-- The pattern that an input stands for. A directory stands for the documents below it. -/
def patternOf (system : FileSystem) (input : String) : String :=
  if system.isDirectory input then
    String.ofList (Text.dropEndWhile (· == '/') input.toList) ++ "/**/*.md"
  else input

def filesOf (system : FileSystem) (input : String) : Except Failure (List String) :=
  if system.isFile input then .ok [input]
  else
    let pattern := patternOf system input
    match Pattern.ofText? pattern with
    | some segments => .ok (Pattern.files system pattern segments)
    | none => .error (.badPattern pattern)

/-- What is to be said about an input that stands for no file. -/
def noteFor (system : FileSystem) (input : String) (files : List String) : List Note :=
  if files.isEmpty then [.noMatch (patternOf system input)] else []

/-- The files that inputs stand for, in their order, and what is to be said on the way. -/
def collect (system : FileSystem) : List String → List Note × Except Failure (List String)
  | [] => ([], .ok [])
  | input :: rest =>
    match filesOf system input with
    | .error failure => ([], .error failure)
    | .ok files =>
      let (notes, others) := collect system rest
      (noteFor system input files ++ notes, others.map fun others => files ++ others)

def samePath (a b : String) : Bool :=
  Path.components a == Path.components b

def dropRepeated : List String → List String
  | a :: b :: rest => if samePath a b then dropRepeated (a :: rest) else a :: dropRepeated (b :: rest)
  | paths => paths
termination_by paths => paths.length

/-- Paths in the order of their components, each once. -/
def sorted (paths : List String) : List String :=
  dropRepeated (paths.mergeSort fun a b => Path.notAfter (Path.components a) (Path.components b))

/-- The files that inputs stand for, in order and each once. -/
def expand (system : FileSystem) (inputs : List String) : List Note × Except Failure (List String) :=
  let (notes, files) := collect system inputs
  (notes, files.map sorted)

def ofFile? (system : FileSystem) (root : Option String) (path : String) : Except Failure Source :=
  match system.readText? path with
  | some text => .ok ⟨Path.relative path root, Text.lines text⟩
  | none => .error (.unreadable path)

/-- What is to be said about a file that has been read or could not be. -/
def noteOf (path : String) : Except Failure Source → Note
  | .ok source => .read source.path source.lines.length
  | .error failure => .skipped path failure.message

/-- Reads files. Those that cannot be read are left out, but there has to be one that can. -/
def readAll (system : FileSystem) (root : Option String) (paths : List String) :
    List Note × Except Failure (List Source) :=
  let read := paths.map (ofFile? system root)
  let sources := read.filterMap Except.toOption
  ((paths.zip read).map fun (path, source) => noteOf path source,
    if sources.isEmpty then .error .noInput else .ok sources)

def document (source : Source) : Document :=
  .ofLines source.path source.lines

end Source

end ProseTypes
