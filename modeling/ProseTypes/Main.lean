import ProseTypes.CommandLine.Help
import ProseTypes.CommandLine.Log
import ProseTypes.CommandLine.Run

/-!
# The program

Reads the part of the file system that the arguments name, lets the library do the run, and
carries out what the run changed.
-/

namespace ProseTypes.Main

open CommandLine

/-- The names that lead from the top to a path, which need not exist. -/
def placeOf (here : List String) (path : String) : List String :=
  let start := if Path.isAbsolute path then [] else here
  (Path.components path).foldl (fun place component =>
    match component with
    | .name name => place ++ [name]
    | .up => place.dropLast
    | .root | .here => place) start

def pathOf (place : List String) : String :=
  "/" ++ "/".intercalate place

/-- Reads a file or a directory with everything in it; what cannot be read is left out. -/
partial def load (path : String) : IO (Option FileTree) := do
  try
    let real ← IO.FS.realPath path
    if ← real.isDir then
      let entries ← (← real.readDir).toList.filterMapM fun entry => do
        return (← load (entry.path.toString)).map fun node => (entry.fileName, node)
      return some (.directory entries)
    else
      return some (.file (← IO.FS.readBinFile real))
  catch _ => return none

def literalStart (pattern : String) : String :=
  let plain (segment : String) : Bool :=
    !segment.toList.any fun c => c == '*' || c == '?' || c == '['
  let kept := (Path.segments pattern).takeWhile plain
  if kept.isEmpty then "." else "/".intercalate kept

def include? (here : List String) (tree : FileTree) (path : String) : IO FileTree := do
  match ← load (pathOf (placeOf here path)) with
  | some node => return tree.put node (placeOf here path)
  | none => return tree

def survey (arguments : Arguments) : IO FileSystem := do
  let here := placeOf [] (← IO.currentDir).toString
  let manifest := (arguments.value? .requests).toList.map Path.parent
  let mut tree := FileTree.empty.put .empty here
  for path in manifest do
    let place := placeOf here path
    if !tree.hasDirectory place && (← load (pathOf place)).isSome then
      tree := tree.put .empty place
  for path in (arguments.value? .output).toList ++ arguments.files ++
      arguments.files.map literalStart do
    tree ← include? here tree path
  return ⟨tree, here⟩

def carryOut (before after : FileTree) : IO Unit := do
  for place in after.places do
    match after.read? place with
    | some content =>
      if (before.read? place).map ByteArray.toList != some content.toList then
        IO.FS.writeBinFile (pathOf place) content
    | none => if !before.hasDirectory place then IO.FS.createDirAll (pathOf place)

/-- Reads all of standard input. -/
partial def readInput (input : IO.FS.Stream) (bytes : ByteArray) : IO ByteArray := do
  let chunk ← input.read 65536
  if chunk.isEmpty then return bytes else readInput input (bytes ++ chunk)

def execute (arguments : Arguments) : IO UInt32 := do
  let system ← survey arguments
  let input ← if arguments.files.isEmpty then readInput (← IO.getStdin) .empty else pure .empty
  let result := run arguments ⟨system, input⟩
  let filter := LogFilter.choose (arguments.has .verbose) (← IO.getEnv "RUST_LOG")
  for line in filter.lines "prosetypes" result.journal do
    IO.eprintln line
  IO.print result.printed
  carryOut system.tree result.system.tree
  for line in result.errorLine?.toList do
    IO.eprintln line
  return UInt32.ofNat result.exitCode

end ProseTypes.Main

def main (arguments : List String) : IO UInt32 := do
  match ProseTypes.CommandLine.Arguments.read arguments with
  | .ok arguments => ProseTypes.Main.execute arguments
  | .error .help =>
    IO.print ProseTypes.CommandLine.help
    return 0
  | .error .usage =>
    IO.eprintln ProseTypes.CommandLine.usage
    return 2
