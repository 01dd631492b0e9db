import ProseTypes.CommandLine.Output
import ProseTypes.Source

/-!
# Runs of the program

A run reads one document from standard input and prints what it compiles to, or compiles input
files together and writes a file for each module. It gives the file system that it leaves, the
notes made, what was printed, and the failure that ended it, if one did. A failure before the
first file is written leaves the file system as it was, and nothing printed.
-/

namespace ProseTypes.CommandLine

/-- What a run finds around it: a file system and the bytes on standard input. -/
structure Surroundings where
  system : FileSystem
  input : ByteArray

structure Result where
  system : FileSystem
  journal : List Note
  printed : String
  failure : Option Failure

namespace Result

def exitCode (result : Result) : Nat :=
  if result.failure.isSome then 1 else 0

def errorLine? (result : Result) : Option String :=
  result.failure.map fun failure => "Error: " ++ failure.message

end Result

def finish (arguments : Arguments) (requests : List Request) (system : FileSystem)
    (journal : List Note) (printed : String) : Result :=
  match deliverManifest arguments requests system with
  | .ok written => ⟨written, journal, printed, none⟩
  | .error failure => ⟨system, journal, printed, some failure⟩

/-- Compiles the document on standard input and prints its modules. -/
def runOnInput (arguments : Arguments) (around : Surroundings) : Result :=
  match String.fromUTF8? around.input with
  | none => ⟨around.system, [], "", some .inputUnreadable⟩
  | some text =>
    let program := arguments.compile [Document.ofText arguments.documentPath text]
    match arguments.format with
    | .error failure => ⟨around.system, program.journal, "", some failure⟩
    | .ok format =>
      finish arguments program.requests around.system program.journal
        (Text.join "\n" (program.registry.modules.map (format.render program.registry)))

def runOnSources (arguments : Arguments) (output : String) (format : Format)
    (sources : List Source) (journal : List Note) (system : FileSystem) : Result :=
  let program := arguments.compile (sources.map Source.document)
  let journal := journal ++ program.journal
  match makeDirectory .outputDirectory output system with
  | .error failure => ⟨system, journal, "", some failure⟩
  | .ok system =>
    let modules := program.registry.modules
    match deliverModules output format program.registry modules system with
    | (system, notes, some failure) => ⟨system, journal ++ notes, "", some failure⟩
    | (system, notes, none) =>
      let total : Note :=
        .finished program.registry.structures.length modules.length sources.length
      finish arguments program.requests system (journal ++ notes ++ [total]) ""

/-- Compiles input files and writes their modules. A missing output directory, an unknown format,
a mistaken pattern and a lack of input end the run before anything is compiled. -/
def runOnFiles (arguments : Arguments) (around : Surroundings) : Result :=
  let stop (journal : List Note) (failure : Failure) : Result :=
    ⟨around.system, journal, "", some failure⟩
  match arguments.value? .output, arguments.format with
  | none, _ => stop [] .outputMissing
  | some _, .error failure => stop [] failure
  | some output, .ok format =>
    match Source.expand around.system arguments.files with
    | (notes, .error failure) => stop notes failure
    | (notes, .ok files) =>
      match Source.readAll around.system (arguments.value? .root) files with
      | (more, .error failure) => stop (notes ++ more) failure
      | (more, .ok sources) =>
        runOnSources arguments output format sources (notes ++ more) around.system

def run (arguments : Arguments) (around : Surroundings) : Result :=
  if arguments.files.isEmpty then runOnInput arguments around else runOnFiles arguments around

end ProseTypes.CommandLine
