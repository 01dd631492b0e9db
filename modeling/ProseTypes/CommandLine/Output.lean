import ProseTypes.CommandLine.Options
import ProseTypes.FileTree.System
import ProseTypes.Request.Manifest

/-!
# Output files

Where modules and the request manifest are written, and the file system after they have been.
-/

namespace ProseTypes.CommandLine

def writeText (path text : String) (system : FileSystem) : Except Failure FileSystem :=
  match system.write? path text.toUTF8 with
  | some written => .ok written
  | none => .error (.unwritable path)

/-- The system with a directory made; the empty path stands for the current one. A failure names
the directory. -/
def makeDirectory (failure : String → Failure) (path : String) (system : FileSystem) :
    Except Failure FileSystem :=
  if path = "" then .ok system
  else
    match system.makeDirectory? path with
    | some made => .ok made
    | none => .error (failure path)

/-- The system with a text written to a file, in a directory that is made if need be. -/
def deliver (path text : String) (system : FileSystem) : Except Failure FileSystem :=
  (makeDirectory .directory (Path.parent path) system).bind (writeText path text)

def deliverManifest (arguments : Arguments) (requests : List Request) (system : FileSystem) :
    Except Failure FileSystem :=
  match arguments.value? .requests with
  | some path => deliver path (Request.manifest requests ++ "\n") system
  | none => .ok system

def modulePath (output : String) (format : Format) (m : TypeModule) : String :=
  Path.join output (m.path ++ "." ++ format.extension)

/-- Writes modules one after the other, up to the first that cannot be written. -/
def deliverModules (output : String) (format : Format) (registry : Registry) :
    List TypeModule → FileSystem → FileSystem × List Note × Option Failure
  | [], system => (system, [], none)
  | m :: rest, system =>
    let path := modulePath output format m
    match deliver path (format.render registry m) system with
    | .error failure => (system, [], some failure)
    | .ok system =>
      let (system, notes, failure) := deliverModules output format registry rest system
      (system, .wrote path :: notes, failure)

end ProseTypes.CommandLine
