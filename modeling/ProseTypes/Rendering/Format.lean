import ProseTypes.Failure
import ProseTypes.Rendering.Report

/-!
# Formats

The formats in which modules are written, their names, and the extensions of their files.
-/

namespace ProseTypes

inductive Format where
  | declarations
  | report
deriving DecidableEq, Repr

namespace Format

def ofName (name : String) : Except Failure Format :=
  if name = "typescript" || name = "ts" then .ok .declarations
  else if name = "json" then .ok .report
  else .error (.unknownFormat name)

def extension : Format → String
  | declarations => "ts"
  | report => "json"

def render (format : Format) (registry : Registry) (m : TypeModule) : String :=
  match format with
  | declarations => Rendering.asDeclarations registry m
  | report => Rendering.asReport registry m

end Format

/-- The modules that are written: those that own something. -/
def Registry.modules (registry : Registry) : List TypeModule :=
  registry.graph.modules.filter fun m => !m.owned.isEmpty

end ProseTypes
