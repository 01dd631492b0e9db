import ProseTypes.Json
import ProseTypes.Rendering.Declarations

/-!
# Modules as JSON reports

For other tools a module is written as a JSON document: its path, its imports with the paths they
come from, and its structures with the text of every member's type.
-/

namespace ProseTypes.Rendering

def importReport (graph : ModuleGraph) (i : Import) : Json :=
  .object [("name", .string i.name), ("from", .string (importPath graph i))]

def fieldReport (f : Field Symbol) : Json :=
  .object ([("key", .string f.key), ("optional", .bool f.optional),
    ("type", .string (Symbol.text f.type))] ++ Json.member? "description" f.description)

def constantReport (c : Constant) : Json :=
  .object ([("name", .string c.name), ("value", .string c.value)] ++
    Json.member? "description" c.description)

def structureReport (s : Structure) : Json :=
  .object ([("name", .string s.name), ("kind", .string s.body.kind.keyword),
    ("source", .string s.source)] ++
    Json.elements? "fields" (s.body.fields.map fieldReport) ++
    Json.elements? "constants" (s.body.constants.map constantReport))

def moduleReport (registry : Registry) (m : TypeModule) : Json :=
  .object [("path", .string m.path),
    ("imports", .array (m.imports.map (importReport registry.graph))),
    ("structures", .array ((m.owned.filterMap registry.structure?).map structureReport))]

def asReport (registry : Registry) (m : TypeModule) : String :=
  (moduleReport registry m).text ++ "\n"

end ProseTypes.Rendering
