import ProseTypes.Registry
import ProseTypes.Structure.Declaration

/-!
# Modules as declarations

A module is written as import lines, one for each module that it imports from and in the order of
their paths, an empty line if there are any, and then the declarations of the structures it owns
with an empty line between each two.
-/

namespace ProseTypes.Rendering

def importPath (graph : ModuleGraph) (i : Import) : String :=
  (graph.modules[i.home]?.map TypeModule.path).getD ""

def importPaths (graph : ModuleGraph) (m : TypeModule) : List String :=
  ((m.imports.map (importPath graph)).mergeSort fun a b => decide (a ≤ b)).eraseDups

def importNames (graph : ModuleGraph) (m : TypeModule) (path : String) : List String :=
  (m.imports.filter fun i => importPath graph i == path).map Import.name

def importLine (source path : String) (names : List String) : String :=
  "import type \x7b " ++ Text.join ", " names ++ " \x7d from \"" ++
    ModulePath.specifier source path ++ "\";\n"

def importLines (graph : ModuleGraph) (m : TypeModule) : List String :=
  (importPaths graph m).map fun path => importLine m.path path (importNames graph m path)

def declarations (registry : Registry) (m : TypeModule) : List String :=
  (m.owned.filterMap registry.structure?).map Structure.declaration

def asDeclarations (registry : Registry) (m : TypeModule) : String :=
  let imports := importLines registry.graph m
  String.join imports ++ (if imports.isEmpty then "" else "\n") ++
    Text.join "\n" (declarations registry m)

end ProseTypes.Rendering
