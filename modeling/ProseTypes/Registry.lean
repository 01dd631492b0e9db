import ProseTypes.Module.Graph
import ProseTypes.Module.Path
import ProseTypes.Resource.Draft

/-!
# The registry

The structures registered so far, in the order of registration, which also numbers them, a map
from their names to their numbers, and the modules that own them. A name is registered once: first
the structure is declared without members, so that its own members can refer to it, and when
everything they refer to is declared as well, the structure is completed.
-/

namespace ProseTypes

/-- The registered structures, the map from names to identifiers, and the modules. -/
structure Registry where
  structures : List Structure
  byName : List (String × Nat)
  graph : ModuleGraph
deriving DecidableEq, Repr

namespace Registry

def empty : Registry := ⟨[], [], .empty⟩

def names (registry : Registry) : List String :=
  registry.structures.map Structure.name

def idOf? (registry : Registry) (name : String) : Option Nat :=
  registry.byName.lookup name

def has (registry : Registry) (name : String) : Bool :=
  (registry.idOf? name).isSome

def structure? (registry : Registry) (id : Nat) : Option Structure :=
  registry.structures[id]?

def find? (registry : Registry) (name : String) : Option Structure :=
  (registry.idOf? name).bind registry.structure?

def search? (registry : Registry) (name : String) : Option Structure :=
  registry.structures.find? fun s => s.name == name

def ref? (registry : Registry) (name : String) : Option StructureRef :=
  (registry.idOf? name).bind fun id => (registry.structure? id).map fun s => ⟨id, s.name⟩

/-- The reference to the structure with a name, which would be the next one to register if there
is none. -/
def refTo (registry : Registry) (name : String) : StructureRef :=
  (registry.ref? name).getD ⟨registry.structures.length, name⟩

def symbol (registry : Registry) {index : LinkIndex} (reading : Reading index) : Symbol :=
  TypeTree.map (fun leaf => leaf.atom.map fun linked => registry.refTo linked.1.name) reading

/-- Registers a structure without members, owned by the module for the resource's document. -/
def declare (registry : Registry) (resource : Resource) : Registry :=
  let id := registry.structures.length
  let (home, graph) := registry.graph.moduleFor (ModulePath.ofDocument resource.path)
  ⟨registry.structures ++
      [⟨id, resource.name, home, resource.source, Body.empty resource.shape.kind⟩],
    (resource.name, id) :: registry.byName, graph.assign home id⟩

def importAll (structures : List Structure) (home : Nat) (graph : ModuleGraph)
    (refs : List StructureRef) : ModuleGraph :=
  (refs.filterMap fun ref => structures[ref.id]?).foldl
    (fun graph s => graph.require home s.asImport) graph

/-- Gives a structure its members, and its module the imports that they need. -/
def complete (registry : Registry) (name : String) (body : Body Symbol) : Registry :=
  let refs := body.fields.flatMap fun field => Symbol.refs field.type
  match registry.idOf? name with
  | some id =>
    match registry.structure? id with
    | some s =>
      ⟨registry.structures.modify id (Structure.withBody body), registry.byName,
        importAll registry.structures s.home registry.graph refs⟩
    | none => registry
  | none => registry

def completeAs (registry : Registry) (index : LinkIndex) (resource : Resource) : Registry :=
  registry.complete resource.name ((resource.draft index).map registry.symbol)

theorem idOf?_declare (registry : Registry) (resource : Resource) (name : String) :
    (registry.declare resource).idOf? name =
      if name = resource.name then some registry.structures.length else registry.idOf? name := by
  simp only [idOf?, declare, List.lookup_cons]
  split <;> simp_all

theorem idOf?_complete (registry : Registry) (name : String) (body : Body Symbol)
    (other : String) : (registry.complete name body).idOf? other = registry.idOf? other := by
  unfold complete
  split
  · split <;> rfl
  · rfl

@[simp] theorem has_declare (registry : Registry) (resource : Resource) (name : String) :
    (registry.declare resource).has name = (name = resource.name || registry.has name) := by
  rw [has, idOf?_declare]
  split <;> simp_all [has]

@[simp] theorem has_complete (registry : Registry) (name : String) (body : Body Symbol)
    (other : String) : (registry.complete name body).has other = registry.has other := by
  rw [has, idOf?_complete, has]

end Registry

end ProseTypes
