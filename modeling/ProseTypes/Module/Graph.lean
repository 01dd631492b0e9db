import ProseTypes.Structure.Basic

/-!
# Modules and their imports

A module owns structures and imports others. It never imports what it owns, and what it imports
is kept in increasing order of names, each name once.
-/

namespace ProseTypes

/-- A structure as modules import it: by name, with the module that owns it. -/
structure Import where
  name : String
  id : Nat
  home : Nat
deriving DecidableEq, Repr

def Structure.asImport (s : Structure) : Import :=
  ⟨s.name, s.id, s.home⟩

structure TypeModule where
  id : Nat
  path : String
  owned : List Nat
  imports : List Import
deriving DecidableEq, Repr

namespace TypeModule

def owns (m : TypeModule) (id : Nat) : Bool :=
  m.owned.contains id

def hasImport (m : TypeModule) (id : Nat) : Bool :=
  m.imports.any fun i => i.id == id

/-- Puts an import into its place in the order of names; it replaces one of the same name. -/
def insertImport (i : Import) : List Import → List Import
  | [] => [i]
  | j :: rest =>
    if i.name < j.name then i :: j :: rest
    else if i.name = j.name then i :: rest
    else j :: insertImport i rest

/-- Makes a module own a structure, and stop importing it. -/
def assign (id : Nat) (m : TypeModule) : TypeModule :=
  if m.owns id then m
  else ⟨m.id, m.path, m.owned ++ [id], m.imports.filter fun i => i.id != id⟩

/-- Makes a module import a structure, unless the structure belongs to it. -/
def require (i : Import) (m : TypeModule) : TypeModule :=
  if i.home = m.id || m.owns i.id then m
  else ⟨m.id, m.path, m.owned, insertImport i m.imports⟩

end TypeModule

/-- All modules, with a map from paths to identifiers beside them; the identifier of a module is
its index. -/
structure ModuleGraph where
  modules : List TypeModule
  byPath : List (String × Nat)
deriving DecidableEq, Repr

namespace ModuleGraph

def empty : ModuleGraph := ⟨[], []⟩

def find? (graph : ModuleGraph) (path : String) : Option Nat :=
  graph.byPath.lookup path

def module? (graph : ModuleGraph) (path : String) : Option TypeModule :=
  (graph.find? path).bind fun id => graph.modules[id]?

def moduleFor (graph : ModuleGraph) (path : String) : Nat × ModuleGraph :=
  match graph.find? path with
  | some id => (id, graph)
  | none =>
    let id := graph.modules.length
    (id, ⟨graph.modules ++ [⟨id, path, [], []⟩], (path, id) :: graph.byPath⟩)

def assign (graph : ModuleGraph) (home id : Nat) : ModuleGraph :=
  ⟨graph.modules.modify home (TypeModule.assign id), graph.byPath⟩

def require (graph : ModuleGraph) (home : Nat) (i : Import) : ModuleGraph :=
  ⟨graph.modules.modify home (TypeModule.require i), graph.byPath⟩

end ModuleGraph

end ProseTypes
