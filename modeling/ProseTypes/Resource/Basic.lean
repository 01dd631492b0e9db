import ProseTypes.LinkIndex
import ProseTypes.Shape

/-!
# Resources

A resource is a table that defines a structure, together with the structure's name and the place
that it comes from. A link can bind only to the resource of an indexed section, so a corpus has
finitely many resources that links can reach.
-/

namespace ProseTypes

/-- A table that defines a structure of a given name: the shape it is read by, the path of its
document, and the anchor of its section. -/
structure Resource where
  name : String
  shape : Shape
  table : Table
  path : String
  source : String
deriving DecidableEq, Repr

namespace Target

/-- The resource that a section makes of a table, named by the section's title. -/
def named (target : Target) (choice : Table × Shape) : Except Note Resource :=
  match Name.ofTitle? target.here.title with
  | some name => .ok ⟨name, choice.2, choice.1, target.path, target.anchor⟩
  | none => .error (.noName target.here.title)

/-- The resource that a link to a section binds to, or what stands in its way. -/
def resource (target : Target) : Except Note Resource :=
  match target.here.linkedTable? with
  | some choice => target.named choice
  | none => .error (.noTable target.here.title target.anchor)

end Target

namespace LinkIndex

def resources (index : LinkIndex) : List Resource :=
  index.entries.filterMap fun entry => entry.resource.toOption

/-- A resource that a link can bind to. -/
abbrev Linked (index : LinkIndex) := { resource : Resource // resource ∈ index.resources }

theorem mem_resources {index : LinkIndex} {target : Target} {resource : Resource}
    (hTarget : target ∈ index.entries) (hResource : target.resource = .ok resource) :
    resource ∈ index.resources :=
  List.mem_filterMap.2 ⟨target, hTarget, by rw [hResource]; rfl⟩

def bind (index : LinkIndex) (target : Target) (hTarget : target ∈ index.entries) :
    Except Note index.Linked :=
  match hResource : target.resource with
  | .ok resource => .ok ⟨resource, mem_resources hTarget hResource⟩
  | .error note => .error note

/-- The resource that a link binds to, or what stands in its way. -/
def link (index : LinkIndex) (target : String) : Except Note index.Linked :=
  match hFound : index.find? target with
  | some found => index.bind found (List.mem_of_find?_eq_some hFound)
  | none => .error (.unresolvedTarget target)

end LinkIndex

end ProseTypes
