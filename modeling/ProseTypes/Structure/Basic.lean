import ProseTypes.Shape
import ProseTypes.Symbol

/-!
# Structures

An interface has fields with types, an enumeration has constants with values. What stands for a
type in a field is a parameter: a table first gives types with links in them, and a registered
structure has types that refer to registered structures.
-/

namespace ProseTypes

structure Field (τ : Type) where
  key : String
  optional : Bool
  type : τ
  description : Option String
deriving DecidableEq, Repr

structure Constant where
  name : String
  value : String
  description : Option String
deriving DecidableEq, Repr

inductive Body (τ : Type) where
  | interface (fields : List (Field τ))
  | enumeration (constants : List Constant)
deriving DecidableEq, Repr

namespace Body

variable {τ υ : Type}

def empty : Kind → Body τ
  | .interface => .interface []
  | .enumeration => .enumeration []

def kind : Body τ → Kind
  | interface _ => .interface
  | enumeration _ => .enumeration

/-- The fields of an interface; an enumeration has none. -/
def fields : Body τ → List (Field τ)
  | interface fields => fields
  | enumeration _ => []

/-- The constants of an enumeration; an interface has none. -/
def constants : Body τ → List Constant
  | interface _ => []
  | enumeration constants => constants

def map (f : τ → υ) : Body τ → Body υ
  | interface fields =>
    .interface (fields.map fun field => ⟨field.key, field.optional, f field.type, field.description⟩)
  | enumeration constants => .enumeration constants

end Body

/-- A registered structure: its identifier and name, the module that owns it, the anchor of the
section it comes from, and its members. -/
structure Structure where
  id : Nat
  name : String
  home : Nat
  source : String
  body : Body Symbol
deriving DecidableEq, Repr

namespace Structure

def ref (s : Structure) : StructureRef :=
  ⟨s.id, s.name⟩

def withBody (body : Body Symbol) (s : Structure) : Structure :=
  ⟨s.id, s.name, s.home, s.source, body⟩

/-- The references in the types of a structure's fields, field by field. -/
def refs (s : Structure) : List StructureRef :=
  s.body.fields.flatMap fun field => Symbol.refs field.type

end Structure

end ProseTypes
