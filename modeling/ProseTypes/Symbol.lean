import ProseTypes.Primitive
import ProseTypes.TypeTree

/-!
# Symbols

A symbol is a type expression whose leaves are primitive types, registered structures, or types
that nothing is known of.
-/

namespace ProseTypes

/-- A leaf of a type expression; `ρ` is what stands for a structure. -/
inductive Atom (ρ : Type) where
  | primitive (primitive : Primitive)
  | named (ref : ρ)
  | unknown
deriving DecidableEq, Repr

namespace Atom

variable {ρ σ : Type}

def map (f : ρ → σ) : Atom ρ → Atom σ
  | primitive p => primitive p
  | named ref => named (f ref)
  | unknown => unknown

def ref? : Atom ρ → Option ρ
  | named ref => some ref
  | _ => none

/-- How a leaf is written, given the names of structures. -/
def text (name : ρ → String) : Atom ρ → String
  | primitive p => p.typeText
  | named ref => name ref
  | unknown => "unknown"

end Atom

structure StructureRef where
  id : Nat
  name : String
deriving DecidableEq, Repr

abbrev Symbol := TypeTree (Atom StructureRef)

namespace Symbol

/-- The type of which nothing is known. -/
def unknown : Symbol :=
  .leaf .unknown

def ofRef (ref : StructureRef) : Symbol :=
  .leaf (.named ref)

def text (s : Symbol) : String :=
  TypeTree.text (Atom.text StructureRef.name) s

/-- The single known leaf of a type. -/
def root? (s : Symbol) : Option (Atom StructureRef) :=
  (TypeTree.root? s).filter fun
    | .unknown => false
    | _ => true

/-- Adds a reference unless the list has one with the same identifier. -/
def addRef (refs : List StructureRef) (ref : StructureRef) : List StructureRef :=
  if refs.any fun r => r.id == ref.id then refs else refs ++ [ref]

/-- Adds the structures that occur in a type to those found before, from left to right. -/
def collect : Symbol → List StructureRef → List StructureRef
  | .leaf (.named ref), found => addRef found ref
  | .leaf (.primitive _), found | .leaf .unknown, found => found
  | .array inner, found | .nullable inner, found | .partialOf inner, found => collect inner found
  | .either left right, found => collect right (collect left found)

def refs (s : Symbol) : List StructureRef :=
  collect s []

end Symbol

end ProseTypes
