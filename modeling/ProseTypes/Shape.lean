import ProseTypes.Document.Section
import ProseTypes.Structure.Name

/-!
# Shapes of tables

A table defines a structure if it has the right columns: fields with types make an interface,
names or flags with values make an enumeration. Interfaces come first when a table is chosen
among several.
-/

namespace ProseTypes

inductive Kind where
  | interface
  | enumeration
deriving DecidableEq, Repr

def Kind.keyword : Kind → String
  | .interface => "interface"
  | .enumeration => "enum"

/-- The columns that a table needs to define a structure: one names each member, the other holds
its type or its value. -/
structure Shape where
  kind : Kind
  key : String
  value : String
deriving DecidableEq, Repr

namespace Shape

def fields : Shape := ⟨.interface, "field", "type"⟩

def names : Shape := ⟨.enumeration, "name", "value"⟩

def flags : Shape := ⟨.enumeration, "flag", "value"⟩

def fits (shape : Shape) (table : Table) : Bool :=
  table.hasColumns [shape.key, shape.value]

def groups : List (List Shape) := [[fields], [names, flags]]

def ofTable? (table : Table) : Option Shape :=
  groups.flatten.find? (·.fits table)

def choose? (tables : List Table) : Option (Table × Shape) :=
  groups.findSome? fun group =>
    tables.findSome? fun table => (group.find? (·.fits table)).map fun shape => (table, shape)

end Shape

namespace Section

/-- The table that a link to a section leads to: one of its own or of the sections directly in
it. -/
def linkedTable? (part : Section) : Option (Table × Shape) :=
  Shape.choose? (part.tables ++ part.sections.flatMap tables)

/-- The table that a section defines a structure by: one of its own or of a section directly in
it that names the same structure. -/
def ownTable? (part : Section) : Option (Table × Shape) :=
  let name := Name.ofTitle? part.title
  let alike := part.sections.filter fun child =>
    name.isSome && Name.ofTitle? child.title == name
  Shape.choose? (part.tables ++ alike.flatMap tables)

end Section

end ProseTypes
