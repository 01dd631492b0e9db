import ProseTypes.Phrase.Reading
import ProseTypes.Resource.Basic
import ProseTypes.Structure.Basic
import ProseTypes.Structure.Value

/-!
# Drafts of structures

The draft of a resource is the body of its structure as the table alone gives it: every row with
a usable key makes a member, and the types of fields are readings, which still have links to
other resources at their leaves.
-/

namespace ProseTypes.Resource

def description? (table : Table) (row : List String) : Option String :=
  ((table.cell? row "description").map Text.trimmed).filter fun d => !d.isEmpty

/-- The type in a row; nothing is known of it if the row is too short. -/
def typeOf (index : LinkIndex) (resource : Resource) (row : List String) : Reading index :=
  match resource.table.cell? row resource.shape.value with
  | some phrase => Reading.ofPhrase index phrase
  | none => .leaf .unknown

def key? (resource : Resource) (row : List String) : Option (String × Bool) :=
  (resource.table.cell? row resource.shape.key).bind Name.fieldKey?

def field? (index : LinkIndex) (resource : Resource) (row : List String) :
    Option (Field (Reading index)) :=
  (resource.key? row).map fun key =>
    ⟨key.1, key.2, resource.typeOf index row, description? resource.table row⟩

def constantName? (resource : Resource) (row : List String) : Option String :=
  (resource.table.cell? row resource.shape.key).bind Name.ofConstant?

/-- The text of the value in a row, unless it is blank. -/
def valueCell? (resource : Resource) (row : List String) : Option String :=
  (resource.table.cell? row resource.shape.value).filter fun v => !Text.isBlankLine v

def constant? (resource : Resource) (row : List String) : Option Constant :=
  (resource.constantName? row).bind fun name =>
    (resource.valueCell? row).map fun value =>
      ⟨name, Value.ofCell value, description? resource.table row⟩

/-- What is to be said about a row that names a constant but gives it no value. -/
def missingValue? (resource : Resource) (row : List String) : Option Note :=
  match resource.constantName? row, resource.valueCell? row with
  | some name, none => some (.noValue name)
  | _, _ => none

/-- The body that a table gives a structure, with readings for types. -/
def draft (index : LinkIndex) (resource : Resource) : Body (Reading index) :=
  match resource.shape.kind with
  | .interface => .interface (resource.table.rows.filterMap (resource.field? index))
  | .enumeration => .enumeration (resource.table.rows.filterMap resource.constant?)

/-- What is to be said about the rows of a table. -/
def notes (resource : Resource) : List Note :=
  match resource.shape.kind with
  | .interface => []
  | .enumeration => resource.table.rows.filterMap resource.missingValue?

end ProseTypes.Resource
