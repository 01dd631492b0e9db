import ProseTypes.Request.Response
import ProseTypes.Request.Title
import ProseTypes.Resource.Basic
import ProseTypes.Symbol

/-!
# Requests

A section with the title of a request documents it. The sections directly in it may hold tables
of the fields of the body and of the query, and one of its paragraphs may name the response.
-/

namespace ProseTypes

structure Request where
  title : RequestTitle
  source : String
  body : Option Symbol
  query : Option Symbol
  response : Option Symbol
deriving DecidableEq, Repr

namespace Request

/-- Says whether a section title announces the fields of a request's body. -/
def announcesBody (title : String) : Bool :=
  let small := Text.lower title.toList
  Text.contains "json".toList small && Text.contains "params".toList small

/-- Says whether a section title announces the fields of a request's query. -/
def announcesQuery (title : String) : Bool :=
  Text.contains "query string params".toList (Text.lower title.toList)

/-- The first table of fields in the sections of a request whose titles announce it. -/
def table? (announces : String → Bool) (part : Section) : Option Table :=
  (part.sections.filter fun child => announces child.title).findSome? fun child =>
    child.tables.find? Shape.fields.fits

def responsePhrase? (part : Section) : Option String :=
  part.paragraphs.findSome? Response.phrase?

/-- What the names of a request's structures start with. -/
def baseName (title : RequestTitle) : String :=
  (Name.ofTitle? title.name).getD "Request"

def resource (target : Target) (name : String) (table : Table) : Resource :=
  ⟨name, .fields, table, target.path, target.anchor⟩

def body? (target : Target) (title : RequestTitle) : Option Resource :=
  (table? announcesBody target.here).map (resource target (baseName title ++ "JsonParams"))

def query? (target : Target) (title : RequestTitle) : Option Resource :=
  (table? announcesQuery target.here).map (resource target (baseName title ++ "Query"))

end Request

def Section.requestTitle? (part : Section) : Option RequestTitle :=
  RequestTitle.ofTitle? part.title

end ProseTypes
