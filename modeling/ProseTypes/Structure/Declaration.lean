import ProseTypes.Structure.Basic
import ProseTypes.Text.Quoted

/-!
# Declarations

The text that declares a structure: a line with its kind and name, a line for each member, with
its description in a comment above it, and a closing brace.
-/

namespace ProseTypes.Declaration

/-- Breaks every comment end, so that a text can stand inside a comment. -/
def protect : List Char → List Char
  | '*' :: '/' :: cs => '*' :: '\\' :: '/' :: protect cs
  | c :: cs => c :: protect cs
  | [] => []

/-- The comment line above a member, if its description says anything. -/
def comment (description : Option String) : String :=
  match description.map fun d => Text.trim d.toList with
  | none | some [] => ""
  | some text => "\t/** " ++ String.ofList (protect text) ++ " */\n"

/-- The key of a field, quoted unless it is a plain name. -/
def key (name : String) : String :=
  if Name.isIdentifier name then name else Text.Quoted.quote name

def field (f : Field Symbol) : String :=
  comment f.description ++ "\t" ++ key f.key ++ (if f.optional then "?" else "") ++ ": " ++
    Symbol.text f.type ++ ";\n"

def constant (c : Constant) : String :=
  comment c.description ++ "\t" ++ c.name ++ " = " ++ c.value ++ ",\n"

def members : Body Symbol → List String
  | .interface fields => fields.map field
  | .enumeration constants => constants.map constant

end Declaration

def Structure.declaration (s : Structure) : String :=
  "export " ++ s.body.kind.keyword ++ " " ++ s.name ++ " \x7b\n" ++
    String.join (Declaration.members s.body) ++ "\x7d\n"

end ProseTypes
