import ProseTypes.FileTree.Path

/-!
# Paths of documents and modules

A module has the path of its document without the extension. One module names another by a path
relative to the directory it lies in.
-/

namespace ProseTypes.ModulePath

open ProseTypes.Path (segments)

def dropCurrentDir : List Char → List Char
  | '.' :: '/' :: cs => dropCurrentDir cs
  | cs => cs

/-- A path cut at its last dot, if the dot lies in the last segment. -/
def cutExtension? (path : List Char) : Option (List Char × List Char) :=
  (Text.cutLast? (· == '.') path).filter fun cut => !cut.2.contains '/'

/-- The path of the module for the document at `path`. A name that is nothing but an extension
is kept. -/
def ofDocument (path : String) : String :=
  let cs := dropCurrentDir path.toList
  match cutExtension? cs with
  | some (stem, _) => String.ofList (if stem.isEmpty then cs else stem)
  | none => String.ofList cs

def dropCommon : List String → List String → List String × List String
  | a :: as, b :: bs => if a = b then dropCommon as bs else (a :: as, b :: bs)
  | as, bs => (as, bs)

/-- The path that leads from the directory of one module to another module: up to where the two
paths part, then down. -/
def specifier (source target : String) : String :=
  let (up, down) := dropCommon (segments source).dropLast (segments target)
  let climb := if up.isEmpty then "./" else String.join (up.map fun _ => "../")
  climb ++ Text.join "/" down

end ProseTypes.ModulePath
