import ProseTypes.Document.Section
import ProseTypes.Module.Path
import ProseTypes.Text.Category
import ProseTypes.Text.LetterCase

/-!
# Anchors

Every section has an anchor: the path of its document in capitals, with low lines for the
separators, then a slash and the slug of its title. Deep below a titled section the slug of that
section comes first, so that equal titles under different headings stay apart.
-/

namespace ProseTypes.Anchor

/-- The heading slug: letters, digits and hyphens in small letters, a hyphen for each space, and
nothing else. -/
def slug (title : String) : String :=
  let kept := (Text.lower (Text.trim title.toList)).filter fun c =>
    Text.isAlphanumeric c || c == ' ' || c == '-'
  String.ofList (kept.map fun c => if c = ' ' then '-' else c)

def dropExtension (path : List Char) : List Char :=
  match ModulePath.cutExtension? path with
  | some (stem, _) => stem
  | none => path

/-- A path segment in capitals, with low lines for hyphens, dots and spaces. -/
def segment (cs : List Char) : List Char :=
  (Text.upper cs).map fun c => if c = '-' || c = '.' || c = ' ' then '_' else c

/-- The part of an anchor that names the document. -/
def ofPath (path : String) : String :=
  let parts := Text.pieces (· == '/') (dropExtension (ModulePath.dropCurrentDir path.toList))
  let segments := (parts.filter fun part => !part.isEmpty).map segment
  String.ofList (['_'].intercalate segments)

/-- The part of an anchor that names a section among those of its document. If the nearest
ancestor above the nesting threshold lies more than one level higher, its slug comes first. -/
def localPart (nesting : Nat) (visit : Visit) : String :=
  let own := slug visit.here.title
  match visit.ancestors.reverse.find? fun a => nesting < a.level with
  | some a => if a.level + 1 < visit.here.level then slug a.title ++ "-" ++ own else own
  | none => own

/-- The anchor of a section in the document at `path`. A whole document is named by its path
alone. -/
def ofVisit (nesting : Nat) (path : String) (visit : Visit) : String :=
  if visit.here.level = 0 then ofPath path else ofPath path ++ "/" ++ localPart nesting visit

/-- The form in which anchors and link targets are compared: no leading number signs, capitals
before the first slash and small letters after it. -/
def normalize (target : String) : String :=
  let cs := (Text.trim target.toList).dropWhile (· == '#')
  String.ofList <|
    match Text.cutFirst? (· == '/') cs with
    | some (path, slug) => Text.upper path ++ '/' :: Text.lower slug
    | none => Text.upper cs

end ProseTypes.Anchor
