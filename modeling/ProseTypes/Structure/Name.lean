import ProseTypes.Markup

/-!
# Names

The names that structures, fields and constants get from titles and cells. A structure's name and
a constant's name are made of ASCII letters, digits and low lines and start with no digit.
-/

namespace ProseTypes.Name

/-- The nonempty stretches of characters that satisfy `keep`. -/
def parts (keep : Char → Bool) (cs : List Char) : List (List Char) :=
  (Text.pieces (fun c => !keep c) cs).filter fun part => !part.isEmpty

/-- A word with its first letter made a capital. -/
def capitalized : List Char → List Char
  | [] => []
  | c :: cs => c.toUpper :: cs

/-- The words of a title, without a last word that only says that a structure is meant, unless it
is the only one. -/
def titleWords (title : String) : List (List Char) :=
  let words := Text.words title.toList
  match words.getLast? with
  | some last =>
    if 1 < words.length && (Text.foldCase last == "object".toList ||
        Text.foldCase last == "structure".toList) then words.dropLast
    else words
  | none => words

/-- The name of the structure that a section with a title describes: its words with capitals and
nothing between them. There is none if no ASCII letter or digit is left. -/
def ofTitle? (title : String) : Option String :=
  let name := (parts Text.isAsciiAlphanumeric ([' '].intercalate (titleWords title))).flatMap
    capitalized
  match name with
  | [] => none
  | c :: _ => some (String.ofList (if c.isAlpha then name else '_' :: name))

/-- The name of a constant: the letters, digits and low lines of a cell in capitals, with a low
line for everything else between them. -/
def ofConstant? (cell : String) : Option String :=
  let kept := parts (fun c => Text.isAsciiAlphanumeric c || c == '_') (Markup.clean cell).toList
  let name := ['_'].intercalate (kept.map fun part => part.map Char.toUpper)
  match name with
  | [] => none
  | c :: _ => some (String.ofList (if c.isDigit then '_' :: name else name))

/-- The key of a field, which is the first word of a cell, and whether a question mark at its end
makes it optional. -/
def fieldKey? (cell : String) : Option (String × Bool) :=
  match Text.words (Markup.clean cell).toList with
  | [] => none
  | word :: _ =>
    match Text.dropSuffix? ['?'] word with
    | some [] => none
    | some key => some (String.ofList key, true)
    | none => some (String.ofList word, false)

/-- Says whether a text can be written as a name without quotation marks. -/
def isIdentifier (s : String) : Bool :=
  let isStart (c : Char) : Bool := c.isAlpha || c == '_' || c == '$'
  match s.toList with
  | [] => false
  | c :: cs => isStart c && cs.all fun d => isStart d || d.isDigit

end ProseTypes.Name
