import ProseTypes.Text.Blank

/-!
# Markup inside a line

Emphasis marks, code marks and escapes change how a text looks but not what it names, so they are
dropped before a cell or a word is read.
-/

namespace ProseTypes.Markup

def isMark (c : Char) : Bool :=
  c == '*' || c == '\x60' || c == '\\'

/-- An emphasis mark or a code mark. -/
def isStyle (c : Char) : Bool :=
  c == '*' || c == '\x60'

def plainLowLines : List Char → List Char
  | '\\' :: '_' :: cs => '_' :: plainLowLines cs
  | c :: cs => c :: plainLowLines cs
  | [] => []

/-- A text without marks and without the blanks around it. The marks of emphasis and code go first,
then the escapes of low lines, then all other escapes. -/
def clean (cell : String) : String :=
  let unstyled := cell.toList.filter fun c => !isStyle c
  String.ofList (Text.trim ((plainLowLines unstyled).filter fun c => c != '\\'))

end ProseTypes.Markup
