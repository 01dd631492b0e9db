import ProseTypes.Text.Basic

/-!
# Blank characters

The characters that separate words, and the operations that drop them: trimming and splitting
into words.
-/

namespace ProseTypes.Text

/-- The 25 characters with the property White_Space. -/
def isBlank (c : Char) : Bool :=
  let n := c.toNat
  n == 0x20 || (0x09 ≤ n && n ≤ 0x0d) || n == 0x85 || n == 0xa0 || n == 0x1680 ||
    (0x2000 ≤ n && n ≤ 0x200a) || n == 0x2028 || n == 0x2029 || n == 0x202f || n == 0x205f ||
    n == 0x3000

def trimStart (cs : List Char) : List Char :=
  cs.dropWhile isBlank

def trimEnd (cs : List Char) : List Char :=
  dropEndWhile isBlank cs

def trim (cs : List Char) : List Char :=
  trimEnd (trimStart cs)

/-- A text with the blanks at both ends dropped. -/
def trimmed (s : String) : String :=
  String.ofList (trim s.toList)

/-- Says whether a line holds nothing but blanks. -/
def isBlankLine (line : String) : Bool :=
  line.toList.all isBlank

def words (cs : List Char) : List (List Char) :=
  (pieces isBlank cs).filter fun word => !word.isEmpty

end ProseTypes.Text
