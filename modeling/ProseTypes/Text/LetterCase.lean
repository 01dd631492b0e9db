import ProseTypes.Text.Ranges
import ProseTypes.Text.LetterCase.Context
import ProseTypes.Text.LetterCase.Mapping

/-!
# Capital and small letters

The full mappings to small letters and to capitals. A mapping may give several characters, and
the small form of a capital sigma depends on the letters around it.
-/

namespace ProseTypes.Text

namespace LetterCase

def isCased (c : Char) : Bool :=
  if c.toNat < 0x80 then c.isAlpha else inRanges cased c.toNat

def isCaseIgnorable (c : Char) : Bool :=
  inRanges caseIgnorable c.toNat

/-- Says whether the first character that case does not ignore is cased. -/
def startsCased (cs : List Char) : Bool :=
  (cs.dropWhile isCaseIgnorable).head?.any isCased

def lowerChar (c : Char) : List Char :=
  if c.toNat < 0x80 then [c.toLower]
  else if c.toNat = 0x130 then ['i', Char.ofNat 0x307]
  else [Char.ofNat (partner capitals c.toNat)]

def upperChar (c : Char) : List Char :=
  if c.toNat < 0x80 then [c.toUpper]
  else
    match expandingLetters.lookup c.toNat with
    | some capitals => capitals.map Char.ofNat
    | none => [Char.ofNat (partner smallLetters c.toNat)]

/-- The small form of a capital sigma: the final one after a letter when no letter follows. -/
def lowerSigma (before after : List Char) : Char :=
  if startsCased before && !startsCased after then 'ς' else 'σ'

/-- The small form of a text that stands after the characters `before`, the nearest first. -/
def lowerAfter (before : List Char) : List Char → List Char
  | [] => []
  | c :: cs =>
    (if c = 'Σ' then [lowerSigma before cs] else lowerChar c) ++ lowerAfter (c :: before) cs

end LetterCase

def lower (cs : List Char) : List Char :=
  LetterCase.lowerAfter [] cs

def upper (cs : List Char) : List Char :=
  cs.flatMap LetterCase.upperChar

end ProseTypes.Text
