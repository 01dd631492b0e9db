import ProseTypes.Text.Ranges
import ProseTypes.Text.Category.Alphabetic
import ProseTypes.Text.Category.Number
import ProseTypes.Text.Category.Word

/-!
# Letters, digits and word characters

Two classes decide where a word ends: the letters and numbers that an anchor keeps, and the word
characters between which there is no word boundary. The second class follows an older edition of
the Unicode standard, so the newest letters belong to the first class alone.
-/

namespace ProseTypes.Text

def isAlphabetic (c : Char) : Bool :=
  inRanges Category.alphabetic c.toNat

def isAlphanumeric (c : Char) : Bool :=
  if c.toNat < 0x80 then c.isAlphanum
  else isAlphabetic c || inRanges Category.number c.toNat

/-- Says whether a character belongs to a word: a letter, a mark, a decimal digit, a connector
such as the low line, or an invisible joiner. -/
def isWordChar (c : Char) : Bool :=
  inRanges Category.word c.toNat

end ProseTypes.Text
