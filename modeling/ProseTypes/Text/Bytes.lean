/-!
# Bytes of a text

How many bytes characters take in UTF-8, and texts cut after a number of bytes. A character that
the cut would split goes with what is before it.
-/

namespace ProseTypes.Text

/-- The number of bytes that characters take. -/
def byteCount : List Char → Nat
  | [] => 0
  | c :: cs => c.utf8Size + byteCount cs

def dropBytes : (count : Nat) → List Char → List Char
  | 0, cs => cs
  | _, [] => []
  | count + 1, c :: cs => dropBytes (count + 1 - c.utf8Size) cs

def takeBytes : (count : Nat) → List Char → List Char
  | 0, _ => []
  | _, [] => []
  | count + 1, c :: cs => c :: takeBytes (count + 1 - c.utf8Size) cs

end ProseTypes.Text
