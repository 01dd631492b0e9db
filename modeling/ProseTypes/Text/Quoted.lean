import ProseTypes.Text.Basic

/-!
# Quoted strings

The JSON form of a text: a quotation mark at both ends, a backslash before a quotation mark or a
backslash, and an escape for every control character below the space. All other characters stand
for themselves.
-/

namespace ProseTypes.Text.Quoted

def mark : Char := '\x22'

/-- Four hexadecimal digits, small letters. -/
def hexDigits (n : Nat) : List Char :=
  [n / 4096 % 16, n / 256 % 16, n / 16 % 16, n % 16].map Nat.digitChar

/-- How one character is written between quotation marks. -/
def encodeChar (c : Char) : List Char :=
  if c = mark then ['\\', mark]
  else if c = '\\' then ['\\', '\\']
  else if c = '\n' then ['\\', 'n']
  else if c = '\r' then ['\\', 'r']
  else if c = '\t' then ['\\', 't']
  else if c.toNat = 8 then ['\\', 'b']
  else if c.toNat = 12 then ['\\', 'f']
  else if c.toNat < 32 then '\\' :: 'u' :: hexDigits c.toNat
  else [c]

/-- The characters of a text as they are written between quotation marks. -/
def encode (cs : List Char) : List Char :=
  cs.flatMap encodeChar

def quote (s : String) : String :=
  String.ofList (mark :: encode s.toList ++ [mark])

end ProseTypes.Text.Quoted
