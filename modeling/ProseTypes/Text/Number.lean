import ProseTypes.Text.Basic

/-!
# Decimal numbers

Numbers as they are given in arguments: decimal digits, perhaps with a plus sign in front, up to
the greatest number of 64 bits. Numerals are more: they may have a sign, a point and an exponent,
or name infinity or the value that is no number.
-/

namespace ProseTypes.Text

def greatestNumber : Nat := 0xFFFFFFFFFFFFFFFF

def ofDigits (digits : List Char) : Nat :=
  digits.foldl (fun n c => 10 * n + (c.toNat - '0'.toNat)) 0

def unsigned : List Char → List Char
  | '+' :: cs => cs
  | cs => cs

def number? (cs : List Char) : Option Nat :=
  let digits := unsigned cs
  if !digits.isEmpty && digits.all Char.isDigit && ofDigits digits ≤ greatestNumber then
    some (ofDigits digits)
  else none

/-- Says whether characters are digits, of which there may have to be one. -/
def areDigits (needed : Bool) (cs : List Char) : Bool :=
  cs.all Char.isDigit && !(needed && cs.isEmpty)

def dropSign : List Char → List Char
  | '+' :: cs | '-' :: cs => cs
  | cs => cs

/-- Says whether characters are digits with a point among them or none; one digit is needed. -/
def isDecimal (cs : List Char) : Bool :=
  match cutFirst? (· == '.') cs with
  | some (whole, part) => areDigits part.isEmpty whole && areDigits whole.isEmpty part
  | none => areDigits true cs

def isUnsignedNumeral (cs : List Char) : Bool :=
  match cutFirst? (fun c => c == 'e' || c == 'E') cs with
  | some (base, exponent) => isDecimal base && areDigits true (dropSign exponent)
  | none => isDecimal cs

/-- Says whether characters are a numeral. The words are read without regard to the case of ASCII
letters. -/
def isNumeral (cs : List Char) : Bool :=
  let body := dropSign cs
  ["inf", "infinity", "nan"].contains (String.ofList (foldCase body)) || isUnsignedNumeral body

end ProseTypes.Text
