import ProseTypes.Markup
import ProseTypes.Text.Quoted

/-!
# Values of constants

A value is a number, a shift of one number by another, or else a quoted string.
-/

namespace ProseTypes.Value

def isDigits (cs : List Char) : Bool :=
  !cs.isEmpty && cs.all Char.isDigit

/-- A decimal digit or one of the letters up to `f`, small or capital. -/
def isHexDigit (c : Char) : Bool :=
  c.isDigit || ('a' ≤ c && c ≤ 'f') || ('A' ≤ c && c ≤ 'F')

/-- A decimal number, which may have a sign and a fraction. -/
def isDecimal (cs : List Char) : Bool :=
  let unsigned := if cs.head? == some '-' then cs.tail else cs
  let fraction := unsigned.dropWhile Char.isDigit
  !(unsigned.takeWhile Char.isDigit).isEmpty &&
    (fraction.isEmpty || (fraction.head? == some '.' && isDigits fraction.tail))

def isHexadecimal : List Char → Bool
  | '0' :: 'x' :: digits => !digits.isEmpty && digits.all isHexDigit
  | _ => false

/-- A number shifted to the left by a number of places. -/
def isShift (cs : List Char) : Bool :=
  !(cs.takeWhile Char.isDigit).isEmpty &&
    match Text.trimStart (cs.dropWhile Char.isDigit) with
    | '<' :: '<' :: places => isDigits (Text.trimStart places)
    | _ => false

/-- Says whether a value is written without quotation marks. -/
def isNumeric (cs : List Char) : Bool :=
  isDecimal cs || isHexadecimal cs || isShift cs

/-- A text without the quotation marks around it, if it has both. -/
def unquoted (cs : List Char) : List Char :=
  match Text.dropPrefix? [Text.Quoted.mark] cs with
  | some inner => (Text.dropSuffix? [Text.Quoted.mark] inner).getD cs
  | none => cs

def ofCell (cell : String) : String :=
  let value := unquoted (Markup.clean cell).toList
  if isNumeric value then String.ofList value else Text.Quoted.quote (String.ofList value)

end ProseTypes.Value
