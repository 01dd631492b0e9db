import ProseTypes.Expression.Basic

/-!
# Escapes in regular expressions

What may follow a backslash: a code point in hexadecimal digits, a class of characters, a control
character, an assertion, or any ASCII character that is neither a letter nor a digit and then
stands for itself.
-/

namespace ProseTypes.Expression.State

def controls : List (Char × Nat) :=
  [('a', 7), ('t', 9), ('n', 10), ('v', 11), ('f', 12), ('r', 13)]

/-- Reads the character after a backslash. The complement of a class is not ASCII, and the
boundaries of words are known for ASCII alone. -/
def escape? (state : State) (role : Role) (c : Char) : Option State :=
  match controls.lookup c with
  | some code => state.afterCharacter? code role
  | none =>
    match c with
    | 'x' => some (state.move (.code role true 2 0))
    | 'u' => some (state.move (.code role false 4 0))
    | 'U' => some (state.move (.code role false 8 0))
    | 'p' | 'P' => some (state.move (.category role))
    | 'd' | 's' | 'w' => state.afterClass? role
    | 'D' | 'S' | 'W' => if state.style.ascii then none else state.afterClass? role
    | 'A' | 'z' => state.afterAssertion? role
    | 'b' | 'B' | '<' | '>' => if state.style.ascii then state.afterAssertion? role else none
    | _ =>
      if c.toNat < 0x80 && !c.isAlphanum then state.afterCharacter? c.toNat role else none

def hexValue? (c : Char) : Option Nat :=
  if c.isDigit then some (c.toNat - '0'.toNat)
  else if 'a' ≤ c && c ≤ 'f' then some (c.toNat - 'a'.toNat + 10)
  else if 'A' ≤ c && c ≤ 'F' then some (c.toNat - 'A'.toNat + 10)
  else none

/-- The state after a code point, if it is one. Over ASCII, a byte has to be ASCII. -/
def afterCode? (state : State) (role : Role) (byte : Bool) (code : Nat) : Option State :=
  if !decide code.isValidChar || (state.style.ascii && byte && 0x80 ≤ code) then none
  else state.afterCharacter? code role

def code? (state : State) (role : Role) (byte : Bool) (missing value : Nat) (c : Char) :
    Option State :=
  (hexValue? c).bind fun digit =>
    let value := 16 * value + digit
    if missing ≤ 1 then state.afterCode? role byte value
    else some (state.move (.code role byte (missing - 1) value))

/-- Reads the letter of a general category; there are none over ASCII. -/
def category? (state : State) (role : Role) (c : Char) : Option State :=
  if !state.style.ascii && ['c', 'l', 'm', 'n', 'p', 's', 'z'].contains c.toLower then
    state.afterClass? role
  else none

end ProseTypes.Expression.State
