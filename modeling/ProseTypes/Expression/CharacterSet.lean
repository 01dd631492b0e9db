import ProseTypes.Expression.Basic
import ProseTypes.Text.Blank

/-!
# Sets of characters in regular expressions

A set stands in brackets, and a caret behind the opening bracket means its complement. Its members
are characters, ranges, classes and other sets. Two ampersands, hyphens or tildes in a row join
what is before them and what is after them.
-/

namespace ProseTypes.Expression

/-- The names of the classes that are written in brackets and colons. -/
def asciiClasses : List String :=
  ["alnum", "alpha", "ascii", "blank", "cntrl", "digit", "graph", "lower", "print", "punct",
    "space", "upper", "word", "xdigit"]

/-- A class in brackets and colons whose opening bracket has been read: says whether a caret means
its complement, and how long the rest of it is. -/
def asciiClass? (cs : List Char) : Option (Bool × Nat) :=
  match cs with
  | ':' :: cs =>
    let negated := cs.head? == some '^'
    let body := if negated then cs.tail else cs
    let name := body.takeWhile (· != ':')
    match body.drop name.length with
    | ':' :: ']' :: _ =>
      if asciiClasses.contains (String.ofList name) then
        some (negated, name.length + if negated then 4 else 3)
      else none
    | _ => none
  | _ => none

namespace State

/-- The next character that counts. A comment is not looked through beyond its first word. -/
def ahead? (state : State) (rest : List Char) : Option Char :=
  if !state.style.spaced then rest.head?
  else
    match rest.dropWhile Text.isBlank with
    | '#' :: more => (more.dropWhile Text.isBlank).head?
    | more => more.head?

def inSet? (state : State) (c : Char) (rest : List Char) : Option State :=
  match c with
  | '[' =>
    match asciiClass? rest with
    | some (negated, length) =>
      if negated && state.style.ascii then none else some (state.move (.skip length .set))
    | none => some state.enterSet
  | ']' => some state.leaveSet
  | '\\' => some (state.move (.escape .member))
  | _ =>
    if (c == '&' || c == '-' || c == '~') && rest.head? == some c then
      some (state.move (.skip 1 .set))
    else state.afterCharacter? c.toNat .member

/-- Reads a character at the start of a set. A closing bracket that comes first is a member. -/
def setStart? (state : State) (hyphens : Bool) (c : Char) (rest : List Char) : Option State :=
  if c = '-' then some (state.move (.setStart true))
  else if c = ']' && !hyphens then some (state.move .set)
  else state.inSet? c rest

/-- Reads the character after the opening bracket of a set. A complement is not ASCII. -/
def setOpened? (state : State) (c : Char) (rest : List Char) : Option State :=
  if c = '^' then
    if state.style.ascii then none else some (state.move (.setStart false))
  else state.setStart? false c rest

/-- Reads the character after a member of a set. A hyphen makes a range, unless the set ends after
it or another hyphen follows. -/
def setMember? (state : State) (first : Option Nat) (c : Char) (rest : List Char) :
    Option State :=
  let next := state.ahead? rest
  if c = '-' && next != some ']' && next != some '-' then
    first.map fun first => state.move (.range first)
  else state.inSet? c rest

def range? (state : State) (first : Nat) (c : Char) : Option State :=
  if c = '\\' then some (state.move (.escape (.rangeEnd first)))
  else state.afterCharacter? c.toNat (.rangeEnd first)

end State

end ProseTypes.Expression
