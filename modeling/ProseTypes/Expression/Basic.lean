import ProseTypes.Text.Category

/-!
# Reading regular expressions

A regular expression is read one character at a time, with a look at what follows. What counts
while reading is where the reader stands, in which style it reads, and what is still open: groups,
whose styles come back when they close, and sets of characters, which may lie in each other.

Expressions have no closing braces here, so an opening brace always starts a mistake.
-/

namespace ProseTypes.Expression

/-- How an expression is read: with blanks and comments left out or as it stands, and over the
ASCII characters alone or over all. -/
structure Style where
  spaced : Bool
  ascii : Bool
deriving DecidableEq, Repr

/-- Where a character or a class of characters stands: for itself, in a set, or in a set as the
end of a range. -/
inductive Role where
  | alone
  | member
  | rangeEnd (first : Nat)
deriving DecidableEq, Repr

inductive Place where
  /-- Between elements; the one before can be repeated or not. -/
  | free (repeatable : Bool)
  /-- After an opening parenthesis. -/
  | groupOpened
  /-- After an opening parenthesis and a question mark. -/
  | groupMarked
  /-- In the name of a group. -/
  | groupName (read : List Char)
  /-- In the flags of a group. -/
  | flags (read : List Char)
  /-- After a backslash. -/
  | escape (role : Role)
  /-- In a code point with some digits missing; `byte` says that two digits give it. -/
  | code (role : Role) (byte : Bool) (missing value : Nat)
  /-- Before the letter of a general category. -/
  | category (role : Role)
  /-- After the opening bracket of a set. -/
  | setOpened
  /-- At the start of a set, perhaps after hyphens. -/
  | setStart (hyphens : Bool)
  /-- Between the members of a set. -/
  | set
  /-- After a member of a set, which can start a range if it is a single character. -/
  | setMember (first : Option Nat)
  /-- After the hyphen of a range. -/
  | range (first : Nat)
  /-- In a comment, which ends with its line. -/
  | comment (back : Place)
  /-- Before characters that have been read already. -/
  | skip (count : Nat) (next : Place)
deriving Repr

structure State where
  place : Place
  style : Style
  outer : List Style
  sets : Nat
  names : List (List Char)
deriving Repr

namespace State

def start : State :=
  ⟨.free false, ⟨false, false⟩, [], 0, []⟩

def move (state : State) (place : Place) : State :=
  ⟨place, state.style, state.outer, state.sets, state.names⟩

def restyle (state : State) (style : Style) : State :=
  ⟨state.place, style, state.outer, state.sets, state.names⟩

def enter (state : State) (style : Style) : State :=
  ⟨.free false, style, state.style :: state.outer, state.sets, state.names⟩

def leave? (state : State) : Option State :=
  match state.outer with
  | [] => none
  | style :: outer => some ⟨.free true, style, outer, state.sets, state.names⟩

def enterSet (state : State) : State :=
  ⟨.setOpened, state.style, state.outer, state.sets + 1, state.names⟩

def leaveSet (state : State) : State :=
  ⟨if state.sets ≤ 1 then .free true else .set, state.style, state.outer, state.sets - 1,
    state.names⟩

def take (state : State) (name : List Char) : State :=
  ⟨state.place, state.style, state.outer, state.sets, state.names ++ [name]⟩

/-- The state after a character. Sets over ASCII have ASCII members, and a range does not run
backwards. -/
def afterCharacter? (state : State) (code : Nat) : Role → Option State
  | .alone => some (state.move (.free true))
  | .member =>
    if state.style.ascii && 0x80 ≤ code then none
    else some (state.move (.setMember (some code)))
  | .rangeEnd first =>
    if (state.style.ascii && 0x80 ≤ code) || code < first then none else some (state.move .set)

/-- The state after a class of characters, which cannot end a range. -/
def afterClass? (state : State) : Role → Option State
  | .alone => some (state.move (.free true))
  | .member => some (state.move (.setMember none))
  | .rangeEnd _ => none

/-- The state after an assertion, which cannot stand in a set. -/
def afterAssertion? (state : State) : Role → Option State
  | .alone => some (state.move (.free true))
  | _ => none

end State

end ProseTypes.Expression
