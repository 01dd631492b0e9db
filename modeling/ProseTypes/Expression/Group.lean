import ProseTypes.Expression.Basic

/-!
# Groups in regular expressions

A group may begin with a question mark and then with a name in angle brackets, or with flags. Flags
stand before a colon, and count for the group, or alone, and count from there to the end of the
group around them. Those behind a hyphen are switched off.
-/

namespace ProseTypes.Expression

def flagLetters : List Char :=
  ['i', 'm', 's', 'U', 'u', 'R', 'x']

def setting? (flags : List Char) (letter : Char) : Option Bool :=
  if flags.contains letter then some (!(flags.takeWhile (· != letter)).contains '-') else none

def Style.withFlags (style : Style) (flags : List Char) : Style :=
  ⟨(setting? flags 'x').getD style.spaced, ((setting? flags 'u').map not).getD style.ascii⟩

/-- Says whether a character can stand in the name of a group, as its first one or later. -/
def isNameChar (first : Bool) (c : Char) : Bool :=
  c == '_' ||
    if first then Text.isAlphabetic c
    else c == '.' || c == '[' || c == ']' || Text.isAlphanumeric c

namespace State

/-- Reads a character in flags. None is given twice, and a hyphen is not the last one. -/
def flag? (state : State) (read : List Char) (c : Char) : Option State :=
  let style := state.style.withFlags read
  if c = ':' || c = ')' then
    if read.getLast? == some '-' then none
    else if c = ':' then some (state.enter style)
    else if read.isEmpty then none
    else some ((state.restyle style).move (.free false))
  else if read.contains c || !(c == '-' || flagLetters.contains c) then none
  else some (state.move (.flags (read ++ [c])))

/-- Reads a character in the name of a group. Names are not empty and not given twice. -/
def name? (state : State) (read : List Char) (c : Char) : Option State :=
  if c = '>' then
    if read.isEmpty || state.names.contains read then none
    else some ((state.take read).enter state.style)
  else if isNameChar read.isEmpty c then some (state.move (.groupName (read ++ [c])))
  else none

/-- Reads the character after the question mark of a group. -/
def marked? (state : State) (c : Char) (rest : List Char) : Option State :=
  if c = 'P' && rest.head? == some '<' then some (state.move (.skip 1 (.groupName [])))
  else if c = '<' then some (state.move (.groupName []))
  else state.flag? [] c

end State

end ProseTypes.Expression
