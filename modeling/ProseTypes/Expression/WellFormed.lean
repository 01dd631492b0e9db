import ProseTypes.Expression.CharacterSet
import ProseTypes.Expression.Escape
import ProseTypes.Expression.Group

/-!
# Well-formed regular expressions

An expression is well formed if the reader gets through it and nothing is open at its end.
-/

namespace ProseTypes.Expression

/-- Says whether blanks and comments may stand at a place. -/
def Place.allowsSpace : Place → Bool
  | free _ | groupOpened | code .. | category _ | setOpened | setStart _ | set | setMember _
  | range _ => true
  | groupMarked | groupName _ | flags _ | escape _ | comment _ | skip .. => false

def Place.isFree : Place → Bool
  | free _ => true
  | comment back => back.isFree
  | _ => false

namespace State

def free? (state : State) (repeatable : Bool) (c : Char) : Option State :=
  match c with
  | '(' => some (state.move .groupOpened)
  | ')' => state.leave?
  | '[' => some state.enterSet
  | '|' => some (state.move (.free false))
  | '?' | '*' | '+' => if repeatable then some (state.move (.free true)) else none
  | '.' => if state.style.ascii then none else some (state.move (.free true))
  | '\\' => some (state.move (.escape .alone))
  | '{' => none
  | _ => some (state.move (.free true))

def read? (state : State) (c : Char) (rest : List Char) : Option State :=
  match state.place with
  | .free repeatable => state.free? repeatable c
  | .groupOpened =>
    if c = '?' then some (state.move .groupMarked) else (state.enter state.style).free? false c
  | .groupMarked => state.marked? c rest
  | .groupName read => state.name? read c
  | .flags read => state.flag? read c
  | .escape role => state.escape? role c
  | .code role byte missing value => state.code? role byte missing value c
  | .category role => state.category? role c
  | .setOpened => state.setOpened? c rest
  | .setStart hyphens => state.setStart? hyphens c rest
  | .set => state.inSet? c rest
  | .setMember first => state.setMember? first c rest
  | .range first => state.range? first c
  | .comment back => some (if c = '\n' then state.move back else state)
  | .skip count next => some (state.move (if count ≤ 1 then next else .skip (count - 1) next))

/-- Reads the next character of an expression; `rest` follows it. -/
def step? (state : State) (c : Char) (rest : List Char) : Option State :=
  if state.style.spaced && state.place.allowsSpace && (Text.isBlank c || c == '#') then
    some (if c = '#' then state.move (.comment state.place) else state)
  else state.read? c rest

/-- Says whether the reader gets through an expression with nothing left open. -/
def accepts (state : State) : List Char → Bool
  | [] => state.place.isFree && state.outer.isEmpty
  | c :: rest =>
    match state.step? c rest with
    | some next => next.accepts rest
    | none => false

end State

def isWellFormed (cs : List Char) : Bool :=
  State.start.accepts cs

end ProseTypes.Expression
