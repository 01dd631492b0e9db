import ProseTypes.Text.Quoted

/-!
# JSON documents

The values that reports are made of, and their text: two spaces of indentation for each level,
one member or element on a line, and nothing between the brackets of an empty value.
-/

namespace ProseTypes

inductive Json where
  | bool (b : Bool)
  | string (s : String)
  | array (elements : List Json)
  | object (members : List (String × Json))

namespace Json

def newLine (level : Nat) : String :=
  "\n" ++ String.join (List.replicate level "  ")

mutual

def textAt (level : Nat) : Json → String
  | bool b => if b then "true" else "false"
  | string s => Text.Quoted.quote s
  | array [] => "[]"
  | array (element :: rest) =>
    "[" ++ newLine (level + 1) ++ textAt (level + 1) element ++ elementsAt level rest
  | object [] => "\x7b\x7d"
  | object ((key, value) :: rest) =>
    "\x7b" ++ newLine (level + 1) ++ Text.Quoted.quote key ++ ": " ++ textAt (level + 1) value ++
      membersAt level rest

def elementsAt (level : Nat) : List Json → String
  | [] => newLine level ++ "]"
  | element :: rest =>
    "," ++ newLine (level + 1) ++ textAt (level + 1) element ++ elementsAt level rest

def membersAt (level : Nat) : List (String × Json) → String
  | [] => newLine level ++ "\x7d"
  | (key, value) :: rest =>
    "," ++ newLine (level + 1) ++ Text.Quoted.quote key ++ ": " ++ textAt (level + 1) value ++
      membersAt level rest

end

def text (value : Json) : String :=
  textAt 0 value

def member? (key : String) (value : Option String) : List (String × Json) :=
  (value.map fun v => (key, string v)).toList

/-- A member that is left out if its array is empty. -/
def elements? (key : String) (values : List Json) : List (String × Json) :=
  if values.isEmpty then [] else [(key, array values)]

end Json

end ProseTypes
