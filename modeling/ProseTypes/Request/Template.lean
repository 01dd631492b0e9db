import ProseTypes.Text.Blank

/-!
# Path templates

The path of a request has placeholders in braces. A placeholder names a parameter and may add a
link target after a number sign, which is dropped.
-/

namespace ProseTypes

/-- A part of a path: a character that stands for itself, or a parameter. -/
inductive PathPart where
  | literal (c : Char)
  | parameter (name : String)
deriving DecidableEq, Repr

namespace PathPart

/-- Says whether a character can stand in the name of a placeholder. -/
def isNameChar (c : Char) : Bool :=
  c != '}' && c != '#'

/-- The name in a placeholder whose opening brace has been read, and what follows it. -/
def placeholder? (cs : List Char) : Option (List Char × List Char) :=
  let name := cs.takeWhile isNameChar
  if name.isEmpty then none
  else
    match cs.dropWhile isNameChar with
    | '}' :: after => some (name, after)
    | '#' :: link =>
      match link.dropWhile (· != '}') with
      | _ :: after => some (name, after)
      | [] => none
    | _ => none

theorem length_of_placeholder? {cs name after : List Char}
    (h : placeholder? cs = some (name, after)) : after.length < cs.length := by
  have hDrop := (List.dropWhile_sublist (l := cs) isNameChar).length_le
  simp only [placeholder?] at h
  split at h
  · cases h
  split at h
  · rename_i rest hRest
    obtain ⟨_, rfl⟩ := by simpa only [Option.some.injEq, Prod.mk.injEq] using h
    rw [hRest, List.length_cons] at hDrop
    omega
  · rename_i link hLink
    have hInner := (List.dropWhile_sublist (l := link) (· != '}')).length_le
    split at h
    · rename_i c rest hRest
      obtain ⟨_, rfl⟩ := by simpa only [Option.some.injEq, Prod.mk.injEq] using h
      rw [hLink, List.length_cons] at hDrop
      rw [hRest, List.length_cons] at hInner
      omega
    · cases h
  · cases h

/-- The name of a parameter: low lines stand for everything but ASCII letters and digits. -/
def parameterName (cs : List Char) : String :=
  String.ofList ((Text.trim cs).map fun c => if Text.isAsciiAlphanumeric c then c else '_')

def ofChars : List Char → List PathPart
  | [] => []
  | c :: cs =>
    if c = '{' then
      match _found : placeholder? cs with
      | some (name, after) => .parameter (parameterName name) :: ofChars after
      | none => .literal c :: ofChars cs
    else .literal c :: ofChars cs
termination_by cs => cs.length
decreasing_by
  all_goals simp only [List.length_cons]
  · have := length_of_placeholder? (by assumption)
    omega
  all_goals omega

def text : PathPart → List Char
  | literal c => [c]
  | parameter name => '{' :: name.toList ++ ['}']

def name? : PathPart → Option String
  | literal _ => none
  | parameter name => some name

end PathPart

structure PathTemplate where
  path : String
  parameters : List String
deriving DecidableEq, Repr

def PathTemplate.ofPath (path : String) : PathTemplate :=
  let parts := PathPart.ofChars path.toList
  ⟨String.ofList (parts.flatMap PathPart.text), parts.filterMap PathPart.name?⟩

end ProseTypes
