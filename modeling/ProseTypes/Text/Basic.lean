/-!
# Cutting and comparing text

Text is worked on as a list of characters. This module holds the operations that know nothing of
any character class: cutting at separators, dropping a tail, searching, and comparison that
ignores the case of ASCII letters.
-/

namespace ProseTypes.Text

/-- What is left when the longest tail satisfying `p` is dropped. -/
def dropEndWhile (p : Char → Bool) (cs : List Char) : List Char :=
  (cs.reverse.dropWhile p).reverse

/-- The stretches between the separators that satisfy `p`; one more than there are separators. -/
def pieces (p : Char → Bool) : List Char → List (List Char)
  | [] => [[]]
  | c :: cs =>
    if p c then [] :: pieces p cs
    else
      match pieces p cs with
      | [] => [[c]]
      | piece :: rest => (c :: piece) :: rest

def cutFirst? (p : Char → Bool) : List Char → Option (List Char × List Char)
  | [] => none
  | c :: cs =>
    if p c then some ([], cs)
    else (cutFirst? p cs).map fun (before, after) => (c :: before, after)

def cutLast? (p : Char → Bool) : List Char → Option (List Char × List Char)
  | [] => none
  | c :: cs =>
    match cutLast? p cs with
    | some (before, after) => some (c :: before, after)
    | none => if p c then some ([], cs) else none

/-- The text after `start`, if it begins with it. -/
def dropPrefix? : (start : List Char) → List Char → Option (List Char)
  | [], cs => some cs
  | _ :: _, [] => none
  | s :: start, c :: cs => if s = c then dropPrefix? start cs else none

/-- The text before `tail`, if it ends with it. -/
def dropSuffix? (tail cs : List Char) : Option (List Char) :=
  (dropPrefix? tail.reverse cs.reverse).map List.reverse

/-- Says whether a text, or what is left of it after some characters, satisfies `p`. -/
def anySuffix (p : List Char → Bool) : List Char → Bool
  | [] => p []
  | c :: cs => p (c :: cs) || anySuffix p cs

/-- Says whether `part` occurs anywhere in a text. -/
def contains (part cs : List Char) : Bool :=
  anySuffix part.isPrefixOf cs

/-- The same text with its ASCII capitals made small. -/
def foldCase (cs : List Char) : List Char :=
  cs.map Char.toLower

/-- Equality of texts up to the case of ASCII letters. -/
def sameLetters (a b : String) : Bool :=
  foldCase a.toList == foldCase b.toList

def join (separator : String) (texts : List String) : String :=
  String.ofList (separator.toList.intercalate (texts.map String.toList))

/-- Says whether a character is one of the 62 ASCII letters and digits. -/
def isAsciiAlphanumeric (c : Char) : Bool :=
  c.isAlphanum

end ProseTypes.Text
