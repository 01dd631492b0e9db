import ProseTypes.Text.Blank
import ProseTypes.Text.Category
import ProseTypes.Text.LetterCase

/-!
# Phrases that name a response

A paragraph names the type of a response in a sentence that starts with the word "Returns". The
phrase ends with the sentence or line, or at the words "on success", or with the first object
word. A sentence that speaks of an empty response names none.
-/

namespace ProseTypes.Response

/-- Where in a text a position lies: at the start of a line, directly behind the end of a
sentence, behind that and blanks, or elsewhere. -/
inductive Place where
  | lineStart
  | stopped
  | spaced
  | inside
deriving DecidableEq, Repr

namespace Place

def isStart : Place → Bool
  | lineStart | spaced => true
  | stopped | inside => false

/-- Says whether a place lies behind the end of a sentence with nothing but blanks between. -/
def isBehindStop : Place → Bool
  | stopped | spaced => true
  | lineStart | inside => false

def after (place : Place) (c : Char) : Place :=
  if c = '.' || c = '!' || c = '?' then stopped
  else if Text.isBlank c && place.isBehindStop then spaced
  else if c = '\n' then lineStart
  else inside

end Place

/-- The text behind the word that opens the sentence, and behind the blanks after it. -/
def opened? (cs : List Char) : Option (List Char) :=
  (Text.dropPrefix? "Returns".toList cs).bind fun rest =>
    if rest.head?.any Text.isBlank then some (Text.trimStart rest) else none

/-- The text behind the opening of the first sentence that names a response. -/
def sentence? (place : Place) : List Char → Option (List Char)
  | [] => none
  | c :: cs =>
    match if place.isStart then opened? (c :: cs) else none with
    | some rest => some rest
    | none => sentence? (place.after c) cs

/-- Says whether a text starts with blanks and the words "on success". -/
def isOnSuccess (cs : List Char) : Bool :=
  let afterBlanks (cs : List Char) : Option (List Char) :=
    if cs.head?.any Text.isBlank then some (Text.trimStart cs) else none
  (((afterBlanks cs).bind (Text.dropPrefix? "on".toList)).bind afterBlanks).any
    "success".toList.isPrefixOf

def endsBefore (cs : List Char) : Bool :=
  match cs with
  | [] => true
  | '\n' :: _ => true
  | ['.'] => true
  | '.' :: c :: _ => Text.isBlank c
  | _ => isOnSuccess cs

def untilEnd : List Char → List Char
  | [] => []
  | c :: cs => if endsBefore (c :: cs) then [] else c :: untilEnd cs

/-- The phrase at the start of a text; it has at least one character. -/
def phrase : List Char → List Char
  | [] => []
  | c :: cs => c :: untilEnd cs

/-- The articles that may stand before the phrase. -/
def articles : List (List Char) :=
  ["a ".toList, "an ".toList, "the ".toList]

def dropArticle (cs : List Char) : List Char :=
  match articles.find? fun article => article.isPrefixOf (Text.foldCase cs) with
  | some article => Text.trimStart (cs.drop article.length)
  | none => cs

def isPluralEnding (c : Char) : Bool :=
  c == 's' || c == 'S' || c == 'ſ'

/-- The object word at the start of a text, in the singular or plural, and what follows it. -/
def objectWord? (cs : List Char) : Option (List Char × List Char) :=
  if Text.foldCase (cs.take 6) = "object".toList then
    let ending := (cs.drop 6).take 1 |>.filter isPluralEnding
    let after := cs.drop (6 + ending.length)
    if after.head?.any Text.isWordChar then none else some (cs.take 6 ++ ending, after)
  else none

def cutObject? : List Char → Option (List Char × List Char)
  | [] => none
  | c :: cs =>
    match if Text.isBlank c then objectWord? cs else none with
    | some (word, after) => some (c :: word, after)
    | none => (cutObject? cs).map fun (before, after) => (c :: before, after)

/-- A phrase up to its first object word, unless a closing bracket follows that. -/
def upToObject (cs : List Char) : List Char :=
  match cutObject? cs with
  | some (before, after) => if after.contains ']' then cs else before
  | none => cs

/-- Says whether a phrase speaks of an empty response. -/
def isEmptyResponse (cs : List Char) : Bool :=
  let small := Text.lower cs
  Text.contains "204".toList small || Text.contains "empty response".toList small ||
    "nothing".toList.isPrefixOf small

def phrase? (paragraph : String) : Option String :=
  (sentence? .lineStart paragraph.toList).bind fun rest =>
    let named := upToObject (dropArticle (Text.trim (phrase rest)))
    if named.isEmpty || isEmptyResponse named then none else some (String.ofList named)

end ProseTypes.Response
