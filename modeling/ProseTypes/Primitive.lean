import ProseTypes.Text.Blank
import ProseTypes.Text.LetterCase

/-!
# Primitive types

The built-in types that prose names, the vocabulary that names them, and how each is written.
-/

namespace ProseTypes

inductive Primitive where
  | string
  | integer
  | float
  | boolean
  | snowflake
  | null
  | timestamp
  | binary
  | imageData
  | dict
deriving DecidableEq, Repr

namespace Primitive

/-- The phrases that name a primitive type, in the singular. -/
def vocabulary : List (String × Primitive) := [
  ("string", string),
  ("str", string),
  ("text", string),
  ("integer", integer),
  ("int", integer),
  ("uint", integer),
  ("number", integer),
  ("float", float),
  ("double", float),
  ("boolean", boolean),
  ("bool", boolean),
  ("snowflake", snowflake),
  ("id", snowflake),
  ("null", null),
  ("iso8601 timestamp", timestamp),
  ("timestamp", timestamp),
  ("date", timestamp),
  ("binary", binary),
  ("file contents", binary),
  ("image data", imageData),
  ("dict", dict),
  ("map", dict)]

def untyped : List String := ["mixed", "any"]

/-- Closes the gap in the name of the standard for dates. -/
def joinStandard : List Char → List Char
  | 'i' :: 's' :: 'o' :: ' ' :: '8' :: '6' :: '0' :: '1' :: cs =>
    'i' :: 's' :: 'o' :: '8' :: '6' :: '0' :: '1' :: joinStandard cs
  | c :: cs => c :: joinStandard cs
  | [] => []

/-- The form in which phrases are compared: small letters and single spaces. -/
def normalize (phrase : String) : String :=
  String.ofList (joinStandard (Text.lower ([' '].intercalate (Text.words phrase.toList))))

def singular? (phrase : String) : Option String :=
  (Text.dropSuffix? ['s'] phrase.toList).map String.ofList

/-- The primitive type that a phrase names, in the singular or the plural. -/
def ofPhrase? (phrase : String) : Option Primitive :=
  let word := normalize phrase
  (vocabulary.lookup word).or ((singular? word).bind fun one => vocabulary.lookup one)

def isUntyped (phrase : String) : Bool :=
  untyped.contains (normalize phrase)

def typeText : Primitive → String
  | string | snowflake | timestamp | imageData => "string"
  | integer | float => "number"
  | boolean => "boolean"
  | null => "null"
  | binary => "Blob"
  | dict => "Record<string, unknown>"

end Primitive

end ProseTypes
