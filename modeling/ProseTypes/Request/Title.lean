import ProseTypes.Request.Template

/-!
# Titles of requests

A section documents a request if its title has a name, a percent sign, a verb and a path.
-/

namespace ProseTypes

inductive Verb where
  | get
  | post
  | put
  | patch
  | delete
deriving DecidableEq, Repr

namespace Verb

def all : List Verb := [get, post, put, patch, delete]

def text : Verb → String
  | get => "GET"
  | post => "POST"
  | put => "PUT"
  | patch => "PATCH"
  | delete => "DELETE"

/-- Reads a verb without regard to the case of ASCII letters. -/
def ofText? (word : String) : Option Verb :=
  all.find? fun verb => Text.sameLetters word verb.text

end Verb

structure RequestTitle where
  name : String
  verb : Verb
  template : PathTemplate
deriving DecidableEq, Repr

namespace RequestTitle

/-- Reads a title; there is none if the title is an ordinary one. -/
def ofTitle? (title : String) : Option RequestTitle :=
  (Text.cutFirst? (· == '%') title.toList).bind fun (name, action) =>
    (Text.cutFirst? Text.isBlank (Text.trim action)).bind fun (verb, path) =>
      (Verb.ofText? (String.ofList verb)).bind fun verb =>
        let path := Text.trim path
        if path.isEmpty then none
        else some ⟨String.ofList (Text.trim name), verb, PathTemplate.ofPath (String.ofList path)⟩

end RequestTitle

end ProseTypes
