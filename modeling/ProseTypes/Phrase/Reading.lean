import ProseTypes.Phrase.Form
import ProseTypes.Resource.Basic
import ProseTypes.Symbol

/-!
# Readings of phrases

The reading of a phrase is the type that it means: a tree with a primitive type, a resource that
a link binds to, or nothing known at each leaf. It depends on the phrase and the link index
alone. Each leaf carries what is to be said about it.
-/

namespace ProseTypes

structure Leaf (index : LinkIndex) where
  notes : List Note
  atom : Atom index.Linked
deriving Repr

abbrev Reading (index : LinkIndex) := TypeTree (Leaf index)

namespace Leaf

variable {index : LinkIndex}

/-- A leaf that says nothing and of which nothing is known. -/
def unknown : Leaf index := ⟨[], .unknown⟩

def headNoun? (words : String) : Option String :=
  (Text.cutLast? (· == ' ') words.toList).map fun cut => String.ofList cut.2

def primitive? (words : String) : Option Primitive :=
  (Primitive.ofPhrase? words).or ((headNoun? words).bind Primitive.ofPhrase?)

def ofWords (notes : List Note) (words : String) : Leaf index :=
  match primitive? words with
  | some p => ⟨notes, .primitive p⟩
  | none =>
    if Primitive.isUntyped words then ⟨notes, .unknown⟩
    else ⟨notes ++ [.unresolvedPhrase words], .unknown⟩

/-- The leaf for a phrase that names its type. A link names the resource that it binds to, and if
there is none, its text is read as words. -/
def ofTokens (tokens : List Token) : Leaf index :=
  match tokens with
  | [.link text target] =>
    match index.link target with
    | .ok linked => ⟨[], .named linked⟩
    | .error note => ofWords [note] text
  | _ => ofWords [] (Token.plainText tokens)

end Leaf

namespace Reading

def ofTokens (index : LinkIndex) (tokens : List Token) : Reading index :=
  if _empty : tokens = [] then .leaf .unknown
  else
    match _form : Form.ofTokens tokens with
    | .nothing => .leaf .unknown
    | .array element => .array (ofTokens index element)
    | .nullable inner => .nullable (ofTokens index inner)
    | .partialOf inner => .partialOf (ofTokens index inner)
    | .either left right => .either (ofTokens index left) (ofTokens index right)
    | .reduced inner => ofTokens index inner
    | .name => .leaf (.ofTokens tokens)
termination_by tokens.length
decreasing_by
  all_goals
    have hSize := Form.size_ofTokens_lt ‹¬tokens = []›
    simp only [*, Form.size] at hSize
    omega

def ofPhrase (index : LinkIndex) (phrase : String) : Reading index :=
  ofTokens index (Token.ofPhrase phrase)

/-- The text of a type as read, where a resource stands under the name it gets. -/
def text {index : LinkIndex} (reading : Reading index) : String :=
  TypeTree.text (fun leaf => leaf.atom.text fun linked => linked.1.name) reading

end Reading

end ProseTypes
