/-!
# Trees of types

A type expression is a tree: arrays, optional values, partial objects and alternatives over
leaves. What the leaves are is a parameter, because a tree is first read from prose, with links
at its leaves, and later refers to registered structures.
-/

namespace ProseTypes

/-- Type expressions over leaves in `α`. -/
inductive TypeTree (α : Type) where
  | leaf (a : α)
  | array (element : TypeTree α)
  | nullable (inner : TypeTree α)
  | partialOf (inner : TypeTree α)
  | either (left right : TypeTree α)
deriving DecidableEq, Repr

namespace TypeTree

variable {α β : Type}

def map (f : α → β) : TypeTree α → TypeTree β
  | leaf a => leaf (f a)
  | array t => array (t.map f)
  | nullable t => nullable (t.map f)
  | partialOf t => partialOf (t.map f)
  | either l r => either (l.map f) (r.map f)

def leaves : TypeTree α → List α
  | leaf a => [a]
  | array t | nullable t | partialOf t => t.leaves
  | either l r => l.leaves ++ r.leaves

def isUnion : TypeTree α → Bool
  | either .. | nullable _ => true
  | _ => false

def isEither : TypeTree α → Bool
  | either .. => true
  | _ => false

def isNullable : TypeTree α → Bool
  | nullable _ => true
  | _ => false

/-- The text of a type, given the text of its leaves. A union under an array stands in
parentheses, and so do alternatives that may also be null; null is named only once. -/
def text (leafText : α → String) : TypeTree α → String
  | leaf a => leafText a
  | array t => (if t.isUnion then "(" ++ t.text leafText ++ ")" else t.text leafText) ++ "[]"
  | nullable t =>
    if t.isNullable then t.text leafText
    else if t.isEither then "(" ++ t.text leafText ++ ")|null"
    else t.text leafText ++ "|null"
  | partialOf t => "Partial<" ++ t.text leafText ++ ">"
  | either l r => l.text leafText ++ "|" ++ r.text leafText

/-- The leaf below arrays, optional values and partial objects; alternatives have no single
one. -/
def root? : TypeTree α → Option α
  | leaf a => some a
  | array t | nullable t | partialOf t => t.root?
  | either .. => none

end TypeTree

end ProseTypes
