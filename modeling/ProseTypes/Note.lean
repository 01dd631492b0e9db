/-!
# Notes

What the program has to say about its input while it works: each cause is a constructor, and its
urgency, the part of the program that it comes from and its wording are functions of it.
-/

namespace ProseTypes

inductive Urgency where
  | trace
  | debug
  | info
  | warning
  | error
deriving DecidableEq, Repr

namespace Urgency

/-- Urgencies as numbers; a more urgent note has a greater one. -/
def rank : Urgency → Nat
  | trace => 0
  | debug => 1
  | info => 2
  | warning => 3
  | error => 4

def word : Urgency → String
  | trace => "TRACE"
  | debug => "DEBUG"
  | info => "INFO"
  | warning => "WARN"
  | error => "ERROR"

end Urgency

/-- Something worth saying about the input. -/
inductive Note where
  | duplicateAnchor (anchor path : String)
  | indexed (anchors documents : Nat)
  | unresolvedTarget (target : String)
  | unresolvedPhrase (words : String)
  | noTable (title anchor : String)
  | noName (title : String)
  | alreadyRegistered (name : String)
  | noValue (constant : String)
  | request (method path anchor : String)
  | noMatch (pattern : String)
  | read (path : String) (lines : Nat)
  | skipped (path reason : String)
  | wrote (path : String)
  | finished (structures files sources : Nat)
deriving DecidableEq, Repr

namespace Note

def urgency : Note → Urgency
  | duplicateAnchor .. | unresolvedTarget _ | noTable .. | noName _ | noMatch _ | skipped .. =>
    .warning
  | finished .. => .info
  | indexed .. | unresolvedPhrase _ | alreadyRegistered _ | noValue _ | request .. | read ..
  | wrote _ => .debug

/-- The part of the program that a note comes from, as a path below the program's name. -/
def origin : Note → List String
  | duplicateAnchor .. => ["links"]
  | unresolvedTarget _ | unresolvedPhrase _ => ["compiler", "resolve"]
  | indexed .. | noTable .. | noName _ | alreadyRegistered _ | noValue _ | request .. =>
    ["compiler"]
  | noMatch _ | read .. | skipped .. => ["source"]
  | wrote _ | finished .. => []

def text : Note → String
  | duplicateAnchor anchor path => "duplicate anchor " ++ anchor ++ " in " ++ path
  | indexed anchors documents =>
    "indexed " ++ anchors.repr ++ " anchors across " ++ documents.repr ++ " documents"
  | unresolvedTarget target => "unresolved link target " ++ target
  | unresolvedPhrase words => "unresolved type phrase \"" ++ words ++ "\""
  | noTable title anchor =>
    "no field or value table under \"" ++ title ++ "\" (" ++ anchor ++ ")"
  | noName title => "cannot derive a structure name from \"" ++ title ++ "\""
  | alreadyRegistered name => "structure " ++ name ++ " already registered"
  | noValue constant => "enum constant " ++ constant ++ " has no value"
  | request method path anchor => "request " ++ method ++ " " ++ path ++ " " ++ anchor
  | noMatch pattern => "no files matched: " ++ pattern
  | read path lines => "read " ++ path ++ " (" ++ lines.repr ++ " lines)"
  | skipped path reason => "skipping " ++ path ++ ": " ++ reason
  | wrote path => "wrote " ++ path
  | finished structures files sources =>
    structures.repr ++ " structures in " ++ files.repr ++ " files from " ++ sources.repr ++
      " sources"

/-- A note as a line: how urgent it is, then its wording. -/
def line (note : Note) : String :=
  note.urgency.word ++ " " ++ note.text

end Note

end ProseTypes
