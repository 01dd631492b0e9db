import ProseTypes.Document.Line

/-!
# Tables

A table has headers, no two of which differ only in the case of ASCII letters, and rows of cells
under them. A row may be short. A column whose header repeats an earlier one is left out, and
cells beyond the last column are joined to the last cell.
-/

namespace ProseTypes

structure Table where
  headers : List String
  rows : List (List String)
deriving DecidableEq, Repr

namespace Table

/-- The stretches between bars, where a backslash before a bar makes it part of the cell. -/
def rawCells : List Char → List (List Char)
  | [] => [[]]
  | '\\' :: '|' :: cs =>
    match rawCells cs with
    | [] => [['|']]
    | cell :: rest => ('|' :: cell) :: rest
  | '|' :: cs => [] :: rawCells cs
  | c :: cs =>
    match rawCells cs with
    | [] => [[c]]
    | cell :: rest => (c :: cell) :: rest

/-- Drops one bar at the end, unless a backslash stands before it. -/
def dropOuterBar (cs : List Char) : List Char :=
  match cs.reverse with
  | '|' :: '\\' :: _ => cs
  | '|' :: before => before.reverse
  | _ => cs

/-- The cells of a row, without the outer bars and the blanks around each cell. -/
def splitRow (line : String) : List String :=
  (rawCells (dropOuterBar (Line.dropOpeningBar (Text.trim line.toList)))).map
    fun cell => String.ofList (Text.trim cell)

/-- Marks the headers that repeat none of `seen` and none before them. -/
def distinctFrom (seen : List String) : List String → List Bool
  | [] => []
  | header :: rest =>
    (!seen.any (Text.sameLetters · header)) :: distinctFrom (seen ++ [header]) rest

def select {α : Type} : List Bool → List α → List α
  | keep :: marks, a :: as => if keep then a :: select marks as else select marks as
  | _, _ => []

def extendLast : (cells extra : List String) → List String
  | cells, [] => cells
  | [], extra => extra
  | [cell], extra => [Text.join " | " (cell :: extra)]
  | cell :: rest, extra => cell :: extendLast rest extra

/-- The cells of a row under the columns that `marks` keeps. -/
def fitRow (marks : List Bool) (cells : List String) : List String :=
  extendLast (select marks cells) (cells.drop marks.length)

/-- Reads a table from its header row and its body rows. There is none if every header is
empty. -/
def ofLines? (header : String) (body : List String) : Option Table :=
  let raw := splitRow header
  let marks := distinctFrom [] raw
  let headers := select marks raw
  if headers.all (·.isEmpty) then none
  else some ⟨headers, body.map fun line => fitRow marks (splitRow line)⟩

/-- The index of the column with a header, compared without regard to the case of ASCII
letters. -/
def column? (table : Table) (name : String) : Option Nat :=
  table.headers.findIdx? fun header => Text.sameLetters (Text.trimmed header) name

def hasColumns (table : Table) (names : List String) : Bool :=
  names.all fun name => (table.column? name).isSome

def cell? (table : Table) (row : List String) (name : String) : Option String :=
  (table.column? name).bind fun i => row[i]?

end Table

end ProseTypes
