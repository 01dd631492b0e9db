import ProseTypes.Text.Blank

/-!
# Kinds of lines

A line of a document is classified on its own: as a heading, a code fence, a line of a quote, a
row of a table or the separator under a table's header row. The classes do not overlap, except
that a separator may also be a row.
-/

namespace ProseTypes

/-- What a heading line says: how deep the section is that it opens, and its title. -/
structure Heading where
  level : Nat
  title : String
deriving DecidableEq, Repr

namespace Line

def isSpaceOrTab (c : Char) : Bool :=
  c == ' ' || c == '\t'

/-- Drops a closing run of number signs, if blanks separate it from the text before it. -/
def dropClosing (cs : List Char) : List Char :=
  let text := Text.dropEndWhile isSpaceOrTab cs
  let stem := Text.dropEndWhile (· == '#') text
  let kept := Text.dropEndWhile isSpaceOrTab stem
  if stem.length < text.length && kept.length < stem.length then kept else text

/-- A heading is one to six number signs, then blanks, then the title. -/
def heading? (line : String) : Option Heading :=
  let marks := line.toList.takeWhile (· == '#')
  let after := line.toList.dropWhile (· == '#')
  if 1 ≤ marks.length && marks.length ≤ 6 && after.head?.any isSpaceOrTab &&
      !after.contains '\n' then
    some ⟨marks.length, String.ofList (Text.trim (dropClosing (after.dropWhile isSpaceOrTab)))⟩
  else none

/-- The three signs that open and close a block of code. -/
def fence : List Char := ['\x60', '\x60', '\x60']

/-- A fence line starts with three grave accents. -/
def isFence (line : String) : Bool :=
  fence.isPrefixOf (Text.trimStart line.toList)

/-- A line of a quote starts with an angle bracket that is followed by a space or by nothing. -/
def isQuote (line : String) : Bool :=
  match Text.trimStart line.toList with
  | ['>'] => true
  | '>' :: ' ' :: _ => true
  | _ => false

def unquoted (line : String) : String :=
  match Text.trimStart line.toList with
  | '>' :: ' ' :: rest => String.ofList rest
  | '>' :: rest => String.ofList rest
  | cs => String.ofList cs

def isRow (line : String) : Bool :=
  (Text.trimStart line.toList).head? == some '|'

/-- A cell of a separator line: dashes, with a colon at either end to align the column. -/
def isRule (cell : List Char) : Bool :=
  let cs := Text.dropEndWhile isSpaceOrTab (cell.dropWhile isSpaceOrTab)
  let cs := if cs.head? == some ':' then cs.tail else cs
  let cs := if cs.getLast? == some ':' then cs.dropLast else cs
  !cs.isEmpty && cs.all (· == '-')

def dropOpeningBar : List Char → List Char
  | '|' :: cs => cs
  | cs => cs

def dropClosingBar (cs : List Char) : List Char :=
  if cs.getLast? == some '|' then cs.dropLast else cs

/-- A separator line holds nothing but rules between bars; the outer bars may be left out. -/
def isSeparator (line : String) : Bool :=
  (Text.pieces (· == '|') (dropClosingBar (dropOpeningBar (Text.trim line.toList)))).all isRule

end Line

end ProseTypes
