/-!
# Lines of a text

A line ends at a line feed, which may have one carriage return before it. A text that ends with
a line feed has no empty line after it.
-/

namespace ProseTypes.Text

/-- Splits characters into lines and drops the line ends. -/
def splitLines : List Char → List (List Char)
  | [] => []
  | '\r' :: '\n' :: cs => [] :: splitLines cs
  | '\n' :: cs => [] :: splitLines cs
  | c :: cs =>
    match splitLines cs with
    | [] => [[c]]
    | line :: rest => (c :: line) :: rest

def lines (text : String) : List String :=
  (splitLines text.toList).map String.ofList

end ProseTypes.Text
