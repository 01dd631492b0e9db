import ProseTypes.CommandLine.LogFilter

/-!
# The log

How notes are written to the error stream: the urgency, then the wording, in which the control
characters that a terminal would obey are spelled out.
-/

namespace ProseTypes.CommandLine

def hexPair (n : Nat) : List Char :=
  [Nat.digitChar (n / 16), Nat.digitChar (n % 16)]

def logChar (c : Char) : List Char :=
  let n := c.toNat
  if n = 0x07 || n = 0x08 || n = 0x0c || n = 0x1b || n = 0x7f then '\\' :: 'x' :: hexPair n
  else if 0x80 ≤ n && n ≤ 0x9f then '\\' :: 'u' :: '{' :: hexPair n ++ ['}']
  else [c]

def logLine (note : Note) : String :=
  note.urgency.word ++ " " ++ String.ofList (note.text.toList.flatMap logChar)

def LogFilter.lines (filter : LogFilter) (program : String) (journal : List Note) : List String :=
  (journal.filter (filter.shows program)).map logLine

end ProseTypes.CommandLine
