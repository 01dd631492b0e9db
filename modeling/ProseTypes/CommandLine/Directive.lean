import ProseTypes.Expression.WellFormed
import ProseTypes.Note
import ProseTypes.Text.Bytes
import ProseTypes.Text.Number

/-!
# Directives of a log filter

A directive names a part of the program and the least urgency that its notes must have. Brackets
between the two may name a span of the run and, in braces, a field, with an equals sign and a
value behind it. There are no spans here, so no note meets a condition on a span or on a value.
-/

namespace ProseTypes.CommandLine

/-- The least urgency of the notes that come from parts whose names start with `target`, and that
carry the field, if one is named. Nothing is shown if there is no urgency. -/
structure Directive where
  target : Option String
  field : Option String
  least : Option Urgency
deriving DecidableEq, Repr

/-- What brackets ask for: that a note carries a field, or something that no note meets. -/
inductive Condition where
  | field (name : String)
  | unmet
deriving DecidableEq, Repr

/-- What a part of a filter says: a directive, or one with a condition that lets no note
through. -/
inductive FilterPart where
  | directive (directive : Directive)
  | never
deriving DecidableEq, Repr

/-- What stands in a filter between two commas, as it is given and without the blanks around it.
Where its pieces lie is found in the second text by their bytes, but they are cut from the first,
so blanks in front shift them. -/
structure PartText where
  given : List Char
  inner : List Char

namespace PartText

def ofChars (cs : List Char) : PartText :=
  ⟨cs, Text.trim cs⟩

def restFrom (text : PartText) (start : List Char) : List Char :=
  Text.dropBytes (Text.byteCount text.inner - Text.byteCount start) text.given

def piece (text : PartText) (start stop : List Char) : List Char :=
  Text.takeBytes (Text.byteCount start - Text.byteCount stop) (text.restFrom start)

end PartText

namespace Condition

/-- Reads what stands in braces. The value of a field is a number or a regular expression, and
ends before another equals sign. -/
def ofField? (cs : List Char) : Option Condition :=
  match Text.pieces (· == '=') cs with
  | [name] => some (field (String.ofList name))
  | _ :: value :: _ =>
    if Text.isNumeral value || Expression.isWellFormed value then some unmet else none
  | [] => none

/-- Reads a condition whose opening bracket has been read, and gives what follows its closing
bracket. -/
def read? (text : PartText) (cs : List Char) : Option (Condition × List Char) :=
  let inside := cs.dropWhile fun c => c != ']' && c != '{'
  match inside with
  | ']' :: after => some (unmet, after)
  | '{' :: name =>
    match name.dropWhile (· != '}') with
    | '}' :: ']' :: after =>
      if name.head? == some '}' then none
      else
        (ofField? (text.piece name ('}' :: ']' :: after))).map fun condition =>
          (if inside.length = cs.length then condition else unmet, after)
    | _ => none
  | _ => none

end Condition

namespace FilterPart

def byNumber : List (Nat × Option Urgency) :=
  [(0, none), (1, some .error), (2, some .warning), (3, some .info), (4, some .debug),
    (5, some .trace)]

def byName : List (String × Option Urgency) :=
  [("off", none), ("error", some .error), ("warn", some .warning), ("info", some .info),
    ("debug", some .debug), ("trace", some .trace)]

/-- The urgency with a number or a name, without regard to the case of ASCII letters. -/
def level? (word : List Char) : Option (Option Urgency) :=
  ((Text.number? word).bind fun n => byNumber.lookup n).or
    (byName.lookup (String.ofList (Text.foldCase word)))

/-- The urgency that a directive ends with, behind an equals sign; if it is left out, everything
counts. -/
def least? (text : PartText) : (ending : List Char) → Option (Option Urgency)
  | [] => some (some .trace)
  | '=' :: word =>
    let word := text.restFrom word
    if word.isEmpty then some (some .trace) else level? word
  | _ => none

/-- A single word: an urgency, or a part of the program of which everything counts. -/
def ofWord (word : List Char) : FilterPart :=
  match level? word with
  | some least => directive ⟨none, none, least⟩
  | none => directive ⟨some (String.ofList word), none, some .trace⟩

def isStart (c : Char) : Bool :=
  Text.isAlphanumeric c || c == '-' || c == ':' || c == '_' || c == '['

def endsName (c : Char) : Bool :=
  c == '=' || c == '['

def ofChars? (cs : List Char) : Option FilterPart :=
  let text := PartText.ofChars cs
  let ending := text.inner.dropWhile fun c => !endsName c
  let target := text.piece text.inner ending
  let target := if target.isEmpty then none else some (String.ofList target)
  if !text.inner.head?.any isStart then none
  else
    match ending with
    | [] => some (ofWord cs)
    | '[' :: inside =>
      (Condition.read? text inside).bind fun (condition, ending) =>
        (least? text ending).map fun least =>
          match condition with
          | .field name => directive ⟨target, some name, least⟩
          | .unmet => never
    | _ => (least? text ending).map fun least => directive ⟨target, none, least⟩

def directive? : FilterPart → Option Directive
  | directive d => some d
  | never => none

end FilterPart

end ProseTypes.CommandLine
