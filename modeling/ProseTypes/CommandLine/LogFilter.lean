import ProseTypes.CommandLine.Directive

/-!
# Log filters

A log filter says which notes are shown. It is a list of directives, of which the most particular
one counts: the one for the longest part of the program, and of those one that names a field.
-/

namespace ProseTypes.CommandLine

structure LogFilter where
  directives : List Directive
deriving DecidableEq, Repr

namespace LogFilter

def atLeast (urgency : Urgency) : LogFilter :=
  ⟨[⟨none, none, some urgency⟩]⟩

/-- Reads a filter. One that says nothing lets errors through. -/
def ofText? (text : String) : Option LogFilter :=
  let parts := (Text.pieces (· == ',') text.toList).filter fun part => !part.isEmpty
  if parts.isEmpty then some (atLeast .error)
  else (parts.mapM FilterPart.ofChars?).map fun parts => ⟨parts.filterMap FilterPart.directive?⟩

/-- The filter for a run: everything but traces if asked for, else what the environment says, and
warnings if that says nothing sensible. -/
def choose (verbose : Bool) (environment : Option String) : LogFilter :=
  if verbose then atLeast .debug else (environment.bind ofText?).getD (atLeast .warning)

def noteField : String := "message"

/-- Says whether a directive is about the notes from a part of the program. -/
def concerns (source : String) (directive : Directive) : Bool :=
  (directive.target.all fun target => target.toList.isPrefixOf source.toList) &&
    directive.field.all (· == noteField)

/-- How particular a directive is. Naming no part of the program is less than naming any, and
the field decides between equals. -/
def weight (directive : Directive) : Nat :=
  2 * (directive.target.map fun target => target.length + 1).getD 0 +
    if directive.field.isSome then 1 else 0

/-- The more particular of two directives; of equals the later one. -/
def sharper (best : Option Directive) (directive : Directive) : Option Directive :=
  match best with
  | some b => if weight directive < weight b then best else some directive
  | none => some directive

def decisive? (filter : LogFilter) (source : String) : Option Directive :=
  (filter.directives.filter (concerns source)).foldl sharper none

def sourceOf (program : String) (note : Note) : String :=
  Text.join "::" (program :: note.origin)

def shows (filter : LogFilter) (program : String) (note : Note) : Bool :=
  ((filter.decisive? (sourceOf program note)).bind Directive.least).any fun least =>
    least.rank ≤ note.urgency.rank

end LogFilter

end ProseTypes.CommandLine
