import ProseTypes.CommandLine.Arguments
import ProseTypes.Compilation
import ProseTypes.Rendering.Format

/-!
# Meaning of the options

What the arguments of a run say about the compilation and its output, with what holds where they
say nothing.
-/

namespace ProseTypes.CommandLine.Arguments

def documentPath (arguments : Arguments) : String :=
  (arguments.value? .stdinPath).getD "stdin.md"

def format (arguments : Arguments) : Except Failure Format :=
  Format.ofName ((arguments.value? .format).getD "typescript")

def nesting (arguments : Arguments) : Nat :=
  ((arguments.value? .nesting).bind fun value => Text.number? value.toList).getD 1

def scope (arguments : Arguments) : Scope :=
  if arguments.has .linkedOnly then .linkedOnly else .everything

def compile (arguments : Arguments) (documents : List Document) : Progress :=
  Corpus.compile ⟨documents, arguments.nesting⟩ arguments.scope

end ProseTypes.CommandLine.Arguments
