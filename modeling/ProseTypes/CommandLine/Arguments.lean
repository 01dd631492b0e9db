import ProseTypes.Text.Number

/-!
# Arguments

What the command line says: the input files, options with a value, and switches. Each option and
each switch may be given once. Two hyphens alone end the options.
-/

namespace ProseTypes.CommandLine

inductive Setting where
  | output
  | format
  | root
  | stdinPath
  | requests
  | nesting
deriving DecidableEq, Repr

inductive Switch where
  | linkedOnly
  | verbose
deriving DecidableEq, Repr

/-- Why the arguments do not ask for a run: they are mistaken, or they ask for help. -/
inductive Refusal where
  | usage
  | help
deriving DecidableEq, Repr

structure Arguments where
  files : List String
  settings : List (Setting × String)
  switches : List Switch
deriving DecidableEq, Repr

/-- What one argument says by itself. An option without its value takes the next argument. -/
inductive Word where
  | file (path : String)
  | setting (setting : Setting) (value : Option String)
  | switch (switch : Switch)
  | help
  | mistake
deriving DecidableEq, Repr

def longSetting? (name : String) : Option Setting :=
  [("output", .output), ("format", .format), ("root", .root), ("stdin-path", .stdinPath),
    ("requests", .requests), ("nesting-threshold", .nesting)].lookup name

def longSwitch? (name : String) : Option Switch :=
  [("linked-only", .linkedOnly), ("verbose", .verbose)].lookup name

def shortSetting? (letter : Char) : Option Setting :=
  [('o', .output), ('f', .format), ('r', .root)].lookup letter

/-- What an argument after two hyphens says; a value may follow an equals sign. -/
def longWord (name : String) (value : Option String) : Word :=
  match longSetting? name, longSwitch? name, value with
  | some setting, _, value => .setting setting value
  | none, some switch, none => .switch switch
  | none, none, none => if name = "help" then .help else .mistake
  | none, _, some _ => .mistake

/-- What letters after one hyphen say. The rest of the letters is the value of an option; an
equals sign in front of it is dropped. -/
def letters : List Char → List Word
  | [] => []
  | c :: cs =>
    match shortSetting? c with
    | some setting =>
      match cs with
      | [] => [.setting setting none]
      | '=' :: value => [.setting setting (some (String.ofList value))]
      | value => [.setting setting (some (String.ofList value))]
    | none =>
      if c = 'v' then .switch .verbose :: letters cs
      else if c = 'h' then .help :: letters cs
      else [.mistake]

def words (argument : String) : List Word :=
  match argument.toList with
  | '-' :: '-' :: cs =>
    let name := cs.takeWhile (· != '=')
    let value := if cs.contains '=' then some (String.ofList (cs.drop (name.length + 1))) else none
    [longWord (String.ofList name) value]
  | '-' :: c :: cs => letters (c :: cs)
  | _ => [.file argument]

namespace Setting

/-- Says whether an option can have a value. A path is not empty, and the nesting level is a
number. -/
def allows (value : String) : Setting → Bool
  | output | root | requests => value != ""
  | format | stdinPath => true
  | nesting => (Text.number? value.toList).isSome

end Setting

namespace Arguments

def empty : Arguments := ⟨[], [], []⟩

def value? (arguments : Arguments) (setting : Setting) : Option String :=
  arguments.settings.lookup setting

def has (arguments : Arguments) (switch : Switch) : Bool :=
  arguments.switches.contains switch

/-- Gives an option its value, unless it has one. -/
def set (arguments : Arguments) (setting : Setting) (value : String) : Except Refusal Arguments :=
  if (arguments.value? setting).isSome || !setting.allows value then .error .usage
  else .ok ⟨arguments.files, arguments.settings ++ [(setting, value)], arguments.switches⟩

/-- Does what the words of one argument say; an option that lacks its value is left over. -/
def apply (arguments : Arguments) : List Word → Except Refusal (Arguments × Option Setting)
  | [] => .ok (arguments, none)
  | .file path :: rest =>
    apply ⟨arguments.files ++ [path], arguments.settings, arguments.switches⟩ rest
  | .setting setting none :: _ => .ok (arguments, some setting)
  | .setting setting (some value) :: rest =>
    match arguments.set setting value with
    | .ok arguments => apply arguments rest
    | .error refusal => .error refusal
  | .switch switch :: rest =>
    if arguments.has switch then .error .usage
    else apply ⟨arguments.files, arguments.settings, arguments.switches ++ [switch]⟩ rest
  | .help :: _ => .error .help
  | .mistake :: _ => .error .usage

/-- Says whether an argument can be the value of the option before it: it has no hyphen in front,
or is nothing else. -/
def isValue (argument : String) : Bool :=
  argument == "-" || argument.toList.head? != some '-'

def readFrom (arguments : Arguments) : List String → Except Refusal Arguments
  | [] => .ok arguments
  | argument :: rest =>
    if argument = "--" then
      .ok ⟨arguments.files ++ rest, arguments.settings, arguments.switches⟩
    else
      match arguments.apply (words argument) with
      | .error refusal => .error refusal
      | .ok (arguments, none) => arguments.readFrom rest
      | .ok (arguments, some setting) =>
        match rest with
        | [] => .error .usage
        | value :: rest =>
          if !isValue value then .error .usage
          else
            match arguments.set setting value with
            | .ok arguments => arguments.readFrom rest
            | .error refusal => .error refusal

def read (arguments : List String) : Except Refusal Arguments :=
  empty.readFrom arguments

end Arguments

end ProseTypes.CommandLine
