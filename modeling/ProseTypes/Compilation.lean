import ProseTypes.Agenda

/-!
# Compilation

A corpus is compiled by taking its sections in document order. A request registers the structures
of its body and query and what its response links to; what is nested in a request belongs to it.
Every other section with a table of its own is registered as well, unless only linked structures
are wanted. Besides compiling, a corpus can be asked for the meaning of single phrases and links.
-/

namespace ProseTypes

/-- Which structures a compilation registers: those of all sections, or only those that requests
lead to. -/
inductive Scope where
  | everything
  | linkedOnly
deriving DecidableEq, Repr

namespace Progress

variable (index : LinkIndex) (progress : Progress)

def resolvePhrase (phrase : String) : Symbol × Progress :=
  let reading := Reading.ofPhrase index phrase
  let after := progress.resolve index reading
  (after.registry.symbol reading, after)

def refer (resource : Resource) : StructureRef × Progress :=
  let after := progress.register index resource
  (after.registry.refTo resource.name, after)

def followLink (target : String) : Option StructureRef × Progress :=
  match index.link target with
  | .ok linked =>
    let (ref, after) := progress.refer index linked.1
    (some ref, after)
  | .error note => (none, progress.say note)

def enterSection (target : Target) : Option StructureRef × Progress :=
  match target.resource with
  | .ok resource =>
    let (ref, after) := progress.refer index resource
    (some ref, after)
  | .error note => (none, progress.say note)

def referAny (resource : Option Resource) : Option Symbol × Progress :=
  match resource with
  | some resource =>
    let (ref, after) := progress.refer index resource
    (some (Symbol.ofRef ref), after)
  | none => (none, progress)

def resolveAny (phrase : Option String) : Option Symbol × Progress :=
  match phrase with
  | some phrase =>
    let (symbol, after) := progress.resolvePhrase index phrase
    (some symbol, after)
  | none => (none, progress)

def addRequest (target : Target) (title : RequestTitle) : Progress :=
  let (body, progress) := progress.referAny index (Request.body? target title)
  let (query, progress) := progress.referAny index (Request.query? target title)
  let (response, progress) := progress.resolveAny index (Request.responsePhrase? target.here)
  (progress.say (.request title.verb.text title.template.path target.anchor)).add
    ⟨title, target.anchor, body, query, response⟩

/-- Registers the structure that a section defines by a table of its own. -/
def addOwn (target : Target) : Progress :=
  match target.here.ownTable? with
  | none => progress
  | some choice =>
    match target.named choice with
    | .ok resource => progress.register index resource
    | .error note => progress.say note

def addSection (scope : Scope) (target : Target) : Progress :=
  match target.here.requestTitle?, scope with
  | some title, _ => progress.addRequest index target title
  | none, .everything => progress.addOwn index target
  | none, .linkedOnly => progress

end Progress

namespace Corpus

def index (corpus : Corpus) : LinkIndex :=
  .ofCorpus corpus

/-- The sections that a compilation takes: all but whole documents and what is nested in a
request. -/
def subjects (corpus : Corpus) : List Target :=
  corpus.targets.filter fun target =>
    target.here.level != 0 && !target.visit.ancestors.any fun a => a.requestTitle?.isSome

def compileFrom (corpus : Corpus) (scope : Scope) (progress : Progress) : Progress :=
  let index := corpus.index
  corpus.subjects.foldl (fun progress target => progress.addSection index scope target) progress

def start (corpus : Corpus) : Progress :=
  .start (LinkIndex.notes corpus)

def compile (corpus : Corpus) (scope : Scope) : Progress :=
  corpus.compileFrom scope corpus.start

end Corpus

/-- What can be asked of a corpus, in any order and any number of times. -/
inductive Operation where
  | resolvePhrase (phrase : String)
  | followLink (target : String)
  | enterSection (target : Target)
  | register (resource : Resource)
  | compile

def Operation.perform (corpus : Corpus) (scope : Scope) (progress : Progress) :
    Operation → Progress
  | resolvePhrase phrase => (progress.resolvePhrase corpus.index phrase).2
  | followLink target => (progress.followLink corpus.index target).2
  | enterSection target => (progress.enterSection corpus.index target).2
  | register resource => progress.register corpus.index resource
  | compile => corpus.compileFrom scope progress

def Corpus.perform (corpus : Corpus) (scope : Scope) (operations : List Operation) : Progress :=
  operations.foldl (Operation.perform corpus scope) corpus.start

end ProseTypes
