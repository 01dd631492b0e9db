import ProseTypes.Registry
import ProseTypes.Request.Basic

/-!
# Registration

Registering a resource registers everything that its fields link to as well, and so on. The work
that is still to be done is an agenda. Its first task is done next; visiting a resource that is
not registered yet declares it and puts the tasks for its members in front. Each visit that does
so registers one more of the finitely many resources that links can bind to, so the work ends on
every link graph.
-/

namespace ProseTypes

inductive Task (index : LinkIndex) where
  | say (note : Note)
  | visit (linked : index.Linked)
  | complete (resource : Resource)

/-- The registry, the requests and the notes so far. -/
structure Progress where
  registry : Registry
  requests : List Request
  journal : List Note
deriving DecidableEq, Repr

namespace Progress

def start (journal : List Note) : Progress :=
  ⟨.empty, [], journal⟩

def say (progress : Progress) (note : Note) : Progress :=
  ⟨progress.registry, progress.requests, progress.journal ++ [note]⟩

def declare (progress : Progress) (resource : Resource) : Progress :=
  ⟨progress.registry.declare resource, progress.requests, progress.journal⟩

def complete (progress : Progress) (index : LinkIndex) (resource : Resource) : Progress :=
  ⟨progress.registry.completeAs index resource, progress.requests, progress.journal⟩

def add (progress : Progress) (request : Request) : Progress :=
  ⟨progress.registry, progress.requests ++ [request], progress.journal⟩

end Progress

/-- The tasks for a leaf of a reading: its notes, and a visit to the resource that it names. -/
def Leaf.tasks {index : LinkIndex} (leaf : Leaf index) : List (Task index) :=
  leaf.notes.map .say ++ leaf.atom.ref?.toList.map .visit

def Reading.tasks {index : LinkIndex} (reading : Reading index) : List (Task index) :=
  (TypeTree.leaves reading).flatMap Leaf.tasks

def Resource.tasks (index : LinkIndex) (resource : Resource) : List (Task index) :=
  (resource.draft index).fields.flatMap (fun field => Reading.tasks field.type) ++
    resource.notes.map .say ++ [.complete resource]

namespace Agenda

/-- The number of resources that links can bind to and whose names are not registered. -/
def remaining (index : LinkIndex) (registry : Registry) : Nat :=
  index.resources.countP fun resource => !registry.has resource.name

theorem remaining_declare_lt {index : LinkIndex} {registry : Registry} {linked : index.Linked}
    (hNew : registry.has linked.1.name = false) :
    remaining index (registry.declare linked.1) < remaining index registry := by
  have hMono (r : Resource) (h : (!(registry.declare linked.1).has r.name) = true) :
      (!registry.has r.name) = true := by
    rw [Registry.has_declare, Bool.not_or, Bool.and_eq_true] at h
    exact h.2
  have hHere : (!(registry.declare linked.1).has linked.1.name) = false := by
    simp
  have hCount (rs : List Resource) (hMem : linked.1 ∈ rs) :
      rs.countP (fun r => !(registry.declare linked.1).has r.name) <
        rs.countP fun r => !registry.has r.name := by
    induction rs with
    | nil => cases hMem
    | cons r rs ih =>
      have hTail : rs.countP (fun r => !(registry.declare linked.1).has r.name) ≤
          rs.countP fun r => !registry.has r.name :=
        List.countP_mono_left fun r _ => hMono r
      rcases List.mem_cons.1 hMem with rfl | hMem
      · rw [List.countP_cons, List.countP_cons]
        simp only [hHere, hNew, Bool.not_false, if_true, Bool.false_eq_true, if_false]
        omega
      · have := ih hMem
        rw [List.countP_cons, List.countP_cons]
        have hHead := hMono r
        split
        · rw [if_pos (hHead (by assumption))]
          omega
        · omega
  exact hCount _ linked.2

theorem remaining_completeAs (index : LinkIndex) (registry : Registry) (resource : Resource) :
    remaining index (registry.completeAs index resource) = remaining index registry := by
  simp only [remaining, Registry.completeAs, Registry.has_complete]

def run (index : LinkIndex) (progress : Progress) : List (Task index) → Progress
  | [] => progress
  | .say note :: rest => run index (progress.say note) rest
  | .visit linked :: rest =>
    if _known : progress.registry.has linked.1.name then
      run index (progress.say (.alreadyRegistered linked.1.name)) rest
    else run index (progress.declare linked.1) (linked.1.tasks index ++ rest)
  | .complete resource :: rest => run index (progress.complete index resource) rest
termination_by agenda => (remaining index progress.registry, agenda.length)
decreasing_by
  · exact Prod.Lex.right _ (Nat.lt_succ_self _)
  · exact Prod.Lex.right _ (Nat.lt_succ_self _)
  · exact Prod.Lex.left _ _ (remaining_declare_lt (eq_false_of_ne_true ‹¬_›))
  · simp only [Progress.complete, remaining_completeAs]
    exact Prod.Lex.right _ (Nat.lt_succ_self _)

end Agenda

namespace Progress

/-- Registers a resource and all that it links to; a name that is registered already keeps the
structure that it has. -/
def register (index : LinkIndex) (progress : Progress) (resource : Resource) : Progress :=
  if progress.registry.has resource.name then progress.say (.alreadyRegistered resource.name)
  else Agenda.run index (progress.declare resource) (resource.tasks index)

def resolve (index : LinkIndex) (progress : Progress) (reading : Reading index) : Progress :=
  Agenda.run index progress (Reading.tasks reading)

end Progress

end ProseTypes
