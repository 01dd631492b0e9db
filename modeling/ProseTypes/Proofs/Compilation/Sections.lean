import ProseTypes.Proofs.Compilation.Ends
import ProseTypes.Proofs.Resolution.Kept

/-!
# What sections do to the registry

When everything is compiled, a section asks for resources, and the response of a request links to
more.  Seen from the registry alone, these resources are entered one after the other, and then the
links are visited (`Progress.registry_addSection`).  So a compilation is one pass over its sections
(`Corpus.registry_compile`).

* `serveAll_induction`: what registrations and visits keep, a pass keeps.
* `has_serveAll_of_asked`, `has_serveAll_of_response`: what a section asks for is registered then.
* `Corpus.holds_compile_of_first`: what the first section registers is still there at the end.
-/

namespace ProseTypes

variable {index : LinkIndex}

def Request.resources (target : Target) (title : RequestTitle) : List Resource :=
  (Request.body? target title).toList ++ (Request.query? target title).toList

namespace Target

/-- The resources that a section is asked for when everything is compiled. -/
def asked (target : Target) : List Resource :=
  match target.here.requestTitle? with
  | some title => Request.resources target title
  | none => target.own?.toList

def responsePhrase? (target : Target) : Option String :=
  target.here.requestTitle?.bind fun _ => Request.responsePhrase? target.here

/-- What the response of a request links to. -/
def responseLinks (index : LinkIndex) (target : Target) : List index.Linked :=
  target.responsePhrase?.toList.flatMap fun phrase => (Reading.ofPhrase index phrase).links

end Target

namespace Registry

def enterAll (index : LinkIndex) (registry : Registry) (resources : List Resource) : Registry :=
  resources.foldl (enter index) registry

/-- Registers what a section asks for, and then what its response links to. -/
def serve (index : LinkIndex) (registry : Registry) (target : Target) : Registry :=
  (registry.enterAll index target.asked).reach index (target.responseLinks index)

def serveAll (index : LinkIndex) (registry : Registry) (targets : List Target) : Registry :=
  targets.foldl (serve index) registry

theorem enterAll_append (registry : Registry) (first second : List Resource) :
    registry.enterAll index (first ++ second) =
      (registry.enterAll index first).enterAll index second :=
  List.foldl_append

theorem serveAll_append (registry : Registry) (first second : List Target) :
    registry.serveAll index (first ++ second) =
      (registry.serveAll index first).serveAll index second :=
  List.foldl_append

section

variable {P : Registry → Prop} {registry : Registry}

theorem enterAll_induction {resources : List Resource}
    (hEnter : ∀ r, ∀ resource ∈ resources, P r → P (r.enter index resource)) (h : P registry) :
    P (registry.enterAll index resources) := by
  induction resources generalizing registry with
  | nil => exact h
  | cons first rest ih =>
    refine ih (fun r resource hMem => hEnter r resource (List.mem_cons_of_mem _ hMem)) ?_
    exact hEnter registry first List.mem_cons_self h

theorem serve_induction {target : Target}
    (hEnter : ∀ r, ∀ resource ∈ target.asked, P r → P (r.enter index resource))
    (hReach : ∀ r, P r → P (r.reach index (target.responseLinks index))) (h : P registry) :
    P (registry.serve index target) :=
  hReach _ (enterAll_induction hEnter h)

/-- **What registrations and visits keep, a pass over sections keeps.** -/
theorem serveAll_induction {targets : List Target}
    (hEnter : ∀ r, ∀ target ∈ targets, ∀ resource ∈ target.asked, P r → P (r.enter index resource))
    (hReach : ∀ r, ∀ target ∈ targets, P r → P (r.reach index (target.responseLinks index)))
    (h : P registry) : P (registry.serveAll index targets) := by
  induction targets generalizing registry with
  | nil => exact h
  | cons first rest ih =>
    refine ih (fun r target hMem => hEnter r target (List.mem_cons_of_mem _ hMem))
      (fun r target hMem => hReach r target (List.mem_cons_of_mem _ hMem)) ?_
    exact serve_induction (fun r => hEnter r first List.mem_cons_self)
      (fun r => hReach r first List.mem_cons_self) h

end

variable (registry : Registry)

theorem extends_enterAll (resources : List Resource) :
    Extends registry (registry.enterAll index resources) :=
  enterAll_induction (P := Extends registry) (fun r resource _ h => h.trans (extends_enter r resource))
    (Extends.refl registry)

theorem extends_serveAll (targets : List Target) :
    Extends registry (registry.serveAll index targets) :=
  serveAll_induction (P := Extends registry)
    (fun r _ _ resource _ h => h.trans (extends_enter r resource))
    (fun r _ _ h => h.trans (extends_reach r _)) (Extends.refl registry)

theorem has_enterAll {resource : Resource} {resources : List Resource}
    (h : resource ∈ resources) : (registry.enterAll index resources).has resource.name := by
  obtain ⟨before, after, rfl⟩ := List.append_of_mem h
  rw [enterAll_append]
  exact (extends_enterAll _ after).has (has_enter _ resource)

theorem has_serveAll {name : String} {target : Target}
    (hServe : ∀ r : Registry, (r.serve index target).has name) {targets : List Target}
    (h : target ∈ targets) : (registry.serveAll index targets).has name := by
  obtain ⟨before, after, rfl⟩ := List.append_of_mem h
  rw [serveAll_append]
  exact (extends_serveAll _ after).has (hServe _)

/-- **What a section asks for is registered.** -/
theorem has_serveAll_of_asked {target : Target} {resource : Resource} (hAsked : resource ∈ target.asked)
    {targets : List Target} (h : target ∈ targets) :
    (registry.serveAll index targets).has resource.name :=
  has_serveAll registry (fun r => (extends_reach _ _).has (has_enterAll r hAsked)) h

/-- **So is what its response links to.** -/
theorem has_serveAll_of_response {target : Target} {linked : index.Linked}
    (hLinked : linked ∈ target.responseLinks index) {targets : List Target} (h : target ∈ targets) :
    (registry.serveAll index targets).has linked.1.name :=
  has_serveAll registry (fun _ => has_of_mem_reach hLinked _) h

variable {id : Nat} {s : Structure}

theorem Holds.enterAll {registry : Registry} (h : registry.Holds id s) (resources : List Resource) :
    (registry.enterAll index resources).Holds id s :=
  enterAll_induction (P := fun r => r.Holds id s) (fun _ resource _ h => h.enter resource) h

/-- **A pass over sections keeps structures.** -/
theorem Holds.serveAll {registry : Registry} (h : registry.Holds id s) (targets : List Target) :
    (registry.serveAll index targets).Holds id s :=
  serveAll_induction (P := fun r => r.Holds id s) (fun _ _ _ resource _ h => h.enter resource)
    (fun _ _ _ h => h.reach _) h

end Registry

/-! ### Compiling -/

namespace Progress

variable (progress : Progress)

theorem registry_referAny (resource : Option Resource) :
    (progress.referAny index resource).2.registry =
      progress.registry.enterAll index resource.toList := by
  cases resource with
  | none => rfl
  | some resource => exact registry_register_eq_enter progress resource

theorem registry_resolveAny (phrase : Option String) :
    (progress.resolveAny index phrase).2.registry = progress.registry.reach index
      (phrase.toList.flatMap fun phrase => (Reading.ofPhrase index phrase).links) := by
  cases phrase with
  | none => exact (Registry.reach_nil _).symm
  | some phrase =>
    rw [Option.toList_some, List.flatMap_singleton]
    exact registry_resolve progress _

/-- **Compiling a section** serves it. -/
theorem registry_addSection (target : Target) :
    (progress.addSection index .everything target).registry =
      progress.registry.serve index target := by
  unfold Progress.addSection Registry.serve Target.asked Target.responseLinks
    Target.responsePhrase?
  cases target.here.requestTitle? with
  | some title =>
    dsimp only [Option.bind_some]
    rw [Request.resources, Registry.enterAll_append, ← registry_referAny, ← registry_referAny,
      ← registry_resolveAny]
    rfl
  | none =>
    dsimp only [Option.bind_none, Option.toList_none, List.flatMap_nil]
    rw [addOwn_eq, List.flatMap_nil, Registry.reach_nil, ← registry_referAny]

theorem registry_addSection_linkedOnly (target : Target) :
    (progress.addSection index .linkedOnly target).registry = progress.registry.serve index target ∨
      (progress.addSection index .linkedOnly target).registry = progress.registry := by
  cases hTitle : target.here.requestTitle? with
  | some title =>
    left
    rw [← registry_addSection]
    simp only [Progress.addSection, hTitle]
  | none =>
    right
    simp only [Progress.addSection, hTitle]

end Progress

namespace Corpus

variable {corpus : Corpus}

/-- **A compilation is one pass over the sections.** -/
theorem registry_compile (corpus : Corpus) : (corpus.compile .everything).registry =
    Registry.empty.serveAll corpus.index corpus.subjects := by
  have hAll (targets : List Target) (progress : Progress) :
      (targets.foldl (fun progress target => progress.addSection corpus.index .everything target)
        progress).registry = progress.registry.serveAll corpus.index targets := by
    induction targets generalizing progress with
    | nil => rfl
    | cons first rest ih =>
      rw [List.foldl_cons, ih, Progress.registry_addSection]
      rfl
  exact hAll corpus.subjects corpus.start

/-- **What registrations and visits keep, a compilation keeps**, whatever its scope. -/
theorem compile_induction {P : Registry → Prop} (scope : Scope)
    (hEnter : ∀ r, ∀ target ∈ corpus.subjects, ∀ resource ∈ target.asked, P r →
      P (r.enter corpus.index resource))
    (hReach : ∀ r, ∀ target ∈ corpus.subjects, P r →
      P (r.reach corpus.index (target.responseLinks corpus.index)))
    (h : P Registry.empty) : P (corpus.compile scope).registry := by
  have hSection (progress : Progress) (target : Target) (hTarget : target ∈ corpus.subjects)
      (h : P progress.registry) : P (progress.addSection corpus.index scope target).registry := by
    have hServe : P (progress.registry.serve corpus.index target) :=
      Registry.serve_induction (fun r => hEnter r target hTarget)
        (fun r => hReach r target hTarget) h
    cases scope with
    | everything => rwa [Progress.registry_addSection]
    | linkedOnly =>
      rcases progress.registry_addSection_linkedOnly target with hEq | hEq
      · rwa [hEq]
      · rwa [hEq]
  have hAll (targets : List Target) (hTargets : ∀ target ∈ targets, target ∈ corpus.subjects)
      (progress : Progress) (h : P progress.registry) :
      P (targets.foldl (fun progress target => progress.addSection corpus.index scope target)
        progress).registry := by
    induction targets generalizing progress with
    | nil => exact h
    | cons first rest ih =>
      exact ih (fun target hMem => hTargets target (List.mem_cons_of_mem _ hMem)) _
        (hSection progress first (hTargets first List.mem_cons_self) h)
  exact hAll corpus.subjects (fun _ hMem => hMem) corpus.start h

/-- **What the first section registers first is still there at the end**, whatever else has its
name. -/
theorem holds_compile_of_first {resource : Resource} {others : List Resource}
    (hFirst : corpus.subjects.head?.map Target.asked = some (resource :: others)) {id : Nat}
    {s : Structure}
    (h : (Registry.empty.enter corpus.index resource).Holds id s) :
    (corpus.compile .everything).registry.Holds id s := by
  obtain ⟨target, hHead, hAsked⟩ := Option.map_eq_some_iff.mp hFirst
  obtain ⟨rest, hSubjects⟩ := List.head?_eq_some_iff.mp hHead
  have hServed : (Registry.empty.serve corpus.index target).Holds id s := by
    rw [Registry.serve, hAsked]
    exact (h.enterAll others).reach _
  rw [registry_compile, hSubjects]
  exact hServed.serveAll rest

end Corpus

end ProseTypes
