import ProseTypes.Compilation
import ProseTypes.Proofs.Registry.Indexed

/-!
# What an agenda does to the registry

An agenda mixes three kinds of tasks.  Seen from the registry alone, notes do nothing, and the work
comes down to visiting resources one after the other (`Registry.reach`), where a visit to a new
resource first visits all that its fields link to (`Registry.enter`):

* `reach_cons`: visiting a list of resources enters the first and then visits the others.
* `enter_of_new`: entering a new resource declares it, visits its links, and completes it.

Whatever both steps of a registration keep, an agenda keeps (`registry_run_induction`).  So the
indexes stay in step, nothing that was registered changes its place, and what has been visited is
registered (`has_of_mem_reach`).
-/

namespace ProseTypes

variable {index : LinkIndex}

/-- The registry with nothing asked and nothing said yet. -/
def Registry.asProgress (registry : Registry) : Progress :=
  ⟨registry, [], []⟩

/-! ### Agendas -/

namespace Agenda

theorem run_append (progress : Progress) (first second : List (Task index)) :
    run index progress (first ++ second) = run index (run index progress first) second := by
  fun_induction run index progress first with
  | case1 => rfl
  | case2 progress note rest ih => rw [List.cons_append, run, ih]
  | case3 progress linked rest hKnown ih => rw [List.cons_append, run, dif_pos hKnown, ih]
  | case4 progress linked rest hNew ih =>
    rw [List.cons_append, run, dif_neg hNew, ← List.append_assoc, ih]
  | case5 progress resource rest ih => rw [List.cons_append, run, ih]

theorem registry_run_congr {p q : Progress} (h : p.registry = q.registry)
    (agenda : List (Task index)) :
    (run index p agenda).registry = (run index q agenda).registry := by
  fun_induction run index p agenda generalizing q with
  | case1 => rw [run, h]
  | case2 p note rest ih =>
    rw [run]
    exact ih h
  | case3 p linked rest hKnown ih =>
    rw [run, dif_pos (h ▸ hKnown)]
    exact ih h
  | case4 p linked rest hNew ih =>
    rw [run, dif_neg (h ▸ hNew)]
    exact ih (congrArg (Registry.declare · linked.1) h)
  | case5 p resource rest ih =>
    rw [run]
    exact ih (congrArg (Registry.completeAs · index resource) h)

theorem registry_run (progress : Progress) (agenda : List (Task index)) :
    (run index progress agenda).registry =
      (run index progress.registry.asProgress agenda).registry :=
  registry_run_congr (p := progress) (q := progress.registry.asProgress) rfl agenda

/-- **What both steps of a registration keep, an agenda keeps.** -/
theorem registry_run_induction {P : Registry → Prop}
    (hDeclare : ∀ r (resource : Resource), r.idOf? resource.name = none → P r →
      P (r.declare resource))
    (hComplete : ∀ r name body, P r → P (r.complete name body))
    {progress : Progress} (agenda : List (Task index)) (h : P progress.registry) :
    P (run index progress agenda).registry := by
  fun_induction run index progress agenda with
  | case1 => exact h
  | case2 progress note rest ih => exact ih h
  | case3 progress linked rest hKnown ih => exact ih h
  | case4 progress linked rest hNew ih =>
    exact ih (hDeclare _ _ (by simpa [Registry.has] using hNew) h)
  | case5 progress resource rest ih => exact ih (hComplete _ _ _ h)

end Agenda

/-! ### Visits -/

namespace Registry

def reach (index : LinkIndex) (registry : Registry) (links : List index.Linked) : Registry :=
  (Agenda.run index registry.asProgress (links.map .visit)).registry

def enter (index : LinkIndex) (registry : Registry) (resource : Resource) : Registry :=
  (registry.asProgress.register index resource).registry

theorem reach_nil (registry : Registry) : registry.reach index [] = registry := by
  rw [reach, List.map_nil, Agenda.run]
  rfl

theorem reach_append (registry : Registry) (first second : List index.Linked) :
    registry.reach index (first ++ second) = (registry.reach index first).reach index second := by
  rw [reach, List.map_append, Agenda.run_append, Agenda.registry_run]
  rfl

end Registry

def Task.link? : Task index → Option index.Linked
  | .visit linked => some linked
  | .say _ | .complete _ => none

namespace Agenda

theorem registry_run_eq_reach {agenda : List (Task index)} (progress : Progress)
    (hOpen : ∀ resource, .complete resource ∉ agenda) :
    (run index progress agenda).registry =
      progress.registry.reach index (agenda.filterMap Task.link?) := by
  induction agenda generalizing progress with
  | nil =>
    rw [List.filterMap_nil, Registry.reach_nil, run]
  | cons task rest ih =>
    have ih (p : Progress) := ih p fun resource h => hOpen resource (List.mem_cons_of_mem _ h)
    cases task with
    | say note =>
      rw [run, ih]
      rfl
    | visit linked =>
      have hHead : (run index progress [.visit linked]).registry =
          progress.registry.reach index [linked] := registry_run progress _
      rw [← List.singleton_append, run_append, ih, hHead, ← Registry.reach_append]
      rfl
    | complete resource => exact absurd List.mem_cons_self (hOpen resource)

end Agenda

namespace Reading

theorem complete_not_mem_tasks (reading : Reading index) (resource : Resource) :
    .complete resource ∉ Reading.tasks reading := by
  simp [Reading.tasks, Leaf.tasks]

theorem filterMap_tasks (reading : Reading index) :
    (Reading.tasks reading).filterMap Task.link? = reading.links := by
  have hLeaf (leaf : Leaf index) : leaf.tasks.filterMap Task.link? = leaf.atom.ref?.toList := by
    have hSay : leaf.notes.filterMap (Task.link? ∘ (Task.say : Note → Task index)) = [] :=
      List.filterMap_eq_nil_iff.mpr fun note _ => rfl
    rw [Leaf.tasks, List.filterMap_append, List.filterMap_map, List.filterMap_map, hSay]
    cases leaf.atom <;> rfl
  rw [Reading.tasks, List.filterMap_flatMap, links, List.filterMap_eq_flatMap_toList]
  simp only [hLeaf]

end Reading

/-- The resources that the fields of a resource link to, field by field. -/
def Resource.links (index : LinkIndex) (resource : Resource) : List index.Linked :=
  (resource.draft index).fields.flatMap fun field => Reading.links field.type

namespace Progress

theorem registry_resolve (progress : Progress) (reading : Reading index) :
    (progress.resolve index reading).registry = progress.registry.reach index reading.links := by
  rw [resolve, Agenda.registry_run_eq_reach _ (Reading.complete_not_mem_tasks reading),
    Reading.filterMap_tasks]

/-- The tasks for a declared resource: visits to its links, and its completion. -/
theorem registry_run_tasks (progress : Progress) (resource : Resource) :
    (Agenda.run index progress (resource.tasks index)).registry =
      (progress.registry.reach index (resource.links index)).completeAs index resource := by
  have hSay : resource.notes.filterMap (Task.link? ∘ (Task.say : Note → Task index)) = [] :=
    List.filterMap_eq_nil_iff.mpr fun note _ => rfl
  have hOpen (other : Resource) : .complete other ∉
      ((resource.draft index).fields.flatMap (fun field => Reading.tasks field.type) ++
        resource.notes.map .say : List (Task index)) := by
    simp [Reading.complete_not_mem_tasks]
  rw [Resource.tasks, Agenda.run_append, Agenda.run, Agenda.run, Progress.complete,
    Agenda.registry_run_eq_reach _ hOpen, List.filterMap_append, List.filterMap_flatMap,
    List.filterMap_map, hSay, List.append_nil]
  simp only [Reading.filterMap_tasks, Resource.links]

theorem registry_register (progress : Progress) (resource : Resource) :
    (progress.register index resource).registry =
      if progress.registry.has resource.name then progress.registry
      else ((progress.registry.declare resource).reach index
        (resource.links index)).completeAs index resource := by
  unfold register
  split
  · rfl
  · exact registry_run_tasks (progress.declare resource) resource

end Progress

/-! ### Entering resources -/

theorem Progress.registry_register_eq_enter (progress : Progress) (resource : Resource) :
    (progress.register index resource).registry = progress.registry.enter index resource := by
  rw [Registry.enter, Progress.registry_register, Progress.registry_register]
  rfl

namespace Registry

theorem enter_of_has {registry : Registry} {resource : Resource}
    (hKnown : registry.has resource.name) : registry.enter index resource = registry := by
  rw [enter, Progress.registry_register]
  exact if_pos hKnown

/-- **A new resource is declared before its links are visited, and completed after.** -/
theorem enter_of_new {registry : Registry} {resource : Resource}
    (hNew : ¬registry.has resource.name) :
    registry.enter index resource =
      ((registry.declare resource).reach index (resource.links index)).completeAs index
        resource := by
  rw [enter, Progress.registry_register]
  exact if_neg hNew

theorem reach_singleton (registry : Registry) (linked : index.Linked) :
    registry.reach index [linked] = registry.enter index linked.1 := by
  rw [reach, List.map_singleton, Agenda.run]
  split
  · rename_i hKnown
    have hKnown : registry.has linked.1.name := hKnown
    rw [enter_of_has hKnown, Agenda.run]
    rfl
  · rename_i hNew
    have hNew : ¬registry.has linked.1.name := hNew
    rw [enter_of_new hNew, List.append_nil, Progress.registry_run_tasks]
    rfl

/-- **Visits go one after the other.** -/
theorem reach_cons (registry : Registry) (linked : index.Linked) (rest : List index.Linked) :
    registry.reach index (linked :: rest) = (registry.enter index linked.1).reach index rest := by
  rw [← List.singleton_append, reach_append, reach_singleton]

/-! ### What visits keep -/

theorem reach_induction {P : Registry → Prop}
    (hDeclare : ∀ r (resource : Resource), r.idOf? resource.name = none → P r →
      P (r.declare resource))
    (hComplete : ∀ r name body, P r → P (r.complete name body))
    {registry : Registry} (links : List index.Linked) (h : P registry) :
    P (registry.reach index links) :=
  Agenda.registry_run_induction hDeclare hComplete _ h

theorem Indexed.reach {registry : Registry} (h : registry.Indexed) (links : List index.Linked) :
    (registry.reach index links).Indexed :=
  reach_induction (fun _ _ hNew h => h.declare hNew) (fun _ name body h => h.complete name body)
    links h

theorem extends_reach (registry : Registry) (links : List index.Linked) :
    Extends registry (registry.reach index links) :=
  reach_induction (P := Extends registry) (fun _ _ hNew h => h.trans (extends_declare hNew))
    (fun _ name body h => h.trans (extends_complete _ name body)) links (Extends.refl registry)

theorem idOf?_of_not_has {registry : Registry} {name : String} (h : ¬registry.has name) :
    registry.idOf? name = none := by
  simpa [has] using h

theorem not_has_of_idOf? {registry : Registry} {name : String} (h : registry.idOf? name = none) :
    ¬registry.has name := by
  rw [has, h]
  exact Bool.false_ne_true

theorem Indexed.enter {registry : Registry} (h : registry.Indexed) (resource : Resource) :
    (registry.enter index resource).Indexed := by
  by_cases hKnown : registry.has resource.name
  · rwa [enter_of_has hKnown]
  · rw [enter_of_new hKnown]
    exact ((h.declare (idOf?_of_not_has hKnown)).reach _).complete _ _

theorem extends_enter (registry : Registry) (resource : Resource) :
    Extends registry (registry.enter index resource) := by
  by_cases hKnown : registry.has resource.name
  · rw [enter_of_has hKnown]
    exact Extends.refl registry
  · rw [enter_of_new hKnown]
    exact ((extends_declare (idOf?_of_not_has hKnown)).trans (extends_reach _ _)).trans
      (extends_complete _ _ _)

theorem has_enter (registry : Registry) (resource : Resource) :
    (registry.enter index resource).has resource.name := by
  by_cases hKnown : registry.has resource.name
  · rwa [enter_of_has hKnown]
  · have hDeclared : (registry.declare resource).has resource.name := by simp
    rw [enter_of_new hKnown]
    exact (extends_complete _ _ _).has ((extends_reach _ _).has hDeclared)

/-- **What has been visited is registered.** -/
theorem has_of_mem_reach {linked : index.Linked} {links : List index.Linked}
    (hMem : linked ∈ links) (registry : Registry) :
    (registry.reach index links).has linked.1.name := by
  induction links generalizing registry with
  | nil => cases hMem
  | cons first rest ih =>
    rw [reach_cons]
    rcases List.mem_cons.mp hMem with rfl | hMem
    · exact (extends_reach _ rest).has (has_enter registry linked.1)
    · exact ih hMem _

/-! ### Induction over visits -/

theorem remaining_le_of_extends {before after : Registry} (h : Extends before after) :
    Agenda.remaining index after ≤ Agenda.remaining index before := by
  refine List.countP_mono_left fun resource _ hAfter => ?_
  cases hBefore : before.has resource.name with
  | false => rfl
  | true =>
    rw [h.has hBefore] at hAfter
    cases hAfter

section

variable {P : List Resource → Registry → Prop} {Q : Resource → Prop}
  (hLinked : ∀ resource linked, Q resource → linked ∈ resource.links index → Q linked.1)
  (hDeclare : ∀ opened r resource, Q resource → r.idOf? resource.name = none → P opened r →
    P (resource :: opened) (r.declare resource))
  (hComplete : ∀ opened r resource, Q resource →
    (∀ linked ∈ resource.links index, r.has linked.1.name) →
    P (resource :: opened) r → P opened (r.completeAs index resource))

include hLinked hDeclare hComplete

/-- **Induction over visits to resources of a kind that is closed under links.**  A property of a
registry and of the resources that are declared in it but not completed survives visits if both steps
of a registration keep it.  The induction is on the number of resources that links can bind to and
that are not registered: it falls when a resource is declared, and inside one registration the visits
are those of a list. -/
theorem reach_open_induction {registry : Registry} {opened : List Resource}
    (links : List index.Linked) (hLinks : ∀ linked ∈ links, Q linked.1) (h : P opened registry) :
    P opened (registry.reach index links) := by
  induction hn : Agenda.remaining index registry using Nat.strongRecOn
    generalizing registry opened links with
  | ind n ih =>
    have hAll (links : List index.Linked) (hLinks : ∀ linked ∈ links, Q linked.1) (r : Registry)
        (hr : Agenda.remaining index r ≤ n) (h : P opened r) : P opened (r.reach index links) := by
      induction links generalizing r with
      | nil => rwa [reach_nil]
      | cons first rest ihRest =>
        have hFirst : Q first.1 := hLinks first List.mem_cons_self
        rw [reach_cons]
        have hLe : Agenda.remaining index (r.enter index first.1) ≤ n :=
          Nat.le_trans (remaining_le_of_extends (extends_enter r first.1)) hr
        refine ihRest (fun linked hMem => hLinks linked (List.mem_cons_of_mem _ hMem)) _ hLe ?_
        by_cases hKnown : r.has first.1.name
        · rwa [enter_of_has hKnown]
        · rw [enter_of_new hKnown]
          have hLt : Agenda.remaining index (r.declare first.1) < n :=
            Nat.lt_of_lt_of_le (Agenda.remaining_declare_lt (eq_false_of_ne_true hKnown)) hr
          refine hComplete _ _ _ hFirst (fun linked hMem => has_of_mem_reach hMem _) ?_
          exact ih _ hLt _ (fun linked => hLinked _ linked hFirst)
            (hDeclare _ _ _ hFirst (idOf?_of_not_has hKnown) h) rfl
    exact hAll links hLinks registry (Nat.le_of_eq hn) h

end

section

variable {P : List String → Registry → Prop} {Q : Resource → Prop}
  (hLinked : ∀ resource linked, Q resource → linked ∈ resource.links index → Q linked.1)
  (hDeclare : ∀ pending r resource, Q resource → r.idOf? resource.name = none → P pending r →
    P (resource.name :: pending) (r.declare resource))
  (hComplete : ∀ pending r resource, Q resource →
    (∀ linked ∈ resource.links index, r.has linked.1.name) →
    P (resource.name :: pending) r → P pending (r.completeAs index resource))

include hLinked hDeclare hComplete

/-- `reach_open_induction` for a property that knows no more of open resources than their names. -/
theorem reach_linked_induction {registry : Registry} {pending : List String}
    (links : List index.Linked) (hLinks : ∀ linked ∈ links, Q linked.1) (h : P pending registry) :
    P pending (registry.reach index links) := by
  let named (opened : List Resource) (r : Registry) : Prop := P (opened.map Resource.name ++ pending) r
  have hNone : named [] registry := h
  exact reach_open_induction hLinked (fun _ r resource => hDeclare _ r resource)
    (fun _ r resource => hComplete _ r resource) links hLinks hNone

theorem enter_linked_induction {registry : Registry} {pending : List String} {resource : Resource}
    (hResource : Q resource) (h : P pending registry) :
    P pending (registry.enter index resource) := by
  by_cases hKnown : registry.has resource.name
  · rwa [enter_of_has hKnown]
  · rw [enter_of_new hKnown]
    refine hComplete _ _ _ hResource (fun linked hMem => has_of_mem_reach hMem _) ?_
    exact reach_linked_induction hLinked hDeclare hComplete _
      (fun linked => hLinked _ linked hResource)
      (hDeclare _ _ _ hResource (idOf?_of_not_has hKnown) h)

end

section

variable {P : List String → Registry → Prop}
  (hDeclare : ∀ pending r (resource : Resource), r.idOf? resource.name = none → P pending r →
    P (resource.name :: pending) (r.declare resource))
  (hComplete : ∀ pending r (resource : Resource),
    (∀ linked ∈ resource.links index, r.has linked.1.name) →
    P (resource.name :: pending) r → P pending (r.completeAs index resource))

include hDeclare hComplete

/-- **Induction over visits** to whatever resources. -/
theorem reach_pending_induction {registry : Registry} {pending : List String}
    (links : List index.Linked) (h : P pending registry) :
    P pending (registry.reach index links) :=
  reach_linked_induction (Q := fun _ => True) (fun _ _ _ _ => trivial)
    (fun pending r resource _ => hDeclare pending r resource)
    (fun pending r resource _ => hComplete pending r resource) links (fun _ _ => trivial) h

theorem enter_pending_induction {registry : Registry} {pending : List String}
    (resource : Resource) (h : P pending registry) :
    P pending (registry.enter index resource) :=
  enter_linked_induction (Q := fun _ => True) (fun _ _ _ _ => trivial)
    (fun pending r resource _ => hDeclare pending r resource)
    (fun pending r resource _ => hComplete pending r resource) trivial h

end

end Registry

end ProseTypes
