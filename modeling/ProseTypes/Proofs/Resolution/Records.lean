import Mathlib.Data.List.Forall2
import ProseTypes.Proofs.Resolution.Agreement
import ProseTypes.Proofs.Resolution.Kept
import ProseTypes.Proofs.Resolution.Total

/-!
# Structures and the resources they are made from

A structure stands for the resource that was declared for it: it has its name, its kind and its
source, belongs to the module of its document, and once it is completed it has its members.
`Registry.Records` says so of all structures at once: the resources that were declared, in order, are
those that the structures stand for, one by one.

Both steps of a registration keep it, for whatever resources (`Records.declare`,
`Records.completeAs`).  Since names are not repeated, a resource that is completed is the one that its
structure was declared for.  So what is visited is recorded behind what was there
(`Records.exists_reach`), and a new resource is recorded in front of what it links to
(`Records.exists_enter`).
-/

namespace ProseTypes.Registry

variable {index : LinkIndex} {registry : Registry} {pending : List String}
  {opened made : List Resource} {Q : Resource → Prop}

/-! ### Modules of structures -/

def modulePath? (registry : Registry) (s : Structure) : Option String :=
  (registry.graph.modules[s.home]?).map TypeModule.path

theorem path_declare {registry : Registry} {i : Nat} {path : String}
    (h : (registry.graph.modules[i]?).map TypeModule.path = some path) (resource : Resource) :
    ((registry.declare resource).graph.modules[i]?).map TypeModule.path = some path := by
  obtain ⟨m, hm, rfl⟩ := Option.map_eq_some_iff.mp h
  rw [getElem?_modules_declare, ModuleGraph.getElem?_moduleFor.mpr (Or.inl hm), Option.map_some,
    Option.map_some]
  split <;> simp

theorem path_complete {registry : Registry} {i : Nat} {path : String}
    (h : (registry.graph.modules[i]?).map TypeModule.path = some path) (name : String)
    (body : Body Symbol) :
    ((registry.complete name body).graph.modules[i]?).map TypeModule.path = some path := by
  obtain ⟨m, hm, rfl⟩ := Option.map_eq_some_iff.mp h
  cases hName : registry.idOf? name with
  | none =>
    rw [complete_of_unknown hName, hm]
    rfl
  | some id =>
    cases hs : registry.structure? id with
    | none =>
      simp only [complete, hName, hs, hm]
      rfl
    | some s =>
      rw [getElem?_modules_complete hName hs, hm, Option.map_some, Option.map_some]
      split <;> simp

/-! ### One structure -/

/-- **Completing a resource gives its structure the draft by name**, if its links are registered. -/
theorem Indexed.named_draft {registry : Registry} (h : registry.Indexed) {resource : Resource}
    (hLinks : ∀ linked ∈ resource.links index, registry.has linked.1.name) :
    ((resource.draft index).map registry.symbol).map Symbol.named =
      (resource.draft index).map Reading.named := by
  cases hDraft : resource.draft index with
  | enumeration constants => rfl
  | interface fields =>
    simp only [Body.map, List.map_map]
    refine congrArg Body.interface (List.map_congr_left fun field hField => ?_)
    have hType : (registry.symbol field.type).named = Reading.named field.type := by
      refine h.named_symbol fun linked hLinked => hLinks linked ?_
      refine List.mem_flatMap.mpr ⟨field, ?_, hLinked⟩
      rw [hDraft]
      exact hField
    simp only [Function.comp, hType]

/-- A structure stands for a resource; its members count if its name is not among those that are
still pending. -/
structure Stands (registry : Registry) (index : LinkIndex) (pending : List String) (s : Structure)
    (resource : Resource) : Prop where
  name : s.name = resource.name
  kind : s.body.kind = resource.shape.kind
  path : registry.modulePath? s = some (ModulePath.ofDocument resource.path)
  body : s.name ∉ pending →
    s.body.map Symbol.named = (resource.draft index).map Reading.named
  links : s.name ∉ pending → ∀ other, resource.LinksTo index other → registry.has other.name

theorem kind_empty (kind : Kind) : (Body.empty kind : Body Symbol).kind = kind := by
  cases kind <;> rfl

/-- **The structure of a resource that is declared stands for it**, and has no members to count
yet. -/
theorem Indexed.stands_declare (h : registry.Indexed) (resource : Resource) {s : Structure}
    (hs : (registry.declare resource).structure? registry.structures.length = some s) :
    (registry.declare resource).Stands index (resource.name :: pending) s resource := by
  rw [structure?_declare, if_pos rfl, Option.some.injEq] at hs
  subst hs
  refine ⟨rfl, kind_empty _, ?_, ?_, ?_⟩
  · obtain ⟨m, hm, hPath⟩ :=
      h.graph.getElem?_moduleFor_self (ModulePath.ofDocument resource.path)
    rw [modulePath?, getElem?_modules_declare, hm, Option.map_some, Option.map_some, if_pos rfl,
      TypeModule.path_assign, hPath]
  · exact fun hDone => absurd List.mem_cons_self hDone
  · exact fun hDone => absurd List.mem_cons_self hDone

theorem Stands.declare {s : Structure} {source : Resource}
    (h : registry.Stands index pending s source) (resource : Resource) :
    (registry.declare resource).Stands index (resource.name :: pending) s source where
  name := h.name
  kind := h.kind
  path := path_declare h.path resource
  body hDone := h.body fun hMem => hDone (List.mem_cons_of_mem _ hMem)
  links hDone other hOther := by
    rw [has_declare, h.links (fun hMem => hDone (List.mem_cons_of_mem _ hMem)) other hOther,
      Bool.or_true]

/-- **A structure that is completed has the members of its resource.** -/
theorem Stands.completeAs_self {s : Structure} {resource : Resource} (hIndexed : registry.Indexed)
    (h : registry.Stands index (resource.name :: pending) s resource)
    (hLinks : ∀ linked ∈ resource.links index, registry.has linked.1.name) :
    (registry.completeAs index resource).Stands index pending
      (s.withBody ((resource.draft index).map registry.symbol)) resource where
  name := h.name
  kind := (kind_map _ _).trans (kind_draft resource)
  path := path_complete h.path _ _
  body _ := hIndexed.named_draft hLinks
  links := by
    rintro - other ⟨linked, hLinked, rfl⟩
    rw [Registry.completeAs, has_complete]
    exact hLinks linked hLinked

theorem Stands.completeAs_other {s : Structure} {source resource : Resource}
    (h : registry.Stands index (resource.name :: pending) s source) (hName : s.name ≠ resource.name) :
    (registry.completeAs index resource).Stands index pending s source where
  name := h.name
  kind := h.kind
  path := path_complete h.path _ _
  body hDone := h.body (List.not_mem_cons_of_ne_of_not_mem hName hDone)
  links hDone other hOther := by
    rw [Registry.completeAs, has_complete]
    exact h.links (List.not_mem_cons_of_ne_of_not_mem hName hDone) other hOther

/-! ### All structures -/

/-- The structures of a registry stand for the resources that were declared, one by one and in order.
Those of the resources that are open have no members yet. -/
structure Records (registry : Registry) (index : LinkIndex) (opened made : List Resource) :
    Prop where
  indexed : registry.Indexed
  length_eq : registry.structures.length = made.length
  opened_made : opened ⊆ made
  stands : ∀ {id : Nat} {s : Structure} {resource : Resource}, registry.structure? id = some s →
    made[id]? = some resource → registry.Stands index (opened.map Resource.name) s resource
  source_eq : ∀ {id : Nat} {s : Structure} {resource : Resource}, registry.structure? id = some s →
    made[id]? = some resource → s.source = resource.source

theorem records_empty : empty.Records index [] [] where
  indexed := indexed_empty
  length_eq := rfl
  opened_made := List.nil_subset []
  stands h := by simp [structure?, empty] at h
  source_eq h := by simp [structure?, empty] at h

theorem Records.exists_resource (h : registry.Records index opened made) {id : Nat} {s : Structure}
    (hs : registry.structure? id = some s) : ∃ resource, made[id]? = some resource :=
  ⟨_, List.getElem?_eq_getElem (h.length_eq ▸ lt_of_structure? hs)⟩

theorem Records.forall₂_source (h : registry.Records index opened made) :
    List.Forall₂ (fun s (resource : Resource) => s.source = resource.source) registry.structures
      made := by
  rw [List.forall₂_iff_get]
  refine ⟨h.length_eq, fun i hi hj => ?_⟩
  exact h.source_eq (List.getElem?_eq_getElem hi) (List.getElem?_eq_getElem hj)

theorem Records.names_eq (h : registry.Records index opened made) :
    registry.names = made.map Resource.name := by
  apply List.ext_getElem?
  intro i
  rw [names, List.getElem?_map, List.getElem?_map]
  cases hs : registry.structure? i with
  | none =>
    have hLength : made.length ≤ i := h.length_eq ▸ List.getElem?_eq_none_iff.mp hs
    rw [show registry.structures[i]? = none from hs, List.getElem?_eq_none hLength]
    rfl
  | some s =>
    obtain ⟨resource, hResource⟩ := h.exists_resource hs
    rw [show registry.structures[i]? = some s from hs, hResource, Option.map_some, Option.map_some,
      (h.stands hs hResource).name]

theorem Records.getElem?_of_name (h : registry.Records index opened made) {id : Nat} {s : Structure}
    (hs : registry.structure? id = some s) {resource : Resource} (hMade : resource ∈ made)
    (hName : s.name = resource.name) : made[id]? = some resource := by
  obtain ⟨j, hj⟩ := List.mem_iff_getElem?.mp hMade
  have hLt : j < registry.structures.length := h.length_eq ▸ (List.getElem?_eq_some_iff.mp hj).1
  have ht : registry.structure? j = some registry.structures[j] := List.getElem?_eq_getElem hLt
  have hSame : id = j := h.indexed.eq_of_name_eq hs ht (hName.trans (h.stands ht hj).name.symm)
  rw [hSame, hj]

theorem Records.declare (h : registry.Records index opened made) {resource : Resource}
    (hNew : registry.idOf? resource.name = none) :
    (registry.declare resource).Records index (resource :: opened) (made ++ [resource]) := by
  -- The last structure stands for the last resource, and the others are where they were.
  have hCases {id : Nat} {s : Structure} {source : Resource}
      (hs : (registry.declare resource).structure? id = some s)
      (hSource : (made ++ [resource])[id]? = some source) :
      (id = registry.structures.length ∧ source = resource) ∨
        (registry.structure? id = some s ∧ made[id]? = some source) := by
    by_cases hId : id = registry.structures.length
    · rw [hId, h.length_eq, List.getElem?_concat_length, Option.some.injEq] at hSource
      exact Or.inl ⟨hId, hSource.symm⟩
    · rw [structure?_declare, if_neg hId] at hs
      have hLt : id < made.length := h.length_eq ▸ lt_of_structure? hs
      exact Or.inr ⟨hs, by rwa [List.getElem?_append_left hLt] at hSource⟩
  constructor
  · exact h.indexed.declare hNew
  · simp [Registry.declare, h.length_eq]
  · intro other hOther
    rcases List.mem_cons.mp hOther with rfl | hOther
    · exact List.mem_append_right made (List.mem_singleton_self _)
    · exact List.mem_append_left _ (h.opened_made hOther)
  · intro id s source hs hSource
    rcases hCases hs hSource with ⟨rfl, rfl⟩ | ⟨hOld, hOldSource⟩
    · exact h.indexed.stands_declare source hs
    · exact (h.stands hOld hOldSource).declare resource
  · intro id s source hs hSource
    rcases hCases hs hSource with ⟨rfl, rfl⟩ | ⟨hOld, hOldSource⟩
    · rw [structure?_declare, if_pos rfl] at hs
      cases hs
      rfl
    · exact h.source_eq hOld hOldSource

/-- **Completing a resource gives its structure the members of this resource and no other**, since it
is the one that the structure was declared for. -/
theorem Records.completeAs {resource : Resource}
    (h : registry.Records index (resource :: opened) made)
    (hLinks : ∀ linked ∈ resource.links index, registry.has linked.1.name) :
    (registry.completeAs index resource).Records index opened made where
  indexed := h.indexed.complete _ _
  length_eq := by
    have hNames := congrArg List.length
      (names_complete registry resource.name ((resource.draft index).map registry.symbol))
    rw [names, names, List.length_map, List.length_map] at hNames
    exact hNames.trans h.length_eq
  opened_made := fun other hOther => h.opened_made (List.mem_cons_of_mem resource hOther)
  stands {id t source} ht hSource := by
    obtain ⟨s, body, hs, rfl⟩ := exists_of_structure?_complete ht
    have hStands := h.stands hs hSource
    by_cases hName : s.name = resource.name
    · have hSame := h.getElem?_of_name hs (h.opened_made List.mem_cons_self) hName
      rw [hSource, Option.some.injEq] at hSame
      subst hSame
      have hId : registry.idOf? source.name = some id := h.indexed.idOf?_iff.mpr ⟨s, hs, hName⟩
      rw [Registry.completeAs, structure?_complete hId, hs, Option.map_some, if_pos rfl,
        Option.some.injEq] at ht
      rw [← ht]
      exact hStands.completeAs_self h.indexed hLinks
    · have hKept := h.indexed.structure?_complete_of_ne hs hName
        ((resource.draft index).map registry.symbol)
      rw [Registry.completeAs, hKept, Option.some.injEq] at ht
      rw [← ht]
      exact hStands.completeAs_other hName
  source_eq {id t source} ht hSource := by
    obtain ⟨s, body, hs, rfl⟩ := exists_of_structure?_complete ht
    show s.source = source.source
    exact h.source_eq hs hSource

/-! ### Visits -/

/-- **What is visited is recorded behind what was there**, if it is of a kind that is closed under
links. -/
theorem Records.exists_reach (h : registry.Records index opened made)
    (hLinked : ∀ resource linked, Q resource → linked ∈ resource.links index → Q linked.1)
    {links : List index.Linked} (hLinks : ∀ linked ∈ links, Q linked.1) :
    ∃ more, (∀ resource ∈ more, Q resource) ∧
      (registry.reach index links).Records index opened (made ++ more) := by
  let P (opened : List Resource) (r : Registry) : Prop :=
    ∃ more, (∀ resource ∈ more, Q resource) ∧ r.Records index opened (made ++ more)
  refine reach_open_induction (P := P) hLinked ?_ ?_ links hLinks ⟨[], ?_, ?_⟩
  · rintro opened r resource hQ hNew ⟨more, hMore, hr⟩
    refine ⟨more ++ [resource], fun other hOther => ?_, ?_⟩
    · rcases List.mem_append.mp hOther with hOther | hOther
      · exact hMore other hOther
      · rwa [List.mem_singleton.mp hOther]
    · rw [← List.append_assoc]
      exact hr.declare hNew
  · rintro opened r resource - hHas ⟨more, hMore, hr⟩
    exact ⟨more, hMore, hr.completeAs hHas⟩
  · intro other hOther
    cases hOther
  · rwa [List.append_nil]

/-- **A new resource is recorded in front of what it links to.** -/
theorem Records.exists_enter (h : registry.Records index opened made)
    (hLinked : ∀ resource linked, Q resource → linked ∈ resource.links index → Q linked.1)
    {resource : Resource} (hNew : ¬registry.has resource.name)
    (hLinks : ∀ linked ∈ resource.links index, Q linked.1) :
    ∃ more, (∀ other ∈ more, Q other) ∧
      (registry.enter index resource).Records index opened (made ++ resource :: more) := by
  obtain ⟨more, hMore, hReached⟩ :=
    (h.declare (idOf?_of_not_has hNew)).exists_reach hLinked hLinks
  refine ⟨more, hMore, ?_⟩
  rw [enter_of_new hNew]
  rw [List.append_assoc, List.singleton_append] at hReached
  exact hReached.completeAs fun linked hMem => has_of_mem_reach hMem _

end ProseTypes.Registry
