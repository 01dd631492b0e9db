import ProseTypes.Proofs.Registry.Sound
import ProseTypes.Proofs.Resolution.Visits

/-!
# What is registered stays

A structure is changed once, when it is completed.  Visits complete what they declare, and they
declare new names only, so they keep all structures that were there before, members included
(`Holds.reach`).  So the first resource of a name is the one that its structure is made from
(`Indexed.exists_enter`), also where it is entered because another one links to it
(`Indexed.exists_enter_linked`).
-/

namespace ProseTypes.Registry

variable {index : LinkIndex} {registry : Registry} {id : Nat} {s : Structure}

theorem Indexed.structure?_complete_of_ne (h : registry.Indexed)
    (hs : registry.structure? id = some s) {name : String} (hName : s.name ≠ name)
    (body : Body Symbol) : (registry.complete name body).structure? id = some s := by
  cases hId : registry.idOf? name with
  | none => rw [complete_of_unknown hId, hs]
  | some known =>
    have hOther : id ≠ known := by
      rintro rfl
      obtain ⟨t, ht, hSame⟩ := h.idOf?_iff.mp hId
      rw [hs] at ht
      cases ht
      exact hName hSame
    rw [structure?_complete hId, hs, Option.map_some, if_neg hOther]

/-- A registry has a structure, and its indexes are in step. -/
structure Holds (registry : Registry) (id : Nat) (s : Structure) : Prop where
  indexed : registry.Indexed
  here : registry.structure? id = some s

theorem Holds.name_ne (h : registry.Holds id s) {name : String}
    (hNew : registry.idOf? name = none) : s.name ≠ name := by
  intro hSame
  rw [h.indexed.idOf?_iff.mpr ⟨s, h.here, hSame⟩] at hNew
  cases hNew

theorem Holds.declare (h : registry.Holds id s) {resource : Resource}
    (hNew : registry.idOf? resource.name = none) : (registry.declare resource).Holds id s :=
  ⟨h.indexed.declare hNew, structure?_declare_of_some h.here⟩

theorem Holds.completeAs (h : registry.Holds id s) {resource : Resource}
    (hName : s.name ≠ resource.name) : (registry.completeAs index resource).Holds id s :=
  ⟨h.indexed.complete _ _, h.indexed.structure?_complete_of_ne h.here hName _⟩

/-- **Visits keep structures**: they complete only what they have declared. -/
theorem Holds.reach (h : registry.Holds id s) (links : List index.Linked) :
    (registry.reach index links).Holds id s := by
  let P (pending : List String) (r : Registry) : Prop := r.Holds id s ∧ s.name ∉ pending
  have hDeclare (pending : List String) (r : Registry) (resource : Resource)
      (hNew : r.idOf? resource.name = none) (hr : P pending r) :
      P (resource.name :: pending) (r.declare resource) := by
    obtain ⟨hHolds, hDone⟩ := hr
    exact ⟨hHolds.declare hNew, List.not_mem_cons_of_ne_of_not_mem (hHolds.name_ne hNew) hDone⟩
  have hComplete (pending : List String) (r : Registry) (resource : Resource)
      (_ : ∀ linked ∈ resource.links index, r.has linked.1.name)
      (hr : P (resource.name :: pending) r) : P pending (r.completeAs index resource) := by
    obtain ⟨hHolds, hDone⟩ := hr
    exact ⟨hHolds.completeAs (List.ne_of_not_mem_cons hDone), List.not_mem_of_not_mem_cons hDone⟩
  exact (reach_pending_induction (P := P) hDeclare hComplete links ⟨h, List.not_mem_nil⟩).1

/-- **Registering a resource keeps structures.** -/
theorem Holds.enter (h : registry.Holds id s) (resource : Resource) :
    (registry.enter index resource).Holds id s := by
  by_cases hKnown : registry.has resource.name
  · rwa [enter_of_has hKnown]
  · have hNew := idOf?_of_not_has hKnown
    rw [enter_of_new hKnown]
    exact ((h.declare hNew).reach _).completeAs (h.name_ne hNew)

theorem kind_draft (resource : Resource) : (resource.draft index).kind = resource.shape.kind := by
  unfold Resource.draft
  cases resource.shape.kind <;> rfl

theorem kind_map {τ υ : Type} (f : τ → υ) (body : Body τ) : (body.map f).kind = body.kind := by
  cases body <;> rfl

/-- **A new resource gets a structure of its kind.** -/
theorem Indexed.exists_enter (h : registry.Indexed) {resource : Resource}
    (hNew : ¬registry.has resource.name) : ∃ id s,
      (registry.enter index resource).Holds id s ∧ s.name = resource.name ∧
        s.body.kind = resource.shape.kind := by
  let visited := (registry.declare resource).reach index (resource.links index)
  have hVisited : visited.Indexed := (h.declare (idOf?_of_not_has hNew)).reach _
  have hHas : visited.has resource.name :=
    (extends_reach _ _).has (show (registry.declare resource).has resource.name by simp)
  obtain ⟨id, hId⟩ := Option.isSome_iff_exists.mp hHas
  obtain ⟨s, hs, hName⟩ := hVisited.idOf?_iff.mp hId
  refine ⟨id, s.withBody ((resource.draft index).map visited.symbol), ⟨h.enter resource, ?_⟩,
    hName, ?_⟩
  · rw [enter_of_new hNew, Registry.completeAs, structure?_complete hId, hs, Option.map_some,
      if_pos rfl]
  · exact (kind_map _ _).trans (kind_draft resource)

/-- **So does the first resource that a new one links to**, if it is new too. -/
theorem Indexed.exists_enter_linked (h : registry.Indexed) {resource : Resource}
    (hNew : ¬registry.has resource.name) {linked : index.Linked} {rest : List index.Linked}
    (hLinks : resource.links index = linked :: rest) (hLinkedNew : ¬registry.has linked.1.name)
    (hOther : linked.1.name ≠ resource.name) : ∃ id s,
      (registry.enter index resource).Holds id s ∧ s.name = linked.1.name ∧
        s.body.kind = linked.1.shape.kind := by
  have hDeclared := h.declare (idOf?_of_not_has hNew)
  have hUnknown : ¬(registry.declare resource).has linked.1.name := by
    simp [hOther, hLinkedNew]
  obtain ⟨id, s, hHolds, hName, hKind⟩ : ∃ id s,
      ((registry.declare resource).enter index linked.1).Holds id s ∧
        s.name = linked.1.name ∧ s.body.kind = linked.1.shape.kind := hDeclared.exists_enter hUnknown
  refine ⟨id, s, ?_, hName, hKind⟩
  rw [enter_of_new hNew, hLinks, reach_cons]
  exact (hHolds.reach rest).completeAs (hName ▸ hOther)

end ProseTypes.Registry
