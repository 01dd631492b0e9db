import Mathlib.Data.List.Nodup
import ProseTypes.Proofs.Module.Graph
import ProseTypes.Proofs.Registry.Extension

/-!
# The indexes of a registry

A registry can be entered from several sides: by the identifier of a structure, by its name, by a
module or by the path of one.  `Registry.Indexed` says that all of them agree.  It holds of the
empty registry, and both steps of a registration keep it (`Indexed.declare`, `Indexed.complete`),
whatever members a structure is given.

Two consequences are used throughout: a registered name has a reference that carries this name
(`Indexed.ref?_of_has`), and names are never repeated (`Indexed.names_nodup`), so a search by name
finds what the map from names finds (`Indexed.find?_eq_search?`).
-/

namespace ProseTypes

namespace Registry

/-- All ways into a registry agree, and every structure has a module that owns it. -/
structure Indexed (registry : Registry) : Prop where
  id_eq : ∀ {id : Nat} {s : Structure}, registry.structure? id = some s → s.id = id
  idOf?_iff : ∀ {name : String} {id : Nat}, registry.idOf? name = some id ↔
    ∃ s, registry.structure? id = some s ∧ s.name = name
  graph : registry.graph.Indexed
  mem_owned_iff : ∀ {i : Nat} {m : TypeModule}, registry.graph.modules[i]? = some m →
    ∀ {id : Nat}, id ∈ m.owned ↔ ∃ s, registry.structure? id = some s ∧ s.home = i
  home_lt : ∀ {id : Nat} {s : Structure}, registry.structure? id = some s →
    s.home < registry.graph.modules.length
  owned_increasing : ∀ m ∈ registry.graph.modules, m.owned.Pairwise (· < ·)
  owned_ne_nil : ∀ m ∈ registry.graph.modules, m.owned ≠ []
  imports_sorted : ∀ m ∈ registry.graph.modules, TypeModule.Sorted m.imports

theorem indexed_empty : Indexed empty where
  id_eq h := by simp [structure?, empty] at h
  idOf?_iff := by simp [structure?, empty, Registry.idOf?]
  graph := ModuleGraph.indexed_empty
  mem_owned_iff h := by simp [empty, ModuleGraph.empty] at h
  home_lt h := by simp [structure?, empty] at h
  owned_increasing := by simp [empty, ModuleGraph.empty]
  owned_ne_nil := by simp [empty, ModuleGraph.empty]
  imports_sorted := by simp [empty, ModuleGraph.empty]

theorem lt_of_structure? {registry : Registry} {id : Nat} {s : Structure}
    (h : registry.structure? id = some s) : id < registry.structures.length :=
  (List.getElem?_eq_some_iff.mp h).1

/-! ### Names -/

section

variable {registry : Registry} (h : registry.Indexed)

include h

/-- **A registered name has a reference, which carries the name.** -/
theorem Indexed.ref?_of_has {name : String} (hName : registry.has name) :
    ∃ id, registry.ref? name = some ⟨id, name⟩ := by
  obtain ⟨id, hId⟩ := Option.isSome_iff_exists.mp hName
  obtain ⟨s, hs, rfl⟩ := h.idOf?_iff.mp hId
  exact ⟨id, by rw [Registry.ref?, hId, Option.bind_some, hs]; rfl⟩

theorem Indexed.isSome_ref? {name : String} (hName : registry.has name) :
    (registry.ref? name).isSome := by
  obtain ⟨id, hRef⟩ := h.ref?_of_has hName
  rw [hRef]
  rfl

theorem Indexed.name_refTo {name : String} (hName : registry.has name) :
    (registry.refTo name).name = name := by
  obtain ⟨id, hRef⟩ := h.ref?_of_has hName
  rw [Registry.refTo, hRef]
  rfl

theorem Indexed.eq_of_name_eq {i j : Nat} {s t : Structure} (hs : registry.structure? i = some s)
    (ht : registry.structure? j = some t) (hName : s.name = t.name) : i = j := by
  have hi := h.idOf?_iff.mpr ⟨s, hs, rfl⟩
  have hj := h.idOf?_iff.mpr ⟨t, ht, rfl⟩
  rw [hName, hj] at hi
  exact (Option.some.inj hi).symm

theorem Indexed.has_iff {name : String} : registry.has name ↔ name ∈ registry.names := by
  rw [Registry.has, Option.isSome_iff_exists]
  simp only [h.idOf?_iff, names, List.mem_map]
  constructor
  · rintro ⟨id, s, hs, hName⟩
    exact ⟨s, List.mem_of_getElem? hs, hName⟩
  · rintro ⟨s, hMem, hName⟩
    obtain ⟨id, hs⟩ := List.mem_iff_getElem?.mp hMem
    exact ⟨id, s, hs, hName⟩

/-- **No name is registered twice.** -/
theorem Indexed.names_nodup : registry.names.Nodup := by
  rw [names, List.nodup_iff_getElem?_ne_getElem?]
  intro i j hij hj hEq
  rw [List.length_map] at hj
  have hi : i < registry.structures.length := by omega
  rw [List.getElem?_map, List.getElem?_map, List.getElem?_eq_getElem hi,
    List.getElem?_eq_getElem hj] at hEq
  have := h.eq_of_name_eq (List.getElem?_eq_getElem hi) (List.getElem?_eq_getElem hj)
    (Option.some.inj hEq)
  omega

/-- **The map from names finds what a search by name finds.** -/
theorem Indexed.find?_eq_search? (name : String) :
    registry.find? name = registry.search? name := by
  cases hSearch : registry.search? name with
  | none =>
    have hNone := List.find?_eq_none.mp hSearch
    cases hId : registry.idOf? name with
    | none => rw [Registry.find?, hId, Option.bind_none]
    | some id =>
      obtain ⟨s, hs, hName⟩ := h.idOf?_iff.mp hId
      exact absurd (by simpa using hName) (hNone s (List.mem_of_getElem? hs))
  | some s =>
    have hName : s.name = name := by simpa using List.find?_some hSearch
    obtain ⟨id, hs⟩ := List.mem_iff_getElem?.mp (List.mem_of_find?_eq_some hSearch)
    rw [Registry.find?, h.idOf?_iff.mpr ⟨s, hs, hName⟩, Option.bind_some]
    exact hs

end

/-! ### Declaring a structure -/

theorem getElem?_modules_declare (registry : Registry) (resource : Resource) (i : Nat) :
    (registry.declare resource).graph.modules[i]? =
      ((registry.graph.moduleFor (ModulePath.ofDocument resource.path)).2.modules[i]?).map fun m =>
        if (registry.graph.moduleFor (ModulePath.ofDocument resource.path)).1 = i then
          m.assign registry.structures.length
        else m := by
  simp only [declare, ModuleGraph.assign, List.getElem?_modify, Option.map_eq_map]

/-- What a module owns after a structure has been declared: what it owned before, and the new
structure if the module is its home. -/
theorem Indexed.mem_owned_declare {registry : Registry} (h : registry.Indexed)
    {resource : Resource} {i : Nat} {m : TypeModule}
    (hm : (registry.declare resource).graph.modules[i]? = some m) {id : Nat} :
    id ∈ m.owned ↔ (∃ s, registry.structure? id = some s ∧ s.home = i) ∨
      (id = registry.structures.length ∧
        (registry.graph.moduleFor (ModulePath.ofDocument resource.path)).1 = i) := by
  rw [getElem?_modules_declare, Option.map_eq_some_iff] at hm
  obtain ⟨n, hn, rfl⟩ := hm
  have hBefore : id ∈ n.owned ↔ ∃ s, registry.structure? id = some s ∧ s.home = i := by
    rcases ModuleGraph.getElem?_moduleFor.mp hn with hn | ⟨-, rfl, rfl⟩
    · exact h.mem_owned_iff hn
    · -- The module was made just now, and no structure can have had it as its home.
      simp only [List.not_mem_nil, false_iff]
      rintro ⟨s, hs, hHome⟩
      have := h.home_lt hs
      omega
  split
  · rename_i hHere
    rw [TypeModule.mem_owned_assign, hBefore]
    simp [hHere]
  · rename_i hElse
    rw [hBefore]
    simp [hElse]

theorem Indexed.home_declare_lt {registry : Registry} (h : registry.Indexed)
    (resource : Resource) :
    (registry.graph.moduleFor (ModulePath.ofDocument resource.path)).1 <
      (registry.declare resource).graph.modules.length := by
  obtain ⟨m, hm, -⟩ := h.graph.getElem?_moduleFor_self (ModulePath.ofDocument resource.path)
  have := (List.getElem?_eq_some_iff.mp hm).1
  simpa [declare, ModuleGraph.assign] using this

theorem length_modules_le_declare (registry : Registry) (resource : Resource) :
    registry.graph.modules.length ≤ (registry.declare resource).graph.modules.length := by
  simp only [declare, ModuleGraph.assign, List.length_modify]
  unfold ModuleGraph.moduleFor
  split <;> simp

theorem exists_structure?_declare_iff {registry : Registry} {resource : Resource} {id : Nat}
    {P : Structure → Prop} :
    (∃ s, (registry.declare resource).structure? id = some s ∧ P s) ↔
      (∃ s, registry.structure? id = some s ∧ P s) ∨ id = registry.structures.length ∧
        P ⟨id, resource.name, (registry.graph.moduleFor (ModulePath.ofDocument resource.path)).1,
          resource.source, Body.empty resource.shape.kind⟩ := by
  rw [structure?_declare]
  by_cases hId : id = registry.structures.length
  · subst hId
    have hNone : registry.structure? registry.structures.length = none :=
      List.getElem?_eq_none (Nat.le_refl _)
    simp [hNone]
  · simp [hId]

theorem Indexed.idOf?_declare_iff {registry : Registry} (h : registry.Indexed) {resource : Resource}
    (hNew : registry.idOf? resource.name = none) {name : String} {id : Nat} :
    (registry.declare resource).idOf? name = some id ↔
      ∃ s, (registry.declare resource).structure? id = some s ∧ s.name = name := by
  rw [exists_structure?_declare_iff, ← h.idOf?_iff, idOf?_declare]
  by_cases hName : name = resource.name
  · subst hName
    simp [hNew, eq_comm]
  · simp [hName, Ne.symm hName]

/-- A module that is there after a structure has been declared was there, or it is the home of the structure, which
it owns beside what it had if it was there. -/
theorem mem_modules_declare {registry : Registry} {resource : Resource} {m : TypeModule}
    (hMem : m ∈ (registry.declare resource).graph.modules) :
    m ∈ registry.graph.modules ∨
      ∃ n, (n ∈ registry.graph.modules ∨ n.owned = [] ∧ n.imports = []) ∧
        m = n.assign registry.structures.length := by
  obtain ⟨i, hm⟩ := List.mem_iff_getElem?.mp hMem
  rw [getElem?_modules_declare, Option.map_eq_some_iff] at hm
  obtain ⟨n, hn, rfl⟩ := hm
  rcases ModuleGraph.getElem?_moduleFor.mp hn with hn | ⟨hNone, rfl, rfl⟩
  · split
    · exact Or.inr ⟨n, Or.inl (List.mem_of_getElem? hn), rfl⟩
    · exact Or.inl (List.mem_of_getElem? hn)
  · -- A module that had to be made was made for the structure.
    rw [ModuleGraph.moduleFor_of_none hNone, if_pos rfl]
    exact Or.inr ⟨_, Or.inr ⟨rfl, rfl⟩, rfl⟩

theorem Indexed.owned_lt {registry : Registry} (h : registry.Indexed) {m : TypeModule}
    (hm : m ∈ registry.graph.modules) {id : Nat} (hOwned : id ∈ m.owned) :
    id < registry.structures.length := by
  obtain ⟨i, hm⟩ := List.mem_iff_getElem?.mp hm
  obtain ⟨s, hs, -⟩ := (h.mem_owned_iff hm).mp hOwned
  exact lt_of_structure? hs

theorem Indexed.owned_increasing_declare {registry : Registry} (h : registry.Indexed)
    {resource : Resource} {m : TypeModule} (hMem : m ∈ (registry.declare resource).graph.modules) :
    m.owned.Pairwise (· < ·) := by
  rcases mem_modules_declare hMem with hm | ⟨n, hn | ⟨hOwned, -⟩, rfl⟩
  · exact h.owned_increasing m hm
  · exact TypeModule.increasing_assign (h.owned_increasing n hn) fun id hId => h.owned_lt hn hId
  · exact TypeModule.increasing_assign (by simp [hOwned]) (by simp [hOwned])

theorem Indexed.imports_sorted_declare {registry : Registry} (h : registry.Indexed)
    {resource : Resource} {m : TypeModule} (hMem : m ∈ (registry.declare resource).graph.modules) :
    TypeModule.Sorted m.imports := by
  rcases mem_modules_declare hMem with hm | ⟨n, hn | ⟨-, hImports⟩, rfl⟩
  · exact h.imports_sorted m hm
  · exact TypeModule.sorted_assign (h.imports_sorted n hn) _
  · exact TypeModule.sorted_assign (by simp [TypeModule.Sorted, hImports]) _

theorem Indexed.owned_ne_nil_declare {registry : Registry} (h : registry.Indexed)
    {resource : Resource} {m : TypeModule} (hMem : m ∈ (registry.declare resource).graph.modules) :
    m.owned ≠ [] := by
  rcases mem_modules_declare hMem with hm | ⟨n, -, rfl⟩
  · exact h.owned_ne_nil m hm
  · exact List.ne_nil_of_mem (TypeModule.mem_owned_assign.mpr (Or.inr rfl))

/-- **Declaring a structure keeps the indexes in step.** -/
theorem Indexed.declare {registry : Registry} (h : registry.Indexed) {resource : Resource}
    (hNew : registry.idOf? resource.name = none) : (registry.declare resource).Indexed where
  id_eq {id s} hs := by
    rcases exists_structure?_declare_iff.mp ⟨s, hs, rfl⟩ with ⟨t, ht, rfl⟩ | ⟨-, rfl⟩
    · exact h.id_eq ht
    · rfl
  idOf?_iff := h.idOf?_declare_iff hNew
  graph := (h.graph.moduleFor (ModulePath.ofDocument resource.path)).modify _
    (TypeModule.id_assign _) (TypeModule.path_assign _)
  mem_owned_iff hm _ := (h.mem_owned_declare hm).trans exists_structure?_declare_iff.symm
  home_lt {id s} hs := by
    rcases exists_structure?_declare_iff.mp ⟨s, hs, rfl⟩ with ⟨t, ht, rfl⟩ | ⟨-, rfl⟩
    · exact Nat.lt_of_lt_of_le (h.home_lt ht) (length_modules_le_declare registry resource)
    · exact h.home_declare_lt resource
  owned_increasing _ hMem := h.owned_increasing_declare hMem
  owned_ne_nil _ hMem := h.owned_ne_nil_declare hMem
  imports_sorted _ hMem := h.imports_sorted_declare hMem

/-! ### Completing a structure -/

/-- The structures that the types in a body refer to. -/
def referents (registry : Registry) (body : Body Symbol) : List Structure :=
  (body.fields.flatMap fun field => Symbol.refs field.type).filterMap fun ref =>
    registry.structure? ref.id

theorem getElem?_modules_complete {registry : Registry} {name : String} {id : Nat} {s : Structure}
    (hName : registry.idOf? name = some id) (hs : registry.structure? id = some s)
    (body : Body Symbol) (i : Nat) :
    (registry.complete name body).graph.modules[i]? =
      (registry.graph.modules[i]?).map fun m =>
        if s.home = i then m.requireAll (registry.referents body) else m := by
  simp only [complete, hName, hs]
  exact ModuleGraph.getElem?_foldl_require _ _ _ _

theorem exists_of_structure?_complete {registry : Registry} {name : String} {body : Body Symbol}
    {id : Nat} {t : Structure} (ht : (registry.complete name body).structure? id = some t) :
    ∃ s made, registry.structure? id = some s ∧ t = s.withBody made := by
  cases hName : registry.idOf? name with
  | none =>
    rw [complete_of_unknown hName] at ht
    exact ⟨t, t.body, ht, rfl⟩
  | some known =>
    rw [structure?_complete hName, Option.map_eq_some_iff] at ht
    obtain ⟨s, hs, rfl⟩ := ht
    by_cases hId : id = known
    · exact ⟨s, body, hs, if_pos hId⟩
    · exact ⟨s, s.body, hs, if_neg hId⟩

theorem exists_of_modules_complete {registry : Registry} {name : String} {body : Body Symbol}
    {i : Nat} {m : TypeModule} (hm : (registry.complete name body).graph.modules[i]? = some m) :
    ∃ n, registry.graph.modules[i]? = some n ∧ m.owned = n.owned ∧
      (TypeModule.Sorted n.imports → TypeModule.Sorted m.imports) := by
  unfold complete at hm
  split at hm
  · split at hm
    · simp only [importAll, ModuleGraph.getElem?_foldl_require, Option.map_eq_some_iff] at hm
      obtain ⟨n, hn, rfl⟩ := hm
      refine ⟨n, hn, ?_, fun hSorted => ?_⟩
      · split <;> simp
      · split
        · exact TypeModule.sorted_requireAll hSorted _
        · exact hSorted
    · exact ⟨m, hm, rfl, fun hSorted => hSorted⟩
  · exact ⟨m, hm, rfl, fun hSorted => hSorted⟩

theorem length_modules_complete (registry : Registry) (name : String) (body : Body Symbol) :
    (registry.complete name body).graph.modules.length = registry.graph.modules.length := by
  unfold complete
  split
  · split
    · exact ModuleGraph.length_foldl_require _ _ _
    · rfl
  · rfl

/-- **Completing a structure keeps the indexes in step.** -/
theorem Indexed.complete {registry : Registry} (h : registry.Indexed) (name : String)
    (body : Body Symbol) : (registry.complete name body).Indexed where
  id_eq {id t} ht := by
    obtain ⟨s, made, hs, rfl⟩ := exists_of_structure?_complete ht
    show s.id = id
    exact h.id_eq hs
  idOf?_iff {other id} := by
    rw [idOf?_complete, h.idOf?_iff]
    constructor
    · rintro ⟨s, hs, rfl⟩
      obtain ⟨made, hMade⟩ := (extends_complete registry name body).structure? hs
      exact ⟨_, hMade, rfl⟩
    · rintro ⟨t, ht, rfl⟩
      obtain ⟨s, made, hs, rfl⟩ := exists_of_structure?_complete ht
      exact ⟨s, hs, rfl⟩
  graph := by
    unfold Registry.complete
    split
    · split
      · exact h.graph.foldl_require _ _
      · exact h.graph
    · exact h.graph
  mem_owned_iff {i m} hm id := by
    obtain ⟨n, hn, hOwned, -⟩ := exists_of_modules_complete hm
    rw [hOwned, h.mem_owned_iff hn]
    constructor
    · rintro ⟨s, hs, hHome⟩
      obtain ⟨made, hMade⟩ := (extends_complete registry name body).structure? hs
      exact ⟨_, hMade, hHome⟩
    · rintro ⟨t, ht, hHome⟩
      obtain ⟨s, made, hs, rfl⟩ := exists_of_structure?_complete ht
      exact ⟨s, hs, hHome⟩
  home_lt {id t} ht := by
    obtain ⟨s, made, hs, rfl⟩ := exists_of_structure?_complete ht
    rw [length_modules_complete]
    show s.home < _
    exact h.home_lt hs
  owned_increasing m hMem := by
    obtain ⟨i, hm⟩ := List.mem_iff_getElem?.mp hMem
    obtain ⟨n, hn, hOwned, -⟩ := exists_of_modules_complete hm
    rw [hOwned]
    exact h.owned_increasing n (List.mem_of_getElem? hn)
  owned_ne_nil m hMem := by
    obtain ⟨i, hm⟩ := List.mem_iff_getElem?.mp hMem
    obtain ⟨n, hn, hOwned, -⟩ := exists_of_modules_complete hm
    rw [hOwned]
    exact h.owned_ne_nil n (List.mem_of_getElem? hn)
  imports_sorted m hMem := by
    obtain ⟨i, hm⟩ := List.mem_iff_getElem?.mp hMem
    obtain ⟨n, hn, -, hSorted⟩ := exists_of_modules_complete hm
    exact hSorted (h.imports_sorted n (List.mem_of_getElem? hn))

end Registry

end ProseTypes
