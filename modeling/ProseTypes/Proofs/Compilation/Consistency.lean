import ProseTypes.Proofs.Compilation.Operations

/-!
# What holds after any operations

Whatever has been asked of a corpus, in whatever order and however often:

* `Corpus.consistent_perform`: the structures, the modules, the maps beside them and the references
  in fields and requests agree with each other (`Progress.Consistent`).
* `Corpus.importsExact_perform`: a module imports the structures that its own ones mention and that
  belong to other modules, and no others (`Registry.ImportsExact`).
-/

namespace ProseTypes

/-- A module has a structure that mentions an identifier in the type of a field. -/
def Registry.MentionedIn (registry : Registry) (m : TypeModule) (id : Nat) : Prop :=
  ∃ user ∈ m.owned, ∃ s, registry.structure? user = some s ∧ ∃ ref, s.Mentions ref ∧ ref.id = id

/-- Modules import what they mention and do not own, each structure under its name and from the
module that owns it. -/
structure Registry.ImportsExact (registry : Registry) : Prop where
  imported_iff : ∀ m ∈ registry.graph.modules, ∀ id : Nat,
    (∃ i ∈ m.imports, i.id = id) ↔ registry.MentionedIn m id ∧ id ∉ m.owned
  sorted : ∀ m ∈ registry.graph.modules, TypeModule.Sorted m.imports
  name_eq : ∀ m ∈ registry.graph.modules, ∀ i ∈ m.imports,
    ∃ s, registry.structure? i.id = some s ∧ i.name = s.name
  home_owns : ∀ m ∈ registry.graph.modules, ∀ i ∈ m.imports,
    ∃ owner, registry.graph.modules[i.home]? = some owner ∧ i.id ∈ owner.owned

/-- All that is said more than once about structures, modules and references says the same. -/
structure Progress.Consistent (progress : Progress) : Prop where
  structure_id : ∀ {i : Nat} {s : Structure}, progress.registry.structure? i = some s → s.id = i
  idOf?_iff : ∀ {name : String} {i : Nat}, progress.registry.idOf? name = some i ↔
    ∃ s, progress.registry.structure? i = some s ∧ s.name = name
  names_nodup : progress.registry.names.Nodup
  find?_eq_search? : ∀ name, progress.registry.find? name = progress.registry.search? name
  module_id : ∀ {i : Nat} {m : TypeModule},
    progress.registry.graph.modules[i]? = some m → m.id = i
  module_find?_iff : ∀ {path : String} {i : Nat}, progress.registry.graph.find? path = some i ↔
    ∃ m, progress.registry.graph.modules[i]? = some m ∧ m.path = path
  owned_by_home : ∀ {i : Nat} {s : Structure}, progress.registry.structure? i = some s →
    ∀ home, (∃ m, progress.registry.graph.modules[home]? = some m ∧ i ∈ m.owned) ↔ home = s.home
  owned_registered : ∀ m ∈ progress.registry.graph.modules, ∀ i ∈ m.owned,
    ∃ s, progress.registry.structure? i = some s
  owned_increasing : ∀ m ∈ progress.registry.graph.modules, m.owned.Pairwise (· < ·)
  owned_ne_nil : ∀ m ∈ progress.registry.graph.modules, m.owned ≠ []
  field_bound : ∀ s ∈ progress.registry.structures, ∀ ref, s.Mentions ref →
    progress.registry.Binds ref
  request_bound : ∀ request ∈ progress.requests, ∀ ref, request.Mentions ref →
    progress.registry.Binds ref

namespace Registry

variable {registry : Registry}

/-! ### Owners -/

/-- **A structure belongs to its home and to no other module.** -/
theorem Indexed.owned_by_home (h : registry.Indexed) {id : Nat} {s : Structure}
    (hs : registry.structure? id = some s) (home : Nat) :
    (∃ m, registry.graph.modules[home]? = some m ∧ id ∈ m.owned) ↔ home = s.home := by
  constructor
  · rintro ⟨m, hm, hOwned⟩
    obtain ⟨t, ht, hHome⟩ := (h.mem_owned_iff hm).mp hOwned
    rw [hs] at ht
    cases ht
    exact hHome.symm
  · rintro rfl
    have hThere := List.getElem?_eq_getElem (h.home_lt hs)
    exact ⟨_, hThere, (h.mem_owned_iff hThere).mpr ⟨s, hs, rfl⟩⟩

theorem Indexed.mentionedIn_iff (h : registry.Indexed) {home : Nat} {m : TypeModule}
    (hm : registry.graph.modules[home]? = some m) {id : Nat} :
    registry.MentionedIn m id ↔ registry.Uses home id := by
  constructor
  · rintro ⟨user, hOwned, s, hs, hUse⟩
    obtain ⟨t, ht, hHome⟩ := (h.mem_owned_iff hm).mp hOwned
    rw [hs] at ht
    cases ht
    exact ⟨user, s, hs, hHome, hUse⟩
  · rintro ⟨user, s, hs, hHome, hUse⟩
    exact ⟨user, (h.mem_owned_iff hm).mpr ⟨s, hs, hHome⟩, s, hs, hUse⟩

/-! ### Imports -/

theorem Indexed.structure?_asImport (h : registry.Indexed) {id : Nat} {s : Structure}
    (hs : registry.structure? id = some s) : registry.structure? s.asImport.id = some s := by
  rw [show s.asImport.id = id from h.id_eq hs]
  exact hs

/-- **Imports are exact at any point of a registration**: nothing that is mentioned is missing, and
nothing is imported without need. -/
theorem Sound.importsExact {pending : List String} (h : registry.Sound pending) :
    registry.ImportsExact where
  imported_iff m hMem id := by
    obtain ⟨home, hm⟩ := List.mem_iff_getElem?.mp hMem
    simp only [h.imports_iff hm, h.indexed.mentionedIn_iff hm, h.indexed.mem_owned_iff hm]
    constructor
    · rintro ⟨i, ⟨used, t, hUse, ht, hElse, rfl⟩, rfl⟩
      rw [show t.asImport.id = used from h.indexed.id_eq ht]
      refine ⟨hUse, ?_⟩
      rintro ⟨s, hs, hHome⟩
      rw [ht] at hs
      cases hs
      exact hElse hHome
    · rintro ⟨hUse, hOther⟩
      obtain ⟨user, s, hs, hHome, ref, hRef, rfl⟩ := hUse
      obtain ⟨t, ht, -⟩ := h.binds hs hRef
      refine ⟨t.asImport, ⟨ref.id, t, ⟨user, s, hs, hHome, ref, hRef, rfl⟩, ht, ?_, rfl⟩, ?_⟩
      · exact fun hSame => hOther ⟨t, ht, hSame⟩
      · exact h.indexed.id_eq ht
  sorted := h.indexed.imports_sorted
  name_eq m hMem i hImport := by
    obtain ⟨home, hm⟩ := List.mem_iff_getElem?.mp hMem
    obtain ⟨used, t, -, ht, -, rfl⟩ := (h.imports_iff hm).mp hImport
    exact ⟨t, h.indexed.structure?_asImport ht, rfl⟩
  home_owns m hMem i hImport := by
    obtain ⟨home, hm⟩ := List.mem_iff_getElem?.mp hMem
    obtain ⟨used, t, -, ht, -, rfl⟩ := (h.imports_iff hm).mp hImport
    exact (h.indexed.owned_by_home (h.indexed.structure?_asImport ht) t.home).mpr rfl

end Registry

/-! ### After any operations -/

/-- **Whatever has been asked of a corpus, its modules import exactly what they need.** -/
theorem Corpus.importsExact_perform (corpus : Corpus) (scope : Scope)
    (operations : List Operation) : (corpus.perform scope operations).registry.ImportsExact :=
  (corpus.sound_perform scope operations).registry.importsExact

/-- **Whatever has been asked of a corpus, its indexes and references agree.** -/
theorem Corpus.consistent_perform (corpus : Corpus) (scope : Scope)
    (operations : List Operation) : (corpus.perform scope operations).Consistent := by
  have hSound := corpus.sound_perform scope operations
  have hIndexed := hSound.registry.indexed
  refine
    { structure_id := hIndexed.id_eq
      idOf?_iff := hIndexed.idOf?_iff
      names_nodup := hIndexed.names_nodup
      find?_eq_search? := hIndexed.find?_eq_search?
      module_id := hIndexed.graph.id_eq
      module_find?_iff := hIndexed.graph.find?_iff
      owned_by_home := hIndexed.owned_by_home
      owned_registered := ?_
      owned_increasing := hIndexed.owned_increasing
      owned_ne_nil := hIndexed.owned_ne_nil
      field_bound := ?_
      request_bound := hSound.requests }
  · intro m hMem i hOwned
    obtain ⟨home, hm⟩ := List.mem_iff_getElem?.mp hMem
    obtain ⟨s, hs, -⟩ := (hIndexed.mem_owned_iff hm).mp hOwned
    exact ⟨s, hs⟩
  · intro s hMem ref hRef
    obtain ⟨id, hs⟩ := List.mem_iff_getElem?.mp hMem
    exact hSound.registry.binds hs hRef

end ProseTypes
