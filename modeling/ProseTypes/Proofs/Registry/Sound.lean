import ProseTypes.Proofs.Registry.Indexed
import ProseTypes.Proofs.Registry.Mentions

/-!
# References and imports

`Registry.Sound pending registry` is the invariant of a registration in progress.  Besides the
indexes being in step, every reference in a field leads to a structure that carries its name, every
module imports exactly the structures that its own ones mention and that belong to others, and the
structures whose names are `pending` are declared but still without fields.

* `Sound.declare`: declaring a structure under a new name makes the name pending.
* `Sound.complete`: giving a pending structure fields whose references lead to structures of their
  names settles it.

A structure that is completed had no fields before, so the imports that its fields need come on top
of what its module imported.  This is why imports stay exact, although none is ever withdrawn.
-/

namespace ProseTypes

namespace Registry

/-- A reference leads to a structure that carries its name. -/
def Binds (registry : Registry) (ref : StructureRef) : Prop :=
  ∃ s, registry.structure? ref.id = some s ∧ s.name = ref.name

/-- A structure of a module mentions an identifier. -/
def Uses (registry : Registry) (home id : Nat) : Prop :=
  ∃ user s, registry.structure? user = some s ∧ s.home = home ∧
    ∃ ref, s.Mentions ref ∧ ref.id = id

/-- An import of a module: a structure that it uses and that belongs to another module. -/
def Needs (registry : Registry) (home : Nat) (i : Import) : Prop :=
  ∃ id t, registry.Uses home id ∧ registry.structure? id = some t ∧ t.home ≠ home ∧
    i = t.asImport

/-- The invariant of a registration in progress. -/
structure Sound (pending : List String) (registry : Registry) : Prop where
  indexed : registry.Indexed
  binds : ∀ {id : Nat} {s : Structure}, registry.structure? id = some s →
    ∀ {ref : StructureRef}, s.Mentions ref → registry.Binds ref
  imports_iff : ∀ {home : Nat} {m : TypeModule}, registry.graph.modules[home]? = some m →
    ∀ {i : Import}, i ∈ m.imports ↔ registry.Needs home i
  nodup : pending.Nodup
  declared : ∀ name ∈ pending, ∃ id s, registry.idOf? name = some id ∧
    registry.structure? id = some s ∧ s.body.fields = []

theorem sound_empty : Sound [] empty where
  indexed := indexed_empty
  binds h := by simp [structure?, empty] at h
  imports_iff h := by simp [empty, ModuleGraph.empty] at h
  nodup := List.nodup_nil
  declared _ h := by cases h

theorem Extends.binds {before after : Registry} (h : Extends before after) {ref : StructureRef}
    (hRef : before.Binds ref) : after.Binds ref := by
  obtain ⟨s, hs, hName⟩ := hRef
  obtain ⟨body, hBody⟩ := h.structure? hs
  exact ⟨_, hBody, hName⟩

theorem Indexed.binds_refTo {registry : Registry} (h : registry.Indexed) {name : String}
    (hName : registry.has name) : registry.Binds (registry.refTo name) := by
  obtain ⟨id, hId⟩ := Option.isSome_iff_exists.mp hName
  obtain ⟨s, hs, rfl⟩ := h.idOf?_iff.mp hId
  refine ⟨s, ?_, ?_⟩
  · rw [Registry.refTo, Registry.ref?, hId, Option.bind_some, hs]
    exact hs
  · exact (h.name_refTo hName).symm

/-- **The structure that a bound reference leads to is found by its name.** -/
theorem Indexed.search?_of_binds {registry : Registry} (h : registry.Indexed)
    {ref : StructureRef} (hRef : registry.Binds ref) :
    ∃ s, registry.search? ref.name = some s ∧ ref = s.ref := by
  obtain ⟨s, hs, hName⟩ := hRef
  refine ⟨s, ?_, ?_⟩
  · rw [← h.find?_eq_search?, find?, h.idOf?_iff.mpr ⟨s, hs, hName⟩, Option.bind_some, hs]
  · rw [Structure.ref, h.id_eq hs, hName]

/-! ### Declaring a structure -/

theorem fields_empty (kind : Kind) : (Body.empty kind : Body Symbol).fields = [] := by
  cases kind <;> rfl

theorem exists_structure?_declare (registry : Registry) (resource : Resource) :
    ∃ s, (registry.declare resource).structure? registry.structures.length = some s ∧
      s.body.fields = [] := by
  rw [structure?_declare, if_pos rfl]
  exact ⟨_, rfl, fields_empty resource.shape.kind⟩

/-- A declared structure mentions nothing, so what mentions something was there before. -/
theorem structure?_of_mentions_declare {registry : Registry} {resource : Resource} {id : Nat}
    {s : Structure} {ref : StructureRef}
    (hs : (registry.declare resource).structure? id = some s) (hRef : s.Mentions ref) :
    registry.structure? id = some s := by
  rw [structure?_declare] at hs
  split at hs
  · cases hs
    obtain ⟨field, hField, -⟩ := hRef
    rw [fields_empty] at hField
    cases hField
  · exact hs

theorem structure?_declare_of_some {registry : Registry} {resource : Resource} {id : Nat}
    {s : Structure} (hs : registry.structure? id = some s) :
    (registry.declare resource).structure? id = some s := by
  rw [structure?_declare, if_neg (Nat.ne_of_lt (lt_of_structure? hs)), hs]

theorem Sound.needs_declare_iff {pending : List String} {registry : Registry}
    (h : registry.Sound pending) {resource : Resource} {home : Nat} {i : Import} :
    (registry.declare resource).Needs home i ↔ registry.Needs home i := by
  constructor
  · rintro ⟨id, t, ⟨user, s, hs, hHome, ref, hRef, rfl⟩, ht, hElse, rfl⟩
    have hOld := structure?_of_mentions_declare hs hRef
    obtain ⟨target, hTarget, -⟩ := h.binds hOld hRef
    rw [structure?_declare_of_some hTarget] at ht
    cases ht
    exact ⟨ref.id, t, ⟨user, s, hOld, hHome, ref, hRef, rfl⟩, hTarget, hElse, rfl⟩
  · rintro ⟨id, t, ⟨user, s, hs, hHome, hUse⟩, ht, hElse, rfl⟩
    exact ⟨id, t, ⟨user, s, structure?_declare_of_some hs, hHome, hUse⟩,
      structure?_declare_of_some ht, hElse, rfl⟩

/-- **Declaring a structure leaves references and imports alone, and makes a name pending.** -/
theorem Sound.declare {pending : List String} {registry : Registry} (h : registry.Sound pending)
    {resource : Resource} (hNew : registry.idOf? resource.name = none) :
    (registry.declare resource).Sound (resource.name :: pending) where
  indexed := h.indexed.declare hNew
  binds {id s} hs ref hRef :=
    (extends_declare hNew).binds (h.binds (structure?_of_mentions_declare hs hRef) hRef)
  imports_iff {home m} hm i := by
    rw [h.needs_declare_iff]
    rw [getElem?_modules_declare, Option.map_eq_some_iff] at hm
    obtain ⟨n, hn, rfl⟩ := hm
    rcases ModuleGraph.getElem?_moduleFor.mp hn with hn | ⟨-, rfl, rfl⟩
    · have hImports : i ∈ n.imports ↔ registry.Needs home i := h.imports_iff hn
      split
      · -- The new structure is not among the imports, since they were there before.
        have hFresh : registry.structures.length ∉ n.owned := by
          intro hOwned
          obtain ⟨s, hs, -⟩ := (h.indexed.mem_owned_iff hn).mp hOwned
          exact absurd (lt_of_structure? hs) (Nat.lt_irrefl _)
        rw [TypeModule.mem_imports_assign hFresh, hImports, and_iff_left_iff_imp]
        rintro ⟨id, t, -, ht, -, rfl⟩
        have := lt_of_structure? ht
        rw [← h.indexed.id_eq ht] at this
        exact Nat.ne_of_lt this
      · exact hImports
    · -- A module that was made just now is the home of nothing that mentions anything.
      have hNone : ¬registry.Needs registry.graph.modules.length i := by
        rintro ⟨id, t, ⟨user, s, hs, hHome, -⟩, -⟩
        exact absurd (h.indexed.home_lt hs) (by omega)
      simp only [hNone, iff_false]
      split
      · rw [TypeModule.mem_imports_assign List.not_mem_nil]
        simp
      · exact List.not_mem_nil
  nodup := by
    refine List.nodup_cons.mpr ⟨fun hMem => ?_, h.nodup⟩
    obtain ⟨id, s, hId, -⟩ := h.declared _ hMem
    rw [hNew] at hId
    cases hId
  declared name hMem := by
    rcases List.mem_cons.mp hMem with rfl | hMem
    · obtain ⟨s, hs, hFields⟩ := exists_structure?_declare registry resource
      refine ⟨registry.structures.length, s, ?_, hs, hFields⟩
      rw [idOf?_declare, if_pos rfl]
    · obtain ⟨id, s, hId, hs, hFields⟩ := h.declared name hMem
      exact ⟨id, s, (extends_declare hNew).idOf? hId, structure?_declare_of_some hs, hFields⟩

/-! ### Completing a structure -/

theorem mem_referents {registry : Registry} {body : Body Symbol} {t : Structure} :
    t ∈ registry.referents body ↔
      ∃ ref, body.Mentions ref ∧ registry.structure? ref.id = some t := by
  simp only [referents, List.mem_filterMap, List.mem_flatMap]
  constructor
  · rintro ⟨ref, ⟨field, hField, hRef⟩, ht⟩
    exact ⟨ref, ⟨field, hField, Symbol.mentions_of_mem_refs hRef⟩, ht⟩
  · rintro ⟨ref, ⟨field, hField, hRef⟩, ht⟩
    obtain ⟨listed, hListed, hId⟩ := Symbol.exists_mem_refs hRef
    exact ⟨listed, ⟨field, hField, hListed⟩, by rw [hId, ht]⟩

/-- What a module needs after a structure without fields has been completed: what it needed before,
and if it is the structure's home, what the body mentions. -/
theorem needs_complete_iff {registry : Registry} {name : String} {id : Nat} {s : Structure}
    (hName : registry.idOf? name = some id) (hs : registry.structure? id = some s)
    (hFields : s.body.fields = []) (body : Body Symbol) {home : Nat} {i : Import} :
    (registry.complete name body).Needs home i ↔ registry.Needs home i ∨
      (s.home = home ∧ ∃ t ∈ registry.referents body, t.home ≠ home ∧ i = t.asImport) := by
  have hStructure := structure?_complete hName body
  have hUses {used : Nat} : (registry.complete name body).Uses home used ↔
      registry.Uses home used ∨ (s.home = home ∧ ∃ ref, body.Mentions ref ∧ ref.id = used) := by
    constructor
    · rintro ⟨user, t, ht, hHome, hUse⟩
      rw [hStructure, Option.map_eq_some_iff] at ht
      obtain ⟨old, hOld, rfl⟩ := ht
      by_cases hUser : user = id
      · subst hUser
        rw [hs] at hOld
        cases hOld
        rw [if_pos rfl] at hHome hUse
        exact Or.inr ⟨hHome, hUse⟩
      · rw [if_neg hUser] at hHome hUse
        exact Or.inl ⟨user, old, hOld, hHome, hUse⟩
    · rintro (⟨user, old, hOld, hHome, ref, ⟨field, hField, hRef⟩, hUsed⟩ | ⟨hHome, hUse⟩)
      · have hUser : user ≠ id := by
          rintro rfl
          rw [hs] at hOld
          cases hOld
          rw [hFields] at hField
          cases hField
        refine ⟨user, old, ?_, hHome, ref, ⟨field, hField, hRef⟩, hUsed⟩
        rw [hStructure, hOld, Option.map_some, if_neg hUser]
      · refine ⟨id, s.withBody body, ?_, hHome, hUse⟩
        rw [hStructure, hs, Option.map_some, if_pos rfl]
  constructor
  · rintro ⟨used, t, hUse, ht, hElse, rfl⟩
    obtain ⟨old, made, hOld, rfl⟩ := exists_of_structure?_complete ht
    rcases hUses.mp hUse with hUse | ⟨hHome, ref, hRef, rfl⟩
    · exact Or.inl ⟨used, old, hUse, hOld, hElse, rfl⟩
    · exact Or.inr ⟨hHome, old, mem_referents.mpr ⟨ref, hRef, hOld⟩, hElse, rfl⟩
  · rintro (⟨used, t, hUse, ht, hElse, rfl⟩ | ⟨hHome, t, ht, hElse, rfl⟩)
    · obtain ⟨made, hMade⟩ := (extends_complete registry name body).structure? ht
      exact ⟨used, _, hUses.mpr (Or.inl hUse), hMade, hElse, rfl⟩
    · obtain ⟨ref, hRef, ht⟩ := mem_referents.mp ht
      obtain ⟨made, hMade⟩ := (extends_complete registry name body).structure? ht
      exact ⟨ref.id, _, hUses.mpr (Or.inr ⟨hHome, ref, hRef, rfl⟩), hMade, hElse, rfl⟩

/-- Names are not repeated, so a module that is made to import structures loses no import. -/
theorem Sound.mem_imports_requireAll_referents {pending : List String} {registry : Registry}
    (h : registry.Sound pending) {home : Nat} {m : TypeModule}
    (hm : registry.graph.modules[home]? = some m) {body : Body Symbol} {i : Import} :
    i ∈ (m.requireAll (registry.referents body)).imports ↔ i ∈ m.imports ∨
      ∃ t ∈ registry.referents body, i = t.asImport ∧ t.home ≠ m.id ∧ t.id ∉ m.owned := by
  let Known (i : Import) : Prop := ∃ id t, registry.structure? id = some t ∧ i = t.asImport
  have hSame (i j : Import) (hi : Known i) (hj : Known j) (hName : i.name = j.name) : i = j := by
    obtain ⟨a, s, hs, rfl⟩ := hi
    obtain ⟨b, t, ht, rfl⟩ := hj
    have hId := h.indexed.eq_of_name_eq hs ht hName
    rw [hId, ht] at hs
    cases hs
    rfl
  have hImports (j : Import) (hj : j ∈ m.imports) : Known j := by
    obtain ⟨id, t, -, ht, -, hEq⟩ := (h.imports_iff hm).mp hj
    exact ⟨id, t, ht, hEq⟩
  have hTargets (t : Structure) (ht : t ∈ registry.referents body) : Known t.asImport := by
    obtain ⟨ref, -, hTarget⟩ := mem_referents.mp ht
    exact ⟨ref.id, t, hTarget, rfl⟩
  exact TypeModule.mem_imports_requireAll hSame _ m hImports hTargets

/-- **Completing a pending structure keeps references bound and imports exact.** -/
theorem Sound.complete {pending : List String} {registry : Registry} {name : String}
    (h : registry.Sound (name :: pending)) {body : Body Symbol}
    (hBody : ∀ ref, body.Mentions ref → registry.Binds ref) :
    (registry.complete name body).Sound pending := by
  obtain ⟨id, s, hName, hs, hFields⟩ := h.declared name List.mem_cons_self
  have hExtends := extends_complete registry name body
  have hNodup := List.nodup_cons.mp h.nodup
  refine ⟨h.indexed.complete name body, ?_, ?_, hNodup.2, ?_⟩
  · intro user t ht ref hRef
    rw [structure?_complete hName, Option.map_eq_some_iff] at ht
    obtain ⟨old, hOld, rfl⟩ := ht
    by_cases hUser : user = id
    · rw [if_pos hUser] at hRef
      exact hExtends.binds (hBody ref hRef)
    · rw [if_neg hUser] at hRef
      exact hExtends.binds (h.binds hOld hRef)
  · intro home m hm i
    rw [needs_complete_iff hName hs hFields]
    rw [getElem?_modules_complete hName hs, Option.map_eq_some_iff] at hm
    obtain ⟨n, hn, rfl⟩ := hm
    have hImports : i ∈ n.imports ↔ registry.Needs home i := h.imports_iff hn
    split
    · rename_i hHome
      have hOwner : n.id = home := h.indexed.graph.id_eq hn
      rw [h.mem_imports_requireAll_referents hn, hImports, hOwner]
      refine or_congr_right ⟨?_, ?_⟩
      · rintro ⟨t, ht, rfl, hElse, -⟩
        exact ⟨hHome, t, ht, hElse, rfl⟩
      · rintro ⟨-, t, ht, hElse, rfl⟩
        obtain ⟨ref, -, hTarget⟩ := mem_referents.mp ht
        refine ⟨t, ht, rfl, hElse, fun hOwned => ?_⟩
        obtain ⟨same, hSame, hThere⟩ := (h.indexed.mem_owned_iff hn).mp hOwned
        rw [h.indexed.id_eq hTarget, hTarget] at hSame
        cases hSame
        exact hElse hThere
    · rename_i hElse
      rw [hImports]
      simp [hElse]
  · intro other hMem
    obtain ⟨otherId, t, hId, ht, hEmpty⟩ := h.declared other (List.mem_cons_of_mem name hMem)
    have hne : otherId ≠ id := by
      rintro rfl
      obtain ⟨a, ha, hNameA⟩ := h.indexed.idOf?_iff.mp hId
      obtain ⟨b, hb, hNameB⟩ := h.indexed.idOf?_iff.mp hName
      rw [ha] at hb
      cases hb
      rw [hNameA] at hNameB
      exact hNodup.1 (hNameB ▸ hMem)
    refine ⟨otherId, t, hExtends.idOf? hId, ?_, hEmpty⟩
    rw [structure?_complete hName, ht, Option.map_some, if_neg hne]

end Registry

end ProseTypes
