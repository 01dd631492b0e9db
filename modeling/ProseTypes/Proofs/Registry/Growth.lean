import ProseTypes.Proofs.Resolution.Kept
import ProseTypes.Proofs.Resolution.Sound

/-!
# Registries are added to at the end

A registration puts new structures behind those that are there, and leaves these as they are, members
included.  A module may come to own more, behind what it owned, and to import more.  It never stops
importing anything: what it is assigned is new, and where names are unique, an import is replaced only
by itself.

`Registry.Appends before after` says all this.  Visits and registrations are of this kind
(`Sound.appends_reach`, `Sound.appends_enter`), and so is nothing that happens in between alone: a
structure that is declared and still open is given members later.
-/

namespace ProseTypes

/-! ### Modules -/

/-- A module is what it was, but for what it owns and imports in addition. -/
structure TypeModule.Appends (before after : TypeModule) : Prop where
  id : after.id = before.id
  path : after.path = before.path
  owned : before.owned <+: after.owned
  imports : before.imports ⊆ after.imports

namespace TypeModule

theorem Appends.refl (m : TypeModule) : Appends m m where
  id := rfl
  path := rfl
  owned := List.prefix_refl m.owned
  imports := List.Subset.refl m.imports

theorem Appends.trans {a b c : TypeModule} (hab : Appends a b) (hbc : Appends b c) :
    Appends a c where
  id := hbc.id.trans hab.id
  path := hbc.path.trans hab.path
  owned := hab.owned.trans hbc.owned
  imports := List.Subset.trans hab.imports hbc.imports

theorem appends_assign {m : TypeModule} {id : Nat} (hNew : ∀ i ∈ m.imports, i.id ≠ id) :
    Appends m (m.assign id) where
  id := id_assign id m
  path := path_assign id m
  owned := by
    unfold assign
    split
    · exact List.prefix_refl m.owned
    · exact List.prefix_append m.owned [id]
  imports := by
    intro i hi
    unfold assign
    split
    · exact hi
    · exact List.mem_filter.mpr ⟨hi, by simpa using hNew i hi⟩

end TypeModule

/-- Every module stays at its place and is only added to. -/
def ModuleGraph.Appends (before after : ModuleGraph) : Prop :=
  ∀ (i : Nat) (m : TypeModule), before.modules[i]? = some m →
    ∃ n, after.modules[i]? = some n ∧ m.Appends n

theorem ModuleGraph.Appends.refl (graph : ModuleGraph) : Appends graph graph :=
  fun _ m hm => ⟨m, hm, TypeModule.Appends.refl m⟩

theorem ModuleGraph.Appends.trans {a b c : ModuleGraph} (hab : Appends a b) (hbc : Appends b c) :
    Appends a c := by
  intro i m hm
  obtain ⟨n, hn, hmn⟩ := hab i m hm
  obtain ⟨k, hk, hnk⟩ := hbc i n hn
  exact ⟨k, hk, hmn.trans hnk⟩

namespace Registry

variable {index : LinkIndex} {registry : Registry} {pending : List String}

/-- **A new structure is assigned to its module, and no module loses an import**, since nobody can
have imported it before. -/
theorem Sound.appends_declare (h : registry.Sound pending) (resource : Resource) :
    registry.graph.Appends (registry.declare resource).graph := by
  intro i m hm
  let path := ModulePath.ofDocument resource.path
  have hThere : (registry.graph.moduleFor path).2.modules[i]? = some m :=
    ModuleGraph.getElem?_moduleFor.mpr (Or.inl hm)
  refine ⟨_, by rw [getElem?_modules_declare, hThere, Option.map_some], ?_⟩
  split
  · refine TypeModule.appends_assign fun j hj => ?_
    obtain ⟨id, t, -, ht, -, rfl⟩ := (h.imports_iff hm).mp hj
    have hLt := lt_of_structure? ht
    rw [← h.indexed.id_eq ht] at hLt
    exact Nat.ne_of_lt hLt
  · exact TypeModule.Appends.refl m

/-- **Completing a structure adds imports to its module**, and replaces none, since names are not
repeated. -/
theorem Sound.appends_complete {name : String} (h : registry.Sound (name :: pending))
    (body : Body Symbol) : registry.graph.Appends (registry.complete name body).graph := by
  intro i m hm
  obtain ⟨id, s, hName, hs, -⟩ := h.declared name List.mem_cons_self
  refine ⟨_, by rw [getElem?_modules_complete hName hs, hm, Option.map_some], ?_⟩
  split
  · exact ⟨TypeModule.id_requireAll m _, TypeModule.path_requireAll m _,
      (TypeModule.owned_requireAll m _).symm ▸ List.prefix_refl m.owned,
      fun j hj => (h.mem_imports_requireAll_referents hm).mpr (Or.inl hj)⟩
  · exact TypeModule.Appends.refl m

/-! ### Registrations -/

/-- Structures stay as they are, with new ones behind them, and modules are only added to. -/
structure Appends (before after : Registry) : Prop where
  structures : before.structures <+: after.structures
  graph : before.graph.Appends after.graph

theorem Appends.refl (registry : Registry) : Appends registry registry where
  structures := List.prefix_refl registry.structures
  graph := ModuleGraph.Appends.refl registry.graph

theorem Appends.trans {a b c : Registry} (hab : Appends a b) (hbc : Appends b c) : Appends a c where
  structures := hab.structures.trans hbc.structures
  graph := hab.graph.trans hbc.graph

theorem structures_prefix {before after : Registry}
    (h : ∀ {id : Nat} {s : Structure}, before.structure? id = some s →
      after.structure? id = some s) : before.structures <+: after.structures := by
  rw [List.prefix_iff_getElem?]
  intro i hi
  exact h (List.getElem?_eq_getElem hi)

/-- A registry in which everything is sound, and whose modules are those of an earlier one and what
was added to them. -/
structure SoundAfter (before : ModuleGraph) (pending : List String) (registry : Registry) : Prop where
  sound : registry.Sound pending
  graph : before.Appends registry.graph

theorem SoundAfter.declare {before : ModuleGraph} (h : registry.SoundAfter before pending)
    {resource : Resource} (hNew : registry.idOf? resource.name = none) :
    (registry.declare resource).SoundAfter before (resource.name :: pending) where
  sound := h.sound.declare hNew
  graph := h.graph.trans (h.sound.appends_declare resource)

theorem SoundAfter.completeAs {before : ModuleGraph} {resource : Resource}
    (hLinks : ∀ linked ∈ resource.links index, registry.has linked.1.name)
    (h : registry.SoundAfter before (resource.name :: pending)) :
    (registry.completeAs index resource).SoundAfter before pending where
  sound := h.sound.completeAs hLinks
  graph := h.graph.trans (h.sound.appends_complete _)

/-- **Visits add to a registry at its end.** -/
theorem Sound.appends_reach (h : registry.Sound pending) (links : List index.Linked) :
    Appends registry (registry.reach index links) where
  structures := structures_prefix fun hs => (Holds.reach ⟨h.indexed, hs⟩ links).here
  graph := (reach_pending_induction (P := SoundAfter registry.graph)
    (fun _ _ _ hNew hr => hr.declare hNew) (fun _ _ _ hLinks hr => hr.completeAs hLinks) links
    ⟨h, ModuleGraph.Appends.refl registry.graph⟩).graph

/-- **So does registering a resource.** -/
theorem Sound.appends_enter (h : registry.Sound pending) (resource : Resource) :
    Appends registry (registry.enter index resource) where
  structures := structures_prefix fun hs => (Holds.enter ⟨h.indexed, hs⟩ resource).here
  graph := (enter_pending_induction (P := SoundAfter registry.graph)
    (fun _ _ _ hNew hr => hr.declare hNew) (fun _ _ _ hLinks hr => hr.completeAs hLinks) resource
    ⟨h, ModuleGraph.Appends.refl registry.graph⟩).graph

end Registry

end ProseTypes
