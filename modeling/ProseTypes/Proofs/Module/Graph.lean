import Mathlib.Tactic.Tauto
import ProseTypes.Module.Graph

/-!
# The graph of modules

What the operations on modules do, module by module.  `Indexed` says that the two ways to reach a
module agree: by its identifier, which is its index, and by its path.  Making a module keeps it
(`Indexed.moduleFor`), and so does every change inside the modules (`Indexed.modify`).

Imports are kept sorted by name, and a new import replaces the one of its name.  Where equal names
mean equal imports nothing is ever replaced, so a module that is made to import several structures
imports them in addition to what it imported, except for those that it owns:
`mem_imports_requireAll`.
-/

namespace ProseTypes

namespace TypeModule

/-! ### One module -/

theorem mem_owned_assign {m : TypeModule} {id other : Nat} :
    other ∈ (m.assign id).owned ↔ other ∈ m.owned ∨ other = id := by
  unfold assign
  split
  · rename_i hOwns
    have hMem : id ∈ m.owned := by simpa [owns] using hOwns
    refine ⟨Or.inl, ?_⟩
    rintro (h | rfl)
    · exact h
    · exact hMem
  · simp

theorem mem_imports_assign {m : TypeModule} {id : Nat} {i : Import} (hNew : id ∉ m.owned) :
    i ∈ (m.assign id).imports ↔ i ∈ m.imports ∧ i.id ≠ id := by
  have hOwns : ¬m.owns id = true := by simpa [owns] using hNew
  simp [assign, hOwns]

theorem increasing_assign {m : TypeModule} {id : Nat} (hOwned : m.owned.Pairwise (· < ·))
    (hLt : ∀ other ∈ m.owned, other < id) : (m.assign id).owned.Pairwise (· < ·) := by
  unfold assign
  split
  · exact hOwned
  · exact List.pairwise_append.mpr ⟨hOwned, List.pairwise_singleton _ _, by simpa using hLt⟩

@[simp] theorem id_assign (id : Nat) (m : TypeModule) : (m.assign id).id = m.id := by
  unfold assign
  split <;> rfl

@[simp] theorem path_assign (id : Nat) (m : TypeModule) : (m.assign id).path = m.path := by
  unfold assign
  split <;> rfl

@[simp] theorem id_require (i : Import) (m : TypeModule) : (m.require i).id = m.id := by
  unfold require
  split <;> rfl

@[simp] theorem path_require (i : Import) (m : TypeModule) : (m.require i).path = m.path := by
  unfold require
  split <;> rfl

@[simp] theorem owned_require (i : Import) (m : TypeModule) : (m.require i).owned = m.owned := by
  unfold require
  split <;> rfl

/-- Where equal names mean equal imports, inserting an import removes none. -/
theorem mem_insertImport {i j : Import} {imports : List Import}
    (hName : ∀ k ∈ imports, k.name = i.name → k = i) :
    j ∈ insertImport i imports ↔ j = i ∨ j ∈ imports := by
  induction imports with
  | nil => simp [insertImport]
  | cons k rest ih =>
    have hRest := ih fun l hl => hName l (List.mem_cons_of_mem k hl)
    unfold insertImport
    split
    · exact List.mem_cons
    split
    · rename_i hEq
      rw [hName k List.mem_cons_self hEq.symm]
      simp
    · rw [List.mem_cons, hRest, List.mem_cons]
      tauto

theorem mem_imports_require {i j : Import} {m : TypeModule}
    (hName : ∀ k ∈ m.imports, k.name = i.name → k = i) :
    j ∈ (m.require i).imports ↔
      j ∈ m.imports ∨ (j = i ∧ i.home ≠ m.id ∧ i.id ∉ m.owned) := by
  unfold require
  split
  · rename_i hOwn
    have : i.home = m.id ∨ i.id ∈ m.owned := by simpa [owns] using hOwn
    tauto
  · rename_i hOther
    have : ¬(i.home = m.id ∨ i.id ∈ m.owned) := by simpa [owns] using hOther
    rw [mem_insertImport hName]
    tauto

/-- Imports in increasing order of names, each name once. -/
def Sorted (imports : List Import) : Prop :=
  imports.Pairwise fun i j => i.name < j.name

theorem eq_or_mem_of_mem_insertImport {i j : Import} {imports : List Import}
    (h : j ∈ insertImport i imports) : j = i ∨ j ∈ imports := by
  induction imports with
  | nil => exact Or.inl (List.mem_singleton.mp h)
  | cons k rest ih =>
    unfold insertImport at h
    split at h
    · exact List.mem_cons.mp h
    split at h
    · exact (List.mem_cons.mp h).imp_right (List.mem_cons_of_mem k)
    · rcases List.mem_cons.mp h with rfl | h
      · exact Or.inr List.mem_cons_self
      · exact (ih h).imp_right (List.mem_cons_of_mem k)

theorem sorted_insertImport {i : Import} {imports : List Import} (h : Sorted imports) :
    Sorted (insertImport i imports) := by
  induction imports with
  | nil => exact List.pairwise_singleton _ i
  | cons k rest ih =>
    obtain ⟨hHead, hRest⟩ := List.pairwise_cons.mp h
    unfold insertImport
    split
    · rename_i hLt
      refine List.pairwise_cons.mpr ⟨fun j hj => ?_, h⟩
      rcases List.mem_cons.mp hj with rfl | hj
      · exact hLt
      · exact String.lt_trans hLt (hHead j hj)
    split
    · rename_i hEq
      exact List.pairwise_cons.mpr ⟨fun j hj => hEq ▸ hHead j hj, hRest⟩
    · rename_i hNotLt hNe
      have hLt : k.name < i.name := by
        refine Classical.not_not.mp fun hNot => hNe ?_
        exact String.le_antisymm (String.not_lt.mp hNot) (String.not_lt.mp hNotLt)
      refine List.pairwise_cons.mpr ⟨fun j hj => ?_, ih hRest⟩
      rcases eq_or_mem_of_mem_insertImport hj with rfl | hj
      · exact hLt
      · exact hHead j hj

theorem sorted_assign {m : TypeModule} (h : Sorted m.imports) (id : Nat) :
    Sorted (m.assign id).imports := by
  unfold assign
  split
  · exact h
  · exact List.Pairwise.filter _ h

theorem sorted_require {m : TypeModule} (h : Sorted m.imports) (i : Import) :
    Sorted (m.require i).imports := by
  unfold require
  split
  · exact h
  · exact sorted_insertImport h

def requireAll (m : TypeModule) (targets : List Structure) : TypeModule :=
  targets.foldl (fun m s => m.require s.asImport) m

@[simp] theorem owned_requireAll (m : TypeModule) (targets : List Structure) :
    (m.requireAll targets).owned = m.owned := by
  induction targets generalizing m with
  | nil => rfl
  | cons s rest ih => exact (ih _).trans (owned_require _ _)

@[simp] theorem id_requireAll (m : TypeModule) (targets : List Structure) :
    (m.requireAll targets).id = m.id := by
  induction targets generalizing m with
  | nil => rfl
  | cons s rest ih => exact (ih _).trans (id_require _ _)

@[simp] theorem path_requireAll (m : TypeModule) (targets : List Structure) :
    (m.requireAll targets).path = m.path := by
  induction targets generalizing m with
  | nil => rfl
  | cons s rest ih => exact (ih _).trans (path_require _ _)

theorem sorted_requireAll {m : TypeModule} (h : Sorted m.imports) (targets : List Structure) :
    Sorted (m.requireAll targets).imports := by
  induction targets generalizing m with
  | nil => exact h
  | cons s rest ih => exact ih (sorted_require h s.asImport)

/-- **A module imports what it is made to import, and what it imported already.**  Among the
imports in question (`known`), equal names mean equal imports. -/
theorem mem_imports_requireAll {known : Import → Prop}
    (hName : ∀ i j, known i → known j → i.name = j.name → i = j) {i : Import} :
    ∀ (targets : List Structure) (m : TypeModule), (∀ j ∈ m.imports, known j) →
      (∀ s ∈ targets, known s.asImport) →
      (i ∈ (m.requireAll targets).imports ↔
        i ∈ m.imports ∨ ∃ s ∈ targets, i = s.asImport ∧ s.home ≠ m.id ∧ s.id ∉ m.owned) := by
  intro targets
  induction targets with
  | nil => intro m _ _; simp [requireAll]
  | cons s rest ih =>
    intro m hImports hTargets
    have hs : known s.asImport := hTargets s List.mem_cons_self
    have hStep (j : Import) := mem_imports_require (j := j) (i := s.asImport) (m := m)
      fun k hk hEq => hName k s.asImport (hImports k hk) hs hEq
    have hKnown : ∀ j ∈ (m.require s.asImport).imports, known j := by
      intro j hj
      rcases (hStep j).mp hj with hj | ⟨rfl, -⟩
      · exact hImports j hj
      · exact hs
    have hRest := ih (m.require s.asImport) hKnown fun t ht => hTargets t (List.mem_cons_of_mem s ht)
    rw [requireAll, List.foldl_cons, ← requireAll, hRest, hStep, id_require, owned_require]
    simp only [List.mem_cons, exists_eq_or_imp, or_assoc]
    rfl

end TypeModule

namespace ModuleGraph

/-! ### All modules -/

/-- The identifier of a module is its index, and the map from paths agrees with the modules. -/
structure Indexed (graph : ModuleGraph) : Prop where
  id_eq : ∀ {i : Nat} {m : TypeModule}, graph.modules[i]? = some m → m.id = i
  find?_iff : ∀ {path : String} {i : Nat}, graph.find? path = some i ↔
    ∃ m, graph.modules[i]? = some m ∧ m.path = path

theorem indexed_empty : Indexed empty where
  id_eq h := by simp [empty] at h
  find?_iff := by simp [empty, find?]

theorem Indexed.modify {graph : ModuleGraph} (h : graph.Indexed) (home : Nat)
    {f : TypeModule → TypeModule} (hId : ∀ m, (f m).id = m.id) (hPath : ∀ m, (f m).path = m.path) :
    Indexed ⟨graph.modules.modify home f, graph.byPath⟩ where
  id_eq {i m} hm := by
    rw [List.getElem?_modify, Option.map_eq_map, Option.map_eq_some_iff] at hm
    obtain ⟨n, hn, rfl⟩ := hm
    split <;> simp [hId, h.id_eq hn]
  find?_iff {path i} := by
    refine h.find?_iff.trans ?_
    simp only [List.getElem?_modify, Option.map_eq_map, Option.map_eq_some_iff]
    constructor
    · rintro ⟨m, hm, rfl⟩
      exact ⟨_, ⟨m, hm, rfl⟩, by split <;> simp [hPath]⟩
    · rintro ⟨_, ⟨m, hm, rfl⟩, rfl⟩
      exact ⟨m, hm, by split <;> simp [hPath]⟩

theorem moduleFor_of_some {graph : ModuleGraph} {path : String} {id : Nat}
    (h : graph.find? path = some id) : graph.moduleFor path = (id, graph) := by
  simp only [moduleFor, h]

theorem moduleFor_of_none {graph : ModuleGraph} {path : String} (h : graph.find? path = none) :
    graph.moduleFor path = (graph.modules.length,
      ⟨graph.modules ++ [⟨graph.modules.length, path, [], []⟩],
        (path, graph.modules.length) :: graph.byPath⟩) := by
  simp only [moduleFor, h]

theorem getElem?_moduleFor {graph : ModuleGraph} {path : String} {i : Nat} {m : TypeModule} :
    (graph.moduleFor path).2.modules[i]? = some m ↔
      graph.modules[i]? = some m ∨
        (graph.find? path = none ∧ i = graph.modules.length ∧ m = ⟨i, path, [], []⟩) := by
  cases hFind : graph.find? path with
  | some id => simp [moduleFor_of_some hFind]
  | none =>
    rw [moduleFor_of_none hFind]
    rcases Nat.lt_trichotomy i graph.modules.length with hLt | rfl | hGt
    · rw [List.getElem?_append_left hLt]
      simp [Nat.ne_of_lt hLt]
    · simp [eq_comm]
    · rw [List.getElem?_eq_none (by simp; omega), List.getElem?_eq_none (by omega)]
      simp [Nat.ne_of_gt hGt]

theorem Indexed.getElem?_moduleFor_self {graph : ModuleGraph} (h : graph.Indexed)
    (path : String) :
    ∃ m, (graph.moduleFor path).2.modules[(graph.moduleFor path).1]? = some m ∧ m.path = path := by
  cases hFind : graph.find? path with
  | some id =>
    rw [moduleFor_of_some hFind]
    exact h.find?_iff.mp hFind
  | none =>
    rw [moduleFor_of_none hFind]
    exact ⟨_, List.getElem?_concat_length, rfl⟩

theorem Indexed.moduleFor {graph : ModuleGraph} (h : graph.Indexed) (path : String) :
    (graph.moduleFor path).2.Indexed where
  id_eq {i m} hm := by
    rcases getElem?_moduleFor.mp hm with hm | ⟨-, -, rfl⟩
    · exact h.id_eq hm
    · rfl
  find?_iff {other i} := by
    cases hFind : graph.find? path with
    | some id =>
      rw [moduleFor_of_some hFind]
      exact h.find?_iff
    | none =>
      have hModules (m : TypeModule) := @getElem?_moduleFor graph path i m
      have hLookup : (graph.moduleFor path).2.find? other =
          if other = path then some graph.modules.length else graph.find? other := by
        rw [moduleFor_of_none hFind, find?, List.lookup_cons, find?]
        split <;> simp_all
      simp only [hModules, hLookup, hFind, true_and]
      by_cases hEq : other = path
      · -- No module had this path, so the one that was made is the only one that has it.
        subst hEq
        have hNone (m : TypeModule) (hm : graph.modules[i]? = some m) : m.path ≠ other := by
          intro hPath
          rw [h.find?_iff.mpr ⟨m, hm, hPath⟩] at hFind
          cases hFind
        rw [if_pos rfl]
        constructor
        · intro hi
          exact ⟨_, Or.inr ⟨(Option.some.inj hi).symm, rfl⟩, rfl⟩
        · rintro ⟨m, hm | ⟨rfl, rfl⟩, hPath⟩
          · exact absurd hPath (hNone m hm)
          · rfl
      · rw [if_neg hEq, h.find?_iff]
        constructor
        · rintro ⟨m, hm, hPath⟩
          exact ⟨m, Or.inl hm, hPath⟩
        · rintro ⟨m, hm | ⟨rfl, rfl⟩, hPath⟩
          · exact ⟨m, hm, hPath⟩
          · exact absurd hPath.symm hEq

theorem getElem?_foldl_require (targets : List Structure) (graph : ModuleGraph) (home i : Nat) :
    (targets.foldl (fun graph s => graph.require home s.asImport) graph).modules[i]? =
      (graph.modules[i]?).map fun m => if home = i then m.requireAll targets else m := by
  induction targets generalizing graph with
  | nil =>
    have hSame : (fun m : TypeModule => if home = i then m.requireAll [] else m) = id := by
      funext m
      split <;> rfl
    rw [List.foldl_nil, hSame, Option.map_id_fun, id_eq]
  | cons s rest ih =>
    rw [List.foldl_cons, ih, require, List.getElem?_modify, Option.map_eq_map, Option.map_map]
    refine congrArg (Option.map · _) (funext fun m => ?_)
    simp only [Function.comp]
    split <;> rfl

theorem length_foldl_require (targets : List Structure) (graph : ModuleGraph) (home : Nat) :
    (targets.foldl (fun graph s => graph.require home s.asImport) graph).modules.length =
      graph.modules.length := by
  induction targets generalizing graph with
  | nil => rfl
  | cons s rest ih => rw [List.foldl_cons, ih, require, List.length_modify]

theorem Indexed.foldl_require {graph : ModuleGraph} (h : graph.Indexed) (home : Nat)
    (targets : List Structure) :
    (targets.foldl (fun graph s => graph.require home s.asImport) graph).Indexed := by
  induction targets generalizing graph with
  | nil => exact h
  | cons s rest ih =>
    exact ih (h.modify home (TypeModule.id_require s.asImport) (TypeModule.path_require s.asImport))

end ModuleGraph

end ProseTypes
