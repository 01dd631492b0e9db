import Mathlib.Data.List.Induction
import Mathlib.Data.List.Sort
import ProseTypes.Proofs.Module.Graph

/-!
# The graph that a sequence of steps builds

Modules are made when they are asked for, structures are assigned to them, and they are made to import
structures, in any order and as often as one likes.  The graph at the end has a closed form that hardly
depends on the order:

* the modules are the distinct paths in order of first use, and the identifier of a module is its
  place there;
* a module owns what was ever assigned to it, in order of first assignment;
* it imports, in order of names, what it was ever made to import, without what lives in it and
  what was ever assigned to it (`closedForm_run`).

The last point holds in spite of two asymmetries: an assignment takes back an earlier import, and a
later import of what is owned is declined.  `TypeModule.Closed` is what both keep.  Steps in other
modules do not matter to a module (`Closed.concat_other`), so the run is an induction from its end
with one lemma for each kind of step.
-/

namespace ProseTypes

namespace ModuleGraph

inductive Step where
  | moduleFor (path : String)
  | assign (home : Nat) (s : Structure)
  | require (home : Nat) (s : Structure)
deriving DecidableEq, Repr

namespace Step

def path? : Step → Option String
  | moduleFor path => some path
  | _ => none

def home? : Step → Option Nat
  | moduleFor _ => none
  | assign home _ => some home
  | require home _ => some home

def structure? : Step → Option Structure
  | moduleFor _ => none
  | assign _ s => some s
  | require _ s => some s

def assigned? (home : Nat) : Step → Option Nat
  | assign other s => if other = home then some s.id else none
  | _ => none

def perform (graph : ModuleGraph) : Step → ModuleGraph
  | moduleFor path => (graph.moduleFor path).2
  | assign home s => graph.assign home s.id
  | require home s => graph.require home s.asImport

end Step

def run (steps : List Step) : ModuleGraph :=
  steps.foldl Step.perform empty

def asked (steps : List Step) : List String :=
  steps.filterMap Step.path?

def assigned (home : Nat) (steps : List Step) : List Nat :=
  steps.filterMap (Step.assigned? home)

def works (steps : List Step) : List Step :=
  steps.filter fun step => step.home?.isSome

theorem run_concat (steps : List Step) (step : Step) :
    run (steps ++ [step]) = step.perform (run steps) := by
  simp [run]

/-- Every step works in a module that was made before it. -/
def Possible (steps : List Step) : Prop :=
  ∀ before step after, steps = before ++ step :: after →
    ∀ home ∈ step.home?, home < (run before).modules.length

/-- Steps that are possible and are about some of the structures given, which have distinct
identifiers and distinct names. -/
structure Admissible (structures : List Structure) (steps : List Step) : Prop where
  possible : Possible steps
  drawn : ∀ step ∈ steps, ∀ s ∈ step.structure?, s ∈ structures
  ids : (structures.map Structure.id).Nodup
  names : (structures.map Structure.name).Nodup

theorem possible_nil : Possible [] := by
  intro before step after h
  simp at h

theorem Possible.init {steps : List Step} {step : Step} (h : Possible (steps ++ [step])) :
    Possible steps := by
  intro before other after hEq
  refine h before other (after ++ [step]) ?_
  rw [hEq, List.append_assoc, List.cons_append]

theorem Possible.last {steps : List Step} {step : Step} (h : Possible (steps ++ [step])) :
    ∀ home ∈ step.home?, home < (run steps).modules.length :=
  h steps step [] rfl

theorem Possible.concat {steps : List Step} {step : Step} (h : Possible steps)
    (hLast : ∀ home ∈ step.home?, home < (run steps).modules.length) :
    Possible (steps ++ [step]) := by
  intro before other after hEq
  rcases List.eq_nil_or_concat after with rfl | ⟨init, last, rfl⟩
  · obtain ⟨rfl, hStep⟩ := List.append_inj' hEq rfl
    cases hStep
    exact hLast
  · rw [List.concat_eq_append, ← List.cons_append, ← List.append_assoc] at hEq
    exact h before other init (List.append_inj' hEq rfl).1

theorem Admissible.init {structures : List Structure} {steps : List Step} {step : Step}
    (h : Admissible structures (steps ++ [step])) : Admissible structures steps where
  possible := h.possible.init
  drawn other hOther := h.drawn other (List.mem_append_left _ hOther)
  ids := h.ids
  names := h.names

theorem Admissible.eq_of_id {structures : List Structure} {steps : List Step}
    (h : Admissible structures steps) {a b : Step} (ha : a ∈ steps) (hb : b ∈ steps)
    {s t : Structure} (hs : s ∈ a.structure?) (ht : t ∈ b.structure?) (hEq : s.id = t.id) :
    s = t :=
  List.inj_on_of_nodup_map h.ids (h.drawn a ha s hs) (h.drawn b hb t ht) hEq

theorem Admissible.eq_of_name {structures : List Structure} {steps : List Step}
    (h : Admissible structures steps) {a b : Step} (ha : a ∈ steps) (hb : b ∈ steps)
    {s t : Structure} (hs : s ∈ a.structure?) (ht : t ∈ b.structure?) (hEq : s.name = t.name) :
    s = t :=
  List.inj_on_of_nodup_map h.names (h.drawn a ha s hs) (h.drawn b hb t ht) hEq

end ModuleGraph

/-! ### One module -/

theorem eraseDups_concat {α : Type} [DecidableEq α] (xs : List α) (x : α) :
    (xs ++ [x]).eraseDups = if x ∈ xs then xs.eraseDups else xs.eraseDups ++ [x] := by
  rw [List.eraseDups_append]
  split
  · rename_i hMem
    have : [x].removeAll xs = [] := by simp [List.removeAll, hMem]
    rw [this, List.eraseDups_nil, List.append_nil]
  · rename_i hMem
    have : [x].removeAll xs = [x] := by simp [List.removeAll, hMem]
    rw [this]
    rfl

section

variable {structures : List Structure} {steps : List ModuleGraph.Step} {m : TypeModule}

open ModuleGraph

/-- What a module owns and imports, from the steps alone. -/
structure TypeModule.Closed (steps : List Step) (m : TypeModule) : Prop where
  owned : m.owned = (assigned m.id steps).eraseDups
  sorted : Sorted m.imports
  imports : ∀ i, i ∈ m.imports ↔ ∃ s, Step.require m.id s ∈ steps ∧ i = s.asImport ∧
    s.home ≠ m.id ∧ Step.assign m.id s ∉ steps

namespace TypeModule

theorem mem_assigned {home id : Nat} :
    id ∈ assigned home steps ↔ ∃ s, Step.assign home s ∈ steps ∧ s.id = id := by
  simp only [assigned, List.mem_filterMap]
  constructor
  · rintro ⟨step, hStep, hId⟩
    cases step with
    | moduleFor path => cases hId
    | require other s => cases hId
    | assign other s =>
      simp only [Step.assigned?, Option.ite_none_right_eq_some, Option.some.injEq] at hId
      obtain ⟨rfl, rfl⟩ := hId
      exact ⟨s, hStep, rfl⟩
  · rintro ⟨s, hStep, rfl⟩
    exact ⟨_, hStep, if_pos rfl⟩

theorem Closed.mem_owned (h : m.Closed steps) {id : Nat} :
    id ∈ m.owned ↔ ∃ s, Step.assign m.id s ∈ steps ∧ s.id = id := by
  rw [h.owned, List.mem_eraseDups, mem_assigned]

theorem closed_new {id : Nat} {path : String} (hNone : ∀ step ∈ steps, step.home? ≠ some id) :
    Closed steps ⟨id, path, [], []⟩ where
  owned := by
    have hNil : assigned id steps = [] := by
      apply List.eq_nil_iff_forall_not_mem.mpr
      intro s hs
      obtain ⟨t, ht, -⟩ := mem_assigned.mp hs
      exact hNone _ ht rfl
    rw [hNil, List.eraseDups_nil]
  sorted := List.Pairwise.nil
  imports i := by
    constructor
    · intro h
      cases h
    · rintro ⟨s, hs, -⟩
      exact absurd rfl (hNone _ hs)

theorem Closed.concat_other (h : m.Closed steps) {step : Step} (hOther : step.home? ≠ some m.id) :
    m.Closed (steps ++ [step]) where
  owned := by
    have hNone : step.assigned? m.id = none := by
      cases step with
      | moduleFor path => rfl
      | require other s => rfl
      | assign other s => exact if_neg fun hEq => hOther (congrArg some hEq)
    rw [h.owned, assigned, assigned, List.filterMap_append, List.filterMap_cons_none hNone,
      List.filterMap_nil, List.append_nil]
  sorted := h.sorted
  imports i := by
    have hRequire (s : Structure) : Step.require m.id s ≠ step := by
      rintro rfl
      exact hOther rfl
    have hAssign (s : Structure) : Step.assign m.id s ≠ step := by
      rintro rfl
      exact hOther rfl
    simp only [h.imports, List.mem_append, List.mem_singleton, hRequire, hAssign, or_false]

/-- An assignment adds to what is owned, at the end, and takes back an earlier import. -/
theorem Closed.assign {s : Structure} (h : m.Closed steps)
    (hSteps : Admissible structures (steps ++ [Step.assign m.id s])) :
    (m.assign s.id).Closed (steps ++ [Step.assign m.id s]) where
  owned := by
    have hAssigned : assigned m.id (steps ++ [Step.assign m.id s]) =
        assigned m.id steps ++ [s.id] := by
      simp [assigned, Step.assigned?]
    rw [id_assign, hAssigned, eraseDups_concat, ← h.owned]
    have hIff : s.id ∈ assigned m.id steps ↔ s.id ∈ m.owned := by
      rw [h.owned, List.mem_eraseDups]
    simp only [TypeModule.assign, owns, List.contains_eq_mem, hIff, decide_eq_true_eq]
    split <;> rfl
  sorted := sorted_assign h.sorted s.id
  imports i := by
    have hLast : Step.assign m.id s ∈ steps ++ [Step.assign m.id s] := by simp
    -- Among the structures that steps are about, the identifier tells which one is assigned.
    have hSame (t : Structure) (ht : Step.require m.id t ∈ steps) : t.id = s.id ↔ t = s :=
      ⟨hSteps.eq_of_id (List.mem_append_left _ ht) hLast rfl rfl, congrArg Structure.id⟩
    have hImports : i ∈ (m.assign s.id).imports ↔ i ∈ m.imports ∧ i.id ≠ s.id := by
      by_cases hOwned : s.id ∈ m.owned
      · obtain ⟨t, ht, hId⟩ := h.mem_owned.mp hOwned
        obtain rfl := hSteps.eq_of_id (List.mem_append_left _ ht) hLast rfl rfl hId
        have hOwns : m.owns t.id = true := by simpa [owns] using hOwned
        rw [TypeModule.assign, if_pos hOwns]
        refine ⟨fun hi => ⟨hi, ?_⟩, And.left⟩
        rintro hEq
        obtain ⟨u, hu, rfl, -, hNot⟩ := (h.imports i).mp hi
        exact hNot ((hSame u hu).mp hEq ▸ ht)
      · exact mem_imports_assign hOwned
    rw [hImports, h.imports, id_assign]
    simp only [List.mem_append, List.mem_singleton, reduceCtorEq, or_false, not_or]
    constructor
    · rintro ⟨⟨t, ht, rfl, hHome, hNot⟩, hNe⟩
      refine ⟨t, ht, rfl, hHome, hNot, ?_⟩
      rintro ⟨⟩
      exact hNe rfl
    · rintro ⟨t, ht, rfl, hHome, hNot, hNe⟩
      refine ⟨⟨t, ht, rfl, hHome, hNot⟩, ?_⟩
      intro hEq
      exact hNe (by rw [(hSame t ht).mp hEq])

/-- An import is declined if the structure lives here or was assigned here, and comes into its
place otherwise. -/
theorem Closed.require {s : Structure} (h : m.Closed steps)
    (hSteps : Admissible structures (steps ++ [Step.require m.id s])) :
    (m.require s.asImport).Closed (steps ++ [Step.require m.id s]) where
  owned := by
    have hAssigned : assigned m.id (steps ++ [Step.require m.id s]) = assigned m.id steps := by
      rw [assigned, List.filterMap_append, List.filterMap_cons_none rfl, List.filterMap_nil,
        List.append_nil, assigned]
    rw [owned_require, id_require, hAssigned, h.owned]
  sorted := sorted_require h.sorted s.asImport
  imports i := by
    have hLast : Step.require m.id s ∈ steps ++ [Step.require m.id s] := by simp
    have hName : ∀ k ∈ m.imports, k.name = s.asImport.name → k = s.asImport := by
      intro k hk hEq
      obtain ⟨t, ht, rfl, -⟩ := (h.imports k).mp hk
      rw [hSteps.eq_of_name (List.mem_append_left _ ht) hLast rfl rfl hEq]
    have hOwned : s.id ∈ m.owned ↔ Step.assign m.id s ∈ steps := by
      rw [h.mem_owned]
      constructor
      · rintro ⟨t, ht, hId⟩
        exact hSteps.eq_of_id (List.mem_append_left _ ht) hLast rfl rfl hId ▸ ht
      · exact fun hs => ⟨s, hs, rfl⟩
    rw [mem_imports_require hName, h.imports, id_require]
    simp only [List.mem_append, List.mem_singleton, reduceCtorEq, or_false, Step.require.injEq,
      true_and]
    constructor
    · rintro (⟨t, ht, hRest⟩ | ⟨rfl, hHome, hNew⟩)
      · exact ⟨t, Or.inl ht, hRest⟩
      · exact ⟨s, Or.inr rfl, rfl, hHome, fun hs => hNew (hOwned.mpr hs)⟩
    · rintro ⟨t, ht | rfl, rfl, hHome, hNot⟩
      · exact Or.inl ⟨t, ht, rfl, hHome, hNot⟩
      · exact Or.inr ⟨rfl, hHome, fun hs => hNot (hOwned.mp hs)⟩

/-- What two modules import is the same if both come from the same works, in whatever order. -/
theorem Closed.imports_eq {other : List Step} {n : TypeModule} (hm : m.Closed steps)
    (hn : n.Closed other) (hId : m.id = n.id) (hWorks : (works steps).Perm (works other)) :
    m.imports = n.imports := by
  have hMem (step : Step) (hStep : step.home?.isSome) : step ∈ steps ↔ step ∈ other := by
    simpa [works, hStep] using hWorks.mem_iff (a := step)
  have : Std.Antisymm fun i j : Import => i.name < j.name :=
    ⟨fun i j hij hji => absurd (String.lt_trans hij hji) (String.lt_irrefl _)⟩
  have : Std.Irrefl fun i j : Import => i.name < j.name := ⟨fun i => String.lt_irrefl _⟩
  refine List.Pairwise.eq_of_mem_iff hm.sorted hn.sorted ?_
  intro i
  simp only [hm.imports, hn.imports, hId, hMem (.require _ _) rfl, hMem (.assign _ _) rfl]

end TypeModule

end

namespace ModuleGraph

/-! ### All modules -/

variable {structures : List Structure} {steps : List Step}

/-- The graph that steps build, from the steps alone. -/
structure ClosedForm (steps : List Step) (graph : ModuleGraph) : Prop where
  ids : graph.modules.map TypeModule.id = List.range graph.modules.length
  paths : graph.modules.map TypeModule.path = (asked steps).eraseDups
  given : ∀ path, (graph.moduleFor path).1 = (asked steps ++ [path]).eraseDups.idxOf path
  closed : ∀ m ∈ graph.modules, m.Closed steps

theorem Indexed.map_id {graph : ModuleGraph} (h : graph.Indexed) :
    graph.modules.map TypeModule.id = List.range graph.modules.length := by
  apply List.ext_getElem?
  intro i
  rw [List.getElem?_map]
  cases hm : graph.modules[i]? with
  | none => simpa using hm
  | some m =>
    obtain ⟨hLt, -⟩ := List.getElem?_eq_some_iff.mp hm
    rw [List.getElem?_range hLt, Option.map_some, h.id_eq hm]

theorem Indexed.idxOf_path {graph : ModuleGraph} (h : graph.Indexed) {i : Nat} {m : TypeModule}
    (hm : graph.modules[i]? = some m) : (graph.modules.map TypeModule.path).idxOf m.path = i := by
  have hMem : m.path ∈ graph.modules.map TypeModule.path :=
    List.mem_map_of_mem (List.mem_of_getElem? hm)
  have hAt := List.getElem?_idxOf hMem
  rw [List.getElem?_map, Option.map_eq_some_iff] at hAt
  have hFirst := h.find?_iff.mpr hAt
  rw [h.find?_iff.mpr ⟨m, hm, rfl⟩] at hFirst
  exact (Option.some.inj hFirst).symm

theorem Indexed.perform {graph : ModuleGraph} (h : graph.Indexed) (step : Step) :
    (step.perform graph).Indexed := by
  cases step with
  | moduleFor path => exact h.moduleFor path
  | assign home s => exact h.modify home (TypeModule.id_assign _) (TypeModule.path_assign _)
  | require home s => exact h.modify home (TypeModule.id_require _) (TypeModule.path_require _)

theorem indexed_run (steps : List Step) : (run steps).Indexed := by
  induction steps using List.reverseRecOn with
  | nil => exact indexed_empty
  | append_singleton steps step ih =>
    rw [run_concat]
    exact ih.perform step

theorem map_path_modify {modules : List TypeModule} {home : Nat} {f : TypeModule → TypeModule}
    (hPath : ∀ m, (f m).path = m.path) :
    (modules.modify home f).map TypeModule.path = modules.map TypeModule.path := by
  apply List.ext_getElem?
  intro i
  simp only [List.getElem?_map, List.getElem?_modify, Option.map_eq_map, Option.map_map]
  refine congrArg (Option.map · _) (funext fun m => ?_)
  simp only [Function.comp]
  split
  · exact hPath m
  · rfl

/-- **The modules are the distinct paths** in order of first use. -/
theorem map_path_run (steps : List Step) :
    (run steps).modules.map TypeModule.path = (asked steps).eraseDups := by
  induction steps using List.reverseRecOn with
  | nil => rfl
  | append_singleton steps step ih =>
    rw [run_concat, asked, List.filterMap_append]
    cases step with
    | moduleFor path =>
      have hMem : path ∈ asked steps ↔ ∃ i, (run steps).find? path = some i := by
        rw [← List.mem_eraseDups, ← ih, List.mem_map]
        simp only [(indexed_run steps).find?_iff]
        constructor
        · rintro ⟨m, hm, rfl⟩
          obtain ⟨i, hi⟩ := List.mem_iff_getElem?.mp hm
          exact ⟨i, m, hi, rfl⟩
        · rintro ⟨i, m, hm, rfl⟩
          exact ⟨m, List.mem_of_getElem? hm, rfl⟩
      change ((run steps).moduleFor path).2.modules.map _ = (asked steps ++ [path]).eraseDups
      rw [eraseDups_concat, ← ih]
      cases hFind : (run steps).find? path with
      | some i => rw [moduleFor_of_some hFind, if_pos (hMem.mpr ⟨i, hFind⟩)]
      | none =>
        rw [moduleFor_of_none hFind, if_neg fun h => ?_]
        · simp
        · obtain ⟨i, hi⟩ := hMem.mp h
          rw [hFind] at hi
          cases hi
    | assign home s =>
      rw [show [Step.assign home s].filterMap Step.path? = [] from rfl, List.append_nil]
      exact (map_path_modify (TypeModule.path_assign _)).trans ih
    | require home s =>
      rw [show [Step.require home s].filterMap Step.path? = [] from rfl, List.append_nil]
      exact (map_path_modify (TypeModule.path_require _)).trans ih

theorem length_le_perform (graph : ModuleGraph) (step : Step) :
    graph.modules.length ≤ (step.perform graph).modules.length := by
  cases step with
  | moduleFor path =>
    cases hFind : graph.find? path with
    | some i => simp [Step.perform, moduleFor_of_some hFind]
    | none => simp [Step.perform, moduleFor_of_none hFind]
  | assign home s => simp [Step.perform, assign]
  | require home s => simp [Step.perform, require]

theorem Possible.home_lt (h : Possible steps) :
    ∀ step ∈ steps, ∀ home ∈ step.home?, home < (run steps).modules.length := by
  induction steps using List.reverseRecOn with
  | nil => simp
  | append_singleton steps last ih =>
    intro step hStep home hHome
    have hLe := length_le_perform (run steps) last
    rw [run_concat]
    rcases List.mem_append.mp hStep with hStep | hStep
    · exact Nat.lt_of_lt_of_le (ih h.init step hStep home hHome) hLe
    · obtain rfl := List.mem_singleton.mp hStep
      exact Nat.lt_of_lt_of_le (h.last home hHome) hLe

/-- A change in one module keeps the closed form there if it does so for this module, and
elsewhere because it works elsewhere. -/
theorem closed_modify {modules : List TypeModule} {home : Nat} {step : Step}
    {f : TypeModule → TypeModule} (hHome : step.home? = some home)
    (hId : ∀ {i : Nat} {m : TypeModule}, modules[i]? = some m → m.id = i)
    (h : ∀ m ∈ modules, m.Closed steps)
    (hf : ∀ m, m.id = home → m.Closed steps → (f m).Closed (steps ++ [step])) :
    ∀ m ∈ modules.modify home f, m.Closed (steps ++ [step]) := by
  intro n hn
  obtain ⟨i, hi⟩ := List.mem_iff_getElem?.mp hn
  rw [List.getElem?_modify, Option.map_eq_map, Option.map_eq_some_iff] at hi
  obtain ⟨m, hm, rfl⟩ := hi
  have hClosed := h m (List.mem_of_getElem? hm)
  by_cases hEq : home = i
  · rw [if_pos hEq]
    exact hf m ((hId hm).trans hEq.symm) hClosed
  · rw [if_neg hEq]
    refine hClosed.concat_other ?_
    rw [hHome, hId hm]
    exact fun h => hEq (Option.some.inj h)

/-- **What each module owns and imports**, from the steps alone. -/
theorem closed_run (h : Admissible structures steps) :
    ∀ m ∈ (run steps).modules, m.Closed steps := by
  induction steps using List.reverseRecOn with
  | nil => simp [run, empty]
  | append_singleton steps step ih =>
    have hIndexed := indexed_run steps
    have hBefore := ih h.init
    rw [run_concat]
    cases step with
    | moduleFor path =>
      intro m hm
      obtain ⟨i, hi⟩ := List.mem_iff_getElem?.mp hm
      refine TypeModule.Closed.concat_other ?_ (by simp [Step.home?])
      rcases getElem?_moduleFor.mp hi with hi | ⟨-, rfl, rfl⟩
      · exact hBefore m (List.mem_of_getElem? hi)
      · refine TypeModule.closed_new ?_
        intro other hOther hHome
        exact absurd (h.possible.init.home_lt other hOther _ hHome) (Nat.lt_irrefl _)
    | assign home s =>
      refine closed_modify rfl hIndexed.id_eq hBefore ?_
      rintro m rfl hm
      exact hm.assign h
    | require home s =>
      refine closed_modify rfl hIndexed.id_eq hBefore ?_
      rintro m rfl hm
      exact hm.require h

theorem given_run (steps : List Step) (path : String) :
    ((run steps).moduleFor path).1 = (asked steps ++ [path]).eraseDups.idxOf path := by
  obtain ⟨m, hm, rfl⟩ := (indexed_run steps).getElem?_moduleFor_self path
  have hRun : run (steps ++ [.moduleFor m.path]) = ((run steps).moduleFor m.path).2 :=
    run_concat _ _
  have hAsked : asked (steps ++ [.moduleFor m.path]) = asked steps ++ [m.path] := by
    simp [asked, Step.path?]
  have hPaths := map_path_run (steps ++ [.moduleFor m.path])
  rw [hRun, hAsked] at hPaths
  rw [← hPaths]
  exact (((indexed_run steps).moduleFor m.path).idxOf_path hm).symm

/-- **The graph has a closed form**: its modules are the distinct paths in order of first use, and
each of them owns what was assigned to it and imports what it was made to import apart from that.
So the same works in another order give every module the same imports. -/
theorem closedForm_run (h : Admissible structures steps) :
    ClosedForm steps (run steps) ∧
      ∀ other, Possible other → (works other).Perm (works steps) →
        ∀ (i : Nat) (m n : TypeModule), (run steps).modules[i]? = some m →
          (run other).modules[i]? = some n → n.imports = m.imports := by
  have hClosed := closed_run h
  refine ⟨⟨(indexed_run steps).map_id, map_path_run steps, given_run steps, hClosed⟩, ?_⟩
  intro other hPossible hPerm i m n hm hn
  have hOther : Admissible structures other := by
    refine ⟨hPossible, ?_, h.ids, h.names⟩
    intro step hStep s hs
    have hHome : step.home?.isSome := by
      cases step with
      | moduleFor path => cases hs
      | assign home s => rfl
      | require home s => rfl
    have hWork : step ∈ works steps := by
      rw [← hPerm.mem_iff]
      exact List.mem_filter.mpr ⟨hStep, hHome⟩
    exact h.drawn step (List.mem_filter.mp hWork).1 s hs
  have hId : n.id = m.id := by rw [(indexed_run other).id_eq hn, (indexed_run steps).id_eq hm]
  exact (closed_run hOther n (List.mem_of_getElem? hn)).imports_eq
    (hClosed m (List.mem_of_getElem? hm)) hId hPerm

/-- The second module imports a structure that is assigned to it afterwards, the first one is
assigned a structure that it is made to import afterwards: neither import stays. -/
theorem closedForm_run_retracted :
    let own : Structure := ⟨0, "Own", 0, "", .interface []⟩
    let far : Structure := ⟨1, "Far", 1, "", .interface []⟩
    let steps := [.moduleFor "a", .moduleFor "b", .require 1 own, .require 0 far, .assign 1 own,
      .assign 0 own, .moduleFor "a", .require 0 own]
    Admissible [own, far] steps ∧ ClosedForm steps (run steps) ∧
      (run steps).modules = [⟨0, "a", [0], [far.asImport]⟩, ⟨1, "b", [0], []⟩] := by
  intro own far steps
  have hPossible : Possible ([] ++ [Step.moduleFor "a"] ++ [Step.moduleFor "b"] ++
      [Step.require 1 own] ++ [Step.require 0 far] ++ [Step.assign 1 own] ++ [Step.assign 0 own] ++
      [Step.moduleFor "a"] ++ [Step.require 0 own]) := by
    iterate 8 refine Possible.concat ?_ (by decide)
    exact possible_nil
  have hSteps : Admissible [own, far] steps := ⟨hPossible, by decide, by decide, by decide⟩
  exact ⟨hSteps, (closedForm_run hSteps).1, by decide⟩

end ModuleGraph

end ProseTypes
