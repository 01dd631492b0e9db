import ProseTypes.FileTree.System
import ProseTypes.Proofs.FileTree.Tree

/-!
# Changes of a file system

Making directories and writing a file only add to a file system: directories stay, nothing goes away, and
at all places but the one that is written to, files are as they were (`FileSystem.Keeps`).  So a path leads
where it led before.

* `FileSystem.keeps_makeDirectory?`: making a directory changes no file.
* `FileSystem.write?_eq_some`: writing a file changes one, the one that the path leads to afterwards.
-/

namespace ProseTypes

namespace FileSystem

/-- One file system keeps what another holds, apart from the files at some places. -/
structure Keeps (before after : FileSystem) (written : List (List String)) : Prop where
  here : after.here = before.here
  directory : ∀ {place}, before.tree.hasDirectory place = true → after.tree.hasDirectory place = true
  present : ∀ {place}, (before.tree.at? place).isSome → (after.tree.at? place).isSome
  read : ∀ {place}, place ∉ written → after.tree.read? place = before.tree.read? place

variable {before middle after : FileSystem} {written more : List (List String)}

theorem Keeps.refl (system : FileSystem) : Keeps system system [] :=
  ⟨rfl, id, id, fun _ => rfl⟩

theorem Keeps.trans (h : Keeps before middle written) (hMore : Keeps middle after more) :
    Keeps before after (written ++ more) where
  here := hMore.here.trans h.here
  directory hPlace := hMore.directory (h.directory hPlace)
  present hPlace := hMore.present (h.present hPlace)
  read hPlace := by
    rw [List.mem_append, not_or] at hPlace
    rw [hMore.read hPlace.2, h.read hPlace.1]

/-! ### Following paths -/

theorem Keeps.enter? (h : Keeps before after written) {place next : List String} {segment : String}
    (hNext : before.enter? place segment = some next) : after.enter? place segment = some next := by
  rw [enter?_eq_some_iff] at hNext ⊢
  exact hNext.imp h.directory <| Or.imp_right <| Or.imp_right fun ⟨hLeads, hUp, hThere, hEq⟩ =>
    ⟨hLeads, hUp, h.present hThere, hEq⟩

theorem Keeps.foldlM_enter? (h : Keeps before after written) {segments : List String}
    {start place : List String} (hPlace : segments.foldlM before.enter? start = some place) :
    segments.foldlM after.enter? start = some place := by
  induction segments generalizing start with
  | nil => exact hPlace
  | cons segment rest ih =>
    rw [List.foldlM_cons, Option.bind_eq_bind, Option.bind_eq_some_iff] at hPlace ⊢
    obtain ⟨next, hNext, hPlace⟩ := hPlace
    exact ⟨next, h.enter? hNext, ih hPlace⟩

theorem Keeps.startOf (h : Keeps before after written) (path : String) :
    after.startOf path = before.startOf path := by
  rw [FileSystem.startOf, FileSystem.startOf, h.here]

/-- **A path leads where it led before.** -/
theorem Keeps.find? (h : Keeps before after written) {path : String} {place : List String}
    (hPlace : before.find? path = some place) : after.find? path = some place := by
  unfold FileSystem.find? at hPlace ⊢
  split at hPlace
  · cases hPlace
  · rename_i hPath
    rw [if_neg hPath, h.startOf path]
    exact h.foldlM_enter? hPlace

/-! ### Making directories -/

theorem keeps_put {system : FileSystem} {node : FileTree} (hNode : node.Leaf) {home : List String}
    {name : String} (hHome : system.tree.hasDirectory home = true)
    (hFree : system.tree.hasDirectory (home ++ [name]) = false) :
    Keeps system (system.withTree (system.tree.put node (home ++ [name]))) [home ++ [name]] where
  here := rfl
  directory {place} hPlace := by
    have hOther : place ≠ home ++ [name] := by
      rintro rfl
      rw [hFree] at hPlace
      cases hPlace
    rcases FileTree.at?_put_leaf hNode hHome hFree hOther with ⟨-, hThere⟩ | hSame
    · exact hThere
    · exact (congrArg (fun found => found.any FileTree.isDirectory) hSame).trans hPlace
  present {place} hPlace := by
    by_cases hOther : place = home ++ [name]
    · have hThere := FileTree.at?_put_below system.tree node (home ++ [name]) []
      rw [List.append_nil] at hThere
      rw [hOther, withTree, hThere]
      rfl
    · rcases FileTree.at?_put_leaf hNode hHome hFree hOther with ⟨-, hThere⟩ | hSame
      · exact FileTree.isSome_of_hasDirectory hThere
      · rwa [withTree, hSame]
  read {place} hPlace := by
    rw [List.mem_singleton] at hPlace
    rcases FileTree.at?_put_leaf hNode hHome hFree hPlace with ⟨hBefore, hThere⟩ | hSame
    · rw [withTree, FileTree.read?_of_hasDirectory hBefore, FileTree.read?_of_hasDirectory hThere]
    · rw [withTree, FileTree.read?, FileTree.read?, hSame]

theorem at?_put_self (system : FileSystem) (node : FileTree) (place : List String) :
    (system.withTree (system.tree.put node place)).tree.at? place = some node := by
  have hBelow := FileTree.at?_put_below system.tree node place []
  rwa [List.append_nil] at hBelow

theorem at?_eq_none_of_enter? {system : FileSystem} {place : List String} {segment : String}
    (hDirectory : system.tree.hasDirectory place = true)
    (h : system.enter? place segment = none) : system.tree.at? (place ++ [segment]) = none := by
  by_contra hThere
  have hNone (next : List String) : system.enter? place segment ≠ some next := by
    rw [h]
    exact (Option.some_ne_none next).symm
  simp only [ne_eq, enter?_eq_some_iff] at hNone
  by_cases hLeads : Path.Leads segment
  · by_cases hUp : segment = ".."
    · exact hNone _ ⟨hDirectory, Or.inr (Or.inl ⟨hUp, rfl⟩)⟩
    · exact hNone _ ⟨hDirectory,
        Or.inr (Or.inr ⟨hLeads, hUp, Option.isSome_iff_ne_none.mpr hThere, rfl⟩)⟩
  · exact hNone _ ⟨hDirectory, Or.inl ⟨hLeads, rfl⟩⟩

theorem keeps_makeStep? {system made : FileSystem} {place next : List String} {segment : String}
    (h : makeStep? (system, place) segment = some (made, next)) : Keeps system made [] := by
  unfold makeStep? at h
  dsimp only at h
  split at h
  · cases h
    exact Keeps.refl system
  · rename_i hNone
    split at h
    · rename_i hMake
      cases h
      rw [Bool.and_eq_true] at hMake
      have hFree := at?_eq_none_of_enter? hMake.1 hNone
      have hFree' : system.tree.hasDirectory (place ++ [segment]) = false := by
        rw [FileTree.hasDirectory, hFree]
        rfl
      have hKeeps := keeps_put FileTree.leaf_empty hMake.1 hFree'
      -- Where the directory is now, there was no file, and there is none.
      refine { hKeeps with read := fun {other} _ => ?_ }
      by_cases hOther : other = place ++ [segment]
      · rw [hOther, FileTree.read?, FileTree.read?, hFree, at?_put_self]
        rfl
      · exact hKeeps.read (by simpa using hOther)
    · cases h

theorem keeps_foldlM_makeStep? {system made : FileSystem} {start place : List String}
    {segments : List String} (h : segments.foldlM makeStep? (system, start) = some (made, place)) :
    Keeps system made [] := by
  induction segments generalizing system start with
  | nil =>
    cases h
    exact Keeps.refl _
  | cons segment rest ih =>
    rw [List.foldlM_cons, Option.bind_eq_bind, Option.bind_eq_some_iff] at h
    obtain ⟨⟨middle, next⟩, hStep, hRest⟩ := h
    exact (keeps_makeStep? hStep).trans (ih hRest)

/-- **Making a directory changes no file.** -/
theorem keeps_makeDirectory? {system made : FileSystem} {path : String}
    (h : system.makeDirectory? path = some made) : Keeps system made [] := by
  unfold makeDirectory? at h
  obtain ⟨⟨result, place⟩, hSteps, hResult⟩ := Option.bind_eq_some_iff.mp h
  dsimp only at hResult
  split at hResult
  · cases hResult
    exact keeps_foldlM_makeStep? hSteps
  · cases hResult

/-! ### Writing a file -/

theorem exists_home_of_write? {system result : FileSystem} {path : String} {content : ByteArray}
    (h : system.write? path content = some result) :
    ∃ init name home, Path.segments path = init ++ [name] ∧ Path.Leads name ∧ name ≠ ".." ∧
      path.utf8ByteSize ≤ greatestPath ∧
      init.foldlM system.enter? (system.startOf path) = some home ∧
      system.tree.hasDirectory home = true ∧ system.tree.hasDirectory (home ++ [name]) = false ∧
      result = system.withTree (system.tree.put (.file content) (home ++ [name])) := by
  obtain ⟨init, name, hSegments⟩ : ∃ init name, Path.segments path = init ++ [name] :=
    ⟨_, _, (List.dropLast_append_getLast (Path.segments_ne_nil path)).symm⟩
  unfold write? at h
  rw [hSegments] at h
  simp only [List.getLast?_concat, Option.getD_some, List.dropLast_concat, Bool.or_eq_true,
    decide_eq_true_eq] at h
  split at h
  · cases h
  · rename_i hName
    split at h
    · cases h
    · rename_i hSize
      obtain ⟨home, hHome, hWritten⟩ := Option.bind_eq_some_iff.mp h
      split at hWritten
      · rename_i hFree
        rw [Bool.and_eq_true, Bool.not_eq_true'] at hFree
        exact ⟨init, name, home, hSegments,
          ⟨fun hEmpty => hName (Or.inl (Or.inl hEmpty)), fun hHere => hName (Or.inl (Or.inr hHere))⟩,
          fun hUp => hName (Or.inr hUp), Nat.le_of_not_lt fun hLong => hSize (Or.inr hLong), hHome,
          hFree.1, hFree.2, (Option.some.inj hWritten).symm⟩
      · cases hWritten

/-- **Writing a file changes the file that the path leads to, and no other.** -/
theorem write?_eq_some {system result : FileSystem} {path : String} {content : ByteArray}
    (h : system.write? path content = some result) :
    ∃ place, result.find? path = some place ∧ result.tree.read? place = some content ∧
      Keeps system result [place] := by
  obtain ⟨init, name, home, hSegments, hLeads, hUp, hSize, hHome, hDirectory, hFree, rfl⟩ :=
    exists_home_of_write? h
  have hKeeps := keeps_put (FileTree.leaf_file content) hDirectory hFree
  have hEnter : (system.withTree (system.tree.put (.file content) (home ++ [name]))).enter? home name =
      some (home ++ [name]) := by
    refine enter?_eq_some_iff.mpr ⟨hKeeps.directory hDirectory, Or.inr (Or.inr ⟨hLeads, hUp, ?_, rfl⟩)⟩
    rw [at?_put_self]
    rfl
  have hPath : path ≠ "" := by
    rintro rfl
    have hEmpty : init ++ [name] = [""] := hSegments.symm
    exact hLeads.1 (by simpa using congrArg List.getLast? hEmpty)
  refine ⟨home ++ [name], ?_, ?_, hKeeps⟩
  · rw [FileSystem.find?, if_neg (by simpa using ⟨hPath, hSize⟩), hSegments, List.foldlM_append,
      hKeeps.startOf path, hKeeps.foldlM_enter? hHome]
    simpa using hEnter
  · rw [FileTree.read?, at?_put_self]
    rfl

/-! ### Names below a directory -/

/-- **Where a path leads tells its segments**, if they are names below one directory. -/
theorem names_of_foldlM_enter? {system : FileSystem} {names : List String} {home place : List String}
    (hNames : ∀ name ∈ names, Path.Leads name ∧ name ≠ "..")
    (h : names.foldlM system.enter? home = some place) : place = home ++ names := by
  induction names generalizing home with
  | nil => simpa using h.symm
  | cons name rest ih =>
    rw [List.foldlM_cons, Option.bind_eq_bind, Option.bind_eq_some_iff] at h
    obtain ⟨next, hNext, hRest⟩ := h
    obtain ⟨hLeads, hUp⟩ := hNames name List.mem_cons_self
    obtain ⟨-, hNext⟩ := enter?_eq_some_iff.mp hNext
    obtain ⟨-, rfl⟩ : _ ∧ next = home ++ [name] := by simpa [hLeads, hUp] using hNext
    rw [ih (fun other hOther => hNames other (List.mem_cons_of_mem name hOther)) hRest,
      List.append_assoc, List.singleton_append]

end FileSystem

end ProseTypes
