import Mathlib.Data.List.Basic
import ProseTypes.FileTree.System
import ProseTypes.Proofs.FileTree.Spelling

/-!
# Places in a file tree

What lies at a place, in a tree whose entries have names that can stand between the slashes of a path
(`FileTree.Proper`), and in a tree into which a node has been put: the node lies at its place, and what lies
neither there nor on the way there is as it was (`FileTree.at?_put_below`, `FileTree.at?_put_apart`).
-/

namespace ProseTypes

def Path.IsName (segment : String) : Prop :=
  Leads segment ∧ segment ≠ ".." ∧ '/' ∉ segment.toList

instance (segment : String) : Decidable (Path.IsName segment) :=
  inferInstanceAs (Decidable (_ ∧ _))

namespace FileTree

/-! ### Names of entries -/

/-- Every entry of every directory has a name that can stand in a path. -/
inductive Proper : FileTree → Prop where
  | file (content : ByteArray) : Proper (file content)
  | directory {entries : List (String × FileTree)} : (∀ entry ∈ entries, Path.IsName entry.1) →
      (∀ entry ∈ entries, Proper entry.2) → Proper (directory entries)

theorem Proper.isName {tree : FileTree} (h : tree.Proper) :
    ∀ entry ∈ tree.entries, Path.IsName entry.1 := by
  cases h with
  | file content => simp [entries]
  | directory hNames _ => exact hNames

theorem Proper.entry {tree : FileTree} (h : tree.Proper) : ∀ entry ∈ tree.entries, entry.2.Proper := by
  cases h with
  | file content => simp [entries]
  | directory _ hTrees => exact hTrees

theorem mem_entries_of_child? {tree child : FileTree} {name : String}
    (h : tree.child? name = some child) : (name, child) ∈ tree.entries := by
  rw [child?, List.lookup_eq_some_iff] at h
  obtain ⟨before, after, hEntries, -⟩ := h
  rw [hEntries]
  exact List.mem_append_right _ List.mem_cons_self

theorem Proper.of_at? {tree node : FileTree} {place : List String} (h : tree.Proper)
    (hAt : tree.at? place = some node) : node.Proper := by
  induction place generalizing tree with
  | nil =>
    obtain rfl := Option.some.inj hAt
    exact h
  | cons name rest ih =>
    obtain ⟨child, hChild, hRest⟩ := Option.bind_eq_some_iff.mp hAt
    exact ih (h.entry _ (mem_entries_of_child? hChild)) hRest

theorem exists_of_mem_entryPlaces {entries : List (String × FileTree)} {place : List String}
    (h : place ∈ entryPlaces entries) :
    ∃ entry ∈ entries, ∃ rest, place = entry.1 :: rest ∧ (rest = [] ∨ rest ∈ entry.2.places) := by
  induction entries with
  | nil => simp [entryPlaces] at h
  | cons entry entries ih =>
    rw [entryPlaces, List.cons_append, List.mem_cons, List.mem_append] at h
    rcases h with rfl | h | h
    · exact ⟨entry, List.mem_cons_self, [], rfl, Or.inl rfl⟩
    · obtain ⟨rest, hRest, rfl⟩ := List.mem_map.mp h
      exact ⟨entry, List.mem_cons_self, rest, rfl, Or.inr hRest⟩
    · obtain ⟨other, hOther, hPlace⟩ := ih h
      exact ⟨other, List.mem_cons_of_mem entry hOther, hPlace⟩

theorem Proper.isName_of_mem_places {tree : FileTree} (h : tree.Proper) :
    ∀ place ∈ tree.places, ∀ name ∈ place, Path.IsName name := by
  induction h with
  | file content => simp [places]
  | @directory entries hNames _ ih =>
    intro place hPlace name hName
    obtain ⟨entry, hEntry, rest, rfl, hRest⟩ := exists_of_mem_entryPlaces hPlace
    rcases List.mem_cons.mp hName with rfl | hName
    · exact hNames entry hEntry
    · rcases hRest with rfl | hRest
      · cases hName
      · exact ih entry hEntry rest hRest name hName

/-! ### Putting a node into a tree -/

theorem at?_append (tree : FileTree) (place rest : List String) :
    tree.at? (place ++ rest) = (tree.at? place).bind fun node => node.at? rest := by
  induction place generalizing tree with
  | nil => rfl
  | cons name place ih =>
    rw [List.cons_append, at?, at?, Option.bind_assoc]
    exact congrArg _ (funext fun child => ih child)

theorem lookup_setEntry (name other : String) (node : FileTree) (entries : List (String × FileTree)) :
    (setEntry name node entries).lookup other =
      if other = name then some node else entries.lookup other := by
  have hCons (first : String) (old : FileTree) (entries : List (String × FileTree)) :
      List.lookup other ((first, old) :: entries) =
        if other = first then some old else entries.lookup other := by
    rw [List.lookup_cons]
    by_cases h : other = first
    · rw [if_pos h, beq_iff_eq.mpr h]
    · rw [if_neg h, beq_eq_false_iff_ne.mpr h]
  induction entries with
  | nil => rw [setEntry, hCons]
  | cons entry entries ih =>
    obtain ⟨first, old⟩ := entry
    by_cases hFirst : first = name
    · rw [setEntry, if_pos hFirst, hCons, hCons, hFirst]
      split <;> rfl
    · rw [setEntry, if_neg hFirst, hCons, hCons, ih]
      by_cases h : other = first
      · rw [if_pos h, if_pos h, if_neg fun hEq => hFirst (h.symm.trans hEq)]
      · rw [if_neg h, if_neg h]

theorem child?_put (tree node : FileTree) (name other : String) (rest : List String) :
    (tree.put node (name :: rest)).child? other =
      if other = name then some (((tree.child? name).getD empty).put node rest)
      else tree.child? other :=
  lookup_setEntry name other _ tree.entries

/-- **A node lies where it has been put**, with everything below it. -/
theorem at?_put_below (tree node : FileTree) (place rest : List String) :
    (tree.put node place).at? (place ++ rest) = node.at? rest := by
  induction place generalizing tree with
  | nil => rfl
  | cons name place ih =>
    rw [List.cons_append, at?, child?_put, if_pos rfl, Option.bind_some]
    exact ih _

theorem at?_empty {place : List String} (h : place ≠ []) : empty.at? place = none := by
  obtain ⟨name, rest, rfl⟩ := List.exists_cons_of_ne_nil h
  rfl

/-- **What lies apart from a place stays as it is** when a node is put there. -/
theorem at?_put_apart (tree node : FileTree) {place other : List String} (h : ¬place <+: other)
    (hBack : ¬other <+: place) : (tree.put node place).at? other = tree.at? other := by
  induction place generalizing tree other with
  | nil => exact absurd List.nil_prefix h
  | cons name place ih =>
    cases other with
    | nil => exact absurd List.nil_prefix hBack
    | cons next other =>
      rw [at?, at?, child?_put]
      by_cases hNext : next = name
      · subst hNext
        rw [List.prefix_cons_inj] at h hBack
        rw [if_pos rfl, Option.bind_some, ih _ h hBack]
        cases tree.child? next with
        | none =>
          have hOther : other ≠ [] := fun hNil => hBack (hNil ▸ List.nil_prefix)
          exact at?_empty hOther
        | some child => rfl
      · rw [if_neg hNext]

theorem hasDirectory_put_above (tree node : FileTree) {place : List String} {name : String}
    {rest : List String} : (tree.put node (place ++ name :: rest)).hasDirectory place = true := by
  induction place generalizing tree with
  | nil => rfl
  | cons first place ih =>
    rw [hasDirectory, List.cons_append, at?, child?_put, if_pos rfl, Option.bind_some]
    exact ih _

theorem at?_file_of_ne_nil (content : ByteArray) {place : List String} (h : place ≠ []) :
    (file content).at? place = none := by
  obtain ⟨name, rest, rfl⟩ := List.exists_cons_of_ne_nil h
  rfl

theorem hasDirectory_of_at?_append {tree node : FileTree} {place rest : List String} (hRest : rest ≠ [])
    (h : tree.at? (place ++ rest) = some node) : tree.hasDirectory place = true := by
  rw [at?_append, Option.bind_eq_some_iff] at h
  obtain ⟨middle, hMiddle, hBelow⟩ := h
  rw [hasDirectory, hMiddle]
  cases middle with
  | file content =>
    rw [at?_file_of_ne_nil content hRest] at hBelow
    cases hBelow
  | directory entries => rfl

theorem isSome_of_hasDirectory {tree : FileTree} {place : List String}
    (h : tree.hasDirectory place = true) : (tree.at? place).isSome := by
  cases hAt : tree.at? place with
  | none => simp [hasDirectory, hAt] at h
  | some node => rfl

theorem read?_of_hasDirectory {tree : FileTree} {place : List String}
    (h : tree.hasDirectory place = true) : tree.read? place = none := by
  rw [read?]
  cases hAt : tree.at? place with
  | none => rfl
  | some node =>
    rw [hasDirectory, hAt] at h
    cases node with
    | file content => cases h
    | directory entries => rfl

/-- A node that has nothing below it. -/
def Leaf (node : FileTree) : Prop :=
  ∀ place ≠ [], node.at? place = none

theorem leaf_file (content : ByteArray) : (file content).Leaf :=
  fun _ => at?_file_of_ne_nil content

theorem leaf_empty : empty.Leaf :=
  fun _ => at?_empty

/-- **A leaf that is put into a directory**, where no directory was, is the only thing to change: at any
other place is a directory before and after, or what was there before. -/
theorem at?_put_leaf {tree node : FileTree} (hNode : node.Leaf) {home : List String} {name : String}
    (hHome : tree.hasDirectory home = true) (hFree : tree.hasDirectory (home ++ [name]) = false)
    {place : List String} (hPlace : place ≠ home ++ [name]) :
    (tree.hasDirectory place = true ∧ (tree.put node (home ++ [name])).hasDirectory place = true) ∨
      (tree.put node (home ++ [name])).at? place = tree.at? place := by
  by_cases hBelow : home ++ [name] <+: place
  · obtain ⟨rest, rfl⟩ := hBelow
    have hRest : rest ≠ [] := by
      rintro rfl
      exact hPlace (List.append_nil _)
    right
    rw [at?_put_below, hNode rest hRest]
    cases hAt : tree.at? (home ++ [name] ++ rest) with
    | none => rfl
    | some below =>
      rw [hasDirectory_of_at?_append hRest hAt] at hFree
      cases hFree
  · by_cases hAbove : place <+: home ++ [name]
    · left
      obtain ⟨rest, hRest⟩ := hAbove
      cases rest with
      | nil => exact absurd ((List.append_nil place).symm.trans hRest) hPlace
      | cons next rest =>
        refine ⟨?_, hRest ▸ hasDirectory_put_above tree node⟩
        -- The place lies on the way to the home, or is the home itself.
        obtain ⟨more, rfl⟩ : place <+: home := by
          obtain ⟨kept, hKept⟩ : ∃ kept, next :: rest = kept ++ [name] := by
            have hLast : (next :: rest).getLast? = some name := by
              rw [← List.getLast?_append_of_ne_nil place (List.cons_ne_nil next rest), hRest,
                List.getLast?_concat]
            exact ⟨_, (List.dropLast_append_getLast? name hLast).symm⟩
          rw [hKept, ← List.append_assoc] at hRest
          exact ⟨kept, List.append_cancel_right hRest⟩
        cases more with
        | nil => rwa [List.append_nil] at hHome
        | cons other more =>
          obtain ⟨found, hFound⟩ := Option.isSome_iff_exists.mp (isSome_of_hasDirectory hHome)
          exact hasDirectory_of_at?_append (List.cons_ne_nil other more) hFound
    · exact Or.inr (at?_put_apart tree node hBelow hAbove)

end FileTree

/-! ### Steps -/

namespace FileSystem

/-- **Where a segment leads from a directory**: nowhere else, up, or to the entry of that name. -/
theorem enter?_eq_some_iff {system : FileSystem} {place next : List String} {segment : String} :
    system.enter? place segment = some next ↔ system.tree.hasDirectory place = true ∧
      (¬Path.Leads segment ∧ next = place ∨ segment = ".." ∧ next = place.dropLast ∨
        Path.Leads segment ∧ segment ≠ ".." ∧ (system.tree.at? (place ++ [segment])).isSome ∧
          next = place ++ [segment]) := by
  have hLeads : (segment = "" || segment = ".") = true ↔ ¬Path.Leads segment := by
    simp [Path.Leads, or_iff_not_imp_left]
  rw [enter?]
  cases hDirectory : system.tree.hasDirectory place with
  | false => simp
  | true =>
    rw [if_neg (by simp)]
    simp only [true_and]
    by_cases hStay : Path.Leads segment
    · rw [if_neg (mt hLeads.mp (not_not_intro hStay))]
      by_cases hUp : segment = ".."
      · subst hUp
        rw [if_pos rfl, Option.some.injEq, eq_comm (a := place.dropLast)]
        simp only [hStay, not_true_eq_false, ne_eq, false_and, and_false, true_and, or_false, false_or]
      · simp only [hStay, hUp, not_true_eq_false, ne_eq, not_false_eq_true, false_and, true_and, false_or,
          ↓reduceIte]
        split
        · rename_i hThere
          rw [Option.some.injEq, eq_comm (a := place ++ [segment])]
          simp only [hThere, true_and]
        · rename_i hNone
          simp only [hNone, Bool.false_eq_true, false_and, reduceCtorEq]
    · have hUp : segment ≠ ".." := by
        rintro rfl
        exact hStay (by decide)
      rw [if_pos (hLeads.mpr hStay), Option.some.injEq, eq_comm (a := place)]
      simp only [hStay, hUp, not_false_eq_true, true_and, false_and, or_false]

end FileSystem

end ProseTypes
