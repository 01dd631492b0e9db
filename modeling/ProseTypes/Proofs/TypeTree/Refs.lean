import ProseTypes.Proofs.Registry.Mentions

/-!
# The references of a type

A type is read from left to right, through both sides of every alternative, and each reference is kept
unless one with its identifier was kept before (`collect_eq_foldl`).  So the list of references has the
identifiers at the leaves in the order of their first occurrences, and each of them with the leaf that it
occurs at first.

The single leaf of a type is there just when nothing in the type is an alternative, and it is listed by
itself (`Symbol.refs_and_root`).
-/

namespace ProseTypes

namespace TypeTree

variable {α : Type}

def hasEither : TypeTree α → Bool
  | leaf _ => false
  | array t | nullable t | partialOf t => t.hasEither
  | either .. => true

/-- **The root of a tree is its only leaf**, if there are no alternatives in it. -/
theorem root?_eq_some_iff {t : TypeTree α} {a : α} :
    t.root? = some a ↔ t.hasEither = false ∧ t.leaves = [a] := by
  induction t with
  | leaf b => simp [root?, hasEither, leaves]
  | array t ih | nullable t ih | partialOf t ih => exact ih
  | either l r ihl ihr => simp [root?, hasEither]

end TypeTree

namespace Symbol

theorem any_id_iff {found : List StructureRef} {ref : StructureRef} :
    (found.any fun r => r.id == ref.id) = true ↔ ref.id ∈ found.map StructureRef.id := by
  simp only [List.any_eq_true, List.mem_map, beq_iff_eq]

theorem map_id_foldl_addRef (found refs : List StructureRef) :
    (refs.foldl addRef found).map StructureRef.id = found.map StructureRef.id ++
      ((refs.map StructureRef.id).removeAll (found.map StructureRef.id)).eraseDups := by
  induction refs generalizing found with
  | nil => simp
  | cons ref rest ih =>
    rw [List.foldl_cons, ih, addRef]
    by_cases hKnown : ref.id ∈ found.map StructureRef.id
    · have hDrop : ((ref :: rest).map StructureRef.id).removeAll (found.map StructureRef.id) =
          (rest.map StructureRef.id).removeAll (found.map StructureRef.id) := by
        rw [List.map_cons, List.removeAll, List.filter_cons_of_neg (by simpa using hKnown),
          List.removeAll]
      rw [if_pos (any_id_iff.mpr hKnown), hDrop]
    · -- A new reference goes to the end, and its repetitions are dropped from then on.
      have hKeep : ((ref :: rest).map StructureRef.id).removeAll (found.map StructureRef.id) =
          ref.id :: (rest.map StructureRef.id).removeAll (found.map StructureRef.id) := by
        rw [List.map_cons, List.removeAll, List.filter_cons_of_pos (by simpa using hKnown),
          List.removeAll]
      have hLater : (rest.map StructureRef.id).removeAll ((found ++ [ref]).map StructureRef.id) =
          ((rest.map StructureRef.id).removeAll (found.map StructureRef.id)).filter
            fun id => !id == ref.id := by
        rw [List.removeAll, List.removeAll, List.filter_filter]
        refine List.filter_congr fun id _ => ?_
        rw [Bool.eq_iff_iff]
        simp [and_comm]
      rw [if_neg fun h => hKnown (any_id_iff.mp h), hKeep, List.eraseDups_cons, hLater]
      simp

theorem find?_of_mem_foldl_addRef {found refs : List StructureRef} {ref : StructureRef}
    (h : ref ∈ refs.foldl addRef found) : ref ∈ found ∨
      ref.id ∉ found.map StructureRef.id ∧ refs.find? (fun r => r.id == ref.id) = some ref := by
  induction refs generalizing found with
  | nil => exact Or.inl h
  | cons first rest ih =>
    rw [List.foldl_cons, addRef] at h
    by_cases hKnown : first.id ∈ found.map StructureRef.id
    · rw [if_pos (any_id_iff.mpr hKnown)] at h
      refine (ih h).imp_right fun ⟨hNew, hFind⟩ => ⟨hNew, ?_⟩
      have hOther : first.id ≠ ref.id := fun hEq => hNew (hEq ▸ hKnown)
      rw [List.find?_cons_of_neg (by simpa using hOther), hFind]
    · rw [if_neg fun hAny => hKnown (any_id_iff.mp hAny)] at h
      rcases ih h with hFound | ⟨hNew, hFind⟩
      · rcases List.mem_append.mp hFound with hFound | hFirst
        · exact Or.inl hFound
        · obtain rfl := List.mem_singleton.mp hFirst
          exact Or.inr ⟨hKnown, List.find?_cons_of_pos (beq_self_eq_true ref.id)⟩
      · rw [List.map_append, List.mem_append, not_or] at hNew
        have hOther : first.id ≠ ref.id := fun hEq => hNew.2 (by simp [hEq])
        exact Or.inr ⟨hNew.1, by rw [List.find?_cons_of_neg (by simpa using hOther), hFind]⟩

theorem root?_eq_some_iff {s : Symbol} {atom : Atom StructureRef} : s.root? = some atom ↔
    TypeTree.hasEither s = false ∧ TypeTree.leaves s = [atom] ∧ atom ≠ .unknown := by
  rw [root?, Option.filter_eq_some_iff, TypeTree.root?_eq_some_iff, and_assoc]
  refine and_congr_right fun _ => and_congr_right fun _ => ?_
  cases atom <;> simp

/-- **References are listed without loss and without repeats**: the identifiers at the leaves in the order
of their first occurrences, each with the leaf that it occurs at first.  The root of a type is its only
leaf, if nothing in it is an alternative and the leaf is known, and then nothing else is listed. -/
theorem refs_and_root (s : Symbol) :
    s.refs.map StructureRef.id = (s.leafRefs.map StructureRef.id).eraseDups ∧
    (∀ ref ∈ s.refs, s.leafRefs.find? (fun r => r.id == ref.id) = some ref) ∧
    (∀ atom, s.root? = some atom ↔
      TypeTree.hasEither s = false ∧ TypeTree.leaves s = [atom] ∧ atom ≠ .unknown) ∧
    (∀ ref, s.root? = some (.named ref) → s.refs = [ref]) ∧
    ∀ p, s.root? = some (.primitive p) → s.refs = [] := by
  have hRefs {atom : Atom StructureRef} (h : s.root? = some atom) :
      s.refs = atom.ref?.toList.foldl addRef [] := by
    rw [refs_eq_foldl, leafRefs, (root?_eq_some_iff.mp h).2.1]
    cases atom <;> rfl
  refine ⟨?_, fun ref hRef => ?_, fun atom => root?_eq_some_iff, fun ref h => hRefs h,
    fun p h => hRefs h⟩
  · have hFold := map_id_foldl_addRef [] s.leafRefs
    rwa [List.map_nil, List.removeAll_nil, List.nil_append, ← refs_eq_foldl] at hFold
  · rw [refs_eq_foldl] at hRef
    rcases find?_of_mem_foldl_addRef hRef with hNone | ⟨-, hFind⟩
    · cases hNone
    · exact hFind

/-- A structure that is mentioned in two alternatives is listed where it is mentioned first. -/
example : refs (.either (.array (ofRef ⟨4, "User"⟩))
    (.either (.nullable (ofRef ⟨1, "Guild"⟩)) (.partialOf (ofRef ⟨4, "User"⟩)))) =
      [⟨4, "User"⟩, ⟨1, "Guild"⟩] := by
  decide

end Symbol

end ProseTypes
