import ProseTypes.Proofs.Registry.Extension

/-!
# What a type mentions

`TypeTree.Occurs a t` says that a leaf occurs in a type, whichever alternatives, elements, optional
values and partial objects lie above it.  A symbol mentions the references that occur in it, and a
structure mentions what the types of its fields mention.

`Symbol.refs` goes through a type from left to right and adds each reference to what it has found, which
is what going through the list of the leaves does (`collect_eq_foldl`).  So it lists mentioned references
only (`mentions_of_mem_refs`), and every identifier that is mentioned (`exists_mem_refs`).  A symbol that is
read off a registry mentions only references to the links of its reading
(`Registry.exists_link_of_mentions`).
-/

namespace ProseTypes

namespace TypeTree

variable {α β : Type}

inductive Occurs (a : α) : TypeTree α → Prop where
  | leaf : Occurs a (leaf a)
  | array {t : TypeTree α} : Occurs a t → Occurs a (array t)
  | nullable {t : TypeTree α} : Occurs a t → Occurs a (nullable t)
  | partialOf {t : TypeTree α} : Occurs a t → Occurs a (partialOf t)
  | left {l r : TypeTree α} : Occurs a l → Occurs a (either l r)
  | right {l r : TypeTree α} : Occurs a r → Occurs a (either l r)

theorem occurs_iff_mem_leaves {a : α} {t : TypeTree α} : Occurs a t ↔ a ∈ t.leaves := by
  constructor
  · intro h
    induction h with
    | leaf => exact List.mem_singleton_self a
    | array _ ih | nullable _ ih | partialOf _ ih => exact ih
    | left _ ih => exact List.mem_append_left _ ih
    | right _ ih => exact List.mem_append_right _ ih
  · intro h
    induction t with
    | leaf b =>
      rw [List.mem_singleton.mp h]
      exact .leaf
    | array t ih => exact .array (ih h)
    | nullable t ih => exact .nullable (ih h)
    | partialOf t ih => exact .partialOf (ih h)
    | either l r ihl ihr =>
      rcases List.mem_append.mp h with h | h
      · exact .left (ihl h)
      · exact .right (ihr h)

theorem leaves_map (f : α → β) (t : TypeTree α) : (t.map f).leaves = t.leaves.map f := by
  induction t with
  | leaf a => rfl
  | array t ih | nullable t ih | partialOf t ih => exact ih
  | either l r ihl ihr => rw [map, leaves, leaves, List.map_append, ihl, ihr]

end TypeTree

def Symbol.Mentions (s : Symbol) (ref : StructureRef) : Prop :=
  TypeTree.Occurs (.named ref) s

/-- A reference occurs in the type of a field. -/
def Body.Mentions (body : Body Symbol) (ref : StructureRef) : Prop :=
  ∃ field ∈ body.fields, Symbol.Mentions field.type ref

/-- A reference occurs in the type of a field of a structure. -/
def Structure.Mentions (s : Structure) (ref : StructureRef) : Prop :=
  s.body.Mentions ref

namespace Symbol

/-! ### Lists of references -/

/-- The references at the leaves of a type, from left to right. -/
def leafRefs (s : Symbol) : List StructureRef :=
  (TypeTree.leaves s).filterMap Atom.ref?

/-- What the left alternative gives is what the right one starts from, so this is for any `found`. -/
theorem collect_eq_foldl (s : Symbol) (found : List StructureRef) :
    s.collect found = s.leafRefs.foldl addRef found := by
  unfold leafRefs
  induction s generalizing found with
  | leaf atom => cases atom <;> rfl
  | array inner ih | nullable inner ih | partialOf inner ih => exact ih found
  | either left right ihl ihr =>
    rw [collect, TypeTree.leaves, List.filterMap_append, List.foldl_append, ihl, ihr]

theorem refs_eq_foldl (s : Symbol) : s.refs = s.leafRefs.foldl addRef [] :=
  collect_eq_foldl s []

theorem mem_of_mem_foldl_addRef {ref : StructureRef} {refs : List StructureRef} :
    ∀ {found : List StructureRef}, ref ∈ refs.foldl addRef found → ref ∈ found ∨ ref ∈ refs := by
  induction refs with
  | nil => intro found h; exact Or.inl h
  | cons first rest ih =>
    intro found h
    rcases ih h with h | h
    · unfold addRef at h
      split at h
      · exact Or.inl h
      · rcases List.mem_append.mp h with h | h
        · exact Or.inl h
        · exact Or.inr (List.mem_cons.mpr (Or.inl (List.mem_singleton.mp h)))
    · exact Or.inr (List.mem_cons_of_mem first h)

theorem exists_mem_foldl_addRef {id : Nat} {refs : List StructureRef} :
    ∀ {found : List StructureRef}, (∃ ref ∈ found, ref.id = id) ∨ (∃ ref ∈ refs, ref.id = id) →
      ∃ ref ∈ refs.foldl addRef found, ref.id = id := by
  induction refs with
  | nil =>
    rintro found (h | ⟨ref, hRef, -⟩)
    · exact h
    · cases hRef
  | cons first rest ih =>
    intro found h
    refine ih ?_
    rcases h with ⟨ref, hRef, hId⟩ | ⟨ref, hRef, hId⟩
    · refine Or.inl ⟨ref, ?_, hId⟩
      unfold addRef
      split
      · exact hRef
      · exact List.mem_append_left _ hRef
    · rcases List.mem_cons.mp hRef with rfl | hRef
      · left
        unfold addRef
        split
        · rename_i hAny
          obtain ⟨known, hKnown, hSame⟩ := List.any_eq_true.mp hAny
          exact ⟨known, hKnown, (beq_iff_eq.mp hSame).trans hId⟩
        · exact ⟨ref, List.mem_append_right _ (List.mem_singleton_self ref), hId⟩
      · exact Or.inr ⟨ref, hRef, hId⟩

theorem mentions_iff_mem {s : Symbol} {ref : StructureRef} :
    s.Mentions ref ↔ ref ∈ s.leafRefs := by
  rw [Mentions, TypeTree.occurs_iff_mem_leaves, leafRefs, List.mem_filterMap]
  constructor
  · intro h
    exact ⟨_, h, rfl⟩
  · rintro ⟨atom, hAtom, hRef⟩
    cases atom with
    | named other =>
      cases hRef
      exact hAtom
    | primitive p => cases hRef
    | unknown => cases hRef

theorem mentions_of_mem_refs {s : Symbol} {ref : StructureRef} (h : ref ∈ s.refs) :
    s.Mentions ref := by
  rw [refs_eq_foldl] at h
  rcases mem_of_mem_foldl_addRef h with h | h
  · cases h
  · exact mentions_iff_mem.mpr h

theorem exists_mem_refs {s : Symbol} {ref : StructureRef} (h : s.Mentions ref) :
    ∃ listed ∈ s.refs, listed.id = ref.id := by
  rw [refs_eq_foldl]
  exact exists_mem_foldl_addRef (Or.inr ⟨ref, mentions_iff_mem.mp h, rfl⟩)

end Symbol

/-! ### Symbols of readings -/

/-- **A symbol of a reading mentions only links of the reading.** -/
theorem Registry.exists_link_of_mentions {index : LinkIndex} {registry : Registry}
    {reading : Reading index} {ref : StructureRef}
    (h : Symbol.Mentions (registry.symbol reading) ref) :
    ∃ linked ∈ reading.links, ref = registry.refTo linked.1.name := by
  rw [Symbol.Mentions, TypeTree.occurs_iff_mem_leaves, Registry.symbol, TypeTree.leaves_map,
    List.mem_map] at h
  obtain ⟨leaf, hLeaf, hAtom⟩ := h
  cases hCase : leaf.atom with
  | primitive p =>
    rw [hCase] at hAtom
    cases hAtom
  | named linked =>
    rw [hCase] at hAtom
    cases hAtom
    exact ⟨linked, Reading.mem_links.mpr ⟨leaf, hLeaf, hCase⟩, rfl⟩
  | unknown =>
    rw [hCase] at hAtom
    cases hAtom

end ProseTypes
