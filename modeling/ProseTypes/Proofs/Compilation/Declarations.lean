import ProseTypes.Proofs.Compilation.Sections
import ProseTypes.Proofs.Declaration.Roundtrip
import ProseTypes.Proofs.Structure.Names

/-!
# All declarations of a compilation are read back

The structures that a compilation registers have names that titles give, and constants that cells
give (`Structure.Named`); declaring and completing a resource with such a name keeps this.  What their
types mention is registered too.  So the reader gives back every declaration
(`Corpus.read_declarations_compile`).
-/

namespace ProseTypes

variable {index : LinkIndex}

/-! ### Names of structures and constants -/

/-- A structure and its constants have identifiers for names, and the values are those of cells. -/
structure Structure.Named (s : Structure) : Prop where
  name : Name.isIdentifier s.name
  constants : ∀ c ∈ s.body.constants,
    Name.isIdentifier c.name ∧ ∃ cell, c.value = Value.ofCell cell

def Registry.AllNamed (registry : Registry) : Prop :=
  ∀ id s, registry.structure? id = some s → s.Named

theorem Resource.exists_row_of_mem_draft {resource : Resource} {registry : Registry} {c : Constant}
    (h : c ∈ ((resource.draft index).map registry.symbol).constants) :
    ∃ row, resource.constant? row = some c := by
  unfold Resource.draft at h
  cases hKind : resource.shape.kind with
  | interface =>
    rw [hKind] at h
    cases h
  | enumeration =>
    rw [hKind] at h
    obtain ⟨row, -, hRow⟩ := List.mem_filterMap.mp h
    exact ⟨row, hRow⟩

theorem Resource.isIdentifier_of_constant? {resource : Resource} {row : List String} {c : Constant}
    (h : resource.constant? row = some c) :
    Name.isIdentifier c.name ∧ ∃ cell, c.value = Value.ofCell cell := by
  obtain ⟨name, hName, hValue⟩ := Option.bind_eq_some_iff.mp h
  obtain ⟨cell, -, rfl⟩ := Option.map_eq_some_iff.mp hValue
  obtain ⟨title, -, hTitle⟩ := Option.bind_eq_some_iff.mp hName
  dsimp only
  exact ⟨Name.isIdentifier_of_ofConstant? hTitle, cell, rfl⟩

namespace Registry

variable {registry : Registry}

theorem constants_empty (kind : Kind) : (Body.empty kind : Body Symbol).constants = [] := by
  cases kind <;> rfl

theorem AllNamed.declare (h : registry.AllNamed) {resource : Resource}
    (hName : Name.isIdentifier resource.name) : (registry.declare resource).AllNamed := by
  intro id s hs
  rw [structure?_declare] at hs
  split at hs
  · cases hs
    refine ⟨hName, fun c hc => ?_⟩
    rw [constants_empty] at hc
    cases hc
  · exact h id s hs

theorem AllNamed.completeAs (h : registry.AllNamed) (resource : Resource) :
    (registry.completeAs index resource).AllNamed := by
  intro id t ht
  rw [Registry.completeAs] at ht
  cases hName : registry.idOf? resource.name with
  | none =>
    rw [complete_of_unknown hName] at ht
    exact h id t ht
  | some known =>
    rw [structure?_complete hName, Option.map_eq_some_iff] at ht
    obtain ⟨s, hs, rfl⟩ := ht
    split
    · refine ⟨(h id s hs).name, fun c hc => ?_⟩
      obtain ⟨row, hRow⟩ := Resource.exists_row_of_mem_draft hc
      exact Resource.isIdentifier_of_constant? hRow
    · exact h id s hs

theorem isIdentifier_linked (linked : index.Linked) : Name.isIdentifier linked.1.name := by
  obtain ⟨entry, -, hTitle⟩ := List.mem_filterMap.mp (LinkIndex.name_mem_titleNames linked.2)
  exact Name.isIdentifier_of_ofTitle? hTitle

/-- **Visits keep such names.** -/
theorem AllNamed.reach (h : registry.AllNamed) (links : List index.Linked) :
    (registry.reach index links).AllNamed := by
  let P (_ : List String) (r : Registry) : Prop := r.AllNamed
  exact reach_linked_induction (Q := fun resource => Name.isIdentifier resource.name)
    (fun _ linked _ _ => isIdentifier_linked linked) (fun _ _ _ hName _ hr => hr.declare hName)
    (fun _ _ resource _ _ hr => hr.completeAs resource) links
    (fun linked _ => isIdentifier_linked linked) (show P [] registry from h)

/-- **So does registering a resource** with an identifier for a name. -/
theorem AllNamed.enter (h : registry.AllNamed) {resource : Resource}
    (hName : Name.isIdentifier resource.name) : (registry.enter index resource).AllNamed := by
  let P (_ : List String) (r : Registry) : Prop := r.AllNamed
  exact enter_linked_induction (Q := fun resource => Name.isIdentifier resource.name)
    (fun _ linked _ _ => isIdentifier_linked linked) (fun _ _ _ hName _ hr => hr.declare hName)
    (fun _ _ resource _ _ hr => hr.completeAs resource) hName (show P [] registry from h)

end Registry

theorem Target.isIdentifier_of_asked {target : Target} {resource : Resource}
    (h : resource ∈ target.asked) : Name.isIdentifier resource.name := by
  have hRequest (title : RequestTitle) (hName : resource.name ∈ Request.structureNames title) :
      Name.isIdentifier resource.name := by
    have hBase := Request.isIdentifier_baseName title
    simp only [Request.structureNames, List.mem_cons, List.not_mem_nil, or_false] at hName
    rcases hName with hName | hName
    · rw [hName]
      exact Name.isIdentifier_append hBase (by decide)
    · rw [hName]
      exact Name.isIdentifier_append hBase (by decide)
  unfold Target.asked at h
  split at h
  · rename_i title hTitle
    rcases List.mem_append.mp h with h | h
    · exact hRequest title (Request.name_mem_of_body? (Option.mem_toList.mp h))
    · exact hRequest title (Request.name_mem_of_query? (Option.mem_toList.mp h))
  · exact Name.isIdentifier_of_ofTitle? (Target.ofTitle?_of_own? (Option.mem_toList.mp h))

namespace Corpus

theorem allNamed_compile (corpus : Corpus) (scope : Scope) :
    (corpus.compile scope).registry.AllNamed := by
  refine compile_induction scope ?_ ?_ ?_
  · intro r target _ resource hAsked hr
    exact hr.enter (Target.isIdentifier_of_asked hAsked)
  · intro r target _ hr
    exact hr.reach _
  · intro id s hs
    simp [Registry.structure?, Registry.empty] at hs

theorem readable_compile {corpus : Corpus} {scope : Scope} {id : Nat} {s : Structure}
    (hs : (corpus.compile scope).registry.structure? id = some s) :
    TypeText.isName s.name ∧ Declaration.Readable s.body := by
  have hSound : (corpus.compile scope).Sound := corpus.sound_start.compileFrom
  have hNamed := corpus.allNamed_compile scope
  refine ⟨TypeText.isName_of_isIdentifier (hNamed id s hs).name, ?_, ?_⟩
  · intro f hf ref hRef
    obtain ⟨t, ht, hName⟩ := hSound.registry.binds hs ⟨f, hf, hRef⟩
    rw [← hName]
    exact TypeText.isName_of_isIdentifier (hNamed ref.id t ht).name
  · intro c hc
    obtain ⟨hName, hValue⟩ := (hNamed id s hs).constants c hc
    exact ⟨TypeText.isName_of_isIdentifier hName, hValue⟩

/-- **Every declaration of a compilation is read back**, with the name and the kind of its structure
and its members in order.  The names of structures and constants are identifiers. -/
theorem read_declarations_compile (corpus : Corpus) (scope : Scope) :
    ∀ s ∈ (corpus.compile scope).registry.structures,
      Declaration.read? s.declaration = some (s.name, s.body.outline) ∧
      Name.isIdentifier s.name ∧ ∀ c ∈ s.body.constants, Name.isIdentifier c.name := by
  intro s hMem
  obtain ⟨id, hs⟩ := List.mem_iff_getElem?.mp hMem
  obtain ⟨hName, hBody⟩ := readable_compile hs
  have hNamed := corpus.allNamed_compile scope id s hs
  exact ⟨Declaration.read?_declaration hName hBody, hNamed.name,
    fun c hc => (hNamed.constants c hc).1⟩

/-- A document with a section of values, where a description holds the end of a comment and a value
holds a comma. -/
def kinds : Corpus :=
  ⟨[.ofLines "a.md" ["## Kind", "", "| Name | Value | Description |", "|---|---|---|",
    "| a | 1 | no end */ here, b = 2 |", "| b | \"x,y\" | |"]], 1⟩

theorem read_declarations_kinds : ∃ s ∈ (kinds.compile .everything).registry.structures,
    s.declaration = "export enum Kind \x7b\n\t/** no end *\\/ here, b = 2 */\n\tA = 1,\n" ++
      "\tB = \"x,y\",\n\x7d\n" ∧
    Declaration.read? s.declaration =
      some ("Kind", .enumeration [⟨"A", "1", none⟩, ⟨"B", "\"x,y\"", none⟩]) := by
  let kind : Resource := ⟨"Kind", .names, ⟨["Name", "Value", "Description"],
    [["a", "1", "no end */ here, b = 2"], ["b", "\"x,y\"", ""]]⟩, "a.md", "A/kind"⟩
  let s : Structure := ⟨0, "Kind", 0, "A/kind",
    .enumeration [⟨"A", "1", some "no end */ here, b = 2"⟩, ⟨"B", "\"x,y\"", none⟩]⟩
  have hFirst : kinds.subjects.head?.map Target.asked = some [kind] := by
    decide +kernel
  have hLinks : kind.links kinds.index = [] := rfl
  have hHolds : (Registry.empty.enter kinds.index kind).Holds 0 s := by
    refine ⟨Registry.indexed_empty.enter kind, ?_⟩
    rw [Registry.enter_of_new (by decide), hLinks, Registry.reach_nil]
    decide +kernel
  have hMem : s ∈ (kinds.compile .everything).registry.structures :=
    List.mem_of_getElem? (holds_compile_of_first hFirst hHolds).here
  exact ⟨s, hMem, by decide +kernel, (kinds.read_declarations_compile .everything s hMem).1⟩

end Corpus

end ProseTypes
