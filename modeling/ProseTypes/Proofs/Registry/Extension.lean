import Mathlib.Logic.Basic
import ProseTypes.Agenda

/-!
# Registries that extend each other

Registering only adds: a name keeps its identifier, and a structure keeps its place and all of it
but its members.  `Extends before after` says so of two registries, and both steps of a
registration are of this kind:

* `extends_declare`: declaring a structure under a new name extends the registry.
* `extends_complete`: so does giving a structure its members.

What a reference says is therefore settled when its name is registered (`Extends.ref?`), and a
reading whose links are all registered means the same symbol ever after (`Extends.symbol`).
-/

namespace ProseTypes

namespace Registry

/-! ### What the two steps do to structures -/

theorem structure?_declare (registry : Registry) (resource : Resource) (id : Nat) :
    (registry.declare resource).structure? id =
      if id = registry.structures.length then
        some ⟨registry.structures.length, resource.name,
          (registry.graph.moduleFor (ModulePath.ofDocument resource.path)).1, resource.source,
          Body.empty resource.shape.kind⟩
      else registry.structure? id := by
  simp only [structure?, declare]
  rcases Nat.lt_trichotomy id registry.structures.length with hLt | rfl | hGt
  · rw [if_neg (by omega), List.getElem?_append_left hLt]
  · rw [if_pos rfl, List.getElem?_concat_length]
  · rw [if_neg (by omega), List.getElem?_eq_none (by simp; omega),
      List.getElem?_eq_none (by omega)]

theorem structure?_complete {registry : Registry} {name : String} {id : Nat}
    (hName : registry.idOf? name = some id) (body : Body Symbol) (other : Nat) :
    (registry.complete name body).structure? other =
      (registry.structure? other).map fun s => if other = id then s.withBody body else s := by
  simp only [complete, hName]
  cases hId : registry.structure? id with
  | none =>
    by_cases h : other = id
    · rw [h, hId]
      rfl
    · simp [h]
  | some s =>
    simp only [structure?, List.getElem?_modify, eq_comm (a := other)]
    split <;> rfl

theorem complete_of_unknown {registry : Registry} {name : String}
    (hName : registry.idOf? name = none) (body : Body Symbol) :
    registry.complete name body = registry := by
  simp only [complete, hName]

/-! ### Extension -/

/-- Names keep their identifiers, and structures keep their places and all but their members. -/
structure Extends (before after : Registry) : Prop where
  idOf? : ∀ {name id}, before.idOf? name = some id → after.idOf? name = some id
  structure? : ∀ {id s}, before.structure? id = some s →
    ∃ body, after.structure? id = some (s.withBody body)

theorem Extends.refl (registry : Registry) : Extends registry registry where
  idOf? h := h
  structure? {_ s} h := ⟨s.body, h⟩

theorem Extends.trans {a b c : Registry} (hab : Extends a b) (hbc : Extends b c) :
    Extends a c where
  idOf? h := hbc.idOf? (hab.idOf? h)
  structure? h := by
    obtain ⟨_, hb⟩ := hab.structure? h
    obtain ⟨body, hc⟩ := hbc.structure? hb
    exact ⟨body, hc⟩

theorem extends_declare {registry : Registry} {resource : Resource}
    (hNew : registry.idOf? resource.name = none) :
    Extends registry (registry.declare resource) where
  idOf? {name id} h := by
    have hne : name ≠ resource.name := by
      intro he
      rw [he, hNew] at h
      cases h
    rw [idOf?_declare, if_neg hne, h]
  structure? {id s} h := by
    have hne : id ≠ registry.structures.length := by
      intro he
      rw [he, Registry.structure?, List.getElem?_eq_none (Nat.le_refl _)] at h
      cases h
    exact ⟨s.body, by rw [structure?_declare, if_neg hne, h]; rfl⟩

theorem extends_complete (registry : Registry) (name : String) (body : Body Symbol) :
    Extends registry (registry.complete name body) where
  idOf? h := by rw [idOf?_complete, h]
  structure? {id s} h := by
    cases hName : registry.idOf? name with
    | none =>
      rw [complete_of_unknown hName]
      exact ⟨s.body, h⟩
    | some known =>
      rw [structure?_complete hName, h]
      by_cases he : id = known
      · exact ⟨body, by simp [he]⟩
      · exact ⟨s.body, by simp [he, Structure.withBody]⟩

/-! ### References -/

section

variable {before after : Registry} (h : Extends before after)

include h

theorem Extends.has {name : String} (hName : before.has name) : after.has name := by
  obtain ⟨id, hId⟩ := Option.isSome_iff_exists.mp hName
  rw [Registry.has, h.idOf? hId]
  rfl

/-- **What a reference says never changes.** -/
theorem Extends.ref? {name : String} {ref : StructureRef} (hRef : before.ref? name = some ref) :
    after.ref? name = some ref := by
  simp only [Registry.ref?, Option.bind_eq_some_iff, Option.map_eq_some_iff] at hRef ⊢
  obtain ⟨id, hId, s, hs, rfl⟩ := hRef
  obtain ⟨body, hBody⟩ := h.structure? hs
  exact ⟨id, h.idOf? hId, s.withBody body, hBody, rfl⟩

theorem Extends.refTo {name : String} (hName : (before.ref? name).isSome) :
    after.refTo name = before.refTo name := by
  obtain ⟨ref, hRef⟩ := Option.isSome_iff_exists.mp hName
  rw [Registry.refTo, Registry.refTo, h.ref? hRef, hRef]
  rfl

end

end Registry

/-! ### Symbols of readings -/

namespace TypeTree

variable {α β : Type}

theorem map_congr {f g : α → β} {t : TypeTree α} (h : ∀ a ∈ t.leaves, f a = g a) :
    t.map f = t.map g := by
  induction t with
  | leaf a => exact congrArg leaf (h a (List.mem_singleton_self a))
  | array t ih => exact congrArg array (ih h)
  | nullable t ih => exact congrArg nullable (ih h)
  | partialOf t ih => exact congrArg partialOf (ih h)
  | either l r ihl ihr =>
    simp only [leaves, List.mem_append] at h
    rw [map, map, ihl fun a ha => h a (Or.inl ha), ihr fun a ha => h a (Or.inr ha)]

end TypeTree

namespace Reading

variable {index : LinkIndex}

/-- The resources at the leaves of a reading, from left to right. -/
def links (reading : Reading index) : List index.Linked :=
  (TypeTree.leaves reading).filterMap fun leaf => leaf.atom.ref?

theorem mem_links {reading : Reading index} {linked : index.Linked} :
    linked ∈ reading.links ↔ ∃ leaf ∈ TypeTree.leaves reading, leaf.atom = .named linked := by
  simp only [links, List.mem_filterMap]
  refine exists_congr fun leaf => and_congr_right fun _ => ?_
  cases leaf.atom <;> simp [Atom.ref?]

end Reading

theorem Registry.symbol_congr {index : LinkIndex} {a b : Registry} {reading : Reading index}
    (h : ∀ linked ∈ reading.links, a.refTo linked.1.name = b.refTo linked.1.name) :
    a.symbol reading = b.symbol reading := by
  refine TypeTree.map_congr fun leaf hLeaf => ?_
  cases hAtom : leaf.atom with
  | primitive p => rfl
  | named linked =>
    exact congrArg Atom.named (h linked (Reading.mem_links.mpr ⟨leaf, hLeaf, hAtom⟩))
  | unknown => rfl

/-- **A reading whose links are all registered has its symbol for good.** -/
theorem Registry.Extends.symbol {index : LinkIndex} {before after : Registry}
    (h : Extends before after) {reading : Reading index}
    (hLinks : ∀ linked ∈ reading.links, (before.ref? linked.1.name).isSome) :
    after.symbol reading = before.symbol reading :=
  Registry.symbol_congr fun linked hLinked => h.refTo (hLinks linked hLinked)

end ProseTypes
