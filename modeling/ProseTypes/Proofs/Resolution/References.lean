import Mathlib.Logic.Relation
import ProseTypes.Proofs.Resolution.Sound

/-!
# Nothing is registered without a reference to it

`Registry.Refers registry a b` says that a structure mentions another one in the type of a field.
A structure mentions what the readings of its draft link to, and all of it
(`Indexed.mentions_of_mem_links`), so no visit registers a structure that ends up unmentioned.
`Registry.Brings before after names` puts this for whole registrations: whatever is new after one can
be reached along references from the structures of `names`.

* `Brings.trans`: registrations one after the other bring the structures of both lists of names.
* `Sound.brings_reach`: visits bring the names of what is visited.
* `Sound.brings_enter`: registering a resource brings its name.
-/

namespace ProseTypes.Registry

open Relation (ReflTransGen)

variable {index : LinkIndex} {registry before after : Registry} {pending : List String}

/-- A structure mentions another one. -/
def Refers (registry : Registry) (a b : Nat) : Prop :=
  ∃ s, registry.structure? a = some s ∧ ∃ ref, s.Mentions ref ∧ ref.id = b

/-! ### References stay -/

theorem Refers.declare {a b : Nat} (h : registry.Refers a b) (resource : Resource) :
    (registry.declare resource).Refers a b := by
  obtain ⟨s, hs, hUse⟩ := h
  exact ⟨s, structure?_declare_of_some hs, hUse⟩

/-- A structure that is completed had no fields, so no reference is lost. -/
theorem Refers.completeAs {a b : Nat} (h : registry.Refers a b) {resource : Resource}
    (hSound : registry.Sound (resource.name :: pending)) :
    (registry.completeAs index resource).Refers a b := by
  obtain ⟨s, hs, ref, hRef, rfl⟩ := h
  obtain ⟨id, t, hId, ht, hFields⟩ := hSound.declared resource.name List.mem_cons_self
  have hOther : a ≠ id := by
    rintro rfl
    rw [ht] at hs
    cases hs
    obtain ⟨field, hField, -⟩ := hRef
    rw [hFields] at hField
    cases hField
  refine ⟨s, ?_, ref, hRef, rfl⟩
  rw [Registry.completeAs, structure?_complete hId, hs, Option.map_some, if_neg hOther]

/-- **Visits keep references.** -/
theorem Refers.reach {a b : Nat} (h : registry.Refers a b) (hSound : registry.Sound pending)
    (links : List index.Linked) : (registry.reach index links).Refers a b := by
  let P (pending : List String) (r : Registry) : Prop := r.Sound pending ∧ r.Refers a b
  have hDeclare (pending : List String) (r : Registry) (resource : Resource)
      (hNew : r.idOf? resource.name = none) (hr : P pending r) :
      P (resource.name :: pending) (r.declare resource) :=
    ⟨hr.1.declare hNew, hr.2.declare resource⟩
  have hComplete (pending : List String) (r : Registry) (resource : Resource)
      (hLinks : ∀ linked ∈ resource.links index, r.has linked.1.name)
      (hr : P (resource.name :: pending) r) : P pending (r.completeAs index resource) :=
    ⟨hr.1.completeAs hLinks, hr.2.completeAs hr.1⟩
  exact (reach_pending_induction (P := P) hDeclare hComplete links ⟨hSound, h⟩).2

/-! ### What a completed structure mentions -/

/-- **The symbol of a reading mentions every link of the reading.** -/
theorem mentions_of_mem_links {reading : Reading index} {linked : index.Linked}
    (h : linked ∈ reading.links) :
    Symbol.Mentions (registry.symbol reading) (registry.refTo linked.1.name) := by
  obtain ⟨leaf, hLeaf, hNamed⟩ := Reading.mem_links.mp h
  rw [Symbol.Mentions, TypeTree.occurs_iff_mem_leaves, Registry.symbol, TypeTree.leaves_map]
  refine List.mem_map.mpr ⟨leaf, hLeaf, ?_⟩
  rw [hNamed]
  rfl

theorem mentions_map_of_mem_links {resource : Resource} {linked : index.Linked}
    (h : linked ∈ resource.links index) :
    ((resource.draft index).map registry.symbol).Mentions (registry.refTo linked.1.name) := by
  obtain ⟨field, hField, hLinked⟩ := List.mem_flatMap.mp h
  cases hDraft : resource.draft index with
  | interface fields =>
    rw [hDraft] at hField
    exact ⟨_, List.mem_map_of_mem hField, mentions_of_mem_links hLinked⟩
  | enumeration constants =>
    rw [hDraft] at hField
    cases hField

theorem refTo_completeAs (registry : Registry) (resource : Resource) {name : String}
    (h : (registry.ref? name).isSome) :
    (registry.completeAs index resource).refTo name = registry.refTo name :=
  (extends_complete registry _ _).refTo h

/-- **A completed structure refers to everything that its resource links to.** -/
theorem Sound.refers_completeAs {resource : Resource}
    (h : registry.Sound (resource.name :: pending)) {linked : index.Linked}
    (hLinked : linked ∈ resource.links index) (hHas : registry.has linked.1.name) :
    (registry.completeAs index resource).Refers
      ((registry.completeAs index resource).refTo resource.name).id
      ((registry.completeAs index resource).refTo linked.1.name).id := by
  obtain ⟨id, s, hId, hs, -⟩ := h.declared resource.name List.mem_cons_self
  have hOwn : registry.ref? resource.name = some ⟨id, s.name⟩ := by
    rw [ref?, hId, Option.bind_some, hs, Option.map_some]
  rw [refTo_completeAs registry resource (h.indexed.isSome_ref? hHas),
    refTo_completeAs registry resource (by rw [hOwn]; rfl)]
  refine ⟨s.withBody ((resource.draft index).map registry.symbol), ?_, _,
    mentions_map_of_mem_links hLinked, rfl⟩
  rw [refTo, hOwn, Option.getD_some, Registry.completeAs, structure?_complete hId, hs,
    Option.map_some, if_pos rfl]

/-! ### What registrations bring -/

/-- What is new after a registration can be reached along references from the structures of some
names, and nothing that was there is lost. -/
structure Brings (before after : Registry) (names : List String) : Prop where
  extend : Extends before after
  refers : ∀ {a b : Nat}, before.Refers a b → after.Refers a b
  has : ∀ name ∈ names, after.has name
  reached : ∀ {id : Nat} {t : Structure}, after.structure? id = some t →
    (∃ s, before.structure? id = some s) ∨
      ∃ name ∈ names, ReflTransGen after.Refers (after.refTo name).id id

theorem Brings.refl (registry : Registry) : Brings registry registry [] where
  extend := Extends.refl registry
  refers h := h
  has name h := by cases h
  reached {_ t} ht := Or.inl ⟨t, ht⟩

theorem Brings.of_has {name : String} (h : registry.has name) : Brings registry registry [name] where
  extend := Extends.refl registry
  refers h := h
  has other hMem := by rwa [List.mem_singleton.mp hMem]
  reached {_ t} ht := Or.inl ⟨t, ht⟩

/-- **Registrations one after the other bring what each of them brings.** -/
theorem Brings.trans {middle : Registry} {first second : List String}
    (hFirst : Brings before middle first) (hSecond : Brings middle after second)
    (hMiddle : middle.Indexed) : Brings before after (first ++ second) where
  extend := hFirst.extend.trans hSecond.extend
  refers h := hSecond.refers (hFirst.refers h)
  has name hMem := by
    rcases List.mem_append.mp hMem with hMem | hMem
    · exact hSecond.extend.has (hFirst.has name hMem)
    · exact hSecond.has name hMem
  reached {id t} ht := by
    rcases hSecond.reached ht with ⟨s, hs⟩ | ⟨name, hName, hPath⟩
    · rcases hFirst.reached hs with hOld | ⟨name, hName, hPath⟩
      · exact Or.inl hOld
      · refine Or.inr ⟨name, List.mem_append_left _ hName, ?_⟩
        rw [hSecond.extend.refTo (hMiddle.isSome_ref? (hFirst.has name hName))]
        exact ReflTransGen.mono (fun _ _ => hSecond.refers) _ _ hPath
    · exact Or.inr ⟨name, List.mem_append_right _ hName, hPath⟩

/-- **Registering a new resource brings its name**, if visiting its links brings theirs: the
structure refers to all of them once it is completed. -/
theorem Sound.brings_enter_of_reach (h : registry.Sound pending) {resource : Resource}
    (hNew : ¬registry.has resource.name)
    (hReach : Brings (registry.declare resource)
      ((registry.declare resource).reach index (resource.links index))
      ((resource.links index).map fun linked => linked.1.name)) :
    Brings registry (registry.enter index resource) [resource.name] := by
  have hFresh := idOf?_of_not_has hNew
  have hDeclared : (registry.declare resource).Sound (resource.name :: pending) := h.declare hFresh
  have hVisited := hDeclared.reach (resource.links index)
  have hLinks (linked : index.Linked) (hMem : linked ∈ resource.links index) :
      ((registry.declare resource).reach index (resource.links index)).has linked.1.name :=
    has_of_mem_reach hMem _
  have hOwnHas : ((registry.declare resource).reach index (resource.links index)).has
      resource.name := hReach.extend.has (by simp)
  have hOwn : ((registry.enter index resource).refTo resource.name).id =
      registry.structures.length := by
    have hDeclaredRef : (registry.declare resource).ref? resource.name =
        some ⟨registry.structures.length, resource.name⟩ := by
      rw [ref?, idOf?_declare, if_pos rfl, Option.bind_some, structure?_declare, if_pos rfl]
      rfl
    rw [enter_of_new hNew, refTo_completeAs _ _ (hVisited.indexed.isSome_ref? hOwnHas),
      hReach.extend.refTo (by rw [hDeclaredRef]; rfl), refTo, hDeclaredRef]
    rfl
  refine ⟨extends_enter registry resource, ?_, ?_, ?_⟩
  · intro a b hRefers
    rw [enter_of_new hNew]
    exact (hReach.refers (hRefers.declare resource)).completeAs hVisited
  · intro name hMem
    rw [List.mem_singleton.mp hMem]
    exact has_enter registry resource
  · intro id t ht
    rw [enter_of_new hNew] at ht
    obtain ⟨s, made, hs, rfl⟩ := exists_of_structure?_complete ht
    rcases hReach.reached hs with ⟨old, hOld⟩ | ⟨name, hName, hPath⟩
    · rw [structure?_declare] at hOld
      by_cases hId : id = registry.structures.length
      · refine Or.inr ⟨resource.name, List.mem_singleton_self _, ?_⟩
        rw [hOwn, hId]
      · rw [if_neg hId] at hOld
        exact Or.inl ⟨old, hOld⟩
    · obtain ⟨linked, hMem, rfl⟩ := List.mem_map.mp hName
      refine Or.inr ⟨resource.name, List.mem_singleton_self _, ?_⟩
      rw [enter_of_new hNew]
      refine ReflTransGen.head (hVisited.refers_completeAs hMem (hLinks linked hMem)) ?_
      rw [refTo_completeAs _ _ (hVisited.indexed.isSome_ref? (hLinks linked hMem))]
      exact ReflTransGen.mono (fun _ _ hRefers => Refers.completeAs hRefers hVisited) _ _ hPath

/-- **Visits bring the names of what is visited.**  The induction is on the number of resources that
links can bind to and that are not registered; the visits of one registration are those of a list. -/
theorem Sound.brings_reach (h : registry.Sound pending) (links : List index.Linked) :
    Brings registry (registry.reach index links) (links.map fun linked => linked.1.name) := by
  induction hn : Agenda.remaining index registry using Nat.strongRecOn
    generalizing registry pending links with
  | ind n ih =>
    have hAll (links : List index.Linked) (r : Registry) (hr : Agenda.remaining index r ≤ n)
        (h : r.Sound pending) :
        Brings r (r.reach index links) (links.map fun linked => linked.1.name) := by
      induction links generalizing r with
      | nil =>
        rw [reach_nil]
        exact Brings.refl r
      | cons first rest ihRest =>
        have hEnter : Brings r (r.enter index first.1) [first.1.name] := by
          by_cases hKnown : r.has first.1.name
          · rw [enter_of_has hKnown]
            exact Brings.of_has hKnown
          · have hLt : Agenda.remaining index (r.declare first.1) < n :=
              Nat.lt_of_lt_of_le (Agenda.remaining_declare_lt (eq_false_of_ne_true hKnown)) hr
            have hDeclared := h.declare (idOf?_of_not_has hKnown)
            exact h.brings_enter_of_reach hKnown (ih _ hLt hDeclared _ rfl)
        have hLe : Agenda.remaining index (r.enter index first.1) ≤ n :=
          Nat.le_trans (remaining_le_of_extends (extends_enter r first.1)) hr
        rw [reach_cons]
        have hEntered : (r.enter index first.1).Sound pending := h.enter first.1
        exact hEnter.trans (ihRest _ hLe hEntered) hEntered.indexed
    exact hAll links registry (Nat.le_of_eq hn) h

/-- **Registering a resource brings its name.** -/
theorem Sound.brings_enter (h : registry.Sound pending) (resource : Resource) :
    Brings registry (registry.enter index resource) [resource.name] := by
  by_cases hKnown : registry.has resource.name
  · rw [enter_of_has hKnown]
    exact Brings.of_has hKnown
  · exact h.brings_enter_of_reach hKnown ((h.declare (idOf?_of_not_has hKnown)).brings_reach _)

end ProseTypes.Registry
