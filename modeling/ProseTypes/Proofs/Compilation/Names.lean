import Mathlib.Data.List.Nodup
import ProseTypes.Proofs.Compilation.Origins
import ProseTypes.Proofs.Document.Outline

/-!
# Resources with different names

If sections and requests give different names, and sections have different anchors, then two
resources that a compilation gets to can have the same name only if both come from one section.  The
walk takes a table that the section has itself (`Corpus.ownTable?_eq`).  A link searches the sections
directly in it too, and prefers fields to values there, so it takes another table if the section is
`Mixed`.  Where links lead to no such section, the names are different
(`Corpus.unambiguous_of_nodup`).
-/

namespace ProseTypes

/-! ### Tables that sections are taken for -/

namespace Section

/-- A section has a table of values and none of fields, and a section directly in it has a table of
fields.  A link takes the fields, and the walk the values. -/
def Mixed (part : Section) : Prop :=
  (∃ table ∈ part.tables, Shape.names.fits table || Shape.flags.fits table) ∧
    (∀ table ∈ part.tables, Shape.fields.fits table = false) ∧
    ∃ child ∈ part.sections, ∃ table ∈ child.tables, Shape.fields.fits table

instance (part : Section) : Decidable part.Mixed :=
  inferInstanceAs (Decidable (_ ∧ _ ∧ _))

end Section

namespace Shape

def pick? (group : List Shape) (tables : List Table) : Option (Table × Shape) :=
  tables.findSome? fun table => (group.find? (·.fits table)).map fun shape => (table, shape)

theorem choose?_eq (tables : List Table) :
    choose? tables = (pick? [fields] tables).or (pick? [names, flags] tables) := by
  show groups.findSome? (fun group => pick? group tables) = _
  rw [groups, List.findSome?_cons, List.findSome?_cons, List.findSome?_nil]
  cases pick? [fields] tables with
  | some choice => rfl
  | none =>
    cases pick? [names, flags] tables with
    | some choice => rfl
    | none => rfl

theorem pick?_append (group : List Shape) (first second : List Table) :
    pick? group (first ++ second) = (pick? group first).or (pick? group second) :=
  List.findSome?_append

theorem pick?_eq_none {group : List Shape} {tables : List Table} :
    pick? group tables = none ↔ ∀ table ∈ tables, ∀ shape ∈ group, shape.fits table = false := by
  simp [pick?]

theorem exists_fits_of_pick? {group : List Shape} {tables : List Table} {choice : Table × Shape}
    (h : pick? group tables = some choice) :
    ∃ table ∈ tables, ∃ shape ∈ group, shape.fits table = true := by
  by_contra hNone
  rw [pick?_eq_none.mpr] at h
  · cases h
  · intro table hTable shape hShape
    by_contra hFits
    exact hNone ⟨table, hTable, shape, hShape, eq_true_of_ne_false hFits⟩

end Shape

namespace Section

variable {part : Section}

/-- **A section that is not mixed has one table**: what the walk takes of its own tables, a link
takes among those of the sections directly in it too. -/
theorem choose?_of_not_mixed (hMixed : ¬part.Mixed) {choice : Table × Shape}
    (h : Shape.choose? part.tables = some choice) : part.linkedTable? = some choice := by
  rw [linkedTable?, Shape.choose?_eq, Shape.pick?_append, Shape.pick?_append]
  rw [Shape.choose?_eq] at h
  cases hFields : Shape.pick? [Shape.fields] part.tables with
  | some first =>
    rw [hFields] at h
    exact h
  | none =>
    rw [hFields, Option.none_or] at h
    have hBelow : Shape.pick? [Shape.fields] (part.sections.flatMap tables) = none := by
      rw [Shape.pick?_eq_none]
      intro table hTable shape hShape
      rw [List.mem_singleton.mp hShape]
      obtain ⟨child, hChild, hTable⟩ := List.mem_flatMap.mp hTable
      by_contra hFits
      refine hMixed ⟨?_, ?_, child, hChild, table, hTable, eq_true_of_ne_false hFits⟩
      · obtain ⟨own, hOwn, shape, hShape, hValue⟩ := Shape.exists_fits_of_pick? h
        refine ⟨own, hOwn, ?_⟩
        rw [List.mem_pair] at hShape
        rcases hShape with rfl | rfl
        · rw [hValue, Bool.true_or]
        · rw [hValue, Bool.or_true]
      · intro own hOwn
        exact Shape.pick?_eq_none.mp hFields own hOwn _ (List.mem_singleton_self _)
    rw [hBelow, h]
    rfl

end Section

/-! ### Names -/

namespace LinkIndex

theorem sift_of_nodup {targets : List Target} {seen : List String}
    (hNew : ∀ target ∈ targets, target.anchor ∉ seen)
    (hNodup : (targets.map Target.anchor).Nodup) : (sift seen targets).1 = targets := by
  induction targets generalizing seen with
  | nil => rfl
  | cons first rest ih =>
    rw [List.map_cons, List.nodup_cons] at hNodup
    have hFirst : seen.contains first.anchor = false := by
      simpa using hNew first List.mem_cons_self
    rw [sift, hFirst]
    refine congrArg (first :: ·) (ih ?_ hNodup.2)
    intro target hMem hSeen
    rcases List.mem_cons.mp hSeen with hSame | hSeen
    · exact hNodup.1 (hSame ▸ List.mem_map_of_mem hMem)
    · exact hNew target (List.mem_cons_of_mem _ hMem) hSeen

theorem entries_ofCorpus {corpus : Corpus} (h : (corpus.targets.map Target.anchor).Nodup) :
    (ofCorpus corpus).entries = corpus.targets :=
  sift_of_nodup (fun _ _ => List.not_mem_nil) h

end LinkIndex

theorem eq_of_nodup_filterMap {α β : Type} {f : α → Option β} {l : List α}
    (h : (l.filterMap f).Nodup) {a b : α} (ha : a ∈ l) (hb : b ∈ l) {value : β}
    (hfa : f a = some value) (hfb : f b = some value) : a = b := by
  induction l with
  | nil => cases ha
  | cons first rest ih =>
    have hRest : (rest.filterMap f).Nodup := h.sublist ((List.sublist_cons_self _ _).filterMap f)
    have hOnce (other : α) (hOther : other ∈ rest) (hValue : f other = some value)
        (hFirst : f first = some value) : False := by
      rw [List.filterMap_cons_some hFirst, List.nodup_cons] at h
      exact h.1 (List.mem_filterMap.mpr ⟨other, hOther, hValue⟩)
    rcases List.mem_cons.mp ha with hFirst | haRest
    · rcases List.mem_cons.mp hb with hSame | hbRest
      · rw [hFirst, hSame]
      · rw [hFirst] at hfa
        exact (hOnce b hbRest hfb hfa).elim
    · rcases List.mem_cons.mp hb with hFirst | hbRest
      · rw [hFirst] at hfb
        exact (hOnce a haRest hfa hfb).elim
      · exact ih hRest haRest hbRest

def Target.name? (target : Target) : Option String :=
  Name.ofTitle? target.here.title

namespace Corpus

def requestResources (corpus : Corpus) : List Resource :=
  corpus.subjects.flatMap fun target =>
    match target.here.requestTitle? with
    | some title => Request.resources target title
    | none => []

/-- The names of the titles of all sections, and of the structures of requests. -/
def givenNames (corpus : Corpus) : List String :=
  corpus.targets.filterMap Target.name? ++ corpus.requestResources.map Resource.name

/-- Links lead to no mixed section that the walk takes for a structure of its own. -/
def Unmixed (corpus : Corpus) : Prop :=
  ∀ target ∈ corpus.subjects, target.here.requestTitle? = none →
    ∀ resource, target.resource = .ok resource → corpus.Leads resource → ¬target.here.Mixed

variable {corpus : Corpus}

theorem mem_targets_of_mem_subjects {target : Target} (h : target ∈ corpus.subjects) :
    target ∈ corpus.targets :=
  (List.mem_filter.mp h).1

theorem exists_child_mem_targets {target : Target} (h : target ∈ corpus.targets) {child : Section}
    (hChild : child ∈ target.here.sections) : ∃ other ∈ corpus.targets, other.here = child ∧
      other.visit.ancestors = target.visit.ancestors ++ [target.here] := by
  obtain ⟨document, hDocument, hTarget⟩ := List.mem_flatMap.mp h
  obtain ⟨visit, hVisit, rfl⟩ := List.mem_map.mp hTarget
  refine ⟨_, List.mem_flatMap.mpr ⟨document, hDocument,
    List.mem_map_of_mem (Section.mem_walk_of_mem_sections hVisit hChild)⟩, rfl, rfl⟩

/-- **A section takes no table from another one**, if their names differ. -/
theorem ownTable?_eq (hNames : (corpus.targets.filterMap Target.name?).Nodup) {target : Target}
    (h : target ∈ corpus.targets) :
    target.here.ownTable? = Shape.choose? target.here.tables := by
  have hAlike : (target.here.sections.filter fun child => target.name?.isSome &&
      Name.ofTitle? child.title == target.name?) = [] := by
    rw [List.filter_eq_nil_iff]
    intro child hChild hSame
    rw [Bool.and_eq_true, beq_iff_eq] at hSame
    obtain ⟨name, hName⟩ := Option.isSome_iff_exists.mp hSame.1
    obtain ⟨other, hOther, rfl, hAncestors⟩ := exists_child_mem_targets h hChild
    obtain rfl := eq_of_nodup_filterMap hNames hOther h (hSame.2.trans hName) hName
    have hLength := congrArg List.length hAncestors
    simp at hLength
  show Shape.choose? (target.here.tables ++ List.flatMap Section.tables (target.here.sections.filter
    fun child => target.name?.isSome && Name.ofTitle? child.title == target.name?)) = _
  rw [hAlike, List.flatMap_nil, List.append_nil]

/-- Where a resource comes from that a compilation gets to: a request, or a section that either
the walk or a link takes for it. -/
theorem Reaches.origin (hAnchors : (corpus.targets.map Target.anchor).Nodup) {resource : Resource}
    (h : corpus.Reaches resource) : resource ∈ corpus.requestResources ∨
      ∃ target ∈ corpus.targets, target.name? = some resource.name ∧
        ((target ∈ corpus.subjects ∧ target.here.requestTitle? = none ∧
          target.own? = some resource) ∨
        (corpus.Leads resource ∧ target.resource = .ok resource)) := by
  rcases h with ⟨target, hTarget, hAsked⟩ | hLeads
  · unfold Target.asked at hAsked
    cases hTitle : target.here.requestTitle? with
    | some title =>
      rw [hTitle] at hAsked
      left
      refine List.mem_flatMap.mpr ⟨target, hTarget, ?_⟩
      rw [hTitle]
      exact hAsked
    | none =>
      rw [hTitle] at hAsked
      have hOwn : target.own? = some resource := Option.mem_toList.mp hAsked
      exact Or.inr ⟨target, mem_targets_of_mem_subjects hTarget, Target.ofTitle?_of_own? hOwn,
        Or.inl ⟨hTarget, hTitle, hOwn⟩⟩
  · right
    obtain ⟨target, hTarget, hResource⟩ := List.mem_filterMap.mp hLeads.mem_resources
    have hOk := ok_of_toOption_eq_some hResource
    rw [index, LinkIndex.entries_ofCorpus hAnchors] at hTarget
    exact ⟨target, hTarget, Target.ofTitle?_of_resource hOk, Or.inr ⟨hLeads, hOk⟩⟩

/-- The walk and a link take the same table of a section that is not mixed. -/
theorem resource_of_own? (hNames : (corpus.targets.filterMap Target.name?).Nodup) {target : Target}
    (hTarget : target ∈ corpus.targets) (hMixed : ¬target.here.Mixed) {resource : Resource}
    (hOwn : target.own? = some resource) : target.resource = .ok resource := by
  obtain ⟨choice, hChoice, hNamed⟩ := Option.bind_eq_some_iff.mp hOwn
  rw [ownTable?_eq hNames hTarget] at hChoice
  have hLinked := Section.choose?_of_not_mixed hMixed hChoice
  unfold Target.resource
  rw [hLinked]
  exact ok_of_toOption_eq_some hNamed

/-- **Resources that a compilation gets to have different names**, if sections and requests have
different names, and links lead to no mixed sections. -/
theorem unambiguous_of_nodup (hNames : corpus.givenNames.Nodup)
    (hAnchors : (corpus.targets.map Target.anchor).Nodup) (hUnmixed : corpus.Unmixed) :
    corpus.Unambiguous := by
  rw [givenNames, List.nodup_append] at hNames
  obtain ⟨hTitles, hRequests, hDisjoint⟩ := hNames
  have hApart {a b : Resource} (ha : a ∈ corpus.requestResources) {target : Target}
      (hTarget : target ∈ corpus.targets) (hName : target.name? = some b.name) : a.name ≠ b.name :=
    fun hSame => hDisjoint b.name (List.mem_filterMap.mpr ⟨target, hTarget, hName⟩) a.name
      (List.mem_map_of_mem ha) hSame.symm
  -- The walk takes a section for one resource, and a link to the same section leads there too.
  have hMeet {a b : Resource} {target : Target} (hTarget : target ∈ corpus.subjects)
      (hTitle : target.here.requestTitle? = none) (hOwn : target.own? = some a)
      (hLeads : corpus.Leads b) (hLinked : target.resource = .ok b) : a = b := by
    have hMixed := hUnmixed target hTarget hTitle b hLinked hLeads
    have hSame := resource_of_own? hTitles (mem_targets_of_mem_subjects hTarget) hMixed hOwn
    rw [hLinked] at hSame
    cases hSame
    rfl
  intro a b ha hb hName
  rcases ha.origin hAnchors with haRequest | ⟨first, hFirst, hFirstName, haFrom⟩
  · rcases hb.origin hAnchors with hbRequest | ⟨second, hSecond, hSecondName, -⟩
    · exact List.inj_on_of_nodup_map hRequests haRequest hbRequest hName
    · exact absurd hName (hApart haRequest hSecond hSecondName)
  · rcases hb.origin hAnchors with hbRequest | ⟨second, hSecond, hSecondName, hbFrom⟩
    · exact absurd hName.symm (hApart hbRequest hFirst hFirstName)
    · obtain rfl : first = second :=
        eq_of_nodup_filterMap hTitles hFirst hSecond hFirstName (hName ▸ hSecondName)
      rcases haFrom with ⟨hSubject, hTitle, haOwn⟩ | ⟨haLeads, haLinked⟩
      · rcases hbFrom with ⟨-, -, hbOwn⟩ | ⟨hbLeads, hbLinked⟩
        · rw [haOwn] at hbOwn
          exact Option.some.inj hbOwn
        · exact hMeet hSubject hTitle haOwn hbLeads hbLinked
      · rcases hbFrom with ⟨hSubject, hTitle, hbOwn⟩ | ⟨-, hbLinked⟩
        · exact (hMeet hSubject hTitle hbOwn haLeads haLinked).symm
        · rw [haLinked] at hbLinked
          exact Except.ok.inj hbLinked

end Corpus

end ProseTypes
