import ProseTypes.Proofs.Compilation.Takings

/-!
# The ledger of a compilation

A `Tally` does what a compilation of everything does, and keeps account of it: for every structure that
is registered it writes down the taking that has led to it.  What the walk comes to is written down as
such; whatever else is registered in between, a link has led to, and links lead to the first section of
an anchor.  The account changes nothing (`Corpus.registry_tally`).

Each structure stands for the resource of its taking (`Tally.Settled`).  Registrations and visits keep
this, since resources are declared in the order in which their structures are there.  So the ledger of a
compilation tells for every structure which section has led to it, and in which way
(`Corpus.settled_tally`).
-/

namespace ProseTypes

namespace Corpus

/-! ### Sections that links lead to -/

def placeOf? (corpus : Corpus) (anchor : String) : Option Place :=
  corpus.places.find? fun place => (corpus.targetAt? place).any fun target => target.anchor == anchor

def linkedTaking? (corpus : Corpus) (s : Structure) : Option Taking :=
  (corpus.placeOf? s.source).map (Taking.mk .linked)

def linkedTakings (corpus : Corpus) (structures : List Structure) : List Taking :=
  structures.filterMap corpus.linkedTaking?

def subjectPlaces (corpus : Corpus) : List Place :=
  corpus.places.filter fun place => (corpus.targetAt? place).any fun target =>
    target.here.level != 0 && !target.visit.ancestors.any fun a => a.requestTitle?.isSome

variable {corpus : Corpus}

theorem filterMap_subjectPlaces (corpus : Corpus) :
    corpus.subjectPlaces.filterMap corpus.targetAt? = corpus.subjects := by
  rw [subjectPlaces, subjects, ← filterMap_places, List.filter_filterMap, List.filterMap_filter]
  refine List.filterMap_congr fun place _ => ?_
  cases corpus.targetAt? place with
  | none => rfl
  | some target =>
    simp only [Option.any_some, Option.filter_some]

/-- **What a link can bind to is the resource of the first section of its anchor.** -/
theorem exists_placeOf? {resource : Resource} (h : resource ∈ corpus.index.resources) :
    ∃ place, corpus.placeOf? resource.source = some place ∧
      corpus.resource? ⟨.linked, place⟩ = some resource := by
  obtain ⟨entry, hEntry, hResource⟩ := List.mem_filterMap.mp h
  have hSource := (Target.offers_of_resource (ok_of_toOption_eq_some hResource)).source
  obtain ⟨-, hFound⟩ := LinkIndex.find?_of_mem_sift hEntry
  rw [← filterMap_places, List.find?_filterMap] at hFound
  obtain ⟨place, hPlace, hTarget⟩ := Option.bind_eq_some_iff.mp hFound
  refine ⟨place, ?_, ?_⟩
  · rw [placeOf?, hSource]
    exact hPlace
  · rw [resource?, hTarget]
    exact hResource

end Corpus

/-! ### Keeping account -/

structure Tally where
  registry : Registry
  takings : List Taking

namespace Tally

/-- Registers the resource of a section, and all that it links to. -/
def enter (corpus : Corpus) (place : Place) (tally : Tally) (way : Way) : Tally :=
  match corpus.resource? ⟨way, place⟩ with
  | none => tally
  | some resource =>
    if tally.registry.has resource.name then tally
    else
      let after := tally.registry.enter corpus.index resource
      ⟨after, tally.takings ++ ⟨way, place⟩ ::
        corpus.linkedTakings (after.structures.drop (tally.registry.structures.length + 1))⟩

def reach (corpus : Corpus) (tally : Tally) (links : List corpus.index.Linked) : Tally :=
  let after := tally.registry.reach corpus.index links
  ⟨after, tally.takings ++
    corpus.linkedTakings (after.structures.drop tally.registry.structures.length)⟩

/-- Serves the section at a place. -/
def serve (corpus : Corpus) (tally : Tally) (place : Place) : Tally :=
  match corpus.targetAt? place with
  | none => tally
  | some target =>
    (target.ways.foldl (enter corpus place) tally).reach corpus (target.responseLinks corpus.index)

variable {corpus : Corpus}

theorem registry_enter {place : Place} {target : Target}
    (hTarget : corpus.targetAt? place = some target) (tally : Tally) (way : Way) :
    (tally.enter corpus place way).registry =
      tally.registry.enterAll corpus.index (target.resourceBy? way).toList := by
  have hResource : corpus.resource? ⟨way, place⟩ = target.resourceBy? way := by
    rw [Corpus.resource?, hTarget, Option.bind_some]
  unfold enter
  rw [hResource]
  cases target.resourceBy? way with
  | none => rfl
  | some resource =>
    show Tally.registry (if _ then _ else _) = tally.registry.enter corpus.index resource
    split
    · rename_i hKnown
      rw [Registry.enter_of_has hKnown]
    · rfl

/-- **A tally serves a section as the registry does.** -/
theorem registry_serve {place : Place} {target : Target}
    (hTarget : corpus.targetAt? place = some target) (tally : Tally) :
    (tally.serve corpus place).registry = tally.registry.serve corpus.index target := by
  have hWays (ways : List Way) (tally : Tally) : (ways.foldl (enter corpus place) tally).registry =
      tally.registry.enterAll corpus.index (ways.filterMap target.resourceBy?) := by
    induction ways generalizing tally with
    | nil => rfl
    | cons way rest ih =>
      rw [List.foldl_cons, ih, registry_enter hTarget, ← Registry.enterAll_append]
      cases hResource : target.resourceBy? way with
      | none => rw [List.filterMap_cons_none hResource]; rfl
      | some resource => rw [List.filterMap_cons_some hResource]; rfl
  rw [serve, hTarget]
  show (Tally.registry _).reach corpus.index _ = _
  rw [hWays, ← Target.asked_eq, Registry.serve]

end Tally

namespace Corpus

/-- The account of a compilation of everything. -/
def tally (corpus : Corpus) : Tally :=
  corpus.subjectPlaces.foldl (Tally.serve corpus) ⟨.empty, []⟩

/-- For each structure of a compilation of everything, the taking that has led to it. -/
def ledger (corpus : Corpus) : List Taking :=
  corpus.tally.takings

/-- **Keeping account changes nothing.** -/
theorem registry_tally (corpus : Corpus) :
    corpus.tally.registry = (corpus.compile .everything).registry := by
  have hAll (places : List Place) (tally : Tally) :
      (places.foldl (Tally.serve corpus) tally).registry =
        tally.registry.serveAll corpus.index (places.filterMap corpus.targetAt?) := by
    induction places generalizing tally with
    | nil => rfl
    | cons place rest ih =>
      rw [List.foldl_cons, ih]
      cases hTarget : corpus.targetAt? place with
      | none =>
        rw [List.filterMap_cons_none hTarget, Tally.serve, hTarget]
      | some target =>
        rw [List.filterMap_cons_some hTarget, Tally.registry_serve hTarget]
        rfl
  rw [registry_compile, tally, hAll, filterMap_subjectPlaces]

/-- A taking leads to a resource; only links lead to sections that the compilation does not come to. -/
structure Gives (corpus : Corpus) (taking : Taking) (resource : Resource) : Prop where
  resource : corpus.resource? taking = some resource
  subject : taking.way ≠ .linked → taking.place ∈ corpus.subjectPlaces

end Corpus

namespace Tally

/-- Each structure stands for the resource of its taking. -/
def Settled (corpus : Corpus) (tally : Tally) : Prop :=
  ∃ made, tally.registry.Records corpus.index [] made ∧
    List.Forall₂ corpus.Gives tally.takings made

variable {corpus : Corpus} {tally : Tally}

/-- **Structures that stand for linked resources are traced back by their sources.** -/
theorem forall₂_linkedTakings {structures : List Structure} {more : List Resource}
    (h : List.Forall₂ (fun s (resource : Resource) => s.source = resource.source) structures more)
    (hMore : ∀ resource ∈ more, resource ∈ corpus.index.resources) :
    List.Forall₂ corpus.Gives (corpus.linkedTakings structures) more := by
  induction h with
  | nil => exact .nil
  | @cons s resource rest others hSource _ ih =>
    obtain ⟨place, hPlace, hResource⟩ :=
      Corpus.exists_placeOf? (hMore resource List.mem_cons_self)
    have hTaking : corpus.linkedTaking? s = some ⟨.linked, place⟩ := by
      rw [Corpus.linkedTaking?, hSource, hPlace, Option.map_some]
    rw [Corpus.linkedTakings, List.filterMap_cons_some hTaking]
    refine .cons ⟨hResource, fun hWay => absurd rfl hWay⟩ (ih fun other hOther => ?_)
    exact hMore other (List.mem_cons_of_mem resource hOther)

theorem settled_empty (corpus : Corpus) : (Tally.mk .empty []).Settled corpus :=
  ⟨[], Registry.records_empty, .nil⟩

theorem mem_resources_of_links (resource : Resource) (linked : corpus.index.Linked)
    (_ : resource ∈ corpus.index.resources) (_ : linked ∈ resource.links corpus.index) :
    linked.1 ∈ corpus.index.resources :=
  linked.2

/-- **Visits are accounted for**: what they register are resources that links can bind to. -/
theorem Settled.reach (h : tally.Settled corpus) (links : List corpus.index.Linked) :
    (tally.reach corpus links).Settled corpus := by
  obtain ⟨made, hRecords, hTakings⟩ := h
  obtain ⟨more, hMore, hAfter⟩ :=
    hRecords.exists_reach mem_resources_of_links fun linked (_ : linked ∈ links) => linked.2
  refine ⟨made ++ more, hAfter, List.rel_append hTakings (forall₂_linkedTakings ?_ hMore)⟩
  have hNew := List.forall₂_drop made.length hAfter.forall₂_source
  rw [List.drop_left, ← hRecords.length_eq] at hNew
  exact hNew

/-- **Registrations are accounted for**: the first structure is that of the resource itself. -/
theorem Settled.enter (h : tally.Settled corpus) {place : Place} (hPlace : place ∈ corpus.subjectPlaces)
    (way : Way) : (tally.enter corpus place way).Settled corpus := by
  unfold Tally.enter
  split
  · exact h
  · rename_i resource hResource
    split
    · exact h
    · rename_i hNew
      obtain ⟨made, hRecords, hTakings⟩ := h
      obtain ⟨more, hMore, hAfter⟩ := hRecords.exists_enter mem_resources_of_links hNew
        fun linked (_ : linked ∈ resource.links corpus.index) => linked.2
      refine ⟨made ++ resource :: more, hAfter, List.rel_append hTakings (.cons ?_ ?_)⟩
      · exact ⟨hResource, fun _ => hPlace⟩
      · refine forall₂_linkedTakings ?_ hMore
        have hNew := List.forall₂_drop (made.length + 1) hAfter.forall₂_source
        rw [List.append_cons, List.drop_left' (by simp), ← hRecords.length_eq] at hNew
        exact hNew

theorem Settled.serve (h : tally.Settled corpus) {place : Place}
    (hPlace : place ∈ corpus.subjectPlaces) : (tally.serve corpus place).Settled corpus := by
  have hWays (ways : List Way) (tally : Tally) (h : tally.Settled corpus) :
      (ways.foldl (Tally.enter corpus place) tally).Settled corpus := by
    induction ways generalizing tally with
    | nil => exact h
    | cons way rest ih => exact ih _ (h.enter hPlace way)
  unfold Tally.serve
  split
  · exact h
  · exact (hWays _ tally h).reach _

end Tally

/-- **Every structure of a compilation stands for the resource of its taking.** -/
theorem Corpus.settled_tally (corpus : Corpus) : corpus.tally.Settled corpus := by
  have hAll (places : List Place) (hPlaces : ∀ place ∈ places, place ∈ corpus.subjectPlaces)
      (tally : Tally) (h : tally.Settled corpus) :
      (places.foldl (Tally.serve corpus) tally).Settled corpus := by
    induction places generalizing tally with
    | nil => exact h
    | cons place rest ih =>
      refine ih (fun other hOther => hPlaces other (List.mem_cons_of_mem place hOther)) _ ?_
      exact h.serve (hPlaces place List.mem_cons_self)
  exact hAll corpus.subjectPlaces (fun _ h => h) _ (Tally.settled_empty corpus)

end ProseTypes
