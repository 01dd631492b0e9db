import Mathlib.Data.Finset.Card
import ProseTypes.Proofs.Compilation.Provenance
import ProseTypes.Proofs.Document.Anchors
import ProseTypes.Proofs.Document.Places
import ProseTypes.Proofs.Text.Sorted

/-!
# The first section of an anchor

Places are in the order of the documents, and in one document in that of the walk: a section comes before
what is nested in it, and that before the sections that follow (`Place.Before`).  The walk through a corpus
goes by this order (`Corpus.increasing_places`), and of the sections with the same anchor only the first is
indexed (`LinkIndex.find?_sift`).  So a lookup leads to the first section whose anchor it is
(`Corpus.firstMatch_index`).
-/

namespace ProseTypes

/-! ### The order of places -/

/-- One place comes before another: it is in an earlier document, or in the same one and on a path that
stops on the way to the other or parts from it by a smaller number. -/
def Place.Before (a b : Place) : Prop :=
  a.document < b.document ∨ a.document = b.document ∧ a.path < b.path

theorem Place.Before.asymm {a b : Place} (h : a.Before b) : ¬b.Before a := by
  rintro (hBack | ⟨hSame, hBack⟩)
  · rcases h with hLt | ⟨hEq, -⟩ <;> omega
  · rcases h with hLt | ⟨-, hLt⟩
    · omega
    · exact List.lt_asymm hLt hBack

namespace Section

mutual

/-- **The paths through a document increase** in the order of the walk. -/
theorem increasing_paths : ∀ part : Section, part.paths.Pairwise (· < ·)
  | ⟨level, title, blocks, sections⟩ => by
    rw [paths, List.pairwise_cons]
    refine ⟨fun path hPath => ?_, increasing_pathsFrom 0 sections⟩
    obtain ⟨m, child, rest, -, -, rfl⟩ := mem_pathsFrom.mp hPath
    exact List.nil_lt_cons _ _

theorem increasing_pathsFrom (n : Nat) :
    ∀ sections : List Section, (pathsFrom n sections).Pairwise (· < ·)
  | [] => by
    rw [pathsFrom]
    exact List.Pairwise.nil
  | child :: others => by
    rw [pathsFrom, List.pairwise_append]
    refine ⟨?_, increasing_pathsFrom (n + 1) others, fun path hPath other hOther => ?_⟩
    · exact List.pairwise_map.mpr ((increasing_paths child).imp fun hLt =>
        List.cons_lt_cons_iff.mpr (Or.inr ⟨rfl, hLt⟩))
    · obtain ⟨rest, -, rfl⟩ := List.mem_map.mp hPath
      obtain ⟨m, section', rest', -, -, rfl⟩ := mem_pathsFrom.mp hOther
      exact List.cons_lt_cons_iff.mpr (Or.inl (by omega))

end

end Section

/-- **The walk through a corpus goes by the order of places.** -/
theorem Corpus.increasing_places (corpus : Corpus) : corpus.places.Pairwise Place.Before := by
  have hNumbers : corpus.documents.zipIdx.Pairwise fun a b => a.2 < b.2 := by
    have hRange : (corpus.documents.zipIdx.map Prod.snd).Pairwise (· < ·) := by
      rw [List.zipIdx_map_snd]
      exact List.pairwise_lt_range' 1
    exact List.pairwise_map.mp hRange
  rw [places, List.pairwise_flatMap]
  refine ⟨fun numbered _ => ?_, hNumbers.imp fun hLt a ha b hb => ?_⟩
  · exact List.pairwise_map.mpr ((Section.increasing_paths numbered.1.root).imp fun hLt =>
      Or.inr ⟨rfl, hLt⟩)
  · obtain ⟨_, -, rfl⟩ := List.mem_map.mp ha
    obtain ⟨_, -, rfl⟩ := List.mem_map.mp hb
    exact Or.inl hLt

theorem find?_eq_some_iff_of_pairwise {α : Type} {R : α → α → Prop} (hAsymm : ∀ {a b}, R a b → ¬R b a)
    {l : List α} (h : l.Pairwise R) {p : α → Bool} {a : α} :
    l.find? p = some a ↔ a ∈ l ∧ p a = true ∧ ∀ b ∈ l, p b = true → b = a ∨ R a b := by
  have hFirst {c : α} (hFound : l.find? p = some c) : ∀ b ∈ l, p b = true → b = c ∨ R c b := by
    obtain ⟨-, before, after, rfl, hBefore⟩ := List.find?_eq_some_iff_append.mp hFound
    intro b hb hp
    rcases List.mem_append.mp hb with hb | hb
    · have hNot := hBefore b hb
      rw [hp] at hNot
      cases hNot
    · rcases List.mem_cons.mp hb with rfl | hb
      · exact Or.inl rfl
      · exact Or.inr (List.rel_of_pairwise_cons (List.pairwise_append.mp h).2.1 hb)
  constructor
  · exact fun hFound => ⟨List.mem_of_find?_eq_some hFound, List.find?_some hFound, hFirst hFound⟩
  · rintro ⟨ha, hp, hLeast⟩
    cases hFound : l.find? p with
    | none => exact absurd hp (by simpa using List.find?_eq_none.mp hFound a ha)
    | some c =>
      have hc := List.mem_of_find?_eq_some hFound
      rcases hFirst hFound a ha hp with rfl | hca
      · rfl
      · rcases hLeast c hc (List.find?_some hFound) with rfl | hac
        · rfl
        · exact absurd hac (hAsymm hca)

/-! ### What is indexed -/

namespace LinkIndex

/-- **Nothing is lost that a lookup would find first.** -/
theorem find?_sift {targets : List Target} {seen : List String} {anchor : String}
    (h : anchor ∉ seen) : (sift seen targets).1.find? (fun entry => entry.anchor == anchor) =
      targets.find? fun entry => entry.anchor == anchor := by
  induction targets generalizing seen with
  | nil => rfl
  | cons first rest ih =>
    unfold sift
    split
    · rename_i hSeen
      have hOther : first.anchor ≠ anchor := by
        rintro rfl
        exact h (List.contains_iff_mem.mp hSeen)
      rw [List.find?_cons_of_neg (by simpa using hOther)]
      exact ih h
    · by_cases hSame : first.anchor = anchor
      · rw [List.find?_cons_of_pos (by simpa using hSame),
          List.find?_cons_of_pos (by simpa using hSame)]
      · rw [List.find?_cons_of_neg (by simpa using hSame),
          List.find?_cons_of_neg (by simpa using hSame)]
        exact ih (by simpa [Ne.symm hSame] using h)

theorem nodup_sift (seen : List String) (targets : List Target) :
    ((sift seen targets).1.map Target.anchor).Nodup := by
  induction targets generalizing seen with
  | nil => exact List.nodup_nil
  | cons first rest ih =>
    unfold sift
    split
    · exact ih seen
    · refine List.nodup_cons.mpr ⟨fun hMem => ?_, ih _⟩
      obtain ⟨entry, hEntry, hSame⟩ := List.mem_map.mp hMem
      exact (find?_of_mem_sift hEntry).1 (hSame ▸ List.mem_cons_self)

theorem mem_map_anchor_sift {targets : List Target} {anchor : String} :
    anchor ∈ (sift [] targets).1.map Target.anchor ↔ anchor ∈ targets.map Target.anchor := by
  constructor
  · intro h
    obtain ⟨entry, hEntry, rfl⟩ := List.mem_map.mp h
    exact List.mem_map_of_mem (List.mem_of_find?_eq_some (find?_of_mem_sift hEntry).2)
  · intro h
    obtain ⟨target, hTarget, rfl⟩ := List.mem_map.mp h
    have hSome : (targets.find? fun entry => entry.anchor == target.anchor).isSome :=
      List.find?_isSome.mpr ⟨target, hTarget, beq_self_eq_true _⟩
    rw [← find?_sift List.not_mem_nil, List.find?_isSome] at hSome
    obtain ⟨entry, hEntry, hSame⟩ := hSome
    exact beq_iff_eq.mp hSame ▸ List.mem_map_of_mem hEntry

end LinkIndex

namespace Corpus

variable {corpus : Corpus} {place : Place} {anchor : String}

/-- The section at a place has an anchor, in the form in which anchors are compared. -/
def Bears (corpus : Corpus) (place : Place) (anchor : String) : Prop :=
  ∃ document visit, corpus.documents[place.document]? = some document ∧
    document.root.visitAt? [] place.path = some visit ∧
    Anchor.normalize (Anchor.ofVisit corpus.nesting document.path visit) = anchor

theorem bears_iff : corpus.Bears place anchor ↔
    ∃ found, corpus.targetAt? place = some found ∧ found.anchor = anchor := by
  constructor
  · rintro ⟨document, visit, hDocument, hVisit, rfl⟩
    exact ⟨_, targetAt?_eq_some.mpr ⟨document, visit, hDocument, hVisit, rfl⟩, rfl⟩
  · rintro ⟨found, hFound, rfl⟩
    obtain ⟨document, visit, hDocument, hVisit, rfl⟩ := targetAt?_eq_some.mp hFound
    exact ⟨document, visit, hDocument, hVisit, rfl⟩

theorem Bears.mem_places (h : corpus.Bears place anchor) : place ∈ corpus.places := by
  obtain ⟨found, hFound, -⟩ := bears_iff.mp h
  rw [Corpus.mem_places, hFound]
  rfl

theorem Bears.anchor_eq (h : corpus.Bears place anchor) {hit : Target}
    (hHit : corpus.targetAt? place = some hit) : hit.anchor = anchor := by
  obtain ⟨found, hFound, rfl⟩ := bears_iff.mp h
  rw [hHit] at hFound
  cases hFound
  rfl

theorem mem_map_anchor_targets :
    anchor ∈ corpus.targets.map Target.anchor ↔ ∃ place, corpus.Bears place anchor := by
  rw [← filterMap_places, List.mem_map]
  constructor
  · rintro ⟨found, hMem, hAnchor⟩
    obtain ⟨place, -, hFound⟩ := List.mem_filterMap.mp hMem
    exact ⟨place, bears_iff.mpr ⟨found, hFound, hAnchor⟩⟩
  · rintro ⟨place, hBears⟩
    obtain ⟨found, hFound, hAnchor⟩ := bears_iff.mp hBears
    exact ⟨found, List.mem_filterMap.mpr ⟨place, hBears.mem_places, hFound⟩, hAnchor⟩

theorem find?_targets {hit : Target} :
    corpus.targets.find? (fun entry => entry.anchor == anchor) = some hit ↔
      ∃ place, corpus.targetAt? place = some hit ∧ corpus.Bears place anchor ∧
        ∀ other, corpus.Bears other anchor → other = place ∨ place.Before other := by
  have hAny (place : Place) : (corpus.targetAt? place).any (fun entry => entry.anchor == anchor) = true ↔
      corpus.Bears place anchor := by
    simp only [Option.any_eq_true, beq_iff_eq, bears_iff]
  rw [← filterMap_places, List.find?_filterMap, Option.bind_eq_some_iff]
  refine exists_congr fun place => ?_
  rw [find?_eq_some_iff_of_pairwise Place.Before.asymm corpus.increasing_places]
  simp only [hAny]
  constructor
  · rintro ⟨⟨-, hBears, hFirst⟩, hHit⟩
    exact ⟨hHit, hBears, fun other hOther => hFirst other hOther.mem_places hOther⟩
  · rintro ⟨hHit, hBears, hFirst⟩
    exact ⟨⟨hBears.mem_places, hBears, fun other _ hOther => hFirst other hOther⟩, hHit⟩

/-! ### Lookups -/

theorem find?_index (corpus : Corpus) (target : String) : corpus.index.find? target =
    corpus.targets.find? fun entry => entry.anchor == Anchor.normalize target :=
  LinkIndex.find?_sift List.not_mem_nil

theorem find?_index_eq_none {target : String} :
    corpus.index.find? target = none ↔ ∀ place, ¬corpus.Bears place (Anchor.normalize target) := by
  have hBorne : (∃ place, corpus.Bears place (Anchor.normalize target)) ↔
      (corpus.index.find? target).isSome := by
    rw [← mem_map_anchor_targets, find?_index, List.find?_isSome, List.mem_map]
    simp only [beq_iff_eq]
  rw [← not_exists, hBorne, Option.not_isSome_iff_eq_none]

theorem exists_find?_index {found : Target} (hFound : corpus.targetAt? place = some found)
    (hPath : ∀ c ∈ found.path.toList, Text.isBlank c = true → c = ' ') :
    ∃ other hit, corpus.targetAt? other = some hit ∧
      corpus.index.find? ("#" ++ Anchor.ofVisit corpus.nesting found.path found.visit) = some hit ∧
      corpus.Bears other found.anchor := by
  obtain ⟨document, visit, -, -, rfl⟩ := targetAt?_eq_some.mp hFound
  have hSame : Anchor.normalize ("#" ++ Anchor.ofVisit corpus.nesting document.path visit) =
      (Target.ofVisit corpus.nesting document.path visit).anchor :=
    Anchor.normalize_ofVisit hPath corpus.nesting visit
  have hBears := bears_iff.mpr ⟨_, hFound, hSame.symm⟩
  cases hHit : corpus.index.find? ("#" ++ Anchor.ofVisit corpus.nesting document.path visit) with
  | none => exact absurd hBears (find?_index_eq_none.mp hHit place)
  | some hit =>
    obtain ⟨other, hOther, hBorne, -⟩ := find?_targets.mp ((find?_index corpus _).symm.trans hHit)
    exact ⟨other, hit, hOther, hHit, hSame ▸ hBorne⟩

/-- What a lookup finds, which anchors are listed, and where the anchor of a section leads that is written
as a link. -/
structure FirstMatch (corpus : Corpus) (index : LinkIndex) : Prop where
  found : ∀ target hit, index.find? target = some hit ↔ ∃ place, corpus.targetAt? place = some hit ∧
    corpus.Bears place (Anchor.normalize target) ∧
    ∀ other, corpus.Bears other (Anchor.normalize target) → other = place ∨ place.Before other
  missed : ∀ target, index.find? target = none ↔
    ∀ place, ¬corpus.Bears place (Anchor.normalize target)
  anchors : ∀ anchor, anchor ∈ index.anchors ↔ ∃ place, corpus.Bears place anchor
  increasing : index.anchors.Pairwise (· < ·)
  size : index.size = (corpus.targets.map Target.anchor).toFinset.card
  written : ∀ place found, corpus.targetAt? place = some found →
    (∀ c ∈ found.path.toList, Text.isBlank c = true → c = ' ') →
    ∃ other hit, corpus.targetAt? other = some hit ∧
      index.find? ("#" ++ Anchor.ofVisit corpus.nesting found.path found.visit) = some hit ∧
      hit.anchor = found.anchor ∧
      ((∀ another, corpus.Bears another found.anchor → another = place) → other = place)

/-- **A link leads to the first section whose anchor it names**, in document order and then in that of the
walk, and to none if there is no such section.  The anchors are listed in increasing order, each of them
once.  If the path of a document has no other blanks than spaces, then the anchor of every section in it,
written as a link, leads to a section with the same anchor, and to this very section if no other one has
its anchor. -/
theorem firstMatch_index (corpus : Corpus) : corpus.FirstMatch corpus.index where
  found target hit := by
    rw [find?_index]
    exact find?_targets
  missed _ := find?_index_eq_none
  anchors anchor := by
    rw [LinkIndex.anchors, List.mem_mergeSort, ← mem_map_anchor_targets]
    exact LinkIndex.mem_map_anchor_sift
  increasing := Text.increasing_mergeSort (LinkIndex.nodup_sift [] corpus.targets)
  size := by
    have hSame : (corpus.index.entries.map Target.anchor).toFinset =
        (corpus.targets.map Target.anchor).toFinset := by
      ext anchor
      rw [List.mem_toFinset, List.mem_toFinset]
      exact LinkIndex.mem_map_anchor_sift
    have hNodup : (corpus.index.entries.map Target.anchor).Nodup := LinkIndex.nodup_sift [] _
    rw [← hSame, List.toFinset_card_of_nodup hNodup, List.length_map, LinkIndex.size]
  written place found hFound hPath := by
    obtain ⟨other, hit, hOther, hHit, hBears⟩ := exists_find?_index hFound hPath
    exact ⟨other, hit, hOther, hHit, hBears.anchor_eq hOther, fun hUnique => hUnique other hBears⟩

end Corpus

end ProseTypes
