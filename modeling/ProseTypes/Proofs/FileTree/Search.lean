import ProseTypes.FileTree.Search
import ProseTypes.Proofs.FileTree.Tree

/-!
# Paths that a search spells out

The search for a pattern spells a path out for each place that it comes to, and leaves a `.` in front only
where nothing follows it, or where the path goes up from there (`Path.Settled`).  So the segments of such a
path tell how it starts, and paths with the same segments are spelled alike
(`Path.Settled.components_eq`).  Every step of a search keeps this (`Pattern.settled_search`), as long as
the pattern does not go up by itself.
-/

namespace ProseTypes

namespace Path

/-- A relative path that starts with `.` only if nothing follows it, or what follows goes up. -/
structure Settled (path : String) : Prop where
  relative : isAbsolute path = false
  here_iff : startsHere path = true ↔ ∀ name ∈ (names path).head?, name = ".."

theorem settled_here : Settled "." where
  relative := by decide
  here_iff := by decide

theorem Settled.ne_empty {path : String} (h : Settled path) : path ≠ "" := by
  rintro rfl
  exact absurd h.here_iff (by decide)

/-- **Settled paths with the same segments have the same components.** -/
theorem Settled.components_eq {a b : String} (ha : Settled a) (hb : Settled b)
    (hNames : names a = names b) : components a = components b := by
  have hHere : startsHere a = startsHere b := by
    rw [Bool.eq_iff_iff, ha.here_iff, hb.here_iff, hNames]
  rw [Path.components_eq, Path.components_eq, lead_of_relative ha.relative,
    lead_of_relative hb.relative, hHere, hNames]

theorem isHere_iff {path : String} :
    isHere path = true ↔ isAbsolute path = false ∧ startsHere path = true ∧ names path = [] := by
  rw [isHere, beq_iff_eq, Path.components_eq, lead]
  cases isAbsolute path <;> cases startsHere path <;> cases names path <;>
    simp [Component.ofName_ne_here]

theorem startsHere_of_slash_not_mem {name : String} (h : '/' ∉ name.toList) :
    startsHere name = true ↔ name = "." := by
  rw [startsHere, segments_of_slash_not_mem h]
  simp

theorem Settled.join {path : String} (h : Settled path) {name : String}
    (hName : names path = [] → ∀ next ∈ (names name).head?, next = "..") :
    Settled (Path.join path name) where
  relative := (isAbsolute_join h.ne_empty name).trans h.relative
  here_iff := by
    rw [startsHere_join h.ne_empty, names_join h.ne_empty, h.here_iff]
    cases hNames : names path with
    | nil => simpa using hName hNames
    | cons first rest => rfl

end Path

namespace Pattern

open ProseTypes.Path (Settled IsName)

variable {system : FileSystem}

namespace Hit

theorem settled_pathTo {hit : Hit} (h : Settled hit.path) {name : String} (hSlash : '/' ∉ name.toList)
    (hUp : name ≠ "..") (hEmpty : name = "" → Path.isHere hit.path = false) :
    Settled (hit.pathTo name) := by
  unfold pathTo
  split
  · rename_i hHere
    have hSome : name ≠ "" := fun hNone => by rw [hEmpty hNone] at hHere; cases hHere
    refine ⟨Path.isAbsolute_of_slash_not_mem hSlash, ?_⟩
    rw [Path.startsHere_of_slash_not_mem hSlash, Path.names, Path.segments_of_slash_not_mem hSlash]
    by_cases hCurrent : name = "."
    · subst hCurrent
      decide
    · simp [Path.Leads, hSome, hCurrent, hUp]
  · rename_i hNot
    refine h.join fun hNone => ?_
    -- A settled path without segments is the current directory.
    have hHere : Path.isHere hit.path = true :=
      Path.isHere_iff.mpr ⟨h.relative, h.here_iff.mpr (by simp [hNone]), hNone⟩
    exact absurd hHere hNot

theorem settled_entry {hit : Hit} (h : Settled hit.path) {name : String} (hName : IsName name) :
    Settled (hit.entry name).path :=
  settled_pathTo h hName.2.2 hName.2.1 fun hEmpty => absurd hEmpty hName.1.1

theorem settled_foldl_entry {hit : Hit} (h : Settled hit.path) {names : List String}
    (hNames : ∀ name ∈ names, IsName name) : Settled (names.foldl entry hit).path := by
  induction names generalizing hit with
  | nil => exact h
  | cons name rest ih =>
    exact ih (settled_entry h (hNames name List.mem_cons_self)) fun other hOther =>
      hNames other (List.mem_cons_of_mem name hOther)

theorem settled_enter? {hit found : Hit} (h : Settled hit.path) {name : String}
    (hSlash : '/' ∉ name.toList) (hUp : name ≠ "..") (hFound : hit.enter? system name = some found) :
    Settled found.path := by
  unfold enter? at hFound
  split at hFound
  · cases hFound
  · rename_i hNot
    obtain ⟨place, -, rfl⟩ := Option.map_eq_some_iff.mp hFound
    exact settled_pathTo h hSlash hUp fun hEmpty => by simpa [hEmpty] using hNot

theorem settled_special {hit found : Hit} (h : Settled hit.path) {segment : Segment}
    (hFound : found ∈ hit.special system segment) : Settled found.path := by
  unfold special at hFound
  split at hFound
  · obtain ⟨name, hName, hPlace⟩ := List.mem_filterMap.mp hFound
    obtain ⟨place, -, rfl⟩ := Option.map_eq_some_iff.mp hPlace
    have hSign : name = ".." ∨ name = "." := by simpa using (List.mem_filter.mp hName).1
    refine h.join fun _ => ?_
    rcases hSign with rfl | rfl <;> decide
  · cases hFound

section

variable (hProper : system.tree.Proper)

include hProper

theorem settled_matching {hit found : Hit} (h : Settled hit.path) {segment : Segment}
    (hFound : found ∈ hit.matching system segment) : Settled found.path := by
  obtain ⟨name, hName, rfl⟩ := List.mem_map.mp hFound
  have hEntry := (List.mem_filter.mp hName).1
  cases hAt : system.tree.at? hit.place with
  | none => simp [hAt] at hEntry
  | some node =>
    rw [hAt, Option.map_some, Option.getD_some, List.mem_map] at hEntry
    obtain ⟨entry, hEntry, rfl⟩ := hEntry
    exact settled_entry h ((hProper.of_at? hAt).isName entry hEntry)

theorem isName_of_mem_below {hit : Hit} {place : List String} (hPlace : place ∈ hit.below system) :
    ∀ name ∈ place, IsName name := by
  rw [below] at hPlace
  cases hAt : system.tree.at? hit.place with
  | none => simp [hAt] at hPlace
  | some node =>
    rw [hAt, Option.map_some, Option.getD_some] at hPlace
    exact (hProper.of_at? hAt).isName_of_mem_places place hPlace

theorem settled_matchingBelow {hit found : Hit} (h : Settled hit.path) {segment : Segment}
    (hFound : found ∈ hit.matchingBelow system segment) : Settled found.path := by
  obtain ⟨place, hPlace, rfl⟩ := List.mem_map.mp hFound
  exact settled_foldl_entry h (isName_of_mem_below hProper (List.mem_filter.mp hPlace).1)

theorem settled_directoriesBelow {hit found : Hit} (h : Settled hit.path)
    (hFound : found ∈ hit.directoriesBelow system) : Settled found.path := by
  obtain ⟨place, hPlace, rfl⟩ := List.mem_map.mp (List.mem_filter.mp hFound).1
  exact settled_foldl_entry h (isName_of_mem_below hProper hPlace)

end

end Hit

/-- The literal segments of a pattern are segments of a path that do not go up. -/
def Literal (segments : List Segment) : Prop :=
  ∀ name, Segment.literal name ∈ segments → '/' ∉ name.toList ∧ name ≠ ".."

theorem Literal.tail {segment : Segment} {rest : List Segment} (h : Literal (segment :: rest)) :
    Literal rest :=
  fun name hName => h name (List.mem_cons_of_mem segment hName)

/-- **Every path that a search spells out is settled.** -/
theorem settled_search (hProper : system.tree.Proper) {segments : List Segment}
    (hLiteral : Literal segments) {hit : Hit} (hHit : Settled hit.path) :
    ∀ found ∈ search system segments hit, Settled found.path := by
  induction hn : segments.length using Nat.strongRecOn generalizing segments hit with
  | ind n ih =>
    subst hn
    intro found hFound
    cases segments with
    | nil =>
      rw [search, List.mem_singleton] at hFound
      exact hFound ▸ hHit
    | cons segment rest =>
      have hRest := hLiteral.tail
      -- From any settled hit, the rest of the pattern leads to settled hits.
      have hOn {next : Hit} (hNext : Settled next.path) (h : found ∈ search system rest next) :
          Settled found.path :=
        ih rest.length (by simp) hRest hNext rfl found h
      cases segment with
      | literal name =>
        rw [search] at hFound
        obtain ⟨next, hNext, hFound⟩ := List.mem_flatMap.mp hFound
        obtain ⟨hSlash, hUp⟩ := hLiteral name List.mem_cons_self
        exact hOn (Hit.settled_enter? hHit hSlash hUp (Option.mem_toList.mp hNext)) hFound
      | wild wildcards =>
        rw [search] at hFound
        obtain ⟨next, hNext, hFound⟩ := List.mem_flatMap.mp hFound
        rcases List.mem_append.mp hNext with hNext | hNext
        · exact hOn (Hit.settled_special hHit hNext) hFound
        · exact hOn (Hit.settled_matching hProper hHit hNext) hFound
      | anyDepth =>
        cases rest with
        | nil =>
          rw [search] at hFound
          exact Hit.settled_directoriesBelow hProper hHit hFound
        | cons segment rest =>
          rw [search] at hFound
          obtain ⟨next, hNext, hFound⟩ := List.mem_flatMap.mp hFound
          have hShorter : rest.length < (Segment.anyDepth :: segment :: rest).length := by
            rw [List.length_cons, List.length_cons]
            omega
          exact ih rest.length hShorter hRest.tail (Hit.settled_matchingBelow hProper hHit hNext) rfl
            found hFound

/-! ### Patterns -/

theorem collapse_subset (segments : List Segment) : Segment.collapse segments ⊆ segments := by
  fun_induction Segment.collapse segments with
  | case1 rest ih => exact List.subset_cons_of_subset _ ih
  | case2 segment rest _ ih => exact List.cons_subset_cons segment ih
  | case3 => exact List.Subset.refl []

theorem exists_of_mem_mapM {α β : Type} {f : α → Option β} {inputs : List α} {outputs : List β}
    (h : inputs.mapM f = some outputs) {output : β} (hOutput : output ∈ outputs) :
    ∃ input ∈ inputs, f input = some output := by
  induction inputs generalizing outputs with
  | nil =>
    obtain rfl : [] = outputs := by simpa using h
    cases hOutput
  | cons input rest ih =>
    rw [List.mapM_cons, Option.bind_eq_bind, Option.bind_eq_some_iff] at h
    obtain ⟨first, hFirst, h⟩ := h
    rw [Option.bind_eq_bind, Option.bind_eq_some_iff] at h
    obtain ⟨more, hMore, h⟩ := h
    obtain rfl : first :: more = outputs := Option.some.inj h
    rcases List.mem_cons.mp hOutput with rfl | hOutput
    · exact ⟨input, List.mem_cons_self, hFirst⟩
    · obtain ⟨other, hOther, hOutput⟩ := ih hMore hOutput
      exact ⟨other, List.mem_cons_of_mem input hOther, hOutput⟩

theorem mem_segments_of_literal {pattern name : String} (hRelative : Path.isAbsolute pattern = false)
    {segments : List Segment} (h : ofText? pattern = some segments)
    (hName : Segment.literal name ∈ segments) : name ∈ Path.segments pattern := by
  have hStart : pattern.toList.dropWhile (· == '/') = pattern.toList := by
    refine Text.dropWhile_of_head? fun c hc => ?_
    rw [Path.isAbsolute, hc, beq_eq_false_iff_ne] at hRelative
    simpa using hRelative
  rw [ofText?, hStart] at h
  obtain ⟨plain, hPlain, rfl⟩ := Option.map_eq_some_iff.mp h
  obtain ⟨piece, hPiece, hSegment⟩ := exists_of_mem_mapM hPlain (collapse_subset _ hName)
  have hMem : piece ∈ Text.pieces (· == '/') pattern.toList := by
    split at hPiece
    · exact List.dropLast_subset _ hPiece
    · exact hPiece
  unfold Segment.ofChars? at hSegment
  split at hSegment
  · cases hSegment
  · obtain ⟨wildcards, -, hSegment⟩ := Option.map_eq_some_iff.mp hSegment
    split at hSegment
    · cases hSegment
      exact List.mem_map_of_mem hMem
    · cases hSegment

/-- **The files that a pattern leads to are settled**, if the pattern is relative and does not go up. -/
theorem settled_files (hProper : system.tree.Proper) {pattern : String} {segments : List Segment}
    (hPattern : Path.Downward pattern) (h : ofText? pattern = some segments) :
    ∀ file ∈ files system pattern segments, Settled file := by
  have hLiteral : Literal segments := by
    intro name hName
    have hMem := mem_segments_of_literal hPattern.relative h hName
    refine ⟨Path.slash_not_mem_of_mem_segments hMem, ?_⟩
    rintro rfl
    exact hPattern.down (List.mem_filter.mpr ⟨hMem, by decide⟩)
  have hStart : Settled (start system pattern).path := by
    rw [start, hPattern.relative]
    exact Path.settled_here
  intro file hFile
  obtain ⟨hit, hHit, rfl⟩ := List.mem_map.mp (List.mem_filter.mp hFile).1
  exact settled_search hProper hLiteral hStart hit (List.mem_filter.mp hHit).1

end Pattern

end ProseTypes
