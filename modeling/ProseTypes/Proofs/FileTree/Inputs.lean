import ProseTypes.Proofs.FileTree.Order
import ProseTypes.Proofs.FileTree.Search

/-!
# The files that inputs stand for

What the inputs of a run stand for is put together and sorted, and a path that repeats the one before it is
left out (`Source.expand`).  Paths that a search has found are settled, so two of them with the same segments are
the same path.  Only an input that is itself a file comes as it is written, so only such an
input, written with `.` in front, can stand beside another path to the same file (`Source.expand_once`,
`Source.expand_twice`).  What is read in the end is what can be read of these files (`Source.readAll_snd`).
-/

namespace ProseTypes

open ProseTypes.Path (names startsHere Downward Settled Before)

/-! ### Paths to files -/

namespace FileSystem

variable {system : FileSystem}

/-- Segments that lead nowhere need a directory to stay in. -/
theorem hasDirectory_of_foldlM_enter? {segments place : List String} (hSome : segments ≠ [])
    (hNone : ∀ segment ∈ segments, ¬Path.Leads segment) {start : List String}
    (h : segments.foldlM system.enter? start = some place) :
    system.tree.hasDirectory place = true := by
  induction segments generalizing start with
  | nil => exact absurd rfl hSome
  | cons segment rest ih =>
    rw [List.foldlM_cons, Option.bind_eq_bind, Option.bind_eq_some_iff] at h
    obtain ⟨next, hNext, h⟩ := h
    have hStay := hNone segment List.mem_cons_self
    have hUp : segment ≠ ".." := fun hUp => hStay (hUp ▸ by decide)
    obtain ⟨hDirectory, hNext⟩ := enter?_eq_some_iff.mp hNext
    obtain rfl : next = start := by simpa [hStay, hUp] using hNext
    cases rest with
    | nil =>
      obtain rfl : next = place := by simpa using h
      exact hDirectory
    | cons other rest =>
      exact ih (List.cons_ne_nil other rest) (fun s hs => hNone s (List.mem_cons_of_mem segment hs)) h

theorem names_ne_nil_of_isFile {path : String} (h : system.isFile path = true) : names path ≠ [] := by
  intro hNames
  obtain ⟨content, hContent⟩ := Option.isSome_iff_exists.mp h
  obtain ⟨place, hPlace, hRead⟩ := Option.bind_eq_some_iff.mp hContent
  have hNone : ∀ segment ∈ Path.segments path, ¬Path.Leads segment := by
    simpa [names, List.filter_eq_nil_iff] using hNames
  unfold find? at hPlace
  split at hPlace
  · cases hPlace
  · have hDirectory := hasDirectory_of_foldlM_enter? (Path.segments_ne_nil path) hNone hPlace
    rw [FileTree.read?_of_hasDirectory hDirectory] at hRead
    cases hRead

theorem ne_empty_of_isDirectory {path : String} (h : system.isDirectory path = true) : path ≠ "" := by
  rintro rfl
  cases h

end FileSystem

/-! ### Directories as patterns -/

namespace Path

theorem repadded_dropEndWhile {path : String} (hRelative : isAbsolute path = false) (hSome : path ≠ "") :
    String.ofList (Text.dropEndWhile (· == '/') path.toList) ≠ "" ∧
      Repadded (String.ofList (Text.dropEndWhile (· == '/') path.toList)) path := by
  have hAll (cs : List Char) (hHead : cs.head? ≠ some '/') (hNil : cs ≠ []) :
      Text.dropEndWhile (· == '/') cs ≠ [] ∧
        Repadded (String.ofList (Text.dropEndWhile (· == '/') cs)) (String.ofList cs) := by
    induction cs using List.reverseRecOn with
    | nil => exact absurd rfl hNil
    | append_singleton cs c ih =>
      by_cases hSlash : c = '/'
      · subst hSlash
        -- Something stands before the slash, because the path does not start with one.
        have hBefore : cs ≠ [] := by
          rintro rfl
          exact hHead rfl
        have hDrop : Text.dropEndWhile (· == '/') (cs ++ ['/']) = Text.dropEndWhile (· == '/') cs := by
          rw [Text.dropEndWhile, List.reverse_append, List.reverse_singleton, List.singleton_append,
            List.dropWhile_cons_of_pos (by decide), Text.dropEndWhile]
        rw [List.head?_append_of_ne_nil _ hBefore] at hHead
        obtain ⟨hKept, hPadded⟩ := ih hHead hBefore
        rw [hDrop, String.ofList_append]
        exact ⟨hKept, hPadded.trans _ _ _ (.rel _ _ (.ending (by simpa using hBefore)))⟩
      · have hKeep : Text.dropEndWhile (· == '/') (cs ++ [c]) = cs ++ [c] := by
          refine Text.dropEndWhile_of_getLast? ?_
          simpa using hSlash
        rw [hKeep]
        exact ⟨by simp, .refl _⟩
  have hHead : path.toList.head? ≠ some '/' := by
    rw [isAbsolute, beq_eq_false_iff_ne] at hRelative
    exact hRelative
  obtain ⟨hKept, hPadded⟩ := hAll path.toList hHead (by simpa using hSome)
  rw [String.ofList_toList] at hPadded
  exact ⟨by simpa using hKept, hPadded⟩

end Path

namespace Source

variable {system : FileSystem}

theorem downward_patternOf {input : String} (h : Downward input) :
    Downward (patternOf system input) := by
  unfold patternOf
  split
  · rename_i hDirectory
    obtain ⟨hKept, hPadded⟩ :=
      Path.repadded_dropEndWhile h.relative (FileSystem.ne_empty_of_isDirectory hDirectory)
    have hStem := Path.Repadded.downward (Relation.EqvGen.symm _ _ hPadded) h
    rw [show "/**/*.md" = "/" ++ "**/*.md" by decide, ← String.append_assoc]
    refine ⟨?_, ?_⟩
    · rw [String.append_assoc, Path.isAbsolute_append hKept]
      exact hStem.relative
    · rw [Path.names_slash, List.mem_append]
      exact fun hUp => hUp.elim hStem.down (by decide)
  · exact h

/-! ### What one input stands for -/

theorem filesOf_of_isFile {path : String} (h : system.isFile path = true) :
    filesOf system path = .ok [path] :=
  if_pos h

/-- **A file that an input stands for** is the input as it is written, or has been found by a search. -/
theorem settled_of_mem_filesOf (hTree : system.tree.Proper) {input : String} (hInput : Downward input)
    {files : List String} (h : filesOf system input = .ok files) :
    ∀ file ∈ files, system.isFile file = true ∧ (file = input ∨ Settled file) := by
  intro file hFile
  unfold filesOf at h
  split at h
  · rename_i hIsFile
    obtain rfl := Except.ok.inj h
    obtain rfl := List.mem_singleton.mp hFile
    exact ⟨hIsFile, Or.inl rfl⟩
  · dsimp only at h
    split at h
    · rename_i segments hSegments
      obtain rfl := Except.ok.inj h
      exact ⟨(List.mem_filter.mp hFile).2,
        Or.inr (Pattern.settled_files hTree (downward_patternOf hInput) hSegments file hFile)⟩
    · cases h

theorem filesOf_eq_error_iff {input : String} {cause : Failure} :
    filesOf system input = .error cause ↔ system.isFile input = false ∧
      Pattern.ofText? (patternOf system input) = none ∧ cause = .badPattern (patternOf system input) := by
  unfold filesOf
  split
  · rename_i hFile
    simp [hFile]
  · rename_i hNot
    dsimp only
    split
    · rename_i hSome
      simp [hSome]
    · rename_i hNone
      simp [hNot, hNone, eq_comm]

/-! ### What all inputs stand for -/

theorem collect_of_ok {input : String} {found : List String} (h : filesOf system input = .ok found)
    (rest : List String) :
    (collect system (input :: rest)).2 = (collect system rest).2.map (found ++ ·) := by
  rw [collect, h]

theorem collect_of_error {input : String} {failure : Failure}
    (h : filesOf system input = .error failure) (rest : List String) :
    (collect system (input :: rest)).2 = .error failure := by
  rw [collect, h]

theorem eq_ok_of_map_eq_ok {ε α β : Type} {f : α → β} {result : Except ε α} {value : β}
    (h : result.map f = .ok value) : ∃ found, result = .ok found ∧ value = f found := by
  cases result with
  | error failure => cases h
  | ok found => exact ⟨found, rfl, (Except.ok.inj h).symm⟩

theorem collect_cons_eq_ok {input : String} {rest files : List String}
    (h : (collect system (input :: rest)).2 = .ok files) :
    ∃ found others, filesOf system input = .ok found ∧ (collect system rest).2 = .ok others ∧
      files = found ++ others := by
  cases hFound : filesOf system input with
  | error failure =>
    rw [collect_of_error hFound] at h
    cases h
  | ok found =>
    rw [collect_of_ok hFound] at h
    obtain ⟨others, hOthers, rfl⟩ := eq_ok_of_map_eq_ok h
    exact ⟨found, others, rfl, hOthers, rfl⟩

/-- **What inputs stand for together** is what each of them stands for. -/
theorem mem_collect {inputs files : List String} (h : (collect system inputs).2 = .ok files) :
    (∀ input ∈ inputs, ∃ found, filesOf system input = .ok found ∧ found ⊆ files) ∧
      ∀ file ∈ files, ∃ input ∈ inputs, ∃ found, filesOf system input = .ok found ∧ file ∈ found := by
  induction inputs generalizing files with
  | nil =>
    obtain rfl := Except.ok.inj h
    simp
  | cons input rest ih =>
    obtain ⟨found, others, hFound, hOthers, rfl⟩ := collect_cons_eq_ok h
    obtain ⟨hEach, hFrom⟩ := ih hOthers
    constructor
    · intro other hOther
      rcases List.mem_cons.mp hOther with rfl | hOther
      · exact ⟨found, hFound, List.subset_append_left found others⟩
      · obtain ⟨files, hFiles, hSubset⟩ := hEach other hOther
        exact ⟨files, hFiles, List.Subset.trans hSubset (List.subset_append_right found others)⟩
    · intro file hFile
      rcases List.mem_append.mp hFile with hFile | hFile
      · exact ⟨input, List.mem_cons_self, found, hFound, hFile⟩
      · obtain ⟨other, hOther, hMore⟩ := hFrom file hFile
        exact ⟨other, List.mem_cons_of_mem input hOther, hMore⟩

theorem exists_of_collect_eq_error {inputs : List String} {cause : Failure}
    (h : (collect system inputs).2 = .error cause) :
    ∃ input ∈ inputs, filesOf system input = .error cause := by
  induction inputs with
  | nil => cases h
  | cons input rest ih =>
    cases hFound : filesOf system input with
    | error failure =>
      rw [collect_of_error hFound] at h
      cases h
      exact ⟨input, List.mem_cons_self, hFound⟩
    | ok found =>
      rw [collect_of_ok hFound] at h
      cases hRest : (collect system rest).2 with
      | error failure =>
        rw [hRest] at h
        cases h
        obtain ⟨other, hOther, hError⟩ := ih hRest
        exact ⟨other, List.mem_cons_of_mem input hOther, hError⟩
      | ok others =>
        rw [hRest] at h
        cases h

theorem expand_snd (inputs : List String) :
    (expand system inputs).2 = (collect system inputs).2.map sorted :=
  rfl

theorem expand_eq_ok {inputs files : List String} (h : (expand system inputs).2 = .ok files) :
    ∃ found, (collect system inputs).2 = .ok found ∧ files = sorted found :=
  eq_ok_of_map_eq_ok ((expand_snd inputs).symm.trans h)

theorem exists_of_expand_eq_error {inputs : List String} {cause : Failure}
    (h : (expand system inputs).2 = .error cause) :
    ∃ input ∈ inputs, filesOf system input = .error cause := by
  rw [expand_snd] at h
  cases hCollect : (collect system inputs).2 with
  | error failure =>
    rw [hCollect] at h
    cases h
    exact exists_of_collect_eq_error hCollect
  | ok found =>
    rw [hCollect] at h
    cases h

theorem startsHere_of_before {a b : String} (ha : Path.isAbsolute a = false)
    (hb : Path.isAbsolute b = false) (hSome : names b ≠ []) (hNames : names a = names b)
    (h : Before a b) : startsHere a = true ∧ startsHere b = false := by
  obtain ⟨hAfter, hOther⟩ := h
  obtain ⟨first, rest, hFirst⟩ := List.exists_cons_of_ne_nil hSome
  rw [Path.components_eq, Path.components_eq, Path.lead_of_relative ha, Path.lead_of_relative hb, hNames,
    hFirst] at hAfter hOther
  cases hHere : startsHere a <;> cases hHere' : startsHere b
  · simp [hHere, hHere'] at hOther
  · have hRank : ¬(Path.Component.ofName first).before .here = true := by
      rw [Path.Component.before_iff, Path.Component.ofName]
      split <;> simp [Path.Component.rank]
    simp [hHere, hHere', Path.notAfter_cons, hRank, Path.Component.ofName_ne_here] at hAfter
  · exact ⟨rfl, rfl⟩
  · simp [hHere, hHere'] at hOther

theorem mem_inputs_of_before {inputs : List String} (hInputs : ∀ input ∈ inputs, Downward input)
    {a b : String} (ha : a ∈ inputs ∨ Settled a) (hb : b ∈ inputs ∨ Settled b) (hSome : names b ≠ [])
    (hBefore : Before a b) (hNames : names a = names b) :
    a ∈ inputs ∧ startsHere a = true ∧ startsHere b = false := by
  have hRelative {path : String} (h : path ∈ inputs ∨ Settled path) : Path.isAbsolute path = false :=
    h.elim (fun hInput => (hInputs path hInput).relative) Settled.relative
  obtain ⟨hHere, hNot⟩ :=
    startsHere_of_before (hRelative ha) (hRelative hb) hSome hNames hBefore
  refine ⟨ha.resolve_right fun hSettled => ?_, hHere, hNot⟩
  -- A settled path that starts with `.` goes up, so the other one is no input and settled too.
  rcases hb with hInput | hSettled'
  · obtain ⟨first, rest, hFirst⟩ := List.exists_cons_of_ne_nil hSome
    have hUp : first = ".." := hSettled.here_iff.mp hHere first (by rw [hNames, hFirst]; rfl)
    exact (hInputs b hInput).down (by rw [hFirst, hUp]; exact List.mem_cons_self)
  · exact hBefore.2 (hSettled.components_eq hSettled' hNames)

/-- **The files that inputs stand for are in strict order, and each is there once**, except that an input
which is itself a file and is written with `.` in front does not count as the same path without it.
Everything listed is a file that an input stands for, and for everything that an input stands for a path
with the same components is listed. -/
theorem expand_once (hTree : system.tree.Proper) {inputs : List String}
    (hInputs : ∀ input ∈ inputs, Downward input) {files : List String}
    (h : (expand system inputs).2 = .ok files) :
    files.Pairwise Before ∧
      (files.Pairwise fun a b =>
        names a = names b → a ∈ inputs ∧ startsHere a = true ∧ startsHere b = false) ∧
      ((∀ input ∈ inputs, system.isFile input = true → startsHere input = false) →
        (files.map names).Nodup) ∧
      (∀ input ∈ inputs, ∃ found, filesOf system input = .ok found ∧
        ∀ file ∈ found, ∃ kept ∈ files, samePath kept file = true) ∧
      ∀ file ∈ files, system.isFile file = true ∧
        ∃ input ∈ inputs, ∃ found, filesOf system input = .ok found ∧ file ∈ found := by
  obtain ⟨all, hAll, rfl⟩ := expand_eq_ok h
  obtain ⟨hEach, hFrom⟩ := mem_collect hAll
  have hFile : ∀ file ∈ sorted all, ∃ input ∈ inputs, ∃ found,
      filesOf system input = .ok found ∧ file ∈ found :=
    fun file hFile => hFrom file (sorted_subset all hFile)
  have hKind : ∀ file ∈ sorted all,
      system.isFile file = true ∧ (file ∈ inputs ∨ Settled file) := by
    intro file hMem
    obtain ⟨input, hInput, found, hFound, hMem⟩ := hFile file hMem
    obtain ⟨hIsFile, hKind⟩ :=
      settled_of_mem_filesOf hTree (hInputs input hInput) hFound file hMem
    exact ⟨hIsFile, hKind.imp_left fun hEq => by rwa [hEq]⟩
  have hTwice : (sorted all).Pairwise fun a b =>
      names a = names b → a ∈ inputs ∧ startsHere a = true ∧ startsHere b = false :=
    (strict_sorted all).imp_of_mem fun {a b} ha hb hBefore hNames =>
      mem_inputs_of_before hInputs (hKind a ha).2 (hKind b hb).2
        (FileSystem.names_ne_nil_of_isFile (hKind b hb).1) hBefore hNames
  refine ⟨strict_sorted all, hTwice, fun hPlain => ?_, fun input hInput => ?_, fun file hMem => ?_⟩
  · rw [List.Nodup, List.pairwise_map]
    refine hTwice.imp_of_mem fun {a b} ha _ hOnly hNames => ?_
    obtain ⟨hInput, hHere, -⟩ := hOnly hNames
    rw [hPlain a hInput (hKind a ha).1] at hHere
    cases hHere
  · obtain ⟨found, hFound, hSubset⟩ := hEach input hInput
    exact ⟨found, hFound, fun file hFile => exists_mem_sorted (hSubset hFile)⟩
  · exact ⟨(hKind file hMem).1, hFile file hMem⟩

def twoDocuments : FileSystem where
  tree := .directory [("docs", .directory [("A.md", .file .empty)]), ("top.md", .file .empty)]
  here := []

theorem proper_twoDocuments : twoDocuments.tree.Proper := by
  have hDocs : Path.IsName "docs" ∧ Path.IsName "A.md" ∧ Path.IsName "top.md" := by decide
  refine .directory ?_ ?_
  · simp [hDocs]
  · simp only [List.mem_cons, List.not_mem_nil, or_false, forall_eq_or_imp, forall_eq]
    refine ⟨.directory (by simp [hDocs]) ?_, .file _⟩
    simp only [List.mem_cons, List.not_mem_nil, or_false, forall_eq]
    exact .file _

/-- A directory, a file in it that is spelled in another way, and a file beside it. -/
theorem expand_once_overlapping :
    let inputs := ["docs/", "docs/./A.md", "top.md"]
    twoDocuments.tree.Proper ∧ (∀ input ∈ inputs, Downward input) ∧
      (expand twoDocuments inputs).2 = .ok ["docs/A.md", "top.md"] ∧
      (["docs/A.md", "top.md"].map names).Nodup := by
  have hInputs : ∀ input ∈ ["docs/", "docs/./A.md", "top.md"], Downward input := by decide
  have hDirectory : filesOf twoDocuments "docs/" = .ok ["docs/A.md"] := by
    have hPattern : patternOf twoDocuments "docs/" = "docs/**/*.md" := by decide
    have hSegments : Pattern.ofText? "docs/**/*.md" =
        some [.literal "docs", .anyDepth, .wild [.anyText, .char '.', .char 'm', .char 'd']] := by
      decide +kernel
    have hFiles : Pattern.files twoDocuments "docs/**/*.md"
        [.literal "docs", .anyDepth, .wild [.anyText, .char '.', .char 'm', .char 'd']] =
          ["docs/A.md"] := by
      decide
    rw [filesOf, if_neg (by decide), hPattern]
    simp only [hSegments, hFiles]
  have hAll : (collect twoDocuments ["docs/", "docs/./A.md", "top.md"]).2 =
      .ok ["docs/A.md", "docs/./A.md", "top.md"] := by
    rw [collect_of_ok hDirectory, collect_of_ok (filesOf_of_isFile (by decide)),
      collect_of_ok (filesOf_of_isFile (by decide))]
    rfl
  have hSorted : sorted ["docs/A.md", "docs/./A.md", "top.md"] = ["docs/A.md", "top.md"] := by
    rw [sorted, List.mergeSort_of_pairwise (by decide), dropRepeated,
      if_pos (by decide), dropRepeated, if_neg (by decide), dropRepeated]
    simp
  have hFiles : (expand twoDocuments ["docs/", "docs/./A.md", "top.md"]).2 =
      .ok ["docs/A.md", "top.md"] := by
    rw [expand_snd, hAll, ← hSorted]
    rfl
  obtain ⟨-, -, hOnce, -, -⟩ := expand_once proper_twoDocuments hInputs hFiles
  exact ⟨proper_twoDocuments, hInputs, hFiles, hOnce (by decide)⟩

theorem expand_twice : Downward "./top.md" ∧ Downward "top.md" ∧
    (expand twoDocuments ["./top.md", "top.md"]).2 = .ok ["./top.md", "top.md"] ∧
    names "./top.md" = names "top.md" := by
  refine ⟨by decide, by decide, ?_, by decide⟩
  rw [expand_snd, collect_of_ok (filesOf_of_isFile (by decide)),
    collect_of_ok (filesOf_of_isFile (by decide))]
  exact congrArg Except.ok (sorted_of_before (by decide))

/-! ### What is read -/


theorem toOption_ofFile? (root : Option String) (path : String) :
    (ofFile? system root path).toOption =
      (system.readText? path).map fun text => ⟨Path.relative path root, Text.lines text⟩ := by
  unfold ofFile?
  split
  · rename_i text hText
    rw [hText]
    rfl
  · rename_i hNone
    rw [hNone]
    rfl

/-- **The sources are what can be read of the files**, and there is one at least. -/
theorem readAll_snd (root : Option String) (paths : List String) :
    (readAll system root paths).2 =
      let sources : List Source := paths.filterMap fun path =>
        (system.readText? path).map fun text => ⟨Path.relative path root, Text.lines text⟩
      if sources.isEmpty then .error .noInput else .ok sources := by
  have hSources : (paths.map (ofFile? system root)).filterMap Except.toOption =
      paths.filterMap fun path =>
        (system.readText? path).map fun text => ⟨Path.relative path root, Text.lines text⟩ := by
    rw [List.filterMap_map]
    exact List.filterMap_congr fun path _ => toOption_ofFile? root path
  rw [readAll, hSources]

theorem readAll_eq_error {root : Option String} {paths : List String} {cause : Failure}
    (h : (readAll system root paths).2 = .error cause) :
    cause = .noInput ∧ ∀ path ∈ paths, system.readText? path = none := by
  rw [readAll_snd] at h
  dsimp only at h
  split at h
  · rename_i hEmpty
    cases h
    simpa [List.filterMap_eq_nil_iff] using hEmpty
  · cases h

theorem readAll_eq_ok {root : Option String} {paths : List String} {sources : List Source}
    (h : (readAll system root paths).2 = .ok sources) :
    (∃ path ∈ paths, system.readText? path ≠ none) ∧
      ∀ source ∈ sources, ∃ path, source.path = Path.relative path root := by
  rw [readAll_snd] at h
  dsimp only at h
  split at h
  · cases h
  · rename_i hSome
    cases h
    constructor
    · simpa [List.filterMap_eq_nil_iff] using hSome
    · intro source hSource
      obtain ⟨path, -, hRead⟩ := List.mem_filterMap.mp hSource
      obtain ⟨text, -, rfl⟩ := Option.map_eq_some_iff.mp hRead
      exact ⟨path, rfl⟩

end Source

end ProseTypes
