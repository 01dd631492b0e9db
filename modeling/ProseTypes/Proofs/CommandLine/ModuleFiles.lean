import ProseTypes.Proofs.CommandLine.Delivery
import ProseTypes.Proofs.Compilation.Provenance
import ProseTypes.Proofs.Module.Specifier
import ProseTypes.Proofs.Rendering.Modules

/-!
# The files of modules

The path of a module is that of a document without its extension, and the document's path is made of the
names in the path of its file.  So the path of a module's file, below the output directory, is made of names
as well (`ModulePath.plain_file`), and leads straight down: modules with different paths are
written to different places (`CommandLine.apart_moduleTexts`).
-/

namespace ProseTypes

/-! ### Paths of documents -/

namespace Path

theorem eq_of_segments_eq {a b : String} (h : segments a = segments b) : a = b := by
  rw [← Text.join_pieces '/' a, ← Text.join_pieces '/' b]
  exact congrArg _ h

theorem dropStart?_subset {start all rest : List Component} (h : dropStart? start all = some rest) :
    rest ⊆ all := by
  fun_induction dropStart? start all with
  | case1 all =>
    rw [Option.some.inj h]
    exact List.Subset.refl rest
  | case2 => cases h
  | case3 start c all ih => exact List.subset_cons_of_subset c (ih h)
  | case4 => cases h

theorem isName_of_mem_components {path name : String} (h : Component.name name ∈ components path) :
    IsName name := by
  rw [components_eq, List.mem_append] at h
  rcases h with h | h
  · unfold lead at h
    split at h
    · simp at h
    · split at h <;> simp at h
  · obtain ⟨segment, hSegment, hName⟩ := List.mem_map.mp h
    obtain ⟨hMem, hLeads⟩ := List.mem_filter.mp hSegment
    unfold Component.ofName at hName
    split at hName
    · cases hName
    · rename_i hUp
      cases hName
      exact ⟨by simpa using hLeads, hUp, slash_not_mem_of_mem_segments hMem⟩

/-- **A path below a root is made of names**, or is empty. -/
theorem plain_relative (path : String) (root : Option String) :
    Path.relative path root = "" ∨ ModulePath.Plain (Path.relative path root) := by
  let below := (root.bind fun root => dropStart? (components root) (components path)).getD
    (components path)
  have hBelow : below ⊆ components path := by
    intro c hc
    cases hRest : root.bind fun root => dropStart? (components root) (components path) with
    | none => simpa [below, hRest] using hc
    | some rest =>
      obtain ⟨start, -, hDrop⟩ := Option.bind_eq_some_iff.mp hRest
      exact dropStart?_subset hDrop (by simpa [below, hRest] using hc)
  have hNames : ∀ name ∈ below.filterMap Component.name?, IsName name := by
    intro name hName
    obtain ⟨c, hc, hText⟩ := List.mem_filterMap.mp hName
    cases c with
    | name text =>
      cases hText
      exact isName_of_mem_components (hBelow hc)
    | root | here | up => cases hText
  have hRelative : Path.relative path root = Text.join "/" (below.filterMap Component.name?) := rfl
  rw [hRelative]
  by_cases hSome : below.filterMap Component.name? = []
  · left
    rw [hSome]
    rfl
  · right
    intro segment hSegment
    rw [segments_join hSome fun name hName => (hNames name hName).2.2] at hSegment
    obtain ⟨⟨hEmpty, hHere⟩, hUp, -⟩ := hNames segment hSegment
    exact ⟨hEmpty, hHere, hUp⟩

end Path

/-! ### Paths of modules and their files -/

namespace ModulePath

open ProseTypes.Path (segments)

theorem dropCurrentDir_of_plain {path : String} (h : path = "" ∨ Plain path) :
    dropCurrentDir path.toList = path.toList := by
  rcases h with rfl | h
  · rfl
  · unfold dropCurrentDir
    split
    · rename_i cs hPath
      have hSegments : "." ∈ segments path := by
        rw [segments, hPath, Text.pieces, if_neg (by decide), Text.pieces, if_pos (by decide)]
        exact List.mem_cons_self
      exact absurd rfl (h "." hSegments).2.1
    · rfl

theorem exists_append_ofDocument {path : String} (h : path = "" ∨ Plain path) :
    ∃ tail, (∀ c ∈ tail, (c == '/') = false) ∧ path.toList = (ofDocument path).toList ++ tail := by
  rw [ofDocument, dropCurrentDir_of_plain h]
  have hWhole : ∃ tail, (∀ c ∈ tail, (c == '/') = false) ∧
      path.toList = (String.ofList path.toList).toList ++ tail :=
    ⟨[], by simp, by simp⟩
  split
  · rename_i stem extension hCut
    split
    · exact hWhole
    · obtain ⟨hCut, hSlash⟩ := Option.filter_eq_some_iff.mp hCut
      obtain ⟨c, hc, hPath⟩ := Text.exists_of_cutLast? hCut
      rw [beq_iff_eq] at hc
      refine ⟨c :: extension, ?_, by rw [hPath, String.toList_ofList]⟩
      intro d hd
      rw [beq_eq_false_iff_ne]
      rintro rfl
      rcases List.mem_cons.mp hd with hd | hd
      · rw [hc] at hd
        exact absurd hd (by decide)
      · simp [hd] at hSlash
  · exact hWhole

/-- **The path of a module's file is made of names.** -/
theorem plain_file {path extension : String} (h : path = "" ∨ Plain path)
    (hSlash : '/' ∉ extension.toList) (hSome : 1 < extension.length) :
    Plain (ofDocument path ++ "." ++ extension) := by
  obtain ⟨tail, hTail, hPath⟩ := exists_append_ofDocument h
  obtain ⟨init, last, hModule, hDocument⟩ :=
    Text.exists_pieces_append (p := (· == '/')) (ofDocument path).toList hTail
  have hEnd : ∀ c ∈ '.' :: extension.toList, (c == '/') = false := by
    intro c hc
    rw [beq_eq_false_iff_ne]
    rintro rfl
    rcases List.mem_cons.mp hc with hc | hc
    · exact absurd hc (by decide)
    · exact hSlash hc
  obtain ⟨init', last', hModule', hFile⟩ :=
    Text.exists_pieces_append (p := (· == '/')) (ofDocument path).toList hEnd
  obtain ⟨rfl, hLast⟩ := List.append_inj' (hModule.symm.trans hModule') rfl
  cases hLast
  have hText : (ofDocument path ++ "." ++ extension).toList =
      (ofDocument path).toList ++ '.' :: extension.toList := by simp
  intro segment hSegment
  rw [segments, hText, hFile, List.map_append, List.mem_append, List.map_singleton,
    List.mem_singleton] at hSegment
  rcases hSegment with hSegment | rfl
  · -- All segments but the last are segments of the document's path.
    rw [← hPath] at hDocument
    rcases h with rfl | h
    · have hNone : init ++ [last ++ tail] = [[]] := hDocument.symm
      obtain rfl : init = [] := by
        cases init with
        | nil => rfl
        | cons first init => simp at hNone
      cases hSegment
    · refine h segment ?_
      rw [segments, hDocument, List.map_append]
      exact List.mem_append_left _ hSegment
  · have hLength : 2 < (String.ofList (last ++ '.' :: extension.toList)).length := by
      rw [String.length_ofList, List.length_append, List.length_cons, String.length_toList]
      omega
    refine ⟨?_, ?_, ?_⟩ <;>
    · intro hEq
      rw [hEq] at hLength
      exact absurd hLength (by decide)

end ModulePath

/-- **Every module that is written has the path of a document**, and each of them its own. -/
theorem Corpus.exists_document_of_mem_modules (corpus : Corpus) (scope : Scope) {m : TypeModule}
    (h : m ∈ (corpus.compile scope).registry.modules) :
    ∃ document ∈ corpus.documents, m.path = ModulePath.ofDocument document.path := by
  obtain ⟨made, hMade, hRecords⟩ := corpus.exists_records_compile scope
  obtain ⟨hThere, hOwned⟩ := Registry.mem_modules.mp h
  obtain ⟨i, hm⟩ := List.mem_iff_getElem?.mp hThere
  obtain ⟨id, hId⟩ := List.exists_mem_of_ne_nil _ hOwned
  obtain ⟨s, hs, hHome⟩ := (hRecords.indexed.mem_owned_iff hm).mp hId
  obtain ⟨resource, hResource⟩ := hRecords.exists_resource hs
  obtain ⟨target, hTarget, hOffers⟩ := (hMade resource (List.mem_of_getElem? hResource)).exists_offers
  obtain ⟨document, hDocument, hTarget⟩ := List.mem_flatMap.mp hTarget
  obtain ⟨visit, -, rfl⟩ := List.mem_map.mp hTarget
  refine ⟨document, hDocument, ?_⟩
  have hPath := (hRecords.stands hs hResource).path
  rw [Registry.modulePath?, hHome, hm, Option.map_some, Option.some.injEq, hOffers.path] at hPath
  exact hPath

/-! ### Places below a directory -/

namespace FileSystem

variable {system : FileSystem} {place : List String}

theorem join_empty (name : String) : Path.join "" name = name := by
  rw [Path.join, if_pos (by decide), String.empty_append]

theorem exists_segments_join (directory : String) :
    ∃ lead, ∀ name, Path.segments (Path.join directory name) = lead ++ Path.segments name := by
  by_cases hEmpty : directory = ""
  · exact ⟨[], fun name => by rw [hEmpty, join_empty, List.nil_append]⟩
  · obtain ⟨before, hJoin, -⟩ := Path.exists_join_eq hEmpty
    exact ⟨Path.segments before, fun name => by rw [hJoin, Path.segments_slash]⟩

theorem startOf_join (directory : String) {name : String} (h : ModulePath.Plain name) :
    system.startOf (Path.join directory name) = system.startOf directory := by
  have hRelative : Path.isAbsolute name = false := by
    rw [Path.isAbsolute, beq_eq_false_iff_ne]
    intro hHead
    obtain ⟨rest, hRest⟩ := List.head?_eq_some_iff.mp hHead
    refine (h "" ?_).1 rfl
    rw [Path.segments, hRest, Text.pieces, if_pos (by decide)]
    exact List.mem_cons_self
  rw [startOf, startOf]
  by_cases hEmpty : directory = ""
  · rw [hEmpty, join_empty, hRelative]
    rfl
  · rw [Path.isAbsolute_join hEmpty]

/-- **A path of names below a directory leads straight down**, so paths to one place are the same. -/
theorem eq_of_find?_join {directory a b : String} (ha : ModulePath.Plain a) (hb : ModulePath.Plain b)
    (h : system.find? (Path.join directory a) = some place)
    (hSame : system.find? (Path.join directory b) = some place) : a = b := by
  obtain ⟨lead, hLead⟩ := exists_segments_join directory
  -- Where the names start does not depend on them.
  have hDown {name : String} (hName : ModulePath.Plain name)
      (h : system.find? (Path.join directory name) = some place) :
      ∃ home, lead.foldlM system.enter? (system.startOf directory) = some home ∧
        place = home ++ Path.segments name := by
    unfold FileSystem.find? at h
    split at h
    · cases h
    · rw [hLead, List.foldlM_append, startOf_join directory hName, Option.bind_eq_bind, Option.bind_eq_some_iff] at h
      obtain ⟨home, hHome, hPlace⟩ := h
      refine ⟨home, hHome, names_of_foldlM_enter? (fun segment hSegment => ?_) hPlace⟩
      obtain ⟨hEmpty, hHere, hUp⟩ := hName segment hSegment
      exact ⟨⟨hEmpty, hHere⟩, hUp⟩
  obtain ⟨home, hHome, hPlace⟩ := hDown ha h
  obtain ⟨home', hHome', hPlace'⟩ := hDown hb hSame
  obtain rfl : home = home' := Option.some.inj (hHome.symm.trans hHome')
  exact Path.eq_of_segments_eq (List.append_cancel_left (hPlace.symm.trans hPlace'))

end FileSystem

namespace CommandLine

theorem slash_not_mem_extension (format : Format) : '/' ∉ format.extension.toList := by
  cases format <;> decide

theorem one_lt_length_extension (format : Format) : 1 < format.extension.length := by
  cases format <;> decide

/-- **The modules of a compilation are written to different files.** -/
theorem apart_moduleTexts {corpus : Corpus} {scope : Scope}
    (hDocuments : ∀ document ∈ corpus.documents, document.path = "" ∨ ModulePath.Plain document.path)
    {output : String} {format : Format} {system : FileSystem} :
    let registry := (corpus.compile scope).registry
    (∀ text ∈ moduleTexts output format registry registry.modules, (system.find? text.1).isSome) →
      system.Apart (moduleTexts output format registry registry.modules) := by
  intro registry hFound
  have hIndexed : registry.Indexed := by
    obtain ⟨made, -, hRecords⟩ := corpus.exists_records_compile scope
    exact hRecords.indexed
  have hPlain : ∀ m ∈ registry.modules, ModulePath.Plain (m.path ++ "." ++ format.extension) := by
    intro m hm
    obtain ⟨document, hDocument, hPath⟩ := corpus.exists_document_of_mem_modules scope hm
    rw [hPath]
    exact ModulePath.plain_file (hDocuments document hDocument) (slash_not_mem_extension format)
      (one_lt_length_extension format)
  rw [FileSystem.Apart, moduleTexts, List.pairwise_map]
  refine (List.pairwise_map.mp hIndexed.paths_nodup).imp_of_mem fun {a b} ha hb hNe hSame => hNe ?_
  obtain ⟨place, hPlace⟩ := Option.isSome_iff_exists.mp (hFound _ (List.mem_map_of_mem ha))
  have hFile := FileSystem.eq_of_find?_join (hPlain a ha) (hPlain b hb) hPlace (hSame.symm.trans hPlace)
  rw [String.append_assoc, String.append_assoc] at hFile
  exact (String.append_left_inj _).mp hFile

end CommandLine

end ProseTypes
