import Mathlib.Logic.Relation
import ProseTypes.FileTree.Path
import ProseTypes.Proofs.Text.Cutting

/-!
# Spellings of a path

A path names the same file however many slashes stand in a row, and wherever a segment `.` is put in.  What
counts are its other segments (`Path.names`).  Its components are these, except that a segment `.` in front
of a relative path is a component of its own (`Path.components_eq`).

So a path taken relative to a root does not depend on how the two are spelled, as long as both or neither
start with `.` (`Path.relative_respelled`).  If only one of them does, a path below the root is not seen to
be there and is taken whole.
-/

namespace ProseTypes

namespace Path

/-! ### Segments -/

theorem segments_slash (before after : String) :
    segments (before ++ "/" ++ after) = segments before ++ segments after := by
  have hText : (before ++ "/" ++ after).toList = before.toList ++ '/' :: after.toList := by simp
  have hPieces := Text.pieces_append_cons (p := (· == '/')) before.toList (beq_self_eq_true '/')
    after.toList
  rw [segments, hText, hPieces, List.map_append, segments, segments]

theorem segments_ne_nil (path : String) : segments path ≠ [] :=
  mt List.map_eq_nil_iff.mp (Text.pieces_ne_nil _ _)

theorem slash_not_mem_of_mem_segments {path segment : String} (h : segment ∈ segments path) :
    '/' ∉ segment.toList := by
  obtain ⟨piece, hPiece, rfl⟩ := List.mem_map.mp h
  rw [String.toList_ofList]
  exact fun hSlash => Text.not_of_mem_pieces hPiece '/' hSlash (beq_self_eq_true '/')

/-- **Segments put together are cut again in the same places.** -/
theorem segments_join {texts : List String} (hSome : texts ≠ [])
    (hSlash : ∀ text ∈ texts, '/' ∉ text.toList) : segments (Text.join "/" texts) = texts :=
  Text.pieces_join hSome hSlash

theorem intercalate_segments (path : String) : "/".intercalate (segments path) = path := by
  rw [← Text.join_eq_intercalate]
  exact Text.join_pieces '/' path

theorem segments_of_slash_not_mem {name : String} (h : '/' ∉ name.toList) : segments name = [name] := by
  have hNone : ∀ c ∈ name.toList, (c == '/') = false := by
    intro c hc
    rw [beq_eq_false_iff_ne]
    rintro rfl
    exact h hc
  rw [segments, Text.pieces_of_forall_not hNone, List.map_singleton, String.ofList_toList]

theorem isAbsolute_of_slash_not_mem {name : String} (h : '/' ∉ name.toList) :
    isAbsolute name = false := by
  rw [isAbsolute, beq_eq_false_iff_ne]
  exact fun hHead => h (List.mem_of_mem_head? hHead)

/-- A segment that leads to an entry of a directory, or up from it. -/
def Leads (segment : String) : Prop :=
  segment ≠ "" ∧ segment ≠ "."

instance (segment : String) : Decidable (Leads segment) :=
  inferInstanceAs (Decidable (_ ∧ _))

/-- The segments of a path that lead on: all but those that are empty or `.`. -/
def names (path : String) : List String :=
  (segments path).filter fun segment => Leads segment

def startsHere (path : String) : Bool :=
  (segments path).head? == some "."

theorem names_slash (before after : String) :
    names (before ++ "/" ++ after) = names before ++ names after := by
  rw [names, segments_slash, List.filter_append, names, names]

theorem head?_segments_slash (before after : String) :
    (segments (before ++ "/" ++ after)).head? = (segments before).head? := by
  rw [segments_slash, List.head?_append_of_ne_nil _ (segments_ne_nil before)]

theorem startsHere_slash (before after : String) :
    startsHere (before ++ "/" ++ after) = startsHere before := by
  rw [startsHere, head?_segments_slash, startsHere]

theorem isAbsolute_append {before : String} (h : before ≠ "") (after : String) :
    isAbsolute (before ++ after) = isAbsolute before := by
  have hSome : before.toList ≠ [] := by simpa using h
  rw [isAbsolute, String.toList_append, List.head?_append_of_ne_nil _ hSome, isAbsolute]

theorem exists_join_eq {directory : String} (h : directory ≠ "") :
    ∃ before, (∀ name, join directory name = before ++ "/" ++ name) ∧
      (directory = before ∨ directory = before ++ "/") := by
  by_cases hEnd : directory.toList.getLast? = some '/'
  · obtain ⟨before, hBefore⟩ := List.getLast?_eq_some_iff.mp hEnd
    have hDirectory : directory = String.ofList before ++ "/" := by
      rw [← String.ofList_toList (s := directory), hBefore, String.ofList_append]
    refine ⟨String.ofList before, fun name => ?_, Or.inr hDirectory⟩
    rw [join, if_pos (by simp [hEnd]), hDirectory]
  · exact ⟨directory, fun name => if_neg (by simp [h, hEnd]), Or.inl rfl⟩

theorem names_join {directory : String} (h : directory ≠ "") (name : String) :
    names (join directory name) = names directory ++ names name := by
  have hEmpty : names "" = [] := by decide
  obtain ⟨before, hJoin, rfl | rfl⟩ := exists_join_eq h
  · rw [hJoin, names_slash]
  · rw [hJoin, names_slash, ← String.append_empty (s := before ++ "/"), names_slash, hEmpty,
      List.append_nil]

theorem startsHere_join {directory : String} (h : directory ≠ "") (name : String) :
    startsHere (join directory name) = startsHere directory := by
  obtain ⟨before, hJoin, rfl | rfl⟩ := exists_join_eq h
  · rw [hJoin, startsHere_slash]
  · rw [hJoin, startsHere_slash, ← String.append_empty (s := before ++ "/"), startsHere_slash]

theorem isAbsolute_join {directory : String} (h : directory ≠ "") (name : String) :
    isAbsolute (join directory name) = isAbsolute directory := by
  obtain ⟨before, hJoin, rfl | rfl⟩ := exists_join_eq h
  · rw [hJoin, String.append_assoc, isAbsolute_append h]
  · rw [hJoin, isAbsolute_append h]

/-! ### Components -/

def Component.ofName (name : String) : Component :=
  if name = ".." then .up else .name name

theorem Component.ofName_ne_here (name : String) : Component.ofName name ≠ .here := by
  unfold Component.ofName
  split <;> simp

theorem filterMap_component? (segments : List String) : segments.filterMap component? =
    (segments.filter fun segment => Leads segment).map Component.ofName := by
  induction segments with
  | nil => rfl
  | cons segment rest ih =>
    by_cases h : Leads segment
    · have hComponent : component? segment = some (.ofName segment) := by
        rw [component?, if_neg (by simpa [Leads] using h), Component.ofName]
        split <;> rfl
      rw [List.filterMap_cons_some hComponent, List.filter_cons_of_pos (by simpa using h),
        List.map_cons, ih]
    · have hComponent : component? segment = none := if_pos (by simpa [Leads, or_iff_not_imp_left] using h)
      rw [List.filterMap_cons_none hComponent, List.filter_cons_of_neg (by simpa using h), ih]

def lead (path : String) : List Component :=
  if isAbsolute path then [.root] else if startsHere path then [.here] else []

/-- **The components of a path are its segments**, and in front of them what the path starts from. -/
theorem components_eq (path : String) :
    components path = lead path ++ (names path).map Component.ofName := by
  rw [components, filterMap_component?, lead, names, startsHere]
  simp only [beq_iff_eq]
  split
  · rfl
  · split <;> rfl

theorem lead_of_relative {path : String} (h : isAbsolute path = false) :
    lead path = if startsHere path then [.here] else [] := by
  rw [lead, h, if_neg Bool.false_ne_true]

/-! ### Paths below a root -/

theorem dropStart?_append (start rest : List Component) :
    dropStart? start (start ++ rest) = some rest := by
  induction start with
  | nil => rfl
  | cons c start ih => rw [List.cons_append, dropStart?, if_pos rfl, ih]

theorem dropStart?_eq_none {start all : List Component} (h : ¬start <+: all) :
    dropStart? start all = none := by
  fun_induction dropStart? start all with
  | case1 all => exact absurd (List.nil_prefix) h
  | case2 => rfl
  | case3 start c all ih => exact ih fun hPrefix => h ((List.prefix_cons_inj c).mpr hPrefix)
  | case4 => rfl

def below (start names : List String) : List String :=
  if start <+: names then names.drop start.length else names

/-- A path from the working directory that never goes up. -/
structure Downward (path : String) : Prop where
  relative : isAbsolute path = false
  down : ".." ∉ names path

instance (path : String) : Decidable (Downward path) :=
  decidable_of_iff (isAbsolute path = false ∧ ".." ∉ names path)
    ⟨fun h => ⟨h.1, h.2⟩, fun h => ⟨h.relative, h.down⟩⟩

theorem Downward.components_eq {path : String} (h : Downward path) :
    components path = (if startsHere path then [.here] else []) ++ (names path).map .name := by
  rw [Path.components_eq, lead_of_relative h.relative]
  refine congrArg _ (List.map_congr_left fun name hName => ?_)
  rw [Component.ofName, if_neg]
  rintro rfl
  exact h.down hName

theorem filterMap_name? (names : List String) :
    (names.map Component.name).filterMap Component.name? = names := by
  rw [List.filterMap_map]
  exact List.filterMap_some

theorem Downward.filterMap_components {path : String} (h : Downward path) :
    (components path).filterMap Component.name? = names path := by
  have hLead : (if startsHere path then [Component.here] else []).filterMap Component.name? = [] := by
    split <;> rfl
  rw [h.components_eq, List.filterMap_append, hLead, List.nil_append, filterMap_name?]

theorem Downward.components_eq_nil {path root : String} (hPath : Downward path) (hRoot : Downward root)
    (hHere : startsHere path ≠ startsHere root) (hPrefix : components root <+: components path) :
    components root = [] := by
  obtain ⟨rest, hRest⟩ := hPrefix
  rw [hPath.components_eq, hRoot.components_eq] at hRest
  rw [hRoot.components_eq]
  cases hRootHere : startsHere root with
  | true =>
    have hPathHere : startsHere path = false := by simpa [hRootHere] using hHere
    cases hNames : names path <;> simp [hRootHere, hPathHere, hNames] at hRest
  | false =>
    have hPathHere : startsHere path = true := by simpa [hRootHere] using hHere
    cases hNames : names root with
    | nil => rfl
    | cons name more => simp [hRootHere, hPathHere, hNames] at hRest

/-- **The part of a path below a root**, in terms of the segments of the two.  The path is seen to lie below
the root if its segments begin with those of the root and both or neither start with `.`. -/
theorem Downward.relative_eq {path root : String} (hPath : Downward path) (hRoot : Downward root) :
    Path.relative path (some root) = Text.join "/"
      (if startsHere path = startsHere root then below (names root) (names path) else names path) := by
  rw [Path.relative, Option.bind_some]
  refine congrArg (Text.join "/") ?_
  by_cases hPrefix : components root <+: components path
  · by_cases hHere : startsHere path = startsHere root
    · obtain ⟨rest, hRest⟩ := hPrefix
      rw [← hRest, dropStart?_append, Option.getD_some, if_pos hHere]
      rw [hPath.components_eq, hRoot.components_eq, hHere, List.append_assoc,
        List.append_cancel_left_eq] at hRest
      have hNames : names root ++ rest.filterMap Component.name? = names path := by
        rw [← filterMap_name? (names path), ← hRest, List.filterMap_append, filterMap_name?]
      rw [below, if_pos ⟨_, hNames⟩, ← hNames, List.drop_left]
    · rw [hPath.components_eq_nil hRoot hHere hPrefix, dropStart?, Option.getD_some, if_neg hHere,
        hPath.filterMap_components]
  · rw [dropStart?_eq_none hPrefix, Option.getD_none, hPath.filterMap_components]
    split
    · rename_i hHere
      have hNot : ¬names root <+: names path := by
        rintro ⟨rest, hRest⟩
        refine hPrefix ⟨rest.map .name, ?_⟩
        rw [hPath.components_eq, hRoot.components_eq, hHere, ← hRest, List.map_append,
          List.append_assoc]
      rw [below, if_neg hNot]
    · rfl

/-! ### Spelling a path anew -/

/-- A path is written longer: with one more slash, or a segment `.`, behind a slash that it has, or with a
slash at its end. -/
inductive Pads : String → String → Prop where
  | current {before : String} (after : String) : before ≠ "" →
      Pads (before ++ "/" ++ after) (before ++ "/./" ++ after)
  | slash {before : String} (after : String) : before ≠ "" →
      Pads (before ++ "/" ++ after) (before ++ "//" ++ after)
  | ending {path : String} : path ≠ "" → Pads path (path ++ "/")

/-- A path is written longer, perhaps with `./` in front. -/
inductive Lengthens : String → String → Prop where
  | pads {path other : String} : Pads path other → Lengthens path other
  | here (path : String) : Lengthens path ("./" ++ path)

/-- Two paths that differ by slashes and segments `.`, but not at their starts. -/
def Repadded : String → String → Prop :=
  Relation.EqvGen Pads

/-- Two paths that differ by slashes and segments `.`. -/
def Respelled : String → String → Prop :=
  Relation.EqvGen Lengthens

theorem Pads.exists_slash {path other : String} (h : Pads path other) :
    (∃ before after, before ≠ "" ∧ path = before ++ "/" ++ after ∧
      (other = before ++ "/" ++ "." ++ "/" ++ after ∨ other = before ++ "/" ++ "" ++ "/" ++ after)) ∨
    path ≠ "" ∧ other = path ++ "/" ++ "" := by
  cases h with
  | @current before after hSome =>
    refine Or.inl ⟨before, after, hSome, rfl, Or.inl ?_⟩
    rw [show "/./" = "/" ++ "." ++ "/" by decide]
    simp only [String.append_assoc]
  | @slash before after hSome =>
    refine Or.inl ⟨before, after, hSome, rfl, Or.inr ?_⟩
    rw [show "//" = "/" ++ "" ++ "/" by decide]
    simp only [String.append_assoc]
  | ending hSome => exact Or.inr ⟨hSome, by rw [String.append_empty]⟩

theorem Pads.names_eq {path other : String} (h : Pads path other) : names other = names path := by
  have hHere : names "." = [] := by decide
  have hEmpty : names "" = [] := by decide
  rcases h.exists_slash with ⟨before, after, -, rfl, rfl | rfl⟩ | ⟨-, rfl⟩ <;>
    simp only [names_slash, hHere, hEmpty, List.append_nil]

theorem Pads.startsHere_eq {path other : String} (h : Pads path other) :
    startsHere other = startsHere path := by
  rcases h.exists_slash with ⟨before, after, -, rfl, rfl | rfl⟩ | ⟨-, rfl⟩ <;>
    simp only [startsHere_slash]

theorem Pads.isAbsolute_eq {path other : String} (h : Pads path other) :
    isAbsolute other = isAbsolute path := by
  rcases h.exists_slash with ⟨before, after, hSome, rfl, rfl | rfl⟩ | ⟨hSome, rfl⟩ <;>
    simp only [String.append_assoc, isAbsolute_append hSome]

theorem Lengthens.names_eq {path other : String} (h : Lengthens path other) :
    names other = names path := by
  cases h with
  | pads h => exact h.names_eq
  | here =>
    have hHere : names "." = [] := by decide
    rw [show "./" = "." ++ "/" by decide, names_slash, hHere, List.nil_append]

theorem eq_of_eqvGen {α : Type} {r : String → String → Prop} {f : String → α}
    (hKeeps : ∀ path other, r path other → f other = f path) {path other : String}
    (h : Relation.EqvGen r path other) :
    f other = f path := by
  induction h with
  | rel path other h => exact hKeeps path other h
  | refl => rfl
  | symm _ _ _ ih => exact ih.symm
  | trans _ _ _ _ _ first second => exact second.trans first

theorem Respelled.names_eq {path other : String} (h : Respelled path other) :
    names other = names path :=
  eq_of_eqvGen (f := names) (fun _ _ => Lengthens.names_eq) h

theorem Repadded.names_eq {path other : String} (h : Repadded path other) :
    names other = names path :=
  eq_of_eqvGen (f := names) (fun _ _ => Pads.names_eq) h

theorem Repadded.startsHere_eq {path other : String} (h : Repadded path other) :
    startsHere other = startsHere path :=
  eq_of_eqvGen (f := startsHere) (fun _ _ => Pads.startsHere_eq) h

theorem Repadded.downward {path other : String} (h : Repadded path other) (hPath : Downward path) :
    Downward other where
  relative := (eq_of_eqvGen (f := isAbsolute) (fun _ _ => Pads.isAbsolute_eq) h).trans hPath.relative
  down := by
    rw [h.names_eq]
    exact hPath.down

/-- **The part of a path below a root does not depend on how the two are spelled**, if both or neither of
them start with `.`: it is what the segments of the path have behind those of the root.  If one of them
starts with `.` and the other does not, the path is taken whole.  Other changes of the spelling make no
difference at all. -/
theorem relative_respelled {path root : String} (hPath : Downward path) (hRoot : Downward root) :
    (∀ path' root', Respelled path path' → Respelled root root' →
      isAbsolute path' = false → isAbsolute root' = false →
      Path.relative path' (some root') = Text.join "/"
        (if startsHere path' = startsHere root' then below (names root) (names path)
          else names path)) ∧
    ∀ path' root', Repadded path path' → Repadded root root' →
      Path.relative path' (some root') = Path.relative path (some root) := by
  constructor
  · intro path' root' hPath' hRoot' hRelative hRelativeRoot
    have hDown : Downward path' := ⟨hRelative, hPath'.names_eq ▸ hPath.down⟩
    have hDownRoot : Downward root' := ⟨hRelativeRoot, hRoot'.names_eq ▸ hRoot.down⟩
    rw [hDown.relative_eq hDownRoot, hPath'.names_eq, hRoot'.names_eq]
  · intro path' root' hPath' hRoot'
    rw [(hPath'.downward hPath).relative_eq (hRoot'.downward hRoot), hPath.relative_eq hRoot,
      hPath'.names_eq, hRoot'.names_eq, hPath'.startsHere_eq, hRoot'.startsHere_eq]

theorem relative_respelled_guide : Downward "docs/guide/A.md" ∧ Downward "docs" ∧
    Respelled "docs/guide/A.md" "./docs/./guide//A.md" ∧ Respelled "docs" "./docs/" ∧
    Path.relative "./docs/./guide//A.md" (some "./docs/") = "guide/A.md" ∧
    Path.relative "./docs/./guide//A.md" (some "docs") = "docs/guide/A.md" := by
  have hPath : Downward "docs/guide/A.md" := by decide
  have hRoot : Downward "docs" := by decide
  have hCurrent : Lengthens "docs/guide/A.md" "docs/./guide/A.md" :=
    .pads (@Pads.current "docs" "guide/A.md" (by decide))
  have hSlash : Lengthens "docs/./guide/A.md" "docs/./guide//A.md" :=
    .pads (@Pads.slash "docs/./guide" "A.md" (by decide))
  have hLong : Respelled "docs/guide/A.md" "./docs/./guide//A.md" :=
    ((Relation.EqvGen.rel _ _ hCurrent).trans _ _ _ (.rel _ _ hSlash)).trans _ _ _ (.rel _ _ (.here _))
  have hLongRoot : Respelled "docs" "./docs/" :=
    (Relation.EqvGen.rel _ _ (.pads (.ending (by decide)))).trans _ _ _ (.rel _ _ (.here _))
  have hLaw := (relative_respelled hPath hRoot).1
  refine ⟨hPath, hRoot, hLong, hLongRoot, ?_, ?_⟩
  · exact (hLaw _ _ hLong hLongRoot (by decide) (by decide)).trans (by decide)
  · exact (hLaw _ _ hLong (.refl _) (by decide) (by decide)).trans (by decide)

theorem relative_root_unseen : Downward "docs/A.md" ∧ Downward "docs" ∧ Respelled "docs" "./docs" ∧
    Path.relative "docs/A.md" (some "docs") = "A.md" ∧
    Path.relative "docs/A.md" (some "./docs") = "docs/A.md" :=
  ⟨by decide, by decide, .rel _ _ (.here "docs"), by decide, by decide⟩

end Path

end ProseTypes
