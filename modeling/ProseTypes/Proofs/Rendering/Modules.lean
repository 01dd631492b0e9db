import Mathlib.Data.List.Nodup
import ProseTypes.Proofs.Compilation.Consistency
import ProseTypes.Proofs.Compilation.Declarations
import ProseTypes.Proofs.Module.Specifier
import ProseTypes.Proofs.Text.Sorted
import ProseTypes.Rendering.Format

/-!
# Modules as they are written

`Registry.page` takes a module apart into its import lines and its declarations, and `Page.IsText` says
letter by letter how they are written.  The text of a module is that of its page (`Registry.isText_page`).
What a page declares are the names that are read from its declarations.

In a compilation every structure is declared once, on the page of the module that owns it, and every
page is closed: a structure that a member mentions is declared on the page or on one of its lines, and
what stands on a line is declared on the page that the line leads to (`Corpus.pagesClosed_compile`).
-/

namespace ProseTypes

/-! ### Pages -/

/-- A line that imports names: the path of the module that they come from, and the names. -/
structure ImportLine where
  path : String
  names : List String

structure Page where
  lines : List ImportLine
  declarations : List String

/-- How a line is written in the module at a path.  The specifier on it is spelled by the segments of the two
paths, and leads from one module to the other, unless that lies on the way to the directory of the first. -/
def ImportLine.IsText (source : String) (line : ImportLine) (text : String) : Prop :=
  ∃ specifier, ModulePath.Spells source line.path specifier ∧
    (ModulePath.Plain line.path →
      ¬Path.segments line.path <+: ModulePath.directory source →
      ModulePath.follow? (ModulePath.directory source) specifier = some (Path.segments line.path)) ∧
    text = "import type \x7b " ++ ", ".intercalate line.names ++ " \x7d from \"" ++ specifier ++ "\";\n"

namespace Page

/-- How a page is written in the module at a path: its lines, an empty line behind them if there are any, and its
declarations with an empty line between each two. -/
def IsText (source : String) (page : Page) (text : String) : Prop :=
  ∃ lines, List.Forall₂ (ImportLine.IsText source) page.lines lines ∧
    text = String.join lines ++ (if page.lines = [] then "" else "\n") ++
      "\n".intercalate page.declarations

def declared (page : Page) : List String :=
  page.declarations.filterMap fun text => (Declaration.read? text).map Prod.fst

def imported (page : Page) : List String :=
  page.lines.flatMap ImportLine.names

end Page

namespace Registry

def page (registry : Registry) (m : TypeModule) : Page :=
  ⟨(Rendering.importPaths registry.graph m).map fun path =>
      ⟨path, Rendering.importNames registry.graph m path⟩,
    Rendering.declarations registry m⟩

theorem isText_importLine (source path : String) (names : List String) :
    ImportLine.IsText source ⟨path, names⟩ (Rendering.importLine source path names) := by
  refine ⟨ModulePath.specifier source path, ModulePath.spells_specifier source path, ?_, ?_⟩
  · intro hPlain hWay
    rw [ModulePath.follow?_specifier_eq source hPlain, if_neg hWay]
  · rw [Rendering.importLine, Text.join_eq_intercalate]

/-- **A module is written as its page.** -/
theorem isText_page (registry : Registry) (m : TypeModule) :
    (registry.page m).IsText m.path (Rendering.asDeclarations registry m) := by
  refine ⟨Rendering.importLines registry.graph m, ?_, ?_⟩
  · rw [page, Rendering.importLines, List.forall₂_map_left_iff, List.forall₂_map_right_iff]
    exact List.forall₂_same.mpr fun path _ => isText_importLine m.path path _
  · rw [Rendering.asDeclarations, ← Text.join_eq_intercalate, page, Rendering.importLines]
    simp only [List.isEmpty_iff, List.map_eq_nil_iff]

/-- Pages declare every structure once, and every page is closed. -/
structure PagesClosed (registry : Registry) : Prop where
  text : ∀ m ∈ registry.modules,
    (registry.page m).IsText m.path (Rendering.asDeclarations registry m)
  paths_nodup : (registry.modules.map TypeModule.path).Nodup
  declared_once : ∀ s ∈ registry.structures, ∃ m ∈ registry.modules, s.id ∈ m.owned ∧
    (registry.page m).declarations.count s.declaration = 1 ∧
    ∀ n ∈ registry.modules, s.declaration ∈ (registry.page n).declarations → n = m
  used_once : ∀ m ∈ registry.modules, ∀ id ∈ m.owned, ∀ s, registry.structure? id = some s →
    ∀ ref, s.Mentions ref →
      ((registry.page m).declared ++ (registry.page m).imported).count ref.name = 1
  line_declared : ∀ m ∈ registry.modules, ∀ line ∈ (registry.page m).lines,
    ∃ n ∈ registry.modules, n.path = line.path ∧
      ∀ name ∈ line.names, name ∈ (registry.page n).declared
  paths_increasing : ∀ m ∈ registry.modules,
    (registry.page m).lines.Pairwise fun a b => a.path < b.path
  names_increasing : ∀ m ∈ registry.modules, ∀ line ∈ (registry.page m).lines,
    line.names.Pairwise (· < ·)

/-! ### Declarations -/

/-- The name of every structure is read from its declaration. -/
def Legible (registry : Registry) : Prop :=
  ∀ {id : Nat} {s : Structure}, registry.structure? id = some s →
    (Declaration.read? s.declaration).map Prod.fst = some s.name

variable {registry : Registry} {m : TypeModule}

theorem declared_page (h : registry.Legible) (m : TypeModule) : (registry.page m).declared =
    m.owned.filterMap fun id => (registry.structure? id).map Structure.name := by
  rw [Page.declared, page, Rendering.declarations, List.filterMap_map, List.filterMap_filterMap]
  refine List.filterMap_congr fun id _ => ?_
  cases hs : registry.structure? id with
  | none => rfl
  | some s => exact h hs

theorem mem_declared_page (h : registry.Legible) {name : String} :
    name ∈ (registry.page m).declared ↔
      ∃ id ∈ m.owned, ∃ s, registry.structure? id = some s ∧ s.name = name := by
  simp only [declared_page h, List.mem_filterMap, Option.map_eq_some_iff]

theorem mem_declarations_page {text : String} : text ∈ (registry.page m).declarations ↔
    ∃ id ∈ m.owned, ∃ s, registry.structure? id = some s ∧ s.declaration = text := by
  simp only [page, Rendering.declarations, List.mem_map, List.mem_filterMap]
  constructor
  · rintro ⟨s, ⟨id, hOwned, hs⟩, rfl⟩
    exact ⟨id, hOwned, s, hs, rfl⟩
  · rintro ⟨id, hOwned, s, hs, rfl⟩
    exact ⟨s, ⟨id, hOwned, hs⟩, rfl⟩

/-- **Structures with one declaration are one structure**, since their names can be read from it. -/
theorem Indexed.eq_of_declaration_eq (h : registry.Indexed) (hLegible : registry.Legible) {i j : Nat}
    {s t : Structure} (hs : registry.structure? i = some s) (ht : registry.structure? j = some t)
    (hText : s.declaration = t.declaration) : i = j := by
  have hName := hLegible hs
  rw [hText, hLegible ht, Option.some.injEq] at hName
  exact h.eq_of_name_eq hs ht hName.symm

theorem Indexed.nodup_owned (h : registry.Indexed) (hm : m ∈ registry.graph.modules) :
    m.owned.Nodup :=
  (h.owned_increasing m hm).imp fun hLt => Nat.ne_of_lt hLt

theorem Indexed.nodup_declared (h : registry.Indexed) (hLegible : registry.Legible)
    (hm : m ∈ registry.graph.modules) : (registry.page m).declared.Nodup := by
  rw [declared_page hLegible]
  refine List.Nodup.filterMap ?_ (h.nodup_owned hm)
  intro i j name hi hj
  obtain ⟨s, hs, rfl⟩ := Option.map_eq_some_iff.mp hi
  obtain ⟨t, ht, hName⟩ := Option.map_eq_some_iff.mp hj
  exact h.eq_of_name_eq hs ht hName.symm

theorem Indexed.nodup_declarations (h : registry.Indexed) (hLegible : registry.Legible)
    (hm : m ∈ registry.graph.modules) : (registry.page m).declarations.Nodup := by
  rw [page, Rendering.declarations, List.map_filterMap]
  refine List.Nodup.filterMap ?_ (h.nodup_owned hm)
  intro i j text hi hj
  obtain ⟨s, hs, rfl⟩ := Option.map_eq_some_iff.mp hi
  obtain ⟨t, ht, hText⟩ := Option.map_eq_some_iff.mp hj
  exact h.eq_of_declaration_eq hLegible hs ht hText.symm

theorem mem_modules : m ∈ registry.modules ↔ m ∈ registry.graph.modules ∧ m.owned ≠ [] := by
  simp [Registry.modules]

/-- **A declaration is on the page of its home**, once, and on no other page. -/
theorem Indexed.declared_once (h : registry.Indexed) (hLegible : registry.Legible) {s : Structure}
    (hMem : s ∈ registry.structures) : ∃ m ∈ registry.modules, s.id ∈ m.owned ∧
      (registry.page m).declarations.count s.declaration = 1 ∧
      ∀ n ∈ registry.modules, s.declaration ∈ (registry.page n).declarations → n = m := by
  obtain ⟨id, hs⟩ := List.mem_iff_getElem?.mp hMem
  obtain ⟨m, hm, hOwned⟩ := (h.owned_by_home hs s.home).mpr rfl
  have hThere : m ∈ registry.graph.modules := List.mem_of_getElem? hm
  have hHere : s.declaration ∈ (registry.page m).declarations :=
    mem_declarations_page.mpr ⟨id, hOwned, s, hs, rfl⟩
  refine ⟨m, mem_modules.mpr ⟨hThere, List.ne_nil_of_mem hOwned⟩, ?_, ?_, ?_⟩
  · rwa [h.id_eq hs]
  · exact List.count_eq_one_of_mem (h.nodup_declarations hLegible hThere) hHere
  · intro n hn hText
    obtain ⟨other, hOther, t, ht, hSame⟩ := mem_declarations_page.mp hText
    obtain rfl := h.eq_of_declaration_eq hLegible ht hs hSame
    obtain ⟨home, hHome⟩ := List.mem_iff_getElem?.mp (mem_modules.mp hn).1
    obtain rfl := (h.owned_by_home hs home).mp ⟨n, hHome, hOther⟩
    rw [hm] at hHome
    exact (Option.some.inj hHome).symm

/-! ### Import lines -/

theorem mem_importPaths {graph : ModuleGraph} {path : String} :
    path ∈ Rendering.importPaths graph m ↔
      ∃ i ∈ m.imports, Rendering.importPath graph i = path := by
  rw [Rendering.importPaths, List.mem_eraseDups, List.mem_mergeSort, List.mem_map]

/-- **The paths of import lines increase.** -/
theorem importPaths_increasing (graph : ModuleGraph) (m : TypeModule) :
    (Rendering.importPaths graph m).Pairwise (· < ·) :=
  Text.increasing_eraseDups (Text.pairwise_mergeSort _)

theorem mem_lines_page {line : ImportLine} : line ∈ (registry.page m).lines ↔
    ∃ path ∈ Rendering.importPaths registry.graph m,
      line = ⟨path, Rendering.importNames registry.graph m path⟩ := by
  simp only [page, List.mem_map, eq_comm]

theorem mem_importNames {graph : ModuleGraph} {path name : String} :
    name ∈ Rendering.importNames graph m path ↔
      ∃ i ∈ m.imports, Rendering.importPath graph i = path ∧ i.name = name := by
  simp only [Rendering.importNames, List.mem_map, List.mem_filter, beq_iff_eq, and_assoc]

theorem mem_imported_page {name : String} :
    name ∈ (registry.page m).imported ↔ ∃ i ∈ m.imports, i.name = name := by
  simp only [Page.imported, List.mem_flatMap, mem_lines_page]
  constructor
  · rintro ⟨_, ⟨path, -, rfl⟩, hName⟩
    obtain ⟨i, hi, -, hName⟩ := mem_importNames.mp hName
    exact ⟨i, hi, hName⟩
  · rintro ⟨i, hi, rfl⟩
    exact ⟨_, ⟨_, mem_importPaths.mpr ⟨i, hi, rfl⟩, rfl⟩, mem_importNames.mpr ⟨i, hi, rfl, rfl⟩⟩

/-- **The names on an import line increase.** -/
theorem importNames_increasing (hSorted : TypeModule.Sorted m.imports) (graph : ModuleGraph)
    (path : String) : (Rendering.importNames graph m path).Pairwise (· < ·) :=
  List.pairwise_map.mpr (hSorted.sublist List.filter_sublist)

theorem nodup_of_increasing {texts : List String} (h : texts.Pairwise (· < ·)) : texts.Nodup := by
  refine h.imp fun hLt => ?_
  rintro rfl
  exact String.lt_irrefl _ hLt

/-- **No name is imported twice**, on one line or on two. -/
theorem nodup_imported (hSorted : TypeModule.Sorted m.imports) :
    (registry.page m).imported.Nodup := by
  have hNames : (m.imports.map Import.name).Nodup :=
    nodup_of_increasing (List.pairwise_map.mpr hSorted)
  rw [Page.imported, page, List.flatMap_map, List.nodup_flatMap]
  constructor
  · intro path _
    exact nodup_of_increasing (importNames_increasing hSorted _ path)
  · refine (importPaths_increasing registry.graph m).imp fun {a b} hLt name ha hb => ?_
    obtain ⟨i, hi, hPath, hName⟩ := mem_importNames.mp ha
    obtain ⟨j, hj, hOther, hSame⟩ := mem_importNames.mp hb
    -- One name is one import, which has one path.
    obtain rfl := List.inj_on_of_nodup_map hNames hi hj (hName.trans hSame.symm)
    rw [← hPath, ← hOther] at hLt
    exact String.lt_irrefl _ hLt

/-! ### Closed pages -/

/-- **What a member mentions is declared on the page or imported, and that once.** -/
theorem Sound.used_once {pending : List String} (h : registry.Sound pending)
    (hLegible : registry.Legible) (hm : m ∈ registry.graph.modules) {id : Nat} (hOwned : id ∈ m.owned)
    {s : Structure} (hs : registry.structure? id = some s) {ref : StructureRef}
    (hRef : s.Mentions ref) :
    ((registry.page m).declared ++ (registry.page m).imported).count ref.name = 1 := by
  have hExact := h.importsExact
  refine List.count_eq_one_of_mem ?_ ?_
  · refine (h.indexed.nodup_declared hLegible hm).append
      (nodup_imported (h.indexed.imports_sorted m hm)) ?_
    intro name hDeclared hImported
    obtain ⟨own, hOwn, t, ht, rfl⟩ := (mem_declared_page hLegible).mp hDeclared
    obtain ⟨i, hi, hName⟩ := mem_imported_page.mp hImported
    obtain ⟨u, hu, hSame⟩ := hExact.name_eq m hm i hi
    have hOther : i.id ∉ m.owned := ((hExact.imported_iff m hm i.id).mp ⟨i, hi, rfl⟩).2
    rw [h.indexed.eq_of_name_eq hu ht (hSame.symm.trans hName)] at hOther
    exact hOther hOwn
  · obtain ⟨t, ht, hName⟩ := h.binds hs hRef
    by_cases hOwn : ref.id ∈ m.owned
    · exact List.mem_append_left _ ((mem_declared_page hLegible).mpr ⟨ref.id, hOwn, t, ht, hName⟩)
    · have hUse : registry.MentionedIn m ref.id := ⟨id, hOwned, s, hs, ref, hRef, rfl⟩
      obtain ⟨i, hi, hId⟩ := (hExact.imported_iff m hm ref.id).mpr ⟨hUse, hOwn⟩
      obtain ⟨u, hu, hSame⟩ := hExact.name_eq m hm i hi
      rw [hId, ht] at hu
      cases hu
      exact List.mem_append_right _ (mem_imported_page.mpr ⟨i, hi, hSame.trans hName⟩)

theorem importPath_of_home {graph : ModuleGraph} {i : Import} {owner : TypeModule}
    (h : graph.modules[i.home]? = some owner) : Rendering.importPath graph i = owner.path := by
  rw [Rendering.importPath, h]
  rfl

/-- **An import line leads to a module that declares everything on it.** -/
theorem Sound.line_declared {pending : List String} (h : registry.Sound pending)
    (hLegible : registry.Legible) (hm : m ∈ registry.graph.modules) {line : ImportLine}
    (hLine : line ∈ (registry.page m).lines) : ∃ n ∈ registry.modules, n.path = line.path ∧
      ∀ name ∈ line.names, name ∈ (registry.page n).declared := by
  have hExact := h.importsExact
  obtain ⟨path, hPath, rfl⟩ := mem_lines_page.mp hLine
  obtain ⟨i, hi, rfl⟩ := mem_importPaths.mp hPath
  obtain ⟨n, hn, hOwned⟩ := hExact.home_owns m hm i hi
  have hThere : n ∈ registry.graph.modules := List.mem_of_getElem? hn
  refine ⟨n, mem_modules.mpr ⟨hThere, List.ne_nil_of_mem hOwned⟩,
    (importPath_of_home hn).symm, ?_⟩
  intro name hName
  obtain ⟨j, hj, hSame, rfl⟩ := mem_importNames.mp hName
  obtain ⟨owner, hOwner, hOwnedByOwner⟩ := hExact.home_owns m hm j hj
  rw [importPath_of_home hOwner, importPath_of_home hn] at hSame
  -- Modules with one path are one module.
  have hHome := h.indexed.graph.find?_iff.mpr ⟨owner, hOwner, hSame⟩
  rw [h.indexed.graph.find?_iff.mpr ⟨n, hn, rfl⟩, Option.some.injEq] at hHome
  rw [← hHome, hn] at hOwner
  cases hOwner
  obtain ⟨t, ht, hName⟩ := hExact.name_eq m hm j hj
  exact (mem_declared_page hLegible).mpr ⟨j.id, hOwnedByOwner, t, ht, hName.symm⟩

theorem Indexed.paths_nodup (h : registry.Indexed) :
    (registry.modules.map TypeModule.path).Nodup := by
  have hAll : (registry.graph.modules.map TypeModule.path).Nodup := by
    rw [List.nodup_iff_getElem?_ne_getElem?]
    intro i j hij hj hEq
    rw [List.length_map] at hj
    have hi : i < registry.graph.modules.length := by omega
    rw [List.getElem?_map, List.getElem?_map, List.getElem?_eq_getElem hi,
      List.getElem?_eq_getElem hj] at hEq
    have hFirst := h.graph.find?_iff.mpr
      ⟨_, List.getElem?_eq_getElem hi, Option.some.inj hEq⟩
    have hSecond := h.graph.find?_iff.mpr ⟨_, List.getElem?_eq_getElem hj, rfl⟩
    rw [hFirst, Option.some.injEq] at hSecond
    omega
  exact hAll.sublist (List.filter_sublist.map _)

/-- **The pages of a registry are closed** at the end of every registration. -/
theorem Sound.pagesClosed (h : registry.Sound []) (hLegible : registry.Legible) :
    registry.PagesClosed where
  text m _ := isText_page registry m
  paths_nodup := h.indexed.paths_nodup
  declared_once s hs := h.indexed.declared_once hLegible hs
  used_once m hm id hOwned s hs ref hRef :=
    h.used_once hLegible (mem_modules.mp hm).1 hOwned hs hRef
  line_declared m hm line hLine := h.line_declared hLegible (mem_modules.mp hm).1 hLine
  paths_increasing m _ := List.pairwise_map.mpr (importPaths_increasing registry.graph m)
  names_increasing m hm line hLine := by
    obtain ⟨path, -, rfl⟩ := mem_lines_page.mp hLine
    exact importNames_increasing (h.indexed.imports_sorted m (mem_modules.mp hm).1) _ path

end Registry

/-- **The modules of a compilation are closed, and declare every structure once.** -/
theorem Corpus.pagesClosed_compile (corpus : Corpus) (scope : Scope) :
    (corpus.compile scope).registry.PagesClosed := by
  have hSound : (corpus.compile scope).Sound := corpus.sound_start.compileFrom
  refine hSound.registry.pagesClosed fun hs => ?_
  obtain ⟨hName, hBody⟩ := readable_compile hs
  rw [Declaration.read?_declaration hName hBody]
  rfl

end ProseTypes
