import ProseTypes.CommandLine.Run
import ProseTypes.Proofs.CommandLine.ModuleFiles
import ProseTypes.Proofs.Compilation.Requests
import ProseTypes.Proofs.FileTree.Inputs

/-!
# How a run ends

A run is refused for what it finds before it writes (`CommandLine.Refuses`).  Then it prints nothing and
leaves the file system as it was.  Otherwise it sets out to make some changes (`CommandLine.Due`).  If they
all succeed, it leaves exactly the files that it should: the request manifest and, for input files, one for
each module (`CommandLine.outcome_run`).  If one of them does not, the run fails and says so
(`CommandLine.exists_failure_run`).
-/

namespace ProseTypes

namespace CommandLine

/-! ### What a run is refused for -/

/-- A run is refused before it writes anything: the output directory is missing, the format is not known, an
input is a mistaken pattern, or nothing can be read. -/
inductive Refuses (arguments : Arguments) (around : Surroundings) : Failure → Prop where
  | output : arguments.files ≠ [] → arguments.value? .output = none →
      Refuses arguments around .outputMissing
  | format {name} : arguments.value? .format = some name → name ∉ ["typescript", "ts", "json"] →
      Refuses arguments around (.unknownFormat name)
  | pattern {input} : input ∈ arguments.files → around.system.isFile input = false →
      Pattern.ofText? (Source.patternOf around.system input) = none →
      Refuses arguments around (.badPattern (Source.patternOf around.system input))
  | unread {paths} : arguments.files ≠ [] →
      (Source.expand around.system arguments.files).2 = .ok paths →
      (∀ path ∈ paths, around.system.readText? path = none) → Refuses arguments around .noInput
  | input : arguments.files = [] → String.fromUTF8? around.input = none →
      Refuses arguments around .inputUnreadable

variable {arguments : Arguments} {around : Surroundings}

theorem format_eq_error_iff {cause : Failure} : arguments.format = .error cause ↔
    ∃ name, arguments.value? .format = some name ∧ name ∉ ["typescript", "ts", "json"] ∧
      cause = .unknownFormat name := by
  rw [Arguments.format, Format.ofName]
  cases arguments.value? .format with
  | none => simp
  | some name =>
    by_cases hFirst : name = "typescript" <;> by_cases hSecond : name = "ts" <;>
      by_cases hThird : name = "json" <;> simp [hFirst, hSecond, hThird, eq_comm]

theorem refuses_of_format {cause : Failure} (h : arguments.format = .error cause) :
    Refuses arguments around cause := by
  obtain ⟨name, hName, hOther, rfl⟩ := format_eq_error_iff.mp h
  exact .format hName hOther

theorem not_refuses_of_input {text : String} {format : Format} (hFiles : arguments.files = [])
    (hText : String.fromUTF8? around.input = some text) (hFormat : arguments.format = .ok format)
    (cause : Failure) : ¬Refuses arguments around cause := by
  intro h
  cases h with
  | output hSome _ => exact hSome hFiles
  | @format name hName hOther =>
    rw [format_eq_error_iff.mpr ⟨name, hName, hOther, rfl⟩] at hFormat
    cases hFormat
  | pattern hMem _ _ => simp [hFiles] at hMem
  | unread hSome _ _ => exact hSome hFiles
  | input _ hNone => simp [hNone] at hText

theorem not_refuses_of_files {output : String} {format : Format} {paths : List String}
    {sources : List Source} (hFiles : arguments.files ≠ [])
    (hOutput : arguments.value? .output = some output) (hFormat : arguments.format = .ok format)
    (hPaths : (Source.expand around.system arguments.files).2 = .ok paths)
    (hSources : (Source.readAll around.system (arguments.value? .root) paths).2 = .ok sources)
    (cause : Failure) : ¬Refuses arguments around cause := by
  intro h
  cases h with
  | output _ hNone => simp [hNone] at hOutput
  | @format name hName hOther =>
    rw [format_eq_error_iff.mpr ⟨name, hName, hOther, rfl⟩] at hFormat
    cases hFormat
  | pattern hMem hNot hPattern =>
    obtain ⟨all, hAll, -⟩ := Source.expand_eq_ok hPaths
    obtain ⟨found, hFound, -⟩ := (Source.mem_collect hAll).1 _ hMem
    rw [Source.filesOf_eq_error_iff.mpr ⟨hNot, hPattern, rfl⟩] at hFound
    cases hFound
  | unread _ hSame hNone =>
    obtain rfl := Except.ok.inj (hPaths.symm.trans hSame)
    obtain ⟨path, hPath, hRead⟩ := (Source.readAll_eq_ok hSources).1
    exact hRead (hNone path hPath)
  | input hEmpty _ => exact hFiles hEmpty

/-! ### What a run sets out to do -/

/-- What a run has to print, and the changes that it has to make, in their order.  On standard input these are for
the manifest; on files the output directory is made first, and the modules come before the manifest.  Nothing is
due from a run that is refused. -/
inductive Due (arguments : Arguments) (around : Surroundings) : String → List Change → Prop where
  | input {text format program} : arguments.files = [] →
      String.fromUTF8? around.input = some text → arguments.format = .ok format →
      program = arguments.compile [Document.ofText arguments.documentPath text] →
      Due arguments around
        ("\n".intercalate (program.registry.modules.map (format.render program.registry)))
        (changesOf (manifestTexts arguments program.requests))
  | files {output format paths sources program} : arguments.files ≠ [] →
      arguments.value? .output = some output → arguments.format = .ok format →
      (Source.expand around.system arguments.files).2 = .ok paths →
      (Source.readAll around.system (arguments.value? .root) paths).2 = .ok sources →
      program = arguments.compile (sources.map Source.document) →
      Due arguments around "" (.directory output ::
        changesOf (moduleTexts output format program.registry program.registry.modules ++
          manifestTexts arguments program.requests))

/-- A run has printed a text and made all of the changes, unless one of them does not succeed. -/
structure Makes (before : FileSystem) (changes : List Change) (printed : String) (result : Result) :
    Prop where
  printed_eq : result.printed = printed
  made : result.failure = none → before.changes? changes = some result.system
  failed : ∀ cause, result.failure = some cause →
    before.changes? changes = none ∧ cause.isOfWriting = true

namespace Makes

variable {before middle : FileSystem} {first rest changes : List Change} {printed : String}
  {result : Result}

theorem done (h : Makes before changes printed result) (hWrites : (before.changes? changes).isSome) :
    result.failure = none ∧ before.changes? changes = some result.system := by
  have hNone : result.failure = none := by
    refine Option.eq_none_iff_forall_ne_some.mpr fun cause hCause => ?_
    rw [(h.failed cause hCause).1] at hWrites
    cases hWrites
  exact ⟨hNone, h.made hNone⟩

theorem after (hFirst : before.changes? first = some middle) (h : Makes middle rest printed result) :
    Makes before (first ++ rest) printed result := by
  have hChanges : before.changes? (first ++ rest) = middle.changes? rest := by
    rw [FileSystem.changes?_append, hFirst, Option.bind_some]
  exact ⟨h.printed_eq, hChanges ▸ h.made, hChanges ▸ h.failed⟩

/-- A run that ends with a failure to make some changes does not come to those behind them. -/
theorem of_failed (rest : List Change) {system : FileSystem} {journal : List Note} {cause : Failure}
    (hNone : before.changes? first = none) (hCause : cause.isOfWriting = true) :
    Makes before (first ++ rest) printed ⟨system, journal, printed, some cause⟩ := by
  refine ⟨rfl, nofun, fun failure h => ?_⟩
  cases h
  exact ⟨by rw [FileSystem.changes?_append, hNone, Option.bind_none], hCause⟩

end Makes

/-- **The last step of a run** writes the manifest, if the arguments name a file for it. -/
theorem makes_finish (arguments : Arguments) (requests : List Request) (system : FileSystem)
    (journal : List Note) (printed : String) :
    Makes system (changesOf (manifestTexts arguments requests)) printed
      (finish arguments requests system journal printed) := by
  unfold finish
  split
  · rename_i hWritten
    exact ⟨rfl, fun _ => deliverManifest_eq_ok_iff.mp hWritten, nofun⟩
  · rename_i failure hFailed
    have hNone : system.changes? (changesOf (manifestTexts arguments requests)) = none := by
      refine Option.eq_none_iff_forall_ne_some.mpr fun left hLeft => ?_
      rw [deliverManifest_eq_ok_iff.mpr hLeft] at hFailed
      cases hFailed
    simpa using Makes.of_failed [] hNone (isOfWriting_of_deliverManifest hFailed)

/-- **What sources compile to is written**, the modules first. -/
theorem makes_runOnSources (arguments : Arguments) (output : String) (format : Format)
    (sources : List Source) (journal : List Note) (system : FileSystem) :
    let program := arguments.compile (sources.map Source.document)
    Makes system (.directory output ::
        changesOf (moduleTexts output format program.registry program.registry.modules ++
          manifestTexts arguments program.requests)) ""
      (runOnSources arguments output format sources journal system) := by
  intro program
  have hOne (change : Change) : system.changes? [change] = system.change? change := by
    simp [FileSystem.changes?]
  rw [changesOf_append, ← List.singleton_append]
  unfold runOnSources
  dsimp only
  split
  · rename_i cause hFailed
    obtain ⟨hNone, rfl⟩ := makeDirectory_eq_error_iff.mp hFailed
    exact Makes.of_failed _ ((hOne _).trans hNone) rfl
  · rename_i made hMade
    refine Makes.after ((hOne _).trans (makeDirectory_eq_ok_iff.mp hMade)) ?_
    split
    · rename_i left notes cause hModules
      refine Makes.of_failed _ ?_ (isOfWriting_of_deliverModules hModules)
      refine Option.eq_none_iff_forall_ne_some.mpr fun after hAfter => ?_
      obtain ⟨others, hAll⟩ := (deliverModules_eq_iff ..).mpr hAfter
      rw [hAll] at hModules
      cases hModules
    · rename_i left notes hModules
      exact Makes.after ((deliverModules_eq_iff ..).mp ⟨notes, hModules⟩)
        (makes_finish arguments _ left _ "")

/-- **A run does what is due**, unless a change does not succeed. -/
theorem makes_run {printed : String} {changes : List Change} (h : Due arguments around printed changes) :
    Makes around.system changes printed (run arguments around) := by
  cases h with
  | input hFiles hText hFormat hProgram =>
    rw [run, hFiles, List.isEmpty_nil, if_pos rfl, runOnInput, hText]
    simp only [hFormat, ← hProgram, ← Text.join_eq_intercalate]
    exact makes_finish ..
  | files hFiles hOutput hFormat hPaths hSources hProgram =>
    have hSome : ¬arguments.files.isEmpty = true := by simpa using hFiles
    obtain ⟨notes, hExpand⟩ : ∃ notes, Source.expand around.system arguments.files = (notes, .ok _) :=
      ⟨_, Prod.ext rfl hPaths⟩
    obtain ⟨more, hRead⟩ :
        ∃ more, Source.readAll around.system (arguments.value? .root) _ = (more, .ok _) :=
      ⟨_, Prod.ext rfl hSources⟩
    rw [run, if_neg hSome, runOnFiles, hOutput, hFormat]
    simp only [hExpand, hRead, hProgram]
    exact makes_runOnSources ..

theorem refused_or_due (arguments : Arguments) (around : Surroundings) :
    (∃ cause, Refuses arguments around cause ∧ ∃ journal,
      run arguments around = ⟨around.system, journal, "", some cause⟩) ∨
    ∃ printed changes, Due arguments around printed changes := by
  unfold run
  split
  · rename_i hEmpty
    have hFiles := List.isEmpty_iff.mp hEmpty
    unfold runOnInput
    split
    · rename_i hNone
      exact Or.inl ⟨_, .input hFiles hNone, [], rfl⟩
    · rename_i text hText
      dsimp only
      split
      · rename_i cause hFormat
        exact Or.inl ⟨_, refuses_of_format hFormat, _, rfl⟩
      · rename_i format hFormat
        exact Or.inr ⟨_, _, .input hFiles hText hFormat rfl⟩
  · rename_i hEmpty
    have hFiles : arguments.files ≠ [] := by simpa using hEmpty
    unfold runOnFiles
    dsimp only
    split
    · rename_i hOutput
      exact Or.inl ⟨_, .output hFiles hOutput, _, rfl⟩
    · rename_i cause hOutput hFormat
      exact Or.inl ⟨_, refuses_of_format hFormat, _, rfl⟩
    · rename_i output format hOutput hFormat
      split
      · rename_i notes cause hExpand
        obtain ⟨input, hInput, hCause⟩ :=
          Source.exists_of_expand_eq_error (congrArg Prod.snd hExpand)
        obtain ⟨hNot, hPattern, rfl⟩ := Source.filesOf_eq_error_iff.mp hCause
        exact Or.inl ⟨_, .pattern hInput hNot hPattern, _, rfl⟩
      · rename_i notes paths hExpand
        have hPaths : (Source.expand around.system arguments.files).2 = .ok paths :=
          congrArg Prod.snd hExpand
        split
        · rename_i more cause hRead
          obtain ⟨rfl, hNone⟩ := Source.readAll_eq_error (congrArg Prod.snd hRead)
          exact Or.inl ⟨_, .unread hFiles hPaths hNone, _, rfl⟩
        · rename_i more sources hRead
          exact Or.inr ⟨_, _, .files hFiles hOutput hFormat hPaths (congrArg Prod.snd hRead) rfl⟩

/-! ### What a run leaves -/

/-- A run on standard input that has done what it should: it has printed what the modules are rendered as, and
written the manifest if the arguments name a file for it. -/
structure Printed (arguments : Arguments) (around : Surroundings) (result : Result) (text : String)
    (format : Format) (program : Progress) : Prop where
  files_eq : arguments.files = []
  text_eq : String.fromUTF8? around.input = some text
  format_eq : arguments.format = .ok format
  program_eq : program = arguments.compile [Document.ofText arguments.documentPath text]
  failure_eq : result.failure = none
  printed_eq : result.printed =
    "\n".intercalate (program.registry.modules.map (format.render program.registry))
  wrote : Wrote around.system result.system (manifestTexts arguments program.requests)

/-- A run on files that has done what it should: it has written a file of its own for each module of the
program that the sources compile to, and beside them the manifest, if its path leads to none of these files. -/
structure Written (arguments : Arguments) (around : Surroundings) (result : Result) (output : String)
    (format : Format) (sources : List Source) (program : Progress) : Prop where
  files_ne : arguments.files ≠ []
  output_eq : arguments.value? .output = some output
  format_eq : arguments.format = .ok format
  sources_eq : ∃ paths, (Source.expand around.system arguments.files).2 = .ok paths ∧
    (Source.readAll around.system (arguments.value? .root) paths).2 = .ok sources
  program_eq : program = arguments.compile (sources.map Source.document)
  failure_eq : result.failure = none
  printed_eq : result.printed = ""
  apart : result.system.Apart (moduleTexts output format program.registry program.registry.modules)
  wrote : (∀ text ∈ moduleTexts output format program.registry program.registry.modules,
      ∀ manifest ∈ manifestTexts arguments program.requests,
        result.system.find? text.1 ≠ result.system.find? manifest.1) →
    Wrote around.system result.system
      (moduleTexts output format program.registry program.registry.modules ++
        manifestTexts arguments program.requests)

/-- How a run ends, if no change to the file system fails: it is refused and changes nothing, or it has done what
it should. -/
inductive Outcome (arguments : Arguments) (around : Surroundings) (result : Result) : Prop where
  | refused {cause} : Refuses arguments around cause → result.failure = some cause →
      result.printed = "" → result.system = around.system → Outcome arguments around result
  | printed {text format program} : (∀ cause, ¬Refuses arguments around cause) →
      Printed arguments around result text format program → Outcome arguments around result
  | written {output format sources program} : (∀ cause, ¬Refuses arguments around cause) →
      Written arguments around result output format sources program →
      Outcome arguments around result

theorem apart_moduleTexts_sources {system left : FileSystem} {root : Option String} {paths : List String}
    {sources : List Source} (h : (Source.readAll system root paths).2 = .ok sources) {output : String}
    {format : Format} :
    let registry := (arguments.compile (sources.map Source.document)).registry
    (∀ text ∈ moduleTexts output format registry registry.modules, (left.find? text.1).isSome) →
      left.Apart (moduleTexts output format registry registry.modules) := by
  refine apart_moduleTexts fun document hDocument => ?_
  obtain ⟨source, hSource, rfl⟩ := List.mem_map.mp hDocument
  obtain ⟨path, hPath⟩ := (Source.readAll_eq_ok h).2 source hSource
  rw [show source.document.path = source.path from rfl, hPath]
  exact Path.plain_relative path root

theorem apart_manifestTexts (system : FileSystem) (requests : List Request) :
    system.Apart (manifestTexts arguments requests) := by
  unfold manifestTexts FileSystem.Apart
  cases arguments.value? .requests <;> simp

theorem delivered_of_directory {before after : FileSystem} {output : String}
    {texts : List (String × String)}
    (h : before.changes? (.directory output :: changesOf texts) = some after) :
    Delivered before after texts := by
  obtain ⟨made, hMade, hTexts⟩ := Option.bind_eq_some_iff.mp h
  have hDone := delivered_of_changes? hTexts
  exact { hDone with keeps := (keeps_of_makeDirectory? hMade).trans hDone.keeps }

/-- **A run from which something is due has done what it should**, if the changes succeed. -/
theorem outcome_of_due {printed : String} {changes : List Change} {result : Result}
    (hDue : Due arguments around printed changes) (h : Makes around.system changes printed result)
    (hWrites : (around.system.changes? changes).isSome) : Outcome arguments around result := by
  obtain ⟨hNone, hMade⟩ := h.done hWrites
  cases hDue with
  | input hFiles hText hFormat hProgram =>
    have hDone := delivered_of_changes? hMade
    exact .printed (not_refuses_of_input hFiles hText hFormat)
      { files_eq := hFiles, text_eq := hText, format_eq := hFormat, program_eq := hProgram,
        failure_eq := hNone, printed_eq := h.printed_eq,
        wrote := hDone.wrote (apart_manifestTexts _ _) }
  | files hFiles hOutput hFormat hPaths hSources hProgram =>
    subst hProgram
    have hDone := delivered_of_directory hMade
    have hModules := apart_moduleTexts_sources hSources fun text hText =>
      hDone.found text (List.mem_append_left _ hText)
    exact .written (not_refuses_of_files hFiles hOutput hFormat hPaths hSources)
      { files_ne := hFiles, output_eq := hOutput, format_eq := hFormat,
        sources_eq := ⟨_, hPaths, hSources⟩, program_eq := rfl, failure_eq := hNone,
        printed_eq := h.printed_eq, apart := hModules,
        wrote := fun hManifest => hDone.wrote
          (List.pairwise_append.mpr ⟨hModules, apart_manifestTexts _ _, hManifest⟩) }

/-- **A run does everything or nothing**, if the changes to the file system that it has to make succeed.  If it is
refused, it prints nothing and leaves the file system as it was.  Otherwise a run on standard input prints what
its modules are rendered as and writes the manifest at most, and a run on files prints nothing and writes each
module to a file of its own, and the manifest beside them. -/
theorem outcome_run (arguments : Arguments) (around : Surroundings)
    (hWrites : ∀ printed changes, Due arguments around printed changes →
      (around.system.changes? changes).isSome) :
    Outcome arguments around (run arguments around) := by
  rcases refused_or_due arguments around with ⟨cause, hRefused, journal, hRun⟩ | ⟨_, changes, hDue⟩
  · rw [hRun]
    exact .refused hRefused rfl rfl rfl
  · exact outcome_of_due hDue (makes_run hDue) (hWrites _ changes hDue)

/-- A directory with one document, in which a section has a table of fields. -/
def guide : Surroundings where
  system := ⟨.directory [("guide.md", .file
    "# User Object\n\n| Field | Type |\n|-|-|\n| name | string |\n".toUTF8)], []⟩
  input := .empty

/-- The document is compiled to another directory, which is not there, with a manifest beside the module. -/
def guideArguments : Arguments :=
  ⟨["guide.md"], [(.output, "out"), (.requests, "out/requests.json")], []⟩

def guideSources : List Source :=
  [⟨"guide.md", ["# User Object", "", "| Field | Type |", "|-|-|", "| name | string |"]⟩]

theorem texts_guide :
    let program := guideArguments.compile (guideSources.map Source.document)
    moduleTexts "out" .declarations program.registry program.registry.modules =
      [("out/guide.ts", "export interface User \x7b\n\tname: string;\n\x7d\n")] ∧
    manifestTexts guideArguments program.requests = [("out/requests.json", "[]\n")] := by
  let corpus : Corpus := ⟨guideSources.map Source.document, 1⟩
  let user : Resource := ⟨"User", .fields, ⟨["Field", "Type"], [["name", "string"]]⟩, "guide.md",
    "GUIDE/user-object"⟩
  have hSubjects : corpus.subjects.map (fun target => (target.asked, target.responsePhrase?.isSome,
      target.here.requestTitle?.isSome)) = [([user], false, false)] := by
    decide +kernel
  obtain ⟨target, hTarget, hFacts⟩ := List.map_eq_singleton_iff.mp hSubjects
  simp only [Prod.mk.injEq, Option.isSome_eq_false_iff, Option.isNone_iff_eq_none] at hFacts
  obtain ⟨hAsked, hResponse, hTitle⟩ := hFacts
  have hRequests : (corpus.compile .everything).requests = [] := by
    have h := corpus.named_requests_compile .everything
    rw [hTarget] at h
    simpa [Target.documented?, hTitle] using h
  have hRegistry : (corpus.compile .everything).registry =
      (Registry.empty.declare user).completeAs corpus.index user := by
    have hLinks : user.links corpus.index = [] := by
      decide +kernel
    rw [corpus.registry_compile, hTarget, Registry.serveAll, List.foldl_cons, List.foldl_nil,
      Registry.serve, hAsked, Target.responseLinks, hResponse, Option.toList_none, List.flatMap_nil,
      Registry.reach_nil, Registry.enterAll, List.foldl_cons, List.foldl_nil,
      Registry.enter_of_new (by decide), hLinks, Registry.reach_nil]
  change moduleTexts "out" .declarations (corpus.compile .everything).registry
    (corpus.compile .everything).registry.modules = _ ∧
      manifestTexts guideArguments (corpus.compile .everything).requests = _
  rw [hRequests, hRegistry]
  refine ⟨by decide +kernel, ?_⟩
  have hManifest : Request.manifest [] = "[]" := by
    simp [Request.manifest, Json.text, Json.textAt]
  rw [manifestTexts, hManifest]
  rfl

theorem expand_guide : (Source.expand guide.system guideArguments.files).2 = .ok ["guide.md"] := by
  decide +kernel

theorem readAll_guide : (Source.readAll guide.system (guideArguments.value? .root) ["guide.md"]).2 =
    .ok guideSources := by
  decide +kernel

theorem due_guide_iff {printed : String} {changes : List Change} :
    Due guideArguments guide printed changes ↔ printed = "" ∧ changes = .directory "out" ::
      changesOf [("out/guide.ts", "export interface User \x7b\n\tname: string;\n\x7d\n"),
        ("out/requests.json", "[]\n")] := by
  obtain ⟨hModules, hManifest⟩ := texts_guide
  constructor
  · intro h
    cases h with
    | input hFiles => cases hFiles
    | files _ hOutput hFormat hPaths hSources hProgram =>
      cases expand_guide.symm.trans hPaths
      cases readAll_guide.symm.trans hSources
      cases hOutput
      cases hFormat
      rw [hProgram, hModules, hManifest]
      exact ⟨rfl, rfl⟩
  · rintro ⟨rfl, rfl⟩
    have hDue : Due guideArguments guide "" _ :=
      .files (by decide) rfl rfl expand_guide readAll_guide rfl
    rwa [hModules, hManifest] at hDue

theorem changes?_guide : ∃ left, guide.system.changes? (.directory "out" ::
      changesOf [("out/guide.ts", "export interface User \x7b\n\tname: string;\n\x7d\n"),
        ("out/requests.json", "[]\n")]) = some left ∧
    left.find? "out/guide.ts" = some ["out", "guide.ts"] ∧
    left.find? "out/requests.json" = some ["out", "requests.json"] := by
  refine ⟨_, rfl, ?_, ?_⟩ <;> decide

/-- The module and the manifest are written in a directory that is made for them, and nothing else is. -/
theorem outcome_run_guide :
    (∀ printed changes, Due guideArguments guide printed changes →
      (guide.system.changes? changes).isSome) ∧
    (run guideArguments guide).failure = none ∧
    Wrote guide.system (run guideArguments guide).system
      [("out/guide.ts", "export interface User \x7b\n\tname: string;\n\x7d\n"),
        ("out/requests.json", "[]\n")] := by
  obtain ⟨left, hLeft, hModule, hRequests⟩ := changes?_guide
  have hWrites : ∀ printed changes, Due guideArguments guide printed changes →
      (guide.system.changes? changes).isSome := by
    intro printed changes h
    obtain ⟨-, rfl⟩ := due_guide_iff.mp h
    exact Option.isSome_of_eq_some hLeft
  have hDue := due_guide_iff.mpr ⟨rfl, rfl⟩
  obtain ⟨hNone, hMade⟩ := (makes_run hDue).done (hWrites _ _ hDue)
  obtain rfl : left = (run guideArguments guide).system := Option.some.inj (hLeft.symm.trans hMade)
  refine ⟨hWrites, hNone, ?_⟩
  cases outcome_run guideArguments guide hWrites with
  | refused _ hFailure =>
    rw [hNone] at hFailure
    cases hFailure
  | printed _ h => cases h.files_eq
  | written _ h =>
    obtain ⟨paths, hPaths, hSources⟩ := h.sources_eq
    cases expand_guide.symm.trans hPaths
    cases readAll_guide.symm.trans hSources
    cases h.output_eq
    cases h.format_eq
    obtain ⟨hModules, hManifest⟩ := texts_guide
    have hWrote := h.wrote
    rw [h.program_eq, hModules, hManifest] at hWrote
    refine hWrote ?_
    simp only [List.mem_singleton, forall_eq, hModule, hRequests]
    decide

/-- **A run fails if a change that is due does not succeed**, and the failure names what could not be made. -/
theorem exists_failure_run {printed : String} {changes : List Change}
    (hDue : Due arguments around printed changes) (hNone : around.system.changes? changes = none) :
    ∃ cause, (run arguments around).failure = some cause ∧ cause.isOfWriting = true := by
  have hMakes := makes_run hDue
  cases hCause : (run arguments around).failure with
  | none =>
    rw [hMakes.made hCause] at hNone
    cases hNone
  | some cause => exact ⟨cause, rfl, (hMakes.failed cause hCause).2⟩

end CommandLine

end ProseTypes
