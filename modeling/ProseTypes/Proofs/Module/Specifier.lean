import ProseTypes.Module.Path
import ProseTypes.Proofs.FileTree.Spelling

/-!
# Where specifiers lead

A specifier is followed segment by segment from the directory of the module that it stands in: `.`
stays, `..` leaves the directory, and any other segment goes down.  From one module to another it never
leaves the root, and it leads to the other module (`ModulePath.follow?_specifier`), unless that module
lies on the way to the directory.  Then nothing is left to go down to, and the specifier ends with a slash
and leads to the directory of that name instead.
-/

namespace ProseTypes

namespace ModulePath

open ProseTypes.Path (segments segments_join slash_not_mem_of_mem_segments)

theorem join_cons {text : String} {texts : List String} (hSome : texts ≠ []) :
    Text.join "/" (text :: texts) = text ++ "/" ++ Text.join "/" texts := by
  obtain ⟨next, rest, rfl⟩ := List.exists_cons_of_ne_nil hSome
  exact Text.join_cons_cons "/" text next rest

/-! ### Steps -/

/-- One step from a directory, given by its segments.  There is no way up from the root. -/
def step? (directory : List String) (segment : String) : Option (List String) :=
  if segment = "." then some directory
  else if segment = ".." then if directory.isEmpty then none else some directory.dropLast
  else some (directory ++ [segment])

def follow? (directory : List String) (specifier : String) : Option (List String) :=
  (segments specifier).foldlM step? directory

def directory (path : String) : List String :=
  (segments path).dropLast

def Plain (path : String) : Prop :=
  ∀ segment ∈ segments path, segment ≠ "" ∧ segment ≠ "." ∧ segment ≠ ".."

theorem foldlM_step?_up (common up : List String) :
    (List.replicate up.length "..").foldlM step? (common ++ up) = some common := by
  induction up using List.reverseRecOn with
  | nil => simp
  | append_singleton up last ih =>
    have hStep : step? (common ++ (up ++ [last])) ".." = some (common ++ up) := by
      rw [← List.append_assoc]
      simp [step?]
    rw [List.length_append, List.length_singleton, List.replicate_succ, List.foldlM_cons, hStep]
    exact ih

theorem foldlM_step?_down (directory : List String) {down : List String}
    (hDown : ∀ segment ∈ down, segment ≠ "." ∧ segment ≠ "..") :
    down.foldlM step? directory = some (directory ++ down) := by
  induction down generalizing directory with
  | nil => simp
  | cons segment down ih =>
    obtain ⟨hCurrent, hParent⟩ := hDown segment List.mem_cons_self
    have hStep : step? directory segment = some (directory ++ [segment]) := by
      rw [step?, if_neg hCurrent, if_neg hParent]
    rw [List.foldlM_cons, hStep]
    refine (ih _ fun s hs => hDown s (List.mem_cons_of_mem _ hs)).trans ?_
    rw [List.append_assoc, List.singleton_append]

/-! ### Specifiers -/

theorem exists_common (first second : List String) :
    ∃ common, first = common ++ (dropCommon first second).1 ∧
      second = common ++ (dropCommon first second).2 := by
  induction first, second using dropCommon.induct with
  | case1 as segment bs ih =>
    obtain ⟨common, hFirst, hSecond⟩ := ih
    refine ⟨segment :: common, ?_, ?_⟩
    · rw [dropCommon, if_pos rfl, List.cons_append, ← hFirst]
    · rw [dropCommon, if_pos rfl, List.cons_append, ← hSecond]
  | case2 a as b bs hDiffer => exact ⟨[], by rw [dropCommon, if_neg hDiffer]; simp⟩
  | case3 as bs hNot => exact ⟨[], by simp [dropCommon]⟩

theorem head?_dropCommon {first second : List String} {segment : String}
    (h : (dropCommon first second).1.head? = some segment) :
    (dropCommon first second).2.head? ≠ some segment := by
  fun_induction dropCommon first second with
  | case1 as segment bs ih => exact ih h
  | case2 a as b bs hDiffer =>
    cases h
    exact fun hSame => hDiffer (Option.some.inj hSame).symm
  | case3 as bs hNot =>
    cases as with
    | nil => cases h
    | cons a as =>
      cases bs with
      | nil => exact nofun
      | cons b bs => exact absurd rfl (hNot a as b bs rfl)

theorem dropCommon_snd_eq_nil {first second : List String} :
    (dropCommon first second).2 = [] ↔ second <+: first := by
  constructor
  · intro h
    obtain ⟨common, hFirst, hSecond⟩ := exists_common first second
    rw [h, List.append_nil] at hSecond
    exact ⟨_, by rw [hSecond]; exact hFirst.symm⟩
  · rintro ⟨rest, rfl⟩
    induction second with
    | nil => cases rest <;> rfl
    | cons segment second ih => rw [List.cons_append, dropCommon, if_pos rfl, ih]

/-- How a specifier from the module at one path to the module at another is spelled: a step up for each directory
that the paths do not share, or `./` if there are none, and then the segments down to the other module. -/
def Spells (source target text : String) : Prop :=
  ∃ (common up down : List String) (file : String),
    (∀ segment ∈ common ++ up ++ file :: down, '/' ∉ segment.toList) ∧
    source = "/".intercalate (common ++ up ++ [file]) ∧ target = "/".intercalate (common ++ down) ∧
    (∀ segment, up.head? = some segment → down.head? ≠ some segment) ∧
    text = (if up = [] then "./" else String.join (List.replicate up.length "../")) ++
      "/".intercalate down

/-- The segments that lie between the directory of a module and another module, above and below where
the two paths part. -/
def route (source target : String) : List String × List String :=
  dropCommon (directory source) (segments target)

theorem exists_route (source target : String) :
    ∃ common, directory source = common ++ (route source target).1 ∧
      segments target = common ++ (route source target).2 :=
  exists_common (directory source) (segments target)

theorem spells_specifier (source target : String) : Spells source target (specifier source target) := by
  obtain ⟨common, hDirectory, hTarget⟩ := exists_route source target
  have hSource : segments source = common ++ (route source target).1 ++
      [(segments source).getLast (Path.segments_ne_nil source)] := by
    rw [← hDirectory]
    exact (List.dropLast_append_getLast _).symm
  refine ⟨common, (route source target).1, (route source target).2, _, fun segment hSegment => ?_,
    (Path.intercalate_segments source).symm.trans (congrArg _ hSource),
    (Path.intercalate_segments target).symm.trans (congrArg _ hTarget),
    fun segment => head?_dropCommon, ?_⟩
  · -- Every segment is one of the two paths'.
    have hMem : segment ∈ segments source ∨ segment ∈ segments target := by
      rw [hSource, hTarget]
      simp only [List.mem_append, List.mem_cons, List.not_mem_nil, or_false] at hSegment ⊢
      tauto
    rcases hMem with hMem | hMem <;> exact slash_not_mem_of_mem_segments hMem
  · rw [specifier, ← Text.join_eq_intercalate, ← List.map_const']
    simp only [List.isEmpty_iff]
    rfl

/-- The steps of a specifier.  If it ends with a slash, the last step is to nothing. -/
def steps (up down : List String) : List String :=
  (if up.isEmpty then ["."] else List.replicate up.length "..") ++ if down.isEmpty then [""] else down

theorem steps_ne_nil (up down : List String) : steps up down ≠ [] := by
  cases up <;> simp [steps]

theorem mem_steps {up down : List String} {text : String} (h : text ∈ steps up down) :
    text ∈ [".", "..", ""] ∨ text ∈ down := by
  rcases List.mem_append.mp h with hUp | hDown
  · left
    split at hUp
    · rw [List.mem_singleton.mp hUp]
      simp
    · rw [List.eq_of_mem_replicate hUp]
      simp
  · split at hDown
    · rw [List.mem_singleton.mp hDown]
      simp
    · exact Or.inr hDown

theorem join_up (up : List String) {last : List String} (hLast : last ≠ []) :
    String.join (up.map fun _ => "../") ++ Text.join "/" last =
      Text.join "/" (List.replicate up.length ".." ++ last) := by
  induction up with
  | nil => simp
  | cons segment up ih =>
    have hSome : List.replicate up.length ".." ++ last ≠ [] := by simp [hLast]
    rw [List.length_cons, List.replicate_succ, List.cons_append, join_cons hSome, ← ih,
      List.map_cons, String.join_cons, String.append_assoc]
    rfl

theorem join_steps (up down : List String) :
    (if up.isEmpty then "./" else String.join (up.map fun _ => "../")) ++ Text.join "/" down =
      Text.join "/" (steps up down) := by
  have hLast : Text.join "/" down = Text.join "/" (if down.isEmpty then [""] else down) := by
    cases down <;> rfl
  have hSome : (if down.isEmpty then [""] else down) ≠ [] := by
    cases down <;> simp
  rw [steps, hLast]
  cases up with
  | nil =>
    have hCurrent : "./" = "." ++ "/" := by decide
    rw [List.isEmpty_nil, if_pos rfl, if_pos rfl, List.singleton_append, join_cons hSome, hCurrent]
  | cons segment up => exact join_up (segment :: up) hSome

/-- **A specifier is cut into its steps.** -/
theorem segments_specifier (source target : String) :
    segments (specifier source target) = steps (route source target).1 (route source target).2 := by
  have hJoin : specifier source target =
      Text.join "/" (steps (route source target).1 (route source target).2) :=
    join_steps (route source target).1 (route source target).2
  rw [hJoin]
  refine segments_join (steps_ne_nil _ _) fun text hText => ?_
  rcases mem_steps hText with hSign | hDown
  · simp only [List.mem_cons, List.not_mem_nil, or_false] at hSign
    rcases hSign with rfl | rfl | rfl <;> decide
  · obtain ⟨common, -, hTarget⟩ := exists_route source target
    have hMem : text ∈ segments target := by
      rw [hTarget]
      exact List.mem_append_right _ hDown
    exact slash_not_mem_of_mem_segments hMem

theorem foldlM_steps (common up : List String) {down : List String}
    (hDown : ∀ segment ∈ down, segment ≠ "." ∧ segment ≠ "..") :
    (steps up down).foldlM step? (common ++ up) =
      some (common ++ if down.isEmpty then [""] else down) := by
  have hUp : (if up.isEmpty then ["."] else List.replicate up.length "..").foldlM step?
      (common ++ up) = some common := by
    cases up with
    | nil => simp [step?]
    | cons segment up => exact foldlM_step?_up common (segment :: up)
  have hLast : ∀ segment ∈ if down.isEmpty then [""] else down, segment ≠ "." ∧ segment ≠ ".." := by
    intro segment hSegment
    split at hSegment
    · rw [List.mem_singleton.mp hSegment]
      decide
    · exact hDown segment hSegment
  rw [steps, List.foldlM_append, hUp]
  exact foldlM_step?_down common hLast

/-- **A specifier begins in the directory or above it.** -/
theorem exists_specifier (source target : String) :
    ∃ rest, specifier source target = "./" ++ rest ∨ specifier source target = "../" ++ rest := by
  have hParts : specifier source target =
      (if (route source target).1.isEmpty then "./"
        else String.join ((route source target).1.map fun _ => "../")) ++
          Text.join "/" (route source target).2 := rfl
  rw [hParts]
  cases (route source target).1 with
  | nil => exact ⟨_, Or.inl rfl⟩
  | cons segment up =>
    refine ⟨String.join (up.map fun _ => "../") ++ Text.join "/" (route source target).2, Or.inr ?_⟩
    rw [List.isEmpty_cons, if_neg Bool.false_ne_true, List.map_cons, String.join_cons,
      String.append_assoc]

/-- What a specifier leads to: the other module, or an empty name in the directory that is named like it. -/
theorem follow?_specifier_eq (source : String) {target : String} (hTarget : Plain target) :
    follow? (directory source) (specifier source target) =
      if segments target <+: directory source then some (segments target ++ [""])
      else some (segments target) := by
  obtain ⟨common, hSource, hSegments⟩ := exists_route source target
  have hNames : ∀ segment ∈ (route source target).2, segment ≠ "." ∧ segment ≠ ".." := by
    intro segment hSegment
    have hMem : segment ∈ segments target := by
      rw [hSegments]
      exact List.mem_append_right _ hSegment
    exact (hTarget segment hMem).2
  have hFollow : follow? (directory source) (specifier source target) =
      some (common ++ if (route source target).2.isEmpty then [""] else (route source target).2) := by
    rw [follow?, segments_specifier]
    conv_lhs => rw [hSource]
    exact foldlM_steps common _ hNames
  rw [hFollow]
  by_cases hWay : segments target <+: directory source
  · have hDown : (route source target).2 = [] := dropCommon_snd_eq_nil.mpr hWay
    have hCommon : segments target = common := by rw [hSegments, hDown, List.append_nil]
    rw [if_pos hWay, hDown, hCommon]
    rfl
  · have hDown : (route source target).2 ≠ [] := fun h => hWay (dropCommon_snd_eq_nil.mp h)
    have hSome : (route source target).2.isEmpty = false := by simpa using hDown
    rw [if_neg hWay, hSome]
    exact congrArg some hSegments.symm

/-- **A specifier leads from the directory of one module to another module**, and no step goes above the
root, unless the other module lies on the way to that directory: then nothing is left to go down to, and
the last step leads to an empty name in a directory with the name of the module. -/
theorem follow?_specifier (source : String) {target : String} (hTarget : Plain target) :
    (∃ rest, specifier source target = "./" ++ rest ∨ specifier source target = "../" ++ rest) ∧
    follow? (directory source) (specifier source target) =
      if segments target <+: directory source then some (segments target ++ [""])
      else some (segments target) :=
  ⟨exists_specifier source target, follow?_specifier_eq source hTarget⟩

theorem follow?_specifier_up : Plain "interactions/Receiving" ∧
    specifier "resources/Guild" "interactions/Receiving" = "../interactions/Receiving" ∧
    follow? (directory "resources/Guild") (specifier "resources/Guild" "interactions/Receiving") =
      some ["interactions", "Receiving"] := by
  have hPlain : Plain "interactions/Receiving" := by
    unfold Plain
    decide +kernel
  have hFollow := (follow?_specifier "resources/Guild" hPlain).2
  rw [if_neg (by decide +kernel)] at hFollow
  exact ⟨hPlain, by decide +kernel, hFollow.trans (by decide +kernel)⟩

theorem follow?_specifier_beside : "a/b" ≠ "a" ∧ Plain "a/b" ∧ Plain "a" ∧
    specifier "a/b" "a" = "./" ∧ follow? (directory "a/b") (specifier "a/b" "a") = some ["a", ""] ∧
    follow? (directory "a/b") (specifier "a/b" "a") ≠ some (segments "a") ∧
    follow? (directory "a/b") "../a" = some (segments "a") := by
  unfold Plain
  decide +kernel

end ModulePath

end ProseTypes
