import ProseTypes.CommandLine.Output
import ProseTypes.Proofs.FileTree.Changes

/-!
# Texts that have been delivered

A text is delivered to a path: the directory that it lies in is made, then the file is written.  These are
changes to the file system (`Change`), each of which succeeds or does not, and the texts are delivered just
when all of them succeed (`CommandLine.deliverModules_eq_iff`).

After some deliveries every path leads to a file, no other file has changed, and if the paths lead to
different places each file holds its text (`CommandLine.Delivered`).  Deliveries one after the other add up
(`Delivered.append`), so what holds of one holds of all (`delivered_of_changes?`).
-/

namespace ProseTypes

/-- Says whether a directory could not be made or a file not be written. -/
def Failure.isOfWriting : Failure → Bool
  | outputDirectory _ | directory _ | unwritable _ => true
  | _ => false

/-- One change to a file system. -/
inductive Change where
  | directory (path : String)
  | file (path text : String)

namespace FileSystem

/-- The system with a change made, if it succeeds.  The empty path is the current directory, which is there. -/
def change? (system : FileSystem) : Change → Option FileSystem
  | .directory path => if path = "" then some system else system.makeDirectory? path
  | .file path text => system.write? path text.toUTF8

/-- The system with changes made one after the other, if all of them succeed. -/
def changes? (system : FileSystem) (changes : List Change) : Option FileSystem :=
  changes.foldlM change? system

theorem changes?_append (system : FileSystem) (first second : List Change) :
    system.changes? (first ++ second) = (system.changes? first).bind fun made => made.changes? second :=
  List.foldlM_append

def placesOf (system : FileSystem) (texts : List (String × String)) : List (List String) :=
  texts.filterMap fun text => system.find? text.1

/-- The path of a text leads to a file that holds it. -/
def Holds (system : FileSystem) (text : String × String) : Prop :=
  (system.find? text.1).bind system.tree.read? = some text.2.toUTF8

/-- No two of the paths of some texts lead to the same place. -/
def Apart (system : FileSystem) (texts : List (String × String)) : Prop :=
  texts.Pairwise fun a b => system.find? a.1 ≠ system.find? b.1

end FileSystem

namespace CommandLine

variable {before middle after : FileSystem} {texts more : List (String × String)} {path text : String}

/-- Texts have been delivered: their paths lead somewhere, nothing but the files there has changed, and
these hold the texts if they are different files. -/
structure Delivered (before after : FileSystem) (texts : List (String × String)) : Prop where
  found : ∀ text ∈ texts, (after.find? text.1).isSome
  keeps : before.Keeps after (after.placesOf texts)
  holds : after.Apart texts → ∀ text ∈ texts, after.Holds text

/-- Exactly the files of some texts have been written: the paths lead to different files, these hold the
texts, and no other file has changed. -/
structure Wrote (before after : FileSystem) (texts : List (String × String)) : Prop where
  apart : after.Apart texts
  holds : ∀ text ∈ texts, after.Holds text
  keeps : before.Keeps after (after.placesOf texts)

theorem Delivered.wrote (h : Delivered before after texts) (hApart : after.Apart texts) :
    Wrote before after texts :=
  ⟨hApart, h.holds hApart, h.keeps⟩

theorem Delivered.nil (system : FileSystem) : Delivered system system [] :=
  ⟨by simp, FileSystem.Keeps.refl system, by simp⟩

/-- **Deliveries add up.**  A text that has been delivered stays, unless another one is delivered to the same
place. -/
theorem Delivered.append (h : Delivered before middle texts) (hMore : Delivered middle after more) :
    Delivered before after (texts ++ more) := by
  have hFind : ∀ text ∈ texts, after.find? text.1 = middle.find? text.1 := by
    intro text hText
    obtain ⟨place, hPlace⟩ := Option.isSome_iff_exists.mp (h.found text hText)
    rw [hPlace, hMore.keeps.find? hPlace]
  have hPlaces : after.placesOf (texts ++ more) = middle.placesOf texts ++ after.placesOf more := by
    rw [FileSystem.placesOf, List.filterMap_append, FileSystem.placesOf, FileSystem.placesOf]
    exact congrArg (· ++ _) (List.filterMap_congr fun text hText => hFind text hText)
  refine ⟨?_, hPlaces ▸ h.keeps.trans hMore.keeps, ?_⟩
  · intro text hText
    rcases List.mem_append.mp hText with hText | hText
    · rw [hFind text hText]
      exact h.found text hText
    · exact hMore.found text hText
  · intro hApart text hText
    obtain ⟨hFirst, hSecond, hCross⟩ := List.pairwise_append.mp hApart
    rcases List.mem_append.mp hText with hText | hText
    · have hMiddle : middle.Apart texts := hFirst.imp_of_mem fun {a b} ha hb hNe => by
        rwa [hFind a ha, hFind b hb] at hNe
      have hHolds := h.holds hMiddle text hText
      obtain ⟨place, hPlace, hRead⟩ := Option.bind_eq_some_iff.mp hHolds
      refine Option.bind_eq_some_iff.mpr ⟨place, (hFind text hText).trans hPlace, ?_⟩
      rw [hMore.keeps.read, hRead]
      -- No text behind this one has been delivered to its place.
      intro hMem
      obtain ⟨other, hOther, hSame⟩ := List.mem_filterMap.mp hMem
      exact hCross text hText other hOther (((hFind text hText).trans hPlace).trans hSame.symm)
    · exact hMore.holds hSecond text hText

/-! ### The changes that deliver texts -/

/-- The changes by which texts are delivered. -/
def changesOf (texts : List (String × String)) : List Change :=
  texts.flatMap fun text => [.directory (Path.parent text.1), .file text.1 text.2]

theorem changesOf_append (first second : List (String × String)) :
    changesOf (first ++ second) = changesOf first ++ changesOf second :=
  List.flatMap_append

theorem changes?_changesOf_cons (text : String × String) (rest : List (String × String)) :
    before.changes? (changesOf (text :: rest)) =
      (before.changes? (changesOf [text])).bind fun made => made.changes? (changesOf rest) := by
  rw [← List.singleton_append, changesOf_append, FileSystem.changes?_append]

theorem changes?_changesOf_singleton (text : String × String) :
    before.changes? (changesOf [text]) =
      (before.change? (.directory (Path.parent text.1))).bind fun made =>
        made.change? (.file text.1 text.2) := by
  simp [FileSystem.changes?, changesOf]

theorem keeps_of_makeDirectory? (h : before.change? (.directory path) = some after) :
    before.Keeps after [] := by
  rw [FileSystem.change?] at h
  split at h
  · cases h
    exact FileSystem.Keeps.refl _
  · exact FileSystem.keeps_makeDirectory? h

theorem delivered_of_write? (h : before.change? (.file path text) = some after) :
    Delivered before after [(path, text)] := by
  obtain ⟨place, hPlace, hRead, hKeeps⟩ := FileSystem.write?_eq_some h
  refine ⟨by simp [hPlace], by simpa [FileSystem.placesOf, hPlace] using hKeeps, fun _ => ?_⟩
  simpa [FileSystem.Holds, hPlace] using hRead

/-- **Texts are delivered by the changes for each of them**, whichever texts they are. -/
theorem delivered_of_changes? (h : before.changes? (changesOf texts) = some after) :
    Delivered before after texts := by
  induction texts generalizing before with
  | nil =>
    cases h
    exact Delivered.nil _
  | cons text rest ih =>
    rw [changes?_changesOf_cons, Option.bind_eq_some_iff] at h
    obtain ⟨middle, hFirst, hRest⟩ := h
    rw [changes?_changesOf_singleton, Option.bind_eq_some_iff] at hFirst
    obtain ⟨made, hMade, hWritten⟩ := hFirst
    have hText := delivered_of_write? hWritten
    have hOne : Delivered before middle [text] :=
      { hText with keeps := (keeps_of_makeDirectory? hMade).trans hText.keeps }
    exact hOne.append (ih hRest)

/-! ### What the steps of a run come to -/

theorem makeDirectory_eq_ok_iff {failure : String → Failure} :
    makeDirectory failure path before = .ok after ↔ before.change? (.directory path) = some after := by
  rw [makeDirectory, FileSystem.change?]
  split
  · simp
  · cases before.makeDirectory? path <;> simp

theorem makeDirectory_eq_error_iff {failure : String → Failure} {cause : Failure} :
    makeDirectory failure path before = .error cause ↔
      before.change? (.directory path) = none ∧ cause = failure path := by
  rw [makeDirectory, FileSystem.change?]
  split
  · simp
  · cases before.makeDirectory? path <;> simp [eq_comm]

theorem writeText_eq_ok_iff :
    writeText path text before = .ok after ↔ before.change? (.file path text) = some after := by
  rw [writeText, FileSystem.change?]
  cases before.write? path text.toUTF8 <;> simp

theorem deliver_eq_ok_iff : deliver path text before = .ok after ↔
    before.changes? (changesOf [(path, text)]) = some after := by
  rw [changes?_changesOf_singleton, Option.bind_eq_some_iff, deliver]
  constructor
  · intro h
    cases hMade : makeDirectory .directory (Path.parent path) before with
    | error cause =>
      rw [hMade] at h
      cases h
    | ok made =>
      rw [hMade] at h
      exact ⟨made, makeDirectory_eq_ok_iff.mp hMade, writeText_eq_ok_iff.mp h⟩
  · rintro ⟨made, hMade, hWritten⟩
    rw [makeDirectory_eq_ok_iff.mpr hMade]
    exact writeText_eq_ok_iff.mpr hWritten

theorem isOfWriting_of_deliver {cause : Failure} (h : deliver path text before = .error cause) :
    cause.isOfWriting = true := by
  unfold deliver at h
  cases hMade : makeDirectory .directory (Path.parent path) before with
  | error failure =>
    rw [hMade] at h
    cases h
    rw [(makeDirectory_eq_error_iff.mp hMade).2]
    rfl
  | ok made =>
    rw [hMade] at h
    change writeText path text made = .error cause at h
    unfold writeText at h
    split at h <;> cases h
    rfl

/-! ### Modules and the manifest -/

/-- The files of modules with their texts. -/
def moduleTexts (output : String) (format : Format) (registry : Registry)
    (modules : List TypeModule) : List (String × String) :=
  modules.map fun m =>
    (Path.join output (m.path ++ "." ++ format.extension), format.render registry m)

/-- The file of the request manifest with its text, if the arguments name one. -/
def manifestTexts (arguments : Arguments) (requests : List Request) : List (String × String) :=
  (arguments.value? .requests).toList.map fun path => (path, Request.manifest requests ++ "\n")

/-- **All modules are delivered just when all changes for them succeed.** -/
theorem deliverModules_eq_iff (output : String) (format : Format) (registry : Registry)
    (modules : List TypeModule) :
    (∃ notes, deliverModules output format registry modules before = (after, notes, none)) ↔
      before.changes? (changesOf (moduleTexts output format registry modules)) = some after := by
  induction modules generalizing before with
  | nil => simp [deliverModules, moduleTexts, changesOf, FileSystem.changes?]
  | cons m rest ih =>
    rw [moduleTexts, List.map_cons, changes?_changesOf_cons, Option.bind_eq_some_iff]
    constructor
    · rintro ⟨notes, h⟩
      unfold deliverModules at h
      cases hFirst : deliver (modulePath output format m) (format.render registry m) before with
      | error failure => simp [hFirst] at h
      | ok middle =>
        simp only [hFirst, Prod.mk.injEq] at h
        obtain ⟨rfl, -, hNone⟩ := h
        exact ⟨middle, deliver_eq_ok_iff.mp hFirst, ih.mp ⟨_, Prod.ext rfl (Prod.ext rfl hNone)⟩⟩
    · rintro ⟨middle, hFirst, hRest⟩
      obtain ⟨notes, hRest⟩ := ih.mpr hRest
      have hFirst : deliver (modulePath output format m) (format.render registry m) before =
        .ok middle := deliver_eq_ok_iff.mpr hFirst
      refine ⟨.wrote (modulePath output format m) :: notes, ?_⟩
      rw [deliverModules, hFirst]
      simp only [hRest]

theorem isOfWriting_of_deliverModules {output : String} {format : Format} {registry : Registry}
    {modules : List TypeModule} {left : FileSystem} {notes : List Note} {cause : Failure}
    (h : deliverModules output format registry modules before = (left, notes, some cause)) :
    cause.isOfWriting = true := by
  induction modules generalizing before notes with
  | nil => cases h
  | cons m rest ih =>
    unfold deliverModules at h
    cases hFirst : deliver (modulePath output format m) (format.render registry m) before with
    | error failure =>
      simp only [hFirst, Prod.mk.injEq, Option.some.injEq] at h
      exact h.2.2 ▸ isOfWriting_of_deliver hFirst
    | ok middle =>
      simp only [hFirst, Prod.mk.injEq] at h
      obtain ⟨rfl, -, hSome⟩ := h
      exact ih (Prod.ext rfl (Prod.ext rfl hSome))

theorem deliverManifest_eq_ok_iff {arguments : Arguments} {requests : List Request} :
    deliverManifest arguments requests before = .ok after ↔
      before.changes? (changesOf (manifestTexts arguments requests)) = some after := by
  unfold deliverManifest manifestTexts
  cases arguments.value? .requests with
  | none => simp [changesOf, FileSystem.changes?]
  | some path => exact deliver_eq_ok_iff

theorem isOfWriting_of_deliverManifest {arguments : Arguments} {requests : List Request}
    {cause : Failure} (h : deliverManifest arguments requests before = .error cause) :
    cause.isOfWriting = true := by
  unfold deliverManifest at h
  split at h
  · exact isOfWriting_of_deliver h
  · cases h

end CommandLine

end ProseTypes
