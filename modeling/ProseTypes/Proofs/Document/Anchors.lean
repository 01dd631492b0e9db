import ProseTypes.Anchor
import ProseTypes.Proofs.Document.Characters
import ProseTypes.Proofs.Text.Blanks
import ProseTypes.Proofs.Text.LetterCase

/-!
# Anchors as links

A link target is an anchor behind a number sign.  It is compared without blanks around it and without
number signs before it, so it comes to the same as the anchor alone if the anchor does not start with a
blank (`Anchor.normalize_hash`).  What an anchor starts with is made of the path of its document: spaces
become low lines, and the capital form of a character that is not blank has no blank in it
(`Text.isBlank_of_mem_upperChar`).  So an anchor starts with a blank only if the path has another blank
than a space.
-/

namespace ProseTypes

namespace Text

/-! ### Blanks -/

theorem exists_mem_blanks_ofNat {n : Nat} (h : isBlank (Char.ofNat n) = true) :
    ∃ stretch ∈ blanks, stretch.1 ≤ n ∧ n ≤ stretch.2 := by
  obtain ⟨stretch, hStretch, hFirst, hLast⟩ := exists_mem_blanks h
  have hPos : ∀ stretch ∈ blanks, 0 < stretch.1 := by decide
  have hPos := hPos stretch hStretch
  rw [Char.toNat_ofNat] at hFirst hLast
  split at hFirst
  · rw [if_pos ‹_›] at hLast
    exact ⟨stretch, hStretch, hFirst, hLast⟩
  · omega

namespace LetterCase

theorem smallLetters_outside_blanks : ∀ run ∈ smallLetters, ∀ stretch ∈ blanks,
    run.target + (run.last - run.first) < stretch.1 ∨ stretch.2 < run.target := by
  decide +kernel

theorem isBlank_of_mem_expandingLetters : ∀ entry ∈ expandingLetters, ∀ n ∈ entry.2,
    isBlank (Char.ofNat n) = false := by
  decide +kernel

/-- **The capital form of a character that is not blank has no blank in it.** -/
theorem isBlank_of_mem_upperChar {c d : Char} (hc : isBlank c = false) (hd : d ∈ upperChar c) :
    isBlank d = false := by
  by_cases hAscii : c.toNat < 0x80
  · rw [upperChar, if_pos hAscii] at hd
    rw [List.mem_singleton.mp hd, ← caseless_isBlank, Char.toLower_toUpper_eq_toLower, caseless_isBlank, hc]
  rw [upperChar, if_neg hAscii] at hd
  split at hd
  · rename_i capitals hLookup
    obtain ⟨n, hn, rfl⟩ := List.mem_map.mp hd
    obtain ⟨before, after, hTable, -⟩ := List.lookup_eq_some_iff.mp hLookup
    exact isBlank_of_mem_expandingLetters (c.toNat, capitals) (by rw [hTable]; simp) n hn
  · rw [List.mem_singleton.mp hd, Bool.eq_false_iff]
    intro hBlank
    obtain ⟨stretch, hStretch, hFirst, hLast⟩ := exists_mem_blanks_ofNat hBlank
    cases hRun : smallLetters.find? (·.covers c.toNat) with
    | none =>
      rw [partner, hRun, Char.ofNat_toNat, hc] at hBlank
      cases hBlank
    | some run =>
      rw [partner, hRun] at hFirst hLast
      have hCovers := List.find?_some hRun
      rw [Run.covers, Bool.and_eq_true, Bool.and_eq_true, decide_eq_true_eq, decide_eq_true_eq]
        at hCovers
      have hOutside := smallLetters_outside_blanks run (List.mem_of_find?_eq_some hRun) stretch hStretch
      simp only [Run.partner] at hFirst hLast
      omega

end LetterCase

end Text

theorem ModulePath.dropCurrentDir_subset (cs : List Char) : dropCurrentDir cs ⊆ cs := by
  fun_induction dropCurrentDir cs with
  | case1 cs ih => exact List.subset_cons_of_subset _ (List.subset_cons_of_subset _ ih)
  | case2 cs => exact List.Subset.refl cs

namespace Anchor

theorem dropExtension_subset (path : List Char) : dropExtension path ⊆ path := by
  unfold dropExtension
  split
  · rename_i stem extension hCut
    obtain ⟨hCut, -⟩ := Option.filter_eq_some_iff.mp hCut
    exact Text.fst_subset_of_cutLast? hCut
  · exact List.Subset.refl path

/-- What is in the part of an anchor that names the document is a low line, or comes from a character of
the path and is no space. -/
theorem mem_ofPath {path : String} {d : Char} (h : d ∈ (ofPath path).toList) :
    d = '_' ∨ d ≠ ' ' ∧ ∃ c ∈ path.toList, d ∈ Text.LetterCase.upperChar c := by
  rw [ofPath, String.toList_ofList] at h
  rcases Text.mem_or_exists_of_mem_intercalate h with hLine | ⟨text, hText, hd⟩
  · exact Or.inl (List.mem_singleton.mp hLine)
  obtain ⟨part, hPart, rfl⟩ := List.mem_map.mp hText
  have hSubset : part ⊆ path.toList :=
    List.Subset.trans (Text.pieces_subset (List.mem_of_mem_filter hPart))
      (List.Subset.trans (dropExtension_subset _) (ModulePath.dropCurrentDir_subset _))
  obtain ⟨e, he, rfl⟩ := List.mem_map.mp hd
  split
  · exact Or.inl rfl
  · rename_i hOther
    obtain ⟨c, hc, he⟩ := List.mem_flatMap.mp he
    exact Or.inr ⟨fun hSpace => hOther (by simp [hSpace]), c, hSubset hc, he⟩

/-- **An anchor names its document without blanks**, if the path has no other blanks than spaces. -/
theorem isBlank_of_mem_ofPath {path : String}
    (hPath : ∀ c ∈ path.toList, Text.isBlank c = true → c = ' ') {d : Char}
    (h : d ∈ (ofPath path).toList) : Text.isBlank d = false := by
  rcases mem_ofPath h with rfl | ⟨hSpace, c, hc, hd⟩
  · decide
  cases hBlank : Text.isBlank c with
  | false => exact Text.LetterCase.isBlank_of_mem_upperChar hBlank hd
  | true =>
    rw [hPath c hc hBlank] at hd
    exact absurd (List.mem_singleton.mp hd) hSpace

/-! ### Number signs -/

theorem trim_of_head? {cs : List Char} (h : ∀ c ∈ cs.head?, Text.isBlank c = false) :
    Text.trim cs = Text.trimEnd cs := by
  rw [Text.trim, Text.trimStart, Text.dropWhile_of_head? h]

/-- **A number sign before an anchor makes no difference**, if the anchor does not start with a blank. -/
theorem normalize_hash {anchor : String} (h : ∀ c ∈ anchor.toList.head?, Text.isBlank c = false) :
    normalize ("#" ++ anchor) = normalize anchor := by
  have hHash : Text.trim ("#" ++ anchor).toList = '#' :: Text.trim anchor.toList := by
    rw [String.toList_append, trim_of_head? h]
    show Text.trim ('#' :: anchor.toList) = _
    rw [trim_of_head? (fun c hc => by cases hc; decide), Text.trimEnd,
      Text.dropEndWhile_cons_of_neg (by decide), Text.trimEnd]
  rw [normalize, hHash, List.dropWhile_cons_of_pos (by decide), normalize]

/-- **The anchor of a section can be written as a link to it.** -/
theorem normalize_ofVisit {path : String} (hPath : ∀ c ∈ path.toList, Text.isBlank c = true → c = ' ')
    (nesting : Nat) (visit : Visit) :
    normalize ("#" ++ ofVisit nesting path visit) = normalize (ofVisit nesting path visit) := by
  have hName {c : Char} (hc : (ofPath path).toList.head? = some c) : Text.isBlank c = false :=
    isBlank_of_mem_ofPath hPath (List.mem_of_mem_head? hc)
  refine normalize_hash fun c hc => ?_
  unfold ofVisit at hc
  split at hc
  · exact hName hc
  · rw [String.toList_append, String.toList_append, List.append_assoc, List.head?_append] at hc
    cases hFirst : (ofPath path).toList.head? with
    | some first =>
      rw [hFirst] at hc
      cases hc
      exact hName hFirst
    | none =>
      rw [hFirst] at hc
      cases hc
      decide

end Anchor

end ProseTypes
