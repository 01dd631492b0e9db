import ProseTypes.Proofs.Document.Coverage
import ProseTypes.Proofs.Document.Locality

/-!
# Open and closed code

Code that no fence closes takes all the lines that are left.  Every other chunk ends where it ends whatever
comes after it, has an even number of fences, and neither starts nor ends with a blank line unless it is one
(`Chunk.Closed`).

* `Chunk.next_cases`: the chunk at the start of lines is closed, or it is code that takes all of them.
* `Chunk.closed_of_mem_ofLines`: with an even number of fences every chunk is closed.
* `Chunk.ofLines_append`: lines with an even number of fences are cut into the same chunks before a fence.
-/

namespace ProseTypes

theorem Line.exists_isFence {lines : List String} (h : ¬Even (lines.countP Line.isFence)) :
    ∃ line ∈ lines, Line.isFence line = true := by
  by_contra hNone
  have hZero : lines.countP Line.isFence = 0 := by
    refine Line.countP_isFence_eq_zero fun line hLine => ?_
    exact eq_false_of_ne_true fun hFence => hNone ⟨line, hLine, hFence⟩
  rw [hZero] at h
  exact h (by decide)

/-- **Lines with an odd number of fences end with open code.** -/
theorem Line.exists_open {lines : List String} (h : ¬Even (lines.countP Line.isFence)) :
    ∃ before opening body, lines = before ++ opening :: body ∧ Even (before.countP Line.isFence) ∧
      Line.isFence opening = true ∧ ∀ line ∈ body, Line.isFence line = false := by
  induction lines using List.reverseRecOn with
  | nil => exact absurd (by decide) h
  | append_singleton lines last ih =>
    rw [List.countP_append, List.countP_singleton] at h
    cases hFence : Line.isFence last with
    | true =>
      rw [hFence, if_pos rfl, Nat.even_add_one, not_not] at h
      exact ⟨lines, last, [], rfl, h, hFence, by simp⟩
    | false =>
      obtain ⟨before, opening, body, rfl, hBefore, hOpening, hBody⟩ := ih (by simpa [hFence] using h)
      refine ⟨before, opening, body ++ [last], by simp, hBefore, hOpening, fun line hLine => ?_⟩
      rcases List.mem_append.mp hLine with hLine | hLine
      · exact hBody line hLine
      · rw [List.mem_singleton.mp hLine, hFence]

namespace Chunk

/-- A chunk that does not take all the lines that are left. -/
structure Closed (chunk : Chunk) : Prop where
  fences : Even (chunk.lines.countP Line.isFence)
  first : ∀ line ∈ chunk.lines.head?, Text.isBlankLine line → chunk = .blank line
  last : ∀ line ∈ chunk.lines.getLast?, Text.isBlankLine line → chunk = .blank line

theorem Closed.of_forall {chunk : Chunk}
    (h : ∀ line ∈ chunk.lines, Text.isBlankLine line = false ∧ Line.isFence line = false) :
    chunk.Closed where
  fences := by
    rw [Line.countP_isFence_eq_zero fun line hLine => (h line hLine).2]
    decide
  first line hLine hBlank := by
    rw [(h line (List.mem_of_mem_head? hLine)).1] at hBlank
    cases hBlank
  last line hLine hBlank := by
    rw [(h line (List.mem_of_getLast? hLine)).1] at hBlank
    cases hBlank

theorem Closed.fenced {opening closing : String} {body : List String}
    (hOpening : Line.isFence opening = true) (hBody : ∀ line ∈ body, Line.isFence line = false)
    (hClosing : Line.isFence closing = true) : (Chunk.fenced opening body (some closing)).Closed where
  fences := by
    have hTwo : (opening :: body ++ [closing]).countP Line.isFence = 2 := by
      simp [hOpening, hClosing, Line.countP_isFence_eq_zero hBody]
    rw [lines, Option.toList_some, hTwo]
    decide
  first line hLine hBlank := by
    obtain rfl : opening = line := by simpa [lines] using hLine
    rw [Line.isBlankLine_of_isFence hOpening] at hBlank
    cases hBlank
  last line hLine hBlank := by
    obtain rfl : closing = line := by
      rw [lines, Option.toList_some, List.getLast?_concat] at hLine
      exact Option.some.inj hLine
    rw [Line.isBlankLine_of_isFence hClosing] at hBlank
    cases hBlank

/-- **A chunk is closed, or it is code that takes all the lines that are left.** -/
theorem next_cases (line : String) (rest : List String) :
    (next line rest).1.Closed ∨ Line.isFence line = true ∧ (∀ l ∈ rest, Line.isFence l = false) ∧
      next line rest = (.fenced line rest none, []) := by
  have hRow {l : String} (hl : Line.isRow l = true) :
      Text.isBlankLine l = false ∧ Line.isFence l = false :=
    ⟨Line.isBlankLine_of_sign? (Line.sign?_of_isRow hl), (Line.plain_of_isRow hl).2⟩
  have hQuoted {l : String} (hl : Line.isQuote l = true) :
      Text.isBlankLine l = false ∧ Line.isFence l = false :=
    ⟨Line.isBlankLine_of_sign? (Line.sign?_of_isQuote hl), (Line.plain_of_isQuote hl).2⟩
  unfold next
  split
  · rename_i hBlank
    left
    refine ⟨?_, fun l hl _ => ?_, fun l hl _ => ?_⟩
    · simp [lines, Line.isFence_of_isBlankLine hBlank]
    · simpa [lines] using hl
    · simpa [lines] using hl
  rename_i hBlank
  split
  · -- The next fence closes the code; if there is none, then no line is left.
    rename_i hFence
    cases hAfter : rest.dropWhile fun l => !Line.isFence l with
    | nil =>
      right
      rw [List.dropWhile_eq_nil_iff] at hAfter
      refine ⟨hFence, fun l hl => by simpa using hAfter l hl, ?_⟩
      rw [List.takeWhile_eq_self_iff.mpr hAfter]
      rfl
    | cons closing after =>
      left
      refine .fenced hFence (fun l hl => by simpa using List.mem_takeWhile_imp hl) ?_
      have hHead := List.head?_dropWhile_not (fun l => !Line.isFence l) rest
      rw [hAfter] at hHead
      simpa using hHead
  rename_i hFence
  split
  · rename_i hGrid
    left
    cases rest with
    | nil => simp at hGrid
    | cons separator rest =>
      rw [List.head?_cons, Option.any_some, Bool.and_eq_true] at hGrid
      refine .of_forall fun l hl => ?_
      simp only [lines, List.headD_cons, List.tail_cons, List.mem_cons] at hl
      rcases hl with rfl | rfl | hl
      · exact hRow hGrid.1
      · exact ⟨Line.isBlankLine_of_isSeparator hGrid.2, (Line.plain_of_isSeparator hGrid.2).2⟩
      · exact hRow (List.mem_takeWhile_imp hl)
  split
  · rename_i hQuote
    left
    refine .of_forall fun l hl => ?_
    rcases List.mem_cons.mp hl with rfl | hl
    · exact hQuoted hQuote
    · exact hQuoted (List.mem_takeWhile_imp hl)
  · left
    refine .of_forall fun l hl => ?_
    rw [List.mem_singleton.mp hl]
    exact ⟨eq_false_of_ne_true hBlank, eq_false_of_ne_true hFence⟩

theorem next_of_even {line : String} {rest : List String}
    (h : Even ((line :: rest).countP Line.isFence)) :
    (next line rest).1.Closed ∧ Even ((next line rest).2.countP Line.isFence) := by
  rcases next_cases line rest with hClosed | ⟨hFence, hRest, -⟩
  · refine ⟨hClosed, ?_⟩
    rw [← lines_next, List.countP_append, Nat.even_add] at h
    exact h.mp hClosed.fences
  · rw [List.countP_cons, Line.countP_isFence_eq_zero hRest, hFence] at h
    exact absurd h (by decide)

theorem closed_of_mem_ofLines {lines : List String} (h : Even (lines.countP Line.isFence))
    {chunk : Chunk} (hChunk : chunk ∈ ofLines lines) : chunk.Closed := by
  fun_induction ofLines lines with
  | case1 => cases hChunk
  | case2 line rest ih =>
    obtain ⟨hClosed, hRest⟩ := next_of_even h
    rcases List.mem_cons.mp hChunk with rfl | hChunk
    · exact hClosed
    · exact ih hRest hChunk

/-- **A fence further down changes nothing about a chunk that is closed.** -/
theorem next_append {line : String} {rest : List String}
    (hOpen : Line.isFence line = true → ∃ l ∈ rest, Line.isFence l = true) {opening : String}
    (hOpening : Line.isFence opening = true) (body : List String) :
    next line (rest ++ opening :: body) =
      ((next line rest).1, (next line rest).2 ++ opening :: body) := by
  -- No run of lines that a chunk takes goes on over a fence.
  have hNot {p : String → Bool} (hPlain : ∀ {l}, p l = true →
      Line.heading? l = none ∧ Line.isFence l = false) : p opening = false := by
    rw [Bool.eq_false_iff]
    intro h
    rw [(hPlain h).2] at hOpening
    cases hOpening
  have hSeparator := hNot Line.plain_of_isSeparator
  have hRow := hNot Line.plain_of_isRow
  have hQuote := hNot Line.plain_of_isQuote
  have hHead : (rest ++ opening :: body).head?.any Line.isSeparator =
      rest.head?.any Line.isSeparator := by
    cases rest with
    | nil => exact hSeparator
    | cons l rest => rfl
  unfold next
  rw [hHead]
  split
  · rfl
  split
  · rename_i hFence
    obtain ⟨closing, hMem, hClosing⟩ := hOpen hFence
    have hSome : rest.dropWhile (fun l => !Line.isFence l) ≠ [] := by
      rw [ne_eq, List.dropWhile_eq_nil_iff]
      intro hAll
      simpa [hClosing] using hAll closing hMem
    rw [Outline.takeWhile_append_of_head? (by simp [hOpening]),
      Outline.dropWhile_append_of_head? (by simp [hOpening])]
    dsimp only
    rw [List.head?_append_of_ne_nil _ hSome, List.tail_append_of_ne_nil hSome]
  split
  · rename_i hGrid
    cases rest with
    | nil => simp at hGrid
    | cons separator rest =>
      rw [List.cons_append, List.headD_cons, List.tail_cons,
        Outline.takeWhile_append_of_head? (by simp [hRow]),
        Outline.dropWhile_append_of_head? (by simp [hRow])]
      rfl
  split
  · rw [Outline.takeWhile_append_of_head? (by simp [hQuote]),
      Outline.dropWhile_append_of_head? (by simp [hQuote])]
  · rfl

/-- **Lines with an even number of fences are cut into the same chunks before a fence.** -/
theorem ofLines_append {before : List String} (h : Even (before.countP Line.isFence)) {opening : String}
    (hOpening : Line.isFence opening = true) (body : List String) :
    ofLines (before ++ opening :: body) = ofLines before ++ ofLines (opening :: body) := by
  fun_induction ofLines before with
  | case1 => rfl
  | case2 line rest ih =>
    -- The number of fences is even, so code that starts here ends before `opening`.
    have hOpen : Line.isFence line = true → ∃ l ∈ rest, Line.isFence l = true := by
      intro hFence
      refine Line.exists_isFence fun hRest => ?_
      rw [List.countP_cons, if_pos hFence, Nat.even_add_one] at h
      exact h hRest
    rw [List.cons_append, ofLines, next_append hOpen hOpening, ih (next_of_even h).2, List.cons_append]

theorem ofLines_open {opening : String} {body : List String} (hOpening : Line.isFence opening = true)
    (hBody : ∀ line ∈ body, Line.isFence line = false) :
    ofLines (opening :: body) = [.fenced opening body none] := by
  have hBlank : ¬Text.isBlankLine opening = true := by
    rw [Line.isBlankLine_of_isFence hOpening]
    exact Bool.false_ne_true
  have hAll : ∀ line ∈ body, (!Line.isFence line) = true := fun line hLine => by simp [hBody line hLine]
  have hNext : next opening body = (.fenced opening body none, []) := by
    rw [next, if_neg hBlank, if_pos hOpening, List.takeWhile_eq_self_iff.mpr hAll,
      List.dropWhile_eq_nil_iff.mpr hAll]
    rfl
  rw [ofLines, hNext, ofLines]

end Chunk

end ProseTypes
