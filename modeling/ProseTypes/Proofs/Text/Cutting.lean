import Mathlib.Data.List.DropRight
import Mathlib.Data.List.TakeWhile
import ProseTypes.Text.Blank

/-!
# Cutting and joining text

What is trimmed off or cut at is told by its class, and every other character stays.

* `Text.mem_dropEndWhile`: what is dropped is told by its class.
* `Text.trim_subset`, `Text.pieces_subset`: trimming and cutting bring in nothing.
* `Text.trim_padded`: trimming takes off the blanks around a text that has none at its own ends.
* `Text.join_append`: texts are joined one after another.
* `Text.pieces_join`: **joined texts are cut into the texts again**, if none of them has the separator.
-/

namespace ProseTypes

namespace Text

/-! ### Trimming -/

theorem mem_dropEndWhile {p : Char → Bool} {cs : List Char} {c : Char} (h : c ∈ cs) :
    p c ∨ c ∈ dropEndWhile p cs := by
  have hSplit := List.takeWhile_append_dropWhile (p := p) (l := cs.reverse)
  rw [← List.mem_reverse, ← hSplit, List.mem_append] at h
  rcases h with h | h
  · exact Or.inl (List.mem_takeWhile_imp h)
  · exact Or.inr (List.mem_reverse.mpr h)

theorem trimEnd_subset (cs : List Char) : trimEnd cs ⊆ cs := by
  intro c hc
  have hDropped := (List.dropWhile_sublist isBlank).subset (List.mem_reverse.mp hc)
  exact List.mem_reverse.mp hDropped

theorem trimStart_subset (cs : List Char) : trimStart cs ⊆ cs :=
  (List.dropWhile_sublist isBlank).subset

theorem trim_subset (cs : List Char) : trim cs ⊆ cs :=
  List.Subset.trans (trimEnd_subset _) (trimStart_subset cs)

theorem exists_trimStart (cs : List Char) :
    ∃ blanks, (∀ c ∈ blanks, isBlank c = true) ∧ cs = blanks ++ trimStart cs :=
  ⟨_, fun _ hc => List.mem_takeWhile_imp hc, List.takeWhile_append_dropWhile.symm⟩

theorem exists_dropEndWhile (p : Char → Bool) (cs : List Char) :
    ∃ tail, (∀ c ∈ tail, p c = true) ∧ cs = dropEndWhile p cs ++ tail := by
  refine ⟨(cs.reverse.takeWhile p).reverse,
    fun c hc => List.mem_takeWhile_imp (List.mem_reverse.mp hc), ?_⟩
  rw [dropEndWhile, ← List.reverse_append, List.takeWhile_append_dropWhile, List.reverse_reverse]

theorem not_of_getLast?_dropEndWhile {p : Char → Bool} {cs : List Char} {c : Char}
    (h : (dropEndWhile p cs).getLast? = some c) : p c = false := by
  have hFirst := List.head?_dropWhile_not p cs.reverse
  rw [dropEndWhile, List.getLast?_reverse] at h
  rw [h] at hFirst
  simpa using hFirst

theorem trim_trim (cs : List Char) : trim (trim cs) = trim cs := by
  have hEnd (text : List Char) : trimEnd (trimEnd text) = trimEnd text := by
    rw [trimEnd, trimEnd, dropEndWhile, dropEndWhile, List.reverse_reverse,
      List.dropWhile_idempotent]
  have hStart : trimStart (trim cs) = trim cs := by
    have hSplit : trim cs ++ ((trimStart cs).reverse.takeWhile isBlank).reverse = trimStart cs := by
      rw [trim, trimEnd, dropEndWhile, ← List.reverse_append, List.takeWhile_append_dropWhile,
        List.reverse_reverse]
    cases hTrim : trim cs with
    | nil => rfl
    | cons c rest =>
      have hFirst : isBlank c = false := by
        have h := List.head?_dropWhile_not isBlank cs
        rw [hTrim] at hSplit
        rwa [show cs.dropWhile isBlank = c :: _ from hSplit.symm] at h
      rw [trimStart, List.dropWhile_cons_of_neg (by rw [hFirst]; exact Bool.false_ne_true)]
  rw [trim, hStart, trim, hEnd]

/-- A text has no blank at its start and none at its end. -/
structure Unpadded (cs : List Char) : Prop where
  first : ∀ c ∈ cs.head?, isBlank c = false
  last : ∀ c ∈ cs.getLast?, isBlank c = false

instance (cs : List Char) : Decidable (Unpadded cs) :=
  decidable_of_iff (cs.head?.all (!isBlank ·) = true ∧ cs.getLast?.all (!isBlank ·) = true)
    ⟨fun h => ⟨by simpa [Option.all_eq_true] using h.1, by simpa [Option.all_eq_true] using h.2⟩,
      fun h => ⟨by simpa [Option.all_eq_true] using h.first, by simpa [Option.all_eq_true] using h.last⟩⟩

theorem dropWhile_of_head? {p : Char → Bool} {cs : List Char} (h : ∀ c ∈ cs.head?, p c = false) :
    cs.dropWhile p = cs := by
  cases cs with
  | nil => rfl
  | cons c cs => exact List.dropWhile_cons_of_neg (by rw [h c rfl]; exact Bool.false_ne_true)

theorem dropEndWhile_of_getLast? {p : Char → Bool} {cs : List Char}
    (h : ∀ c ∈ cs.getLast?, p c = false) : dropEndWhile p cs = cs := by
  rw [dropEndWhile, dropWhile_of_head? (by simpa using h), List.reverse_reverse]

theorem dropEndWhile_cons_of_neg {p : Char → Bool} {c : Char} (h : p c = false) (cs : List Char) :
    dropEndWhile p (c :: cs) = c :: dropEndWhile p cs := by
  rw [dropEndWhile, List.reverse_cons, List.dropWhile_append, dropEndWhile]
  split
  · rename_i hEmpty
    rw [List.isEmpty_iff.mp hEmpty]
    simp [h]
  · simp

theorem Unpadded.trim_eq {cs : List Char} (h : Unpadded cs) : trim cs = cs := by
  rw [trim, trimStart, dropWhile_of_head? h.first, trimEnd, dropEndWhile_of_getLast? h.last]

/-- **Trimming takes off the blanks around a text**, and nothing else. -/
theorem trim_padded {before cs after : List Char} (hBefore : ∀ c ∈ before, isBlank c = true)
    (h : Unpadded cs) (hAfter : ∀ c ∈ after, isBlank c = true) :
    trim (before ++ cs ++ after) = cs := by
  have hStart : trimStart (before ++ cs ++ after) = trimStart (cs ++ after) := by
    rw [trimStart, List.append_assoc, List.dropWhile_append_of_pos hBefore, trimStart]
  cases cs with
  | nil =>
    rw [trim, hStart, List.nil_append, trimStart, List.dropWhile_eq_nil_iff.mpr hAfter]
    rfl
  | cons c cs =>
    have hEnd : trimEnd (c :: cs ++ after) = trimEnd (c :: cs) := by
      rw [trimEnd, dropEndWhile, List.reverse_append,
        List.dropWhile_append_of_pos fun d hd => hAfter d (List.mem_reverse.mp hd)]
      rfl
    rw [trim, hStart, trimStart, dropWhile_of_head? (by simpa using h.first c rfl), hEnd, trimEnd,
      dropEndWhile_of_getLast? h.last]

/-! ### Cutting -/

theorem not_of_mem_pieces {p : Char → Bool} {cs piece : List Char} (h : piece ∈ pieces p cs) :
    ∀ c ∈ piece, ¬p c := by
  induction cs generalizing piece with
  | nil =>
    rw [List.mem_singleton.mp h]
    exact fun c hc => by cases hc
  | cons d cs ih =>
    rw [pieces] at h
    split at h
    · rcases List.mem_cons.mp h with rfl | h
      · exact fun c hc => by cases hc
      · exact ih h
    · rename_i hd
      split at h
      · rw [List.mem_singleton.mp h]
        intro c hc
        rw [List.mem_singleton.mp hc]
        exact hd
      · rename_i first rest hRest
        rw [hRest] at ih
        rcases List.mem_cons.mp h with rfl | h
        · intro c hc
          rcases List.mem_cons.mp hc with rfl | hc
          · exact hd
          · exact ih List.mem_cons_self c hc
        · exact ih (List.mem_cons_of_mem _ h)

theorem pieces_subset {p : Char → Bool} {cs piece : List Char} (h : piece ∈ pieces p cs) :
    piece ⊆ cs := by
  fun_induction pieces p cs generalizing piece with
  | case1 => simp [List.mem_singleton.mp h]
  | case2 c cs _ ih =>
    rcases List.mem_cons.mp h with rfl | h
    · exact List.nil_subset _
    · exact List.subset_cons_of_subset c (ih h)
  | case3 c cs _ hPieces ih => simp [List.mem_singleton.mp h]
  | case4 c cs _ first rest hPieces ih =>
    rw [hPieces] at ih
    rcases List.mem_cons.mp h with rfl | h
    · exact List.cons_subset_cons c (ih List.mem_cons_self)
    · exact List.subset_cons_of_subset c (ih (List.mem_cons_of_mem first h))

theorem pieces_eq_splitOnP (p : Char → Bool) (cs : List Char) :
    pieces p cs = cs.splitOnP p := by
  induction cs with
  | nil => rfl
  | cons c cs ih =>
    rw [pieces, List.splitOnP_cons_eq_if_modifyHead, ih]
    split
    · rfl
    · cases hRest : cs.splitOnP p with
      | nil => exact absurd hRest (List.splitOnP_ne_nil p cs)
      | cons piece rest => rfl

theorem pieces_ne_nil (p : Char → Bool) (cs : List Char) : pieces p cs ≠ [] := by
  rw [pieces_eq_splitOnP]
  exact List.splitOnP_ne_nil p cs

/-- **What stands on both sides of a separator is cut by itself.** -/
theorem pieces_append_cons {p : Char → Bool} (before : List Char) {c : Char} (hc : p c = true)
    (after : List Char) : pieces p (before ++ c :: after) = pieces p before ++ pieces p after := by
  induction before with
  | nil => simp [pieces, hc]
  | cons d before ih =>
    rw [List.cons_append, pieces, pieces, ih]
    split
    · rfl
    · obtain ⟨first, rest, hPieces⟩ := List.exists_cons_of_ne_nil (pieces_ne_nil p before)
      rw [hPieces]
      rfl

theorem pieces_of_forall_not {p : Char → Bool} {cs : List Char} (h : ∀ c ∈ cs, p c = false) :
    pieces p cs = [cs] := by
  induction cs with
  | nil => rfl
  | cons c cs ih =>
    rw [pieces, h c List.mem_cons_self, if_neg Bool.false_ne_true,
      ih fun d hd => h d (List.mem_cons_of_mem c hd)]

theorem exists_pieces_append {p : Char → Bool} (cs : List Char) {tail : List Char}
    (hTail : ∀ c ∈ tail, p c = false) :
    ∃ init last, pieces p cs = init ++ [last] ∧ pieces p (cs ++ tail) = init ++ [last ++ tail] := by
  induction cs with
  | nil => exact ⟨[], [], rfl, pieces_of_forall_not hTail⟩
  | cons c cs ih =>
    obtain ⟨init, last, hPieces, hMore⟩ := ih
    rw [List.cons_append, pieces, pieces, hPieces, hMore]
    split
    · exact ⟨[] :: init, last, rfl, rfl⟩
    · cases init with
      | nil => exact ⟨[], c :: last, rfl, rfl⟩
      | cons first init => exact ⟨(c :: first) :: init, last, rfl, rfl⟩

theorem exists_of_cutLast? {p : Char → Bool} {cs before after : List Char}
    (h : cutLast? p cs = some (before, after)) : ∃ c, p c = true ∧ cs = before ++ c :: after := by
  induction cs generalizing before with
  | nil => cases h
  | cons c cs ih =>
    rw [cutLast?] at h
    split at h
    · rename_i first second hCut
      cases h
      obtain ⟨d, hd, rfl⟩ := ih hCut
      exact ⟨d, hd, rfl⟩
    · split at h
      · rename_i hc
        cases h
        exact ⟨c, hc, rfl⟩
      · cases h

theorem fst_subset_of_cutLast? {p : Char → Bool} {cs : List Char} {cut : List Char × List Char}
    (h : cutLast? p cs = some cut) : cut.1 ⊆ cs := by
  induction cs generalizing cut with
  | nil => cases h
  | cons c cs ih =>
    rw [cutLast?] at h
    split at h
    · rename_i before after hCut
      cases h
      exact List.cons_subset_cons c (ih hCut)
    · split at h
      · cases h
        exact List.nil_subset _
      · cases h

theorem dropPrefix?_subset {start cs rest : List Char} (h : dropPrefix? start cs = some rest) :
    rest ⊆ cs := by
  fun_induction dropPrefix? start cs with
  | case1 cs =>
    rw [Option.some.inj h]
    exact List.Subset.refl rest
  | case2 => cases h
  | case3 start c cs ih => exact List.subset_cons_of_subset c (ih h)
  | case4 => cases h

theorem contains_iff {part cs : List Char} : contains part cs = true ↔ part <:+: cs := by
  rw [contains]
  induction cs with
  | nil => rw [anySuffix, List.isPrefixOf_iff_prefix, List.prefix_nil, List.infix_nil]
  | cons c cs ih =>
    rw [anySuffix, Bool.or_eq_true, List.isPrefixOf_iff_prefix, ih, List.infix_cons_iff]

/-! ### Joining -/

theorem mem_or_exists_of_mem_intercalate {separator : List Char} {texts : List (List Char)}
    {c : Char} (h : c ∈ separator.intercalate texts) : c ∈ separator ∨ ∃ text ∈ texts, c ∈ text := by
  induction texts with
  | nil => simp [List.intercalate] at h
  | cons first rest ih =>
    cases rest with
    | nil => exact Or.inr ⟨first, List.mem_cons_self, by simpa [List.intercalate] using h⟩
    | cons second rest =>
      rw [List.intercalate_cons_cons, List.append_assoc, List.mem_append, List.mem_append] at h
      rcases h with h | h | h
      · exact Or.inr ⟨first, List.mem_cons_self, h⟩
      · exact Or.inl h
      · exact (ih h).imp_right fun ⟨text, hText, hc⟩ => ⟨text, List.mem_cons_of_mem _ hText, hc⟩

theorem mem_join {separator : String} {texts : List String} {c : Char}
    (h : c ∈ (join separator texts).toList) :
    c ∈ separator.toList ∨ ∃ text ∈ texts, c ∈ text.toList := by
  rw [join, String.toList_ofList] at h
  refine (mem_or_exists_of_mem_intercalate h).imp_right ?_
  rintro ⟨piece, hPiece, hc⟩
  obtain ⟨text, hText, rfl⟩ := List.mem_map.mp hPiece
  exact ⟨text, hText, hc⟩

theorem join_cons_cons (separator first second : String) (rest : List String) :
    join separator (first :: second :: rest) =
      first ++ separator ++ join separator (second :: rest) := by
  simp [join, List.intercalate_cons_cons, String.ofList_append, String.append_assoc]

theorem join_singleton (separator text : String) : join separator [text] = text := by
  simp [join, List.intercalate]

theorem join_append (separator : String) {first second : List String} (hFirst : first ≠ [])
    (hSecond : second ≠ []) :
    join separator (first ++ second) = join separator first ++ separator ++ join separator second := by
  obtain ⟨text, texts, rfl⟩ := List.exists_cons_of_ne_nil hSecond
  induction first with
  | nil => exact absurd rfl hFirst
  | cons a first ih =>
    cases first with
    | nil => rw [List.cons_append, List.nil_append, join_cons_cons, join_singleton]
    | cons b first =>
      have ih := ih (by simp)
      rw [List.cons_append] at ih ⊢
      rw [List.cons_append, join_cons_cons, ih, join_cons_cons]
      simp only [String.append_assoc]

theorem join_eq_intercalate (separator : String) (texts : List String) :
    join separator texts = separator.intercalate texts := by
  rw [← String.toList_inj, join, String.toList_ofList, String.toList_intercalate]

/-- **Joined texts are cut into the texts again.** -/
theorem pieces_join {separator : Char} {texts : List String} (hTexts : texts ≠ [])
    (h : ∀ text ∈ texts, separator ∉ text.toList) :
    (pieces (· == separator) (join (String.ofList [separator]) texts).toList).map String.ofList =
      texts := by
  have hSplit : pieces (· == separator) (join (String.ofList [separator]) texts).toList =
      texts.map String.toList := by
    rw [join, String.toList_ofList, String.toList_ofList, pieces_eq_splitOnP]
    refine List.splitOn_intercalate separator ?_ (by simpa using hTexts)
    intro cs hcs
    obtain ⟨text, hText, rfl⟩ := List.mem_map.mp hcs
    exact h text hText
  rw [hSplit, List.map_map]
  simp [Function.comp_def]

theorem join_pieces (separator : Char) (text : String) :
    join (String.ofList [separator]) ((pieces (· == separator) text.toList).map String.ofList) =
      text := by
  have hJoin : [separator].intercalate (text.toList.splitOnP (· == separator)) = text.toList :=
    List.intercalate_splitOn separator
  rw [join, String.toList_ofList, List.map_map, pieces_eq_splitOnP]
  simp only [Function.comp_def, String.toList_ofList, List.map_id', hJoin, String.ofList_toList]

end Text

end ProseTypes
