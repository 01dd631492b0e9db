import ProseTypes.Proofs.Structure.Names
import ProseTypes.Request.Template

/-!
# Path templates are stable

The names of a template hold nothing but ASCII letters, digits and low lines, so a placeholder of a template
is read as itself, unless its name is empty: two braces with nothing between them are no placeholder.  A
brace that opens no placeholder in a path opens none in the template either.  It has a closing brace or a
number sign right behind it, or no closing brace anywhere behind it (`PathPart.placeholder?_eq_none_iff`),
and what comes after it in the template is no different in this.

* `PathPart.ofChars_parameter`: what is read from a placeholder of a template.
* `PathPart.ofChars_written`: what is read from a whole template.
* `PathTemplate.ofPath_path`: **reading the path of a template gives the template back**, without the
  parameters that have no name.
-/

namespace ProseTypes

theorem Name.toNat_of_isPart {c : Char} (h : isPart c) : 48 ≤ c.toNat ∧ c.toNat ≤ 122 := by
  simp only [isPart, Char.isAlphanum, Bool.or_eq_true, beq_iff_eq] at h
  rcases h with (hAlpha | hDigit) | rfl
  · have hBounds := toNat_of_isAlpha hAlpha
    omega
  · have hBounds := toNat_of_isDigit hDigit
    omega
  · decide

namespace PathPart

/-! ### Braces -/

theorem ofChars_nil : ofChars [] = [] := by
  rw [ofChars]

theorem ofChars_of_ne {c : Char} (h : c ≠ '{') (cs : List Char) :
    ofChars (c :: cs) = .literal c :: ofChars cs := by
  rw [ofChars, if_neg h]

theorem ofChars_of_placeholder? {cs name after : List Char} (h : placeholder? cs = some (name, after)) :
    ofChars ('{' :: cs) = .parameter (parameterName name) :: ofChars after := by
  rw [ofChars, if_pos rfl]
  split
  · rename_i hFound
    rw [h] at hFound
    cases hFound
    rfl
  · rename_i hNone
    rw [h] at hNone
    cases hNone

theorem ofChars_of_placeholder?_none {cs : List Char} (h : placeholder? cs = none) :
    ofChars ('{' :: cs) = .literal '{' :: ofChars cs := by
  rw [ofChars, if_pos rfl]
  split
  · rename_i hFound
    rw [h] at hFound
    cases hFound
  · rfl

theorem isNameChar_eq_false_iff {c : Char} : isNameChar c = false ↔ c = '}' ∨ c = '#' := by
  simp only [isNameChar, Bool.and_eq_false_iff, bne_eq_false_iff_eq]

/-- **A brace opens no placeholder** if no name begins behind it, or if no brace closes behind it. -/
theorem placeholder?_eq_none_iff {cs : List Char} : placeholder? cs = none ↔
    (∀ c ∈ cs.head?, isNameChar c = false) ∨ '}' ∉ cs := by
  cases cs with
  | nil => simp [placeholder?]
  | cons c cs =>
    cases hFirst : isNameChar c with
    | false => simp [placeholder?, hFirst]
    | true =>
      have hName : ((c :: cs).takeWhile isNameChar).isEmpty = false := by
        simp [hFirst]
      have hInside : '}' ∉ (c :: cs).takeWhile isNameChar :=
        fun hMem => absurd (List.mem_takeWhile_imp hMem) (by decide)
      have hMem : '}' ∈ c :: cs ↔ '}' ∈ (c :: cs).dropWhile isNameChar := by
        conv_lhs => rw [← List.takeWhile_append_dropWhile (p := isNameChar) (l := c :: cs)]
        rw [List.mem_append, or_iff_right hInside]
      have hStop := List.head?_dropWhile_not isNameChar (c :: cs)
      simp only [placeholder?, hName, List.head?_cons, Option.mem_some_iff, forall_eq', hFirst, hMem,
        Bool.true_eq_false, Bool.false_eq_true, if_false, false_or]
      cases hRest : (c :: cs).dropWhile isNameChar with
      | nil => simp
      | cons d link =>
        rw [hRest] at hStop
        rcases isNameChar_eq_false_iff.mp hStop with rfl | rfl
        · simp
        · cases hLink : link.dropWhile (· != '}') with
          | nil =>
            have hNone : '}' ∉ link := fun hClose => by
              simpa using List.dropWhile_eq_nil_iff.mp hLink _ hClose
            simp [hLink, hNone]
          | cons e after =>
            have hSome : '}' ∈ link := by
              have hClose := List.head?_dropWhile_not (· != '}') link
              rw [hLink] at hClose
              obtain rfl : e = '}' := by simpa using hClose
              exact (List.dropWhile_sublist _).subset (hLink ▸ List.mem_cons_self)
            simp [hLink, hSome]

/-! ### Templates -/

def written (parts : List PathPart) : List Char :=
  parts.flatMap text

/-- What a part of a template is read as: a placeholder without a name is two braces. -/
def settled : PathPart → List PathPart
  | literal c => [literal c]
  | parameter name => if name = "" then [literal '{', literal '}'] else [parameter name]

theorem isPart_parameterName (cs : List Char) : ∀ c ∈ (parameterName cs).toList, Name.isPart c = true := by
  intro c hc
  rw [parameterName, String.toList_ofList] at hc
  obtain ⟨d, -, rfl⟩ := List.mem_map.mp hc
  split
  · rename_i hd
    rw [Name.isPart, show d.isAlphanum = true from hd, Bool.true_or]
  · rfl

theorem parameterName_of_isPart {cs : List Char} (h : ∀ c ∈ cs, Name.isPart c = true) :
    parameterName cs = String.ofList cs := by
  have hBlank : ∀ c ∈ cs, Text.isBlank c = false := by
    intro c hc
    have hBounds := Name.toNat_of_isPart (h c hc)
    simp [Text.isBlank]
    omega
  have hTrim : Text.trim cs = cs :=
    Text.Unpadded.trim_eq ⟨fun c hc => hBlank c (List.mem_of_head? hc),
      fun c hc => hBlank c (List.mem_of_getLast? hc)⟩
  rw [parameterName, hTrim]
  refine congrArg String.ofList ((List.map_congr_left fun c hc => ?_).trans (List.map_id cs))
  split
  · rfl
  · rename_i hOther
    have hLow : c = '_' := by
      simpa [Name.isPart, show c.isAlphanum = false from eq_false_of_ne_true hOther] using h c hc
    exact hLow.symm

/-- **What is read from a placeholder of a template.** -/
theorem ofChars_parameter {name : String} (h : ∀ c ∈ name.toList, Name.isPart c = true)
    (rest : List Char) :
    ofChars (text (parameter name) ++ rest) = settled (parameter name) ++ ofChars rest := by
  have hText : text (parameter name) ++ rest = '{' :: (name.toList ++ '}' :: rest) := by
    simp [text]
  rw [hText, settled]
  split
  · rename_i hEmpty
    have hNone : placeholder? (name.toList ++ '}' :: rest) = none := by
      rw [placeholder?_eq_none_iff, hEmpty]
      exact Or.inl (by simp [isNameChar])
    rw [ofChars_of_placeholder?_none hNone, hEmpty, String.toList_empty, List.nil_append,
      ofChars_of_ne (by decide)]
    rfl
  · rename_i hSome
    have hInside : ∀ c ∈ name.toList, isNameChar c = true := by
      intro c hc
      have hBounds := Name.toNat_of_isPart (h c hc)
      rw [← Bool.not_eq_false, isNameChar_eq_false_iff]
      rintro (rfl | rfl) <;> exact absurd hBounds (by decide)
    have hFound : placeholder? (name.toList ++ '}' :: rest) = some (name.toList, rest) := by
      have hTake : (name.toList ++ '}' :: rest).takeWhile isNameChar = name.toList := by
        rw [List.takeWhile_append_of_pos hInside, List.takeWhile_cons_of_neg (by decide),
          List.append_nil]
      have hDrop : (name.toList ++ '}' :: rest).dropWhile isNameChar = '}' :: rest := by
        rw [List.dropWhile_append_of_pos hInside, List.dropWhile_cons_of_neg (by decide)]
      rw [placeholder?, hTake, hDrop, if_neg (by simpa using hSome)]
      rfl
    rw [ofChars_of_placeholder? hFound, parameterName_of_isPart h, String.ofList_toList]
    rfl

theorem written_of_not_mem {cs : List Char} (h : '}' ∉ cs) : written (ofChars cs) = cs := by
  induction cs with
  | nil => rw [ofChars_nil]; rfl
  | cons c cs ih =>
    have hRest := List.not_mem_of_not_mem_cons h
    have hLiteral : ofChars (c :: cs) = .literal c :: ofChars cs := by
      by_cases hBrace : c = '{'
      · subst hBrace
        exact ofChars_of_placeholder?_none (placeholder?_eq_none_iff.mpr (Or.inr hRest))
      · exact ofChars_of_ne hBrace cs
    rw [hLiteral, written, List.flatMap_cons, ← written, ih hRest]
    rfl

/-- **A brace that opens no placeholder in a path opens none in its template.** -/
theorem placeholder?_written {cs : List Char} (h : placeholder? cs = none) :
    placeholder? (written (ofChars cs)) = none := by
  rw [placeholder?_eq_none_iff] at h ⊢
  rcases h with hFirst | hNone
  · left
    cases cs with
    | nil => rw [ofChars_nil]; exact hFirst
    | cons c cs =>
      have hBrace : c ≠ '{' := by
        rintro rfl
        exact absurd (hFirst _ rfl) (by decide)
      rw [ofChars_of_ne hBrace]
      exact hFirst
  · right
    rwa [written_of_not_mem hNone]

theorem written_cons (part : PathPart) (parts : List PathPart) :
    written (part :: parts) = part.text ++ written parts :=
  List.flatMap_cons

/-- **What is read from a whole template.** -/
theorem ofChars_written (cs : List Char) :
    ofChars (written (ofChars cs)) = (ofChars cs).flatMap settled := by
  fun_induction ofChars cs with
  | case1 => exact ofChars_nil
  | case2 cs name after hFound ih =>
    rw [written_cons, ofChars_parameter (isPart_parameterName name), ih, List.flatMap_cons]
  | case3 cs hNone ih =>
    rw [written_cons, text, List.singleton_append,
      ofChars_of_placeholder?_none (placeholder?_written hNone), ih, List.flatMap_cons, settled,
      List.singleton_append]
  | case4 c cs hBrace ih =>
    rw [written_cons, text, List.singleton_append, ofChars_of_ne hBrace, ih, List.flatMap_cons, settled,
      List.singleton_append]

theorem isPart_of_mem_ofChars {cs : List Char} {name : String} (h : parameter name ∈ ofChars cs) :
    ∀ c ∈ name.toList, Name.isPart c = true := by
  fun_induction ofChars cs with
  | case1 => cases h
  | case2 cs raw after hFound ih =>
    rcases List.mem_cons.mp h with hName | h
    · cases hName
      exact isPart_parameterName raw
    · exact ih h
  | case3 cs hNone ih => exact ih ((List.mem_cons.mp h).resolve_left (by simp))
  | case4 c cs hBrace ih => exact ih ((List.mem_cons.mp h).resolve_left (by simp))

theorem written_flatMap_settled (parts : List PathPart) :
    written (parts.flatMap settled) = written parts := by
  have hPart (part : PathPart) : written (settled part) = part.text := by
    cases part with
    | literal c => rfl
    | parameter name =>
      rw [settled]
      split
      · rename_i hEmpty
        rw [hEmpty]
        rfl
      · exact List.flatMap_singleton _ _
  rw [written, List.flatMap_assoc]
  exact List.flatMap_congr fun part _ => hPart part

theorem filterMap_name?_flatMap_settled (parts : List PathPart) :
    (parts.flatMap settled).filterMap name? = (parts.filterMap name?).filter (· ≠ "") := by
  induction parts with
  | nil => rfl
  | cons part parts ih =>
    rw [List.flatMap_cons, List.filterMap_append, ih]
    cases part with
    | literal c => rfl
    | parameter name =>
      by_cases hEmpty : name = "" <;> simp [settled, name?, hEmpty]

end PathPart

/-- **Reading the path of a template gives the template back**, without the parameters that have no name, and
the names of its parameters are made of ASCII letters, digits and low lines. -/
theorem PathTemplate.ofPath_path (path : String) :
    ofPath (ofPath path).path =
      ⟨(ofPath path).path, (ofPath path).parameters.filter (· ≠ "")⟩ ∧
    ∀ name ∈ (ofPath path).parameters, ∀ c ∈ name.toList, Name.isPart c = true := by
  have hRead (text : String) : ofPath text = ⟨String.ofList (PathPart.written (PathPart.ofChars text.toList)),
      (PathPart.ofChars text.toList).filterMap PathPart.name?⟩ := rfl
  constructor
  · rw [hRead (ofPath path).path]
    simp only [hRead path, String.toList_ofList, PathPart.ofChars_written,
      PathPart.written_flatMap_settled, PathPart.filterMap_name?_flatMap_settled]
  · intro name hName
    obtain ⟨part, hPart, hSome⟩ := List.mem_filterMap.mp hName
    cases part with
    | literal c => cases hSome
    | parameter other =>
      cases hSome
      exact PathPart.isPart_of_mem_ofChars hPart

end ProseTypes
