import ProseTypes.Proofs.Structure.Names
import ProseTypes.Text.LetterCase

/-!
# Text up to the case of ASCII letters

`foldCase` makes the ASCII capitals of a text small.  What cuts a text goes by classes of characters
that either hold both forms of an ASCII letter or none of them (`Caseless`), so it cuts the folded text
at the same places.  The full mappings to small letters and to capitals do not see the difference at
all (`lower_foldCase`, `upper_foldCase`): the small form of a capital sigma depends on the letters
around it, but not on their case.
-/

namespace ProseTypes.Text

/-- The case of ASCII letters makes no difference to a class of characters. -/
def Caseless (p : Char → Bool) : Prop :=
  ∀ c, p c.toLower = p c

/-! ### Classes of characters -/

theorem toLower_of_not_isAlpha {c : Char} (h : c.isAlpha = false) : c.toLower = c := by
  refine Char.toLower_eq_of_not_isUpper fun hUpper => ?_
  rw [Char.isAlpha, hUpper] at h
  cases h

theorem eq_or_eq_of_toLower {c d : Char} (h : c.toLower = d) : c = d ∨ c = d.toUpper := by
  by_cases hUpper : c.isUpper = true
  · have hLower : ¬c.isLower = true := by
      intro hLower
      have hHigh := (Name.toNat_of_isUpper hUpper).2
      have hLow := (Name.toNat_of_isLower hLower).1
      omega
    right
    rw [← h, Char.toUpper_toLower_eq_toUpper, Char.toUpper_eq_of_not_isLower hLower]
  · left
    rw [← h, Char.toLower_eq_of_not_isUpper hUpper]

/-- **A class without ASCII letters is caseless.** -/
theorem caseless_of_isAlpha {p : Char → Bool} (h : ∀ c, c.isAlpha = true → p c = false) :
    Caseless p := by
  intro c
  cases hAlpha : c.isAlpha with
  | false => rw [toLower_of_not_isAlpha hAlpha]
  | true =>
    have hSmall : c.toLower.isAlpha = true := by
      rw [Char.isAlpha_toLower_eq_isAlpha, hAlpha]
    rw [h c hAlpha, h _ hSmall]

theorem caseless_beq {d : Char} (hd : d.isAlpha = false) : Caseless (· == d) := by
  refine caseless_of_isAlpha fun c hAlpha => ?_
  rw [beq_eq_false_iff_ne]
  rintro rfl
  rw [hd] at hAlpha
  cases hAlpha

theorem toLower_eq_iff {c d : Char} (hd : d.isAlpha = false) : c.toLower = d ↔ c = d := by
  have h := caseless_beq hd c
  rwa [Bool.eq_iff_iff, beq_iff_eq, beq_iff_eq] at h

theorem Caseless.or {p q : Char → Bool} (hp : Caseless p) (hq : Caseless q) :
    Caseless fun c => p c || q c := by
  intro c
  simp only [hp c, hq c]

theorem Caseless.not {p : Char → Bool} (hp : Caseless p) : Caseless fun c => !p c := by
  intro c
  simp only [hp c]

theorem caseless_isBlank : Caseless isBlank := by
  refine caseless_of_isAlpha fun c hAlpha => ?_
  obtain ⟨hLow, hHigh⟩ := Name.toNat_of_isAlpha hAlpha
  simp [isBlank]
  omega

/-! ### Cutting -/

theorem foldCase_nil : foldCase [] = [] :=
  rfl

theorem foldCase_cons (c : Char) (cs : List Char) : foldCase (c :: cs) = c.toLower :: foldCase cs :=
  rfl

section

variable {p : Char → Bool} (h : Caseless p) (cs : List Char)

include h

theorem dropWhile_foldCase : (foldCase cs).dropWhile p = foldCase (cs.dropWhile p) := by
  have hSame : p ∘ Char.toLower = p := funext h
  rw [foldCase, List.dropWhile_map, hSame, foldCase]

theorem takeWhile_foldCase : (foldCase cs).takeWhile p = foldCase (cs.takeWhile p) := by
  have hSame : p ∘ Char.toLower = p := funext h
  rw [foldCase, List.takeWhile_map, hSame, foldCase]

theorem filter_foldCase : (foldCase cs).filter p = foldCase (cs.filter p) := by
  have hSame : p ∘ Char.toLower = p := funext h
  rw [foldCase, List.filter_map, hSame, foldCase]

theorem dropEndWhile_foldCase : dropEndWhile p (foldCase cs) = foldCase (dropEndWhile p cs) := by
  have hReverse (text : List Char) : (foldCase text).reverse = foldCase text.reverse :=
    List.map_reverse.symm
  rw [dropEndWhile, hReverse, dropWhile_foldCase h, hReverse, dropEndWhile]

theorem pieces_foldCase : pieces p (foldCase cs) = (pieces p cs).map foldCase := by
  induction cs with
  | nil => rfl
  | cons c cs ih =>
    rw [foldCase_cons, pieces, pieces, h c, ih]
    cases p c with
    | true => rfl
    | false =>
      simp only [Bool.false_eq_true, if_false]
      cases pieces p cs with
      | nil => rfl
      | cons piece rest => rfl

theorem cutFirst?_foldCase : cutFirst? p (foldCase cs) =
    (cutFirst? p cs).map fun cut => (foldCase cut.1, foldCase cut.2) := by
  induction cs with
  | nil => rfl
  | cons c cs ih =>
    rw [foldCase_cons, cutFirst?, cutFirst?, h c, ih]
    cases p c with
    | true => rfl
    | false => cases cutFirst? p cs <;> rfl

theorem cutLast?_foldCase : cutLast? p (foldCase cs) =
    (cutLast? p cs).map fun cut => (foldCase cut.1, foldCase cut.2) := by
  induction cs with
  | nil => rfl
  | cons c cs ih =>
    rw [foldCase_cons, cutLast?, cutLast?, h c, ih]
    cases cutLast? p cs with
    | some cut => rfl
    | none => cases p c <;> rfl

end

theorem trim_foldCase (cs : List Char) : trim (foldCase cs) = foldCase (trim cs) := by
  rw [trim, trimStart, dropWhile_foldCase caseless_isBlank, trimEnd,
    dropEndWhile_foldCase caseless_isBlank, trim, trimEnd, trimStart]

theorem words_foldCase (cs : List Char) : words (foldCase cs) = (words cs).map foldCase := by
  rw [words, pieces_foldCase caseless_isBlank, List.filter_map, words]
  refine congrArg (List.map foldCase) (List.filter_congr fun word _ => ?_)
  simp [foldCase]

theorem foldCase_intercalate (separator : List Char) (texts : List (List Char)) :
    foldCase (separator.intercalate texts) = (foldCase separator).intercalate (texts.map foldCase) := by
  induction texts with
  | nil => rfl
  | cons first rest ih =>
    cases rest with
    | nil => simp [List.intercalate]
    | cons second rest =>
      rw [List.intercalate_cons_cons, List.map_cons, List.map_cons, List.intercalate_cons_cons,
        ← List.map_cons, ← ih]
      simp [foldCase]

/-! ### Small letters and capitals -/

namespace LetterCase

theorem toLower_of_ge {c : Char} (h : ¬c.toNat < 0x80) : c.toLower = c := by
  refine toLower_of_not_isAlpha (eq_false_of_ne_true fun hAlpha => ?_)
  have hHigh := (Name.toNat_of_isAlpha hAlpha).2
  omega

theorem ascii_cases {P : Char → Prop} (h : ∀ n < 0x80, P (Char.ofNat n)) {c : Char}
    (hc : c.toNat < 0x80) : P c := by
  have hSame := h c.toNat hc
  rwa [Char.ofNat_toNat] at hSame

/-- What the mappings go by and give is the same for both forms of an ASCII letter. -/
theorem toLower_ascii {c : Char} (hc : c.toNat < 0x80) :
    isCased c.toLower = isCased c ∧ isCaseIgnorable c.toLower = isCaseIgnorable c ∧
      lowerChar c.toLower = lowerChar c ∧ upperChar c.toLower = upperChar c :=
  ascii_cases (P := fun c => isCased c.toLower = isCased c ∧ isCaseIgnorable c.toLower = isCaseIgnorable c ∧
    lowerChar c.toLower = lowerChar c ∧ upperChar c.toLower = upperChar c) (by decide +kernel) hc

theorem isCased_toLower (c : Char) : isCased c.toLower = isCased c := by
  by_cases hc : c.toNat < 0x80
  · exact (toLower_ascii hc).1
  · rw [toLower_of_ge hc]

theorem isCaseIgnorable_toLower (c : Char) : isCaseIgnorable c.toLower = isCaseIgnorable c := by
  by_cases hc : c.toNat < 0x80
  · exact (toLower_ascii hc).2.1
  · rw [toLower_of_ge hc]

theorem lowerChar_toLower (c : Char) : lowerChar c.toLower = lowerChar c := by
  by_cases hc : c.toNat < 0x80
  · exact (toLower_ascii hc).2.2.1
  · rw [toLower_of_ge hc]

theorem upperChar_toLower (c : Char) : upperChar c.toLower = upperChar c := by
  by_cases hc : c.toNat < 0x80
  · exact (toLower_ascii hc).2.2.2
  · rw [toLower_of_ge hc]

theorem startsCased_foldCase (cs : List Char) : startsCased (foldCase cs) = startsCased cs := by
  rw [startsCased, dropWhile_foldCase isCaseIgnorable_toLower, startsCased, foldCase,
    List.head?_map]
  cases (cs.dropWhile isCaseIgnorable).head? with
  | none => rfl
  | some c => exact isCased_toLower c

theorem lowerSigma_foldCase (before after : List Char) :
    lowerSigma (foldCase before) (foldCase after) = lowerSigma before after := by
  rw [lowerSigma, startsCased_foldCase, startsCased_foldCase, lowerSigma]

theorem lowerAfter_foldCase (before cs : List Char) :
    lowerAfter (foldCase before) (foldCase cs) = lowerAfter before cs := by
  induction cs generalizing before with
  | nil => rfl
  | cons c cs ih =>
    have hSigma : c.toLower = 'Σ' ↔ c = 'Σ' := toLower_eq_iff (by decide)
    have hRest := ih (c :: before)
    rw [foldCase_cons, lowerAfter, lowerAfter, lowerChar_toLower, lowerSigma_foldCase]
    simp only [hSigma]
    exact congrArg _ hRest

end LetterCase

/-- **A text and its folded form have the same small form.** -/
theorem lower_foldCase (cs : List Char) : lower (foldCase cs) = lower cs :=
  LetterCase.lowerAfter_foldCase [] cs

/-- **A text and its folded form have the same capitals.** -/
theorem upper_foldCase (cs : List Char) : upper (foldCase cs) = upper cs := by
  rw [upper, foldCase, List.flatMap_map, upper]
  exact List.flatMap_congr fun c _ => LetterCase.upperChar_toLower c

end ProseTypes.Text
