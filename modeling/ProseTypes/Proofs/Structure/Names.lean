import Mathlib
import ProseTypes.Request.Basic
import ProseTypes.Proofs.Text.Cutting

/-!
# What names are made of

Whatever a title or a cell holds, the name that is made of it is an identifier: of the characters only
ASCII letters, digits and low lines are kept, and a digit does not come first
(`isIdentifier_of_ofTitle?`, `isIdentifier_of_ofConstant?`).  The names of a request's structures are
made of such a name and a word (`Request.isIdentifier_baseName`).
-/

namespace ProseTypes

namespace Name

/-- The characters that identifiers are made of here. -/
def isPart (c : Char) : Bool :=
  c.isAlphanum || c == '_'

theorem toNat_of_isUpper {c : Char} (h : c.isUpper) : 65 ≤ c.toNat ∧ c.toNat ≤ 90 := by
  have hVal : 'A'.val ≤ c.val ∧ c.val ≤ 'Z'.val := of_decide_eq_true h
  exact ⟨UInt32.le_iff_toNat_le.mp hVal.1, UInt32.le_iff_toNat_le.mp hVal.2⟩

theorem toNat_of_isLower {c : Char} (h : c.isLower) : 97 ≤ c.toNat ∧ c.toNat ≤ 122 := by
  have hVal : (decide ('a'.val ≤ c.val) && decide (c.val ≤ 'z'.val)) = true := h
  rw [Bool.and_eq_true, decide_eq_true_eq, decide_eq_true_eq] at hVal
  exact ⟨UInt32.le_iff_toNat_le.mp hVal.1, UInt32.le_iff_toNat_le.mp hVal.2⟩

theorem toNat_of_isAlpha {c : Char} (h : c.isAlpha) : 65 ≤ c.toNat ∧ c.toNat ≤ 122 := by
  rcases (Bool.or_eq_true _ _).mp (show (c.isUpper || c.isLower) = true from h) with h | h
  · have hUpper := toNat_of_isUpper h
    omega
  · have hLower := toNat_of_isLower h
    omega

theorem toNat_of_isDigit {c : Char} (h : c.isDigit) : 48 ≤ c.toNat ∧ c.toNat ≤ 57 := by
  simp only [Char.isDigit, Bool.and_eq_true, decide_eq_true_eq] at h
  exact ⟨UInt32.le_iff_toNat_le.mp h.1, UInt32.le_iff_toNat_le.mp h.2⟩

theorem isDigit_eq_false_of_isAlpha {c : Char} (h : c.isAlpha) : c.isDigit = false := by
  refine eq_false_of_ne_true fun hDigit => ?_
  have hLow := toNat_of_isAlpha h
  have hHigh := toNat_of_isDigit hDigit
  omega

theorem isPart_toUpper {c : Char} (h : isPart c) : isPart c.toUpper := by
  by_cases hAlpha : c.isAlpha
  · rw [isPart, Char.isAlphanum, Char.isAlpha_toUpper_eq_isAlpha, hAlpha]
    rfl
  · have hLower : ¬c.isLower := fun hLower => hAlpha ((Bool.or_eq_true _ _).mpr (Or.inr hLower))
    rwa [Char.toUpper_eq_of_not_isLower hLower]

/-- **Parts of identifiers make an identifier**, if no digit comes first. -/
theorem isIdentifier_ofList {c : Char} {cs : List Char} (hc : c.isDigit = false)
    (h : ∀ d ∈ c :: cs, isPart d) : isIdentifier (String.ofList (c :: cs)) := by
  simp only [isPart, Char.isAlphanum, Bool.or_eq_true, beq_iff_eq] at h
  unfold isIdentifier
  simp only [String.toList_ofList, Bool.and_eq_true, Bool.or_eq_true, beq_iff_eq, List.all_eq_true]
  constructor
  · have hFirst := h c List.mem_cons_self
    simp only [hc, Bool.false_eq_true, or_false] at hFirst
    exact Or.inl hFirst
  · intro d hd
    rcases h d (List.mem_cons_of_mem _ hd) with (hAlpha | hDigit) | hLow
    · exact Or.inl (Or.inl (Or.inl hAlpha))
    · exact Or.inr hDigit
    · exact Or.inl (Or.inl (Or.inr hLow))

theorem isPart_cons_of_forall {cs : List Char} (h : ∀ d ∈ cs, isPart d) :
    ∀ d ∈ '_' :: cs, isPart d := by
  intro d hd
  rcases List.mem_cons.mp hd with rfl | hd
  · rfl
  · exact h d hd

theorem isIdentifier_append {s t : String} (hs : isIdentifier s) (ht : t.toList.all isPart) :
    isIdentifier (s ++ t) := by
  unfold isIdentifier at hs ⊢
  rw [String.toList_append]
  cases hChars : s.toList with
  | nil => simp [hChars] at hs
  | cons c cs =>
    simp only [hChars, List.cons_append, List.all_append, Bool.and_eq_true] at hs ⊢
    refine ⟨hs.1, hs.2, ?_⟩
    rw [List.all_eq_true] at ht ⊢
    intro d hd
    have hPart := ht d hd
    simp only [isPart, Char.isAlphanum, Bool.or_eq_true] at hPart ⊢
    tauto

theorem of_mem_parts {keep : Char → Bool} {cs part : List Char} (h : part ∈ parts keep cs) :
    ∀ c ∈ part, keep c := by
  intro c hc
  have hPiece := Text.not_of_mem_pieces (List.mem_filter.mp h).1 c hc
  simpa using hPiece

/-- **The name that a title gives is an identifier.** -/
theorem isIdentifier_of_ofTitle? {title name : String} (h : ofTitle? title = some name) :
    isIdentifier name := by
  simp only [ofTitle?] at h
  split at h
  · cases h
  · rename_i c cs hName
    have hPart {d : Char} (hd : Text.isAsciiAlphanumeric d) : isPart d := by
      rw [isPart, show d.isAlphanum from hd]
      rfl
    have hParts (d : Char) (hd : d ∈ c :: cs) : isPart d := by
      rw [← hName] at hd
      obtain ⟨part, hMem, hd⟩ := List.mem_flatMap.mp hd
      have hKept := of_mem_parts hMem
      cases part with
      | nil => cases hd
      | cons e rest =>
        rcases List.mem_cons.mp hd with rfl | hd
        · exact isPart_toUpper (hPart (hKept e List.mem_cons_self))
        · exact hPart (hKept d (List.mem_cons_of_mem _ hd))
    cases h
    rw [hName]
    split
    · rename_i hAlpha
      exact isIdentifier_ofList (isDigit_eq_false_of_isAlpha hAlpha) hParts
    · exact isIdentifier_ofList (by decide) (isPart_cons_of_forall hParts)

/-- **The name of a constant is an identifier.** -/
theorem isIdentifier_of_ofConstant? {cell name : String} (h : ofConstant? cell = some name) :
    isIdentifier name := by
  simp only [ofConstant?] at h
  split at h
  · cases h
  · rename_i c cs hName
    have hParts (d : Char) (hd : d ∈ c :: cs) : isPart d := by
      rw [← hName] at hd
      rcases Text.mem_or_exists_of_mem_intercalate hd with hd | ⟨word, hWord, hd⟩
      · rw [List.mem_singleton.mp hd]
        rfl
      · obtain ⟨part, hPart, rfl⟩ := List.mem_map.mp hWord
        obtain ⟨e, he, rfl⟩ := List.mem_map.mp hd
        exact isPart_toUpper (of_mem_parts hPart e he)
    cases h
    rw [hName]
    split
    · exact isIdentifier_ofList (by decide) (isPart_cons_of_forall hParts)
    · rename_i hDigit
      exact isIdentifier_ofList (eq_false_of_ne_true hDigit) hParts

end Name

/-- **What the names of a request's structures start with is an identifier.** -/
theorem Request.isIdentifier_baseName (title : RequestTitle) :
    Name.isIdentifier (Request.baseName title) := by
  unfold Request.baseName
  cases h : Name.ofTitle? title.name with
  | none => exact (by decide : Name.isIdentifier "Request" = true)
  | some name => exact Name.isIdentifier_of_ofTitle? h

end ProseTypes
