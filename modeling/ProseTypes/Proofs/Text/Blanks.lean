import ProseTypes.Text.Blank
import ProseTypes.Text.Category

/-!
# Blanks and words

The blanks are ten stretches of code points, and none of them belongs to a word.
-/

namespace ProseTypes.Text

def blanks : List (Nat × Nat) :=
  [(0x09, 0x0d), (0x20, 0x20), (0x85, 0x85), (0xa0, 0xa0), (0x1680, 0x1680), (0x2000, 0x200a),
    (0x2028, 0x2029), (0x202f, 0x202f), (0x205f, 0x205f), (0x3000, 0x3000)]

theorem exists_mem_blanks {c : Char} (h : isBlank c = true) :
    ∃ stretch ∈ blanks, stretch.1 ≤ c.toNat ∧ c.toNat ≤ stretch.2 := by
  simp [isBlank, blanks] at h ⊢
  omega

/-- **A blank belongs to no word.** -/
theorem isWordChar_of_isBlank {c : Char} (h : isBlank c = true) : isWordChar c = false := by
  have hTable : ∀ stretch ∈ blanks, ∀ n < stretch.2 + 1 - stretch.1,
      inRanges Category.word (stretch.1 + n) = false := by
    decide +kernel
  obtain ⟨stretch, hStretch, hFirst, hLast⟩ := exists_mem_blanks h
  have hOne := hTable stretch hStretch (c.toNat - stretch.1) (by omega)
  rwa [Nat.add_sub_cancel' hFirst] at hOne

end ProseTypes.Text
