import Mathlib.Data.List.Basic

/-!
# Sorted texts

Texts are sorted by the numbers of their characters.  Once sorted they increase, if none is there twice or
repetitions are taken out.
-/

namespace ProseTypes.Text

theorem pairwise_mergeSort (texts : List String) :
    (texts.mergeSort fun a b => decide (a ≤ b)).Pairwise (· ≤ ·) := by
  let le (a b : String) : Bool := decide (a ≤ b)
  have hTrans (a b c : String) (hab : le a b) (hbc : le b c) : le a c := by
    simp only [le, decide_eq_true_eq] at hab hbc ⊢
    exact String.le_trans hab hbc
  have hTotal (a b : String) : (le a b || le b a) = true := by
    simp only [le, Bool.or_eq_true, decide_eq_true_eq]
    exact String.le_total a b
  have hSorted : (texts.mergeSort le).Pairwise fun a b => le a b :=
    List.pairwise_mergeSort hTrans hTotal texts
  exact hSorted.imp of_decide_eq_true

theorem lt_of_le_of_ne {a b : String} (h : a ≤ b) (hNe : a ≠ b) : a < b :=
  String.not_le.mp fun hBack => hNe (String.le_antisymm h hBack)

/-- **Sorted texts increase** if they are different. -/
theorem increasing_mergeSort {texts : List String} (h : texts.Nodup) :
    (texts.mergeSort fun a b => decide (a ≤ b)).Pairwise (· < ·) := by
  have hNodup : (texts.mergeSort fun a b => decide (a ≤ b)).Nodup :=
    (List.mergeSort_perm _ _).nodup_iff.mpr h
  exact (pairwise_mergeSort texts).imp₂ (fun _ _ hLe hNe => lt_of_le_of_ne hLe hNe) hNodup

/-- **Sorted texts increase** when repetitions are taken out. -/
theorem increasing_eraseDups {texts : List String} (h : texts.Pairwise (· ≤ ·)) :
    texts.eraseDups.Pairwise (· < ·) := by
  induction hn : texts.length using Nat.strongRecOn generalizing texts with
  | ind n ih =>
    cases texts with
    | nil => exact List.Pairwise.nil
    | cons first rest =>
      obtain ⟨hFirst, hRest⟩ := List.pairwise_cons.mp h
      have hLe := List.length_filter_le (fun text => !text == first) rest
      rw [List.length_cons] at hn
      rw [List.eraseDups_cons, List.pairwise_cons]
      refine ⟨fun text hText => ?_, ih _ (by omega) (hRest.sublist List.filter_sublist) rfl⟩
      have hMem := List.mem_filter.mp (List.mem_eraseDups.mp hText)
      have hNe : text ≠ first := by simpa using hMem.2
      exact lt_of_le_of_ne (hFirst text hMem.1) hNe.symm

end ProseTypes.Text
