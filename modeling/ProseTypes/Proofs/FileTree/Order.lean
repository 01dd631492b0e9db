import ProseTypes.Proofs.Text.Sorted
import ProseTypes.Source

/-!
# The order of paths

Paths are compared component by component, and a path comes after the directories that it lies in.  It is a
linear order of components (`Path.notAfter_trans`, `Path.notAfter_total`, `Path.notAfter_antisymm`).  So
when paths are sorted, those with the same components stand next to each other, and
dropping what has the components of the path before leaves paths in strict order (`Source.strict_sorted`).
Nothing else is dropped (`Source.exists_mem_sorted`).
-/

namespace ProseTypes

namespace Path

namespace Component

theorem before_iff {a b : Component} : a.before b = true ↔
    a.rank < b.rank ∨ ∃ x y, a = name x ∧ b = name y ∧ x < y := by
  cases a <;> cases b <;> simp [before, rank]

theorem before_trans {a b c : Component} (hab : a.before b = true) (hbc : b.before c = true) :
    a.before c = true := by
  rw [before_iff] at hab hbc ⊢
  rcases hab with hab | ⟨x, y, rfl, rfl, hxy⟩
  · rcases hbc with hbc | ⟨y, z, rfl, rfl, -⟩
    · exact Or.inl (Nat.lt_trans hab hbc)
    · exact Or.inl hab
  · rcases hbc with hbc | ⟨y', z, hy, rfl, hyz⟩
    · exact Or.inl hbc
    · obtain rfl := Component.name.inj hy
      exact Or.inr ⟨x, z, rfl, rfl, String.lt_trans hxy hyz⟩

theorem before_irrefl (a : Component) : a.before a = false := by
  cases a <;> simp [before, rank]

theorem before_or_before {a b : Component} (h : a ≠ b) : a.before b = true ∨ b.before a = true := by
  simp only [before_iff]
  cases a with
  | name x =>
    cases b with
    | name y =>
      have hNe : x ≠ y := fun hEq => h (congrArg name hEq)
      rcases String.le_total x y with hLe | hLe
      · exact Or.inl (Or.inr ⟨x, y, rfl, rfl, Text.lt_of_le_of_ne hLe hNe⟩)
      · exact Or.inr (Or.inr ⟨y, x, rfl, rfl, Text.lt_of_le_of_ne hLe hNe.symm⟩)
    | root | here | up => simp [rank]
  | root | here | up => cases b <;> simp_all [rank]

end Component

theorem notAfter_cons {a b : Component} {as bs : List Component} :
    notAfter (a :: as) (b :: bs) = true ↔ a.before b = true ∨ a = b ∧ notAfter as bs = true := by
  rw [notAfter]
  split
  · rename_i hEq
    subst hEq
    simp [Component.before_irrefl]
  · rename_i hNe
    simp [hNe]

theorem notAfter_trans {as bs cs : List Component} (hab : notAfter as bs = true)
    (hbc : notAfter bs cs = true) : notAfter as cs = true := by
  induction as generalizing bs cs with
  | nil => rfl
  | cons a as ih =>
    cases bs with
    | nil => cases hab
    | cons b bs =>
      cases cs with
      | nil => cases hbc
      | cons c cs =>
        rw [notAfter_cons] at hab hbc ⊢
        rcases hab with hab | ⟨rfl, hab⟩
        · rcases hbc with hbc | ⟨rfl, -⟩
          · exact Or.inl (Component.before_trans hab hbc)
          · exact Or.inl hab
        · exact hbc.imp_right fun ⟨hEq, hbc⟩ => ⟨hEq, ih hab hbc⟩

theorem notAfter_total (as bs : List Component) : (notAfter as bs || notAfter bs as) = true := by
  rw [Bool.or_eq_true]
  induction as generalizing bs with
  | nil => exact Or.inl rfl
  | cons a as ih =>
    cases bs with
    | nil => exact Or.inr rfl
    | cons b bs =>
      rw [notAfter_cons, notAfter_cons]
      by_cases hEq : a = b
      · exact (ih bs).imp (fun h => Or.inr ⟨hEq, h⟩) fun h => Or.inr ⟨hEq.symm, h⟩
      · exact (Component.before_or_before hEq).imp Or.inl Or.inl

theorem notAfter_antisymm {as bs : List Component} (hab : notAfter as bs = true)
    (hba : notAfter bs as = true) : as = bs := by
  induction as generalizing bs with
  | nil =>
    cases bs with
    | nil => rfl
    | cons b bs => cases hba
  | cons a as ih =>
    cases bs with
    | nil => cases hab
    | cons b bs =>
      rw [notAfter_cons] at hab hba
      have hCycle (x y : Component) (hxy : x.before y = true) (hyx : y.before x = true) : False := by
        have hSelf := Component.before_trans hxy hyx
        rw [Component.before_irrefl] at hSelf
        cases hSelf
      rcases hab with hab | ⟨rfl, hab⟩
      · rcases hba with hba | ⟨rfl, -⟩
        · exact (hCycle _ _ hab hba).elim
        · exact (hCycle _ _ hab hab).elim
      · rcases hba with hba | ⟨-, hba⟩
        · exact (hCycle _ _ hba hba).elim
        · rw [ih hab hba]

def Before (a b : String) : Prop :=
  notAfter (components a) (components b) = true ∧ components a ≠ components b

instance (a b : String) : Decidable (Before a b) :=
  inferInstanceAs (Decidable (_ ∧ _))

end Path

namespace Source

open ProseTypes.Path (components notAfter Before)

theorem samePath_iff {a b : String} : samePath a b = true ↔ components a = components b :=
  beq_iff_eq

theorem dropRepeated_subset (paths : List String) : dropRepeated paths ⊆ paths := by
  fun_induction dropRepeated paths with
  | case1 a b rest hSame ih =>
    intro path hPath
    rcases List.mem_cons.mp (ih hPath) with rfl | hRest
    · exact List.mem_cons_self
    · exact List.mem_cons_of_mem a (List.mem_cons_of_mem b hRest)
  | case2 a b rest hOther ih => exact List.cons_subset_cons a ih
  | case3 paths hShort => exact List.Subset.refl paths

theorem exists_mem_dropRepeated {path : String} {paths : List String} (h : path ∈ paths) :
    ∃ kept ∈ dropRepeated paths, samePath kept path = true := by
  have hRefl (path : String) : samePath path path = true := beq_self_eq_true _
  fun_induction dropRepeated paths generalizing path with
  | case1 a b rest hSame ih =>
    rcases List.mem_cons.mp h with rfl | h
    · exact ih List.mem_cons_self
    · rcases List.mem_cons.mp h with rfl | h
      · obtain ⟨kept, hKept, hFirst⟩ := ih List.mem_cons_self
        rw [samePath_iff] at hFirst hSame
        exact ⟨kept, hKept, samePath_iff.mpr (hFirst.trans hSame)⟩
      · exact ih (List.mem_cons_of_mem a h)
  | case2 a b rest hOther ih =>
    rcases List.mem_cons.mp h with rfl | h
    · exact ⟨path, List.mem_cons_self, hRefl path⟩
    · obtain ⟨kept, hKept, hPath⟩ := ih h
      exact ⟨kept, List.mem_cons_of_mem a hKept, hPath⟩
  | case3 paths hShort => exact ⟨path, h, hRefl path⟩

/-- **What is left of paths in order is in strict order.** -/
theorem strict_dropRepeated {paths : List String}
    (h : paths.Pairwise fun a b => notAfter (components a) (components b) = true) :
    (dropRepeated paths).Pairwise Before := by
  fun_induction dropRepeated paths with
  | case1 a b rest hSame ih =>
    obtain ⟨hFirst, hRest⟩ := List.pairwise_cons.mp h
    exact ih (List.pairwise_cons.mpr ⟨fun path hPath => hFirst path (List.mem_cons_of_mem b hPath),
      (List.pairwise_cons.mp hRest).2⟩)
  | case2 a b rest hOther ih =>
    obtain ⟨hFirst, hRest⟩ := List.pairwise_cons.mp h
    refine List.pairwise_cons.mpr ⟨fun path hPath => ?_, ih hRest⟩
    have hMem := dropRepeated_subset _ hPath
    refine ⟨hFirst path hMem, fun hEq => hOther ?_⟩
    -- What comes between two equal paths is equal to them.
    rw [samePath_iff]
    rcases List.mem_cons.mp hMem with rfl | hLater
    · exact hEq
    · refine Path.notAfter_antisymm (hFirst b List.mem_cons_self) ?_
      rw [hEq]
      exact (List.pairwise_cons.mp hRest).1 path hLater
  | case3 paths hShort =>
    match paths, hShort with
    | [], _ => exact List.Pairwise.nil
    | [path], _ => exact List.pairwise_singleton _ path
    | a :: b :: rest, hShort => exact (hShort a b rest rfl).elim

/-- **Sorted paths are in strict order.** -/
theorem strict_sorted (paths : List String) : (sorted paths).Pairwise Before := by
  refine strict_dropRepeated (List.pairwise_mergeSort ?_ ?_ paths)
  · exact fun a b c => Path.notAfter_trans
  · exact fun a b => Path.notAfter_total _ _

theorem dropRepeated_of_before {paths : List String} (h : paths.Pairwise Before) :
    dropRepeated paths = paths := by
  fun_induction dropRepeated paths with
  | case1 a b rest hSame ih =>
    exact absurd (samePath_iff.mp hSame) (List.rel_of_pairwise_cons h List.mem_cons_self).2
  | case2 a b rest hOther ih => rw [ih (List.pairwise_cons.mp h).2]
  | case3 paths hShort => rfl

theorem sorted_of_before {paths : List String} (h : paths.Pairwise Before) : sorted paths = paths := by
  rw [sorted, List.mergeSort_of_pairwise (h.imp And.left), dropRepeated_of_before h]

theorem sorted_subset (paths : List String) : sorted paths ⊆ paths :=
  fun _ h => (List.mergeSort_perm paths _).mem_iff.mp (dropRepeated_subset _ h)

theorem exists_mem_sorted {path : String} {paths : List String} (h : path ∈ paths) :
    ∃ kept ∈ sorted paths, samePath kept path = true :=
  exists_mem_dropRepeated ((List.mergeSort_perm paths _).mem_iff.mpr h)

end Source

end ProseTypes
