import Mathlib.Data.Finset.Basic
import Mathlib.Data.Finset.Lattice.Lemmas
import ProseTypes.Proofs.Registry.Mentions
import ProseTypes.Proofs.TypeTree.Reader

/-!
# What the text of a type means

A type means a set of alternatives (`TypeTree.meaning`): a leaf is one alternative, alternatives are a
union, an optional value has null as one more, and an array or a partial object is one alternative made
of what is meant below it.

The text of a type means the same.  Parentheses are written around exactly those trees whose
alternatives would otherwise fall apart, so the reader always gives a tree back
(`TypeTree.conveys_text`), and that tree has the meaning of the one that was written
(`Symbol.meaning_read_text`).
-/

namespace ProseTypes

/-- One alternative of a type.  What an array holds and what a partial object is made of are the
alternatives of a set, in an order that the set decides. -/
inductive Variant where
  | name (text : String)
  | array (element : List Variant)
  | partialOf (inner : List Variant)

theorem Variant.eq_of_toList_eq {first second : Finset Variant}
    (h : first.toList = second.toList) : first = second := by
  classical
  rw [← Finset.toList_toFinset first, h, Finset.toList_toFinset]

namespace TypeTree

open scoped Classical

variable {α β : Type}

/-- The alternatives that a type has, given the text of its leaves. -/
noncomputable def meaning (leafText : α → String) : TypeTree α → Finset Variant
  | leaf a => {Variant.name (leafText a)}
  | array t => {Variant.array (t.meaning leafText).toList}
  | nullable t => insert (Variant.name "null") (t.meaning leafText)
  | partialOf t => {Variant.partialOf (t.meaning leafText).toList}
  | either l r => l.meaning leafText ∪ r.meaning leafText

/-- **Arrays mean the same exactly if their elements do.** -/
theorem meaning_array_inj {f : α → String} {g : β → String} {t : TypeTree α} {u : TypeTree β} :
    (array t).meaning f = (array u).meaning g ↔ t.meaning f = u.meaning g := by
  constructor
  · intro h
    exact Variant.eq_of_toList_eq (Variant.array.inj (Finset.singleton_injective h))
  · intro h
    rw [meaning, meaning, h]

/-- **Partial objects mean the same exactly if what they are made of does.** -/
theorem meaning_partialOf_inj {f : α → String} {g : β → String} {t : TypeTree α} {u : TypeTree β} :
    (partialOf t).meaning f = (partialOf u).meaning g ↔ t.meaning f = u.meaning g := by
  constructor
  · intro h
    exact Variant.eq_of_toList_eq (Variant.partialOf.inj (Finset.singleton_injective h))
  · intro h
    rw [meaning, meaning, h]

end TypeTree

namespace TypeText

open scoped Classical

noncomputable def sense : Option (TypeTree String) → Finset Variant
  | none => ∅
  | some before => before.meaning id

theorem meaning_join (before : Option (TypeTree String)) (operand : TypeTree String) :
    (join before operand).meaning id = sense before ∪ operand.meaning id := by
  cases before with
  | none => exact (Finset.empty_union _).symm
  | some before => rfl

/-- Says of a text that it can stand for a leaf: it is a name, or the one operand with arguments
that no partial object is. -/
def IsLeaf (s : String) : Prop :=
  isName s ∨ s = Primitive.dict.typeText

theorem readsTo_leaf {s : String} (h : IsLeaf s) (before : Option (TypeTree String)) :
    ReadsTo s before before (.leaf s) := by
  rcases h with h | rfl
  · exact ReadsTo.name h before
  · exact ReadsTo.dict before

/-- Behind the alternatives `before`, a text is read as the alternatives of `meant`.  If it is
`single`, it is read as one operand, which brackets behind it take as a whole. -/
def Conveys (s : String) (before : Option (TypeTree String)) (meant : Finset Variant)
    (single : Bool) : Prop :=
  ∃ before' operand, ReadsTo s before before' operand ∧
    (join before' operand).meaning id = sense before ∪ meant ∧
    (single → operand.meaning id = meant ∧ before' = before)

theorem Conveys.of_operand {s : String} {before : Option (TypeTree String)}
    {operand : TypeTree String} {meant : Finset Variant} (hReads : ReadsTo s before before operand)
    (hMeaning : operand.meaning id = meant) (single : Bool) : Conveys s before meant single := by
  refine ⟨before, operand, hReads, ?_, fun _ => ⟨hMeaning, rfl⟩⟩
  rw [meaning_join, hMeaning]

theorem Conveys.parentheses {s : String} {meant : Finset Variant} {single : Bool}
    (h : Conveys s none meant single) (before : Option (TypeTree String)) :
    ∃ operand, ReadsTo ("(" ++ s ++ ")") before before operand ∧ operand.meaning id = meant := by
  obtain ⟨before', operand, hReads, hMeaning, -⟩ := h
  refine ⟨join before' operand, hReads.parentheses before, ?_⟩
  rw [hMeaning, sense, Finset.empty_union]

theorem Conveys.bar {s t : String} {before : Option (TypeTree String)} {meant more : Finset Variant}
    {first last : Bool} (h : Conveys s before meant first)
    (hMore : ∀ before, Conveys t before more last) :
    Conveys (s ++ "|" ++ t) before (meant ∪ more) false := by
  obtain ⟨before', operand, hReads, hMeaning, -⟩ := h
  obtain ⟨before'', operand', hLast, hLastMeaning, -⟩ := hMore (some (join before' operand))
  refine ⟨before'', operand', hReads.bar hLast, ?_, fun hFalse => by cases hFalse⟩
  rw [hLastMeaning, sense, hMeaning, Finset.union_assoc]

theorem Conveys.null {s : String} {before : Option (TypeTree String)} {α : Type}
    {leafText : α → String} {t : TypeTree α} {single : Bool}
    (h : Conveys s before (t.meaning leafText) single) :
    Conveys (s ++ "|null") before ((TypeTree.nullable t).meaning leafText) false := by
  have hNull (before : Option (TypeTree String)) :
      Conveys "null" before {Variant.name "null"} true :=
    .of_operand (readsTo_leaf (Or.inl (by decide)) before) rfl true
  have hBar := h.bar hNull
  rw [Finset.union_comm, ← Finset.insert_eq, String.append_assoc] at hBar
  exact hBar

end TypeText

namespace TypeTree

open TypeText
open scoped Classical

variable {α : Type} {leafText : α → String}

/-- **The text of a tree is read, and what is read means what the tree means.**  A tree that is not a
union is read as a single operand, which is what brackets behind it rely on. -/
theorem conveys_text {t : TypeTree α} (h : ∀ a, Occurs a t → IsLeaf (leafText a))
    (before : Option (TypeTree String)) :
    Conveys (t.text leafText) before (t.meaning leafText) (!t.isUnion) := by
  induction t generalizing before with
  | leaf a => exact .of_operand (readsTo_leaf (h a .leaf) before) rfl _
  | array t ih =>
    have hInner := ih fun a ha => h a (.array ha)
    rw [text]
    by_cases hUnion : t.isUnion
    · obtain ⟨operand, hReads, hMeaning⟩ := (hInner none).parentheses before
      rw [if_pos hUnion]
      exact .of_operand hReads.array (meaning_array_inj.mpr hMeaning) _
    · obtain ⟨before', operand, hReads, -, hOperand⟩ := hInner before
      obtain ⟨hMeaning, rfl⟩ := hOperand (by simp [hUnion])
      rw [if_neg hUnion]
      exact .of_operand hReads.array (meaning_array_inj.mpr hMeaning) _
  | nullable t ih =>
    have hInner := ih fun a ha => h a (.nullable ha)
    rw [text]
    by_cases hNullable : t.isNullable
    · rw [if_pos hNullable]
      cases t with
      | nullable u =>
        have hSame : (nullable (nullable u)).meaning leafText = (nullable u).meaning leafText :=
          Finset.insert_idem _ _
        rw [hSame]
        exact hInner before
      | _ => cases hNullable
    · rw [if_neg hNullable]
      by_cases hEither : t.isEither
      · obtain ⟨operand, hReads, hMeaning⟩ := (hInner none).parentheses before
        have hGroup : Conveys _ before (t.meaning leafText) true :=
          .of_operand hReads hMeaning true
        rw [if_pos hEither]
        have hNull := hGroup.null
        rw [String.append_assoc] at hNull ⊢
        exact hNull
      · rw [if_neg hEither]
        exact (hInner before).null
  | partialOf t ih =>
    obtain ⟨before', operand, hReads, hMeaning, -⟩ := ih (fun a ha => h a (.partialOf ha)) none
    rw [sense, Finset.empty_union] at hMeaning
    exact .of_operand (hReads.partialOf before) (meaning_partialOf_inj.mpr hMeaning) _
  | either l r ihl ihr =>
    exact (ihl (fun a ha => h a (.left ha)) before).bar (ihr fun a ha => h a (.right ha))

theorem map_read?_text {t : TypeTree α} (h : ∀ a, Occurs a t → IsLeaf (leafText a)) :
    (read? (t.text leafText)).map (meaning id) = some (t.meaning leafText) := by
  obtain ⟨before, operand, hReads, hMeaning, -⟩ := conveys_text h none
  rw [hReads.read?_eq, Option.map_some, hMeaning, sense, Finset.empty_union]

end TypeTree

/-! ### Symbols -/

/-- The alternatives that a symbol has. -/
noncomputable def Symbol.meaning (s : Symbol) : Finset Variant :=
  TypeTree.meaning (Atom.text StructureRef.name) s

theorem Atom.isLeaf_text {atom : Atom StructureRef}
    (h : ∀ ref, atom = .named ref → TypeText.isName ref.name) :
    TypeText.IsLeaf (atom.text StructureRef.name) := by
  cases atom with
  | primitive p =>
    cases p with
    | dict => exact Or.inr rfl
    | _ => exact Or.inl (by decide)
  | named ref => exact Or.inl (h ref rfl)
  | unknown => exact Or.inl (by decide)

/-- **The text of a symbol means what the symbol means.**  Where the names of structures are names,
the whole text is read as a type, the alternatives of that type are those of the symbol, and symbols
with one text mean the same. -/
theorem Symbol.meaning_read_text (s : Symbol) (h : ∀ ref, s.Mentions ref → TypeText.isName ref.name) :
    (TypeText.read? s.text).map (TypeTree.meaning id) = some s.meaning ∧
      ∀ other : Symbol, (∀ ref, other.Mentions ref → TypeText.isName ref.name) →
        other.text = s.text → other.meaning = s.meaning := by
  have hRead (s : Symbol) (h : ∀ ref, s.Mentions ref → TypeText.isName ref.name) :
      (TypeText.read? s.text).map (TypeTree.meaning id) = some s.meaning := by
    refine TypeTree.map_read?_text fun atom hAtom => Atom.isLeaf_text ?_
    rintro ref rfl
    exact h ref hAtom
  refine ⟨hRead s h, ?_⟩
  intro other hOther hText
  have hSame := hRead other hOther
  rw [hText, hRead s h] at hSame
  exact (Option.some.inj hSame).symm

/-- An array of alternatives that are optional twice over: one pair of parentheses for the
alternatives, one for the union that null makes of them. -/
theorem Symbol.meaning_read_text_array :
    let s : Symbol := .array (.nullable (.nullable
      (.either (Symbol.ofRef ⟨0, "User"⟩) (.leaf (.primitive .string)))))
    s.text = "((User|string)|null)[]" ∧ (∀ ref, s.Mentions ref → TypeText.isName ref.name) ∧
      (TypeText.read? "((User|string)|null)[]").map (TypeTree.meaning id) = some s.meaning := by
  intro s
  have hText : s.text = "((User|string)|null)[]" := by decide +kernel
  have hNames : ∀ ref, s.Mentions ref → TypeText.isName ref.name := by
    intro ref hRef
    have hMem : ref ∈ [StructureRef.mk 0 "User"] := Symbol.mentions_iff_mem.mp hRef
    rw [List.mem_singleton.mp hMem]
    decide
  refine ⟨hText, hNames, ?_⟩
  rw [← hText]
  exact (s.meaning_read_text hNames).1

end ProseTypes
