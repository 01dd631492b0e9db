import Mathlib.Logic.Relation
import ProseTypes.Resource.Draft
import ProseTypes.Proofs.Text.Cutting

/-!
# Marks in a cell

The marks of a cell go in three steps, and each of them sees what the one before it has left: a star that
goes may leave an escape in front of a low line, and blanks that stood inside at an end.  In the end it is
as if all marks had gone at once (`Markup.clean_eq_trimmed`).

So cells that differ by marks (`Markup.Remarked`) give the same key, the same name and the same value
(`Markup.clean_remarked`).  Tables whose cells differ by marks define fields with the same keys
(`Resource.fields_remarked`) and constants with the same names and values (`Resource.constants_remarked`),
with one exception: a value of nothing but marks is a value and a blank one is not, since a cell is asked
for a value as it is written.
-/

namespace ProseTypes

namespace Markup

/-! ### Texts that differ by marks -/

def plain (cell : String) : String :=
  String.ofList (cell.toList.filter fun c => !isMark c)

/-- A mark is put into a text. -/
inductive Inserts : String → String → Prop where
  | mark (before after : String) {c : Char} : isMark c = true →
      Inserts (before ++ after) (before ++ String.singleton c ++ after)

/-- Two texts that differ by marks: any number of them is put in or taken out, one after another and
anywhere. -/
def Remarked : String → String → Prop :=
  Relation.EqvGen Inserts

theorem plain_append (first second : String) : plain (first ++ second) = plain first ++ plain second := by
  rw [plain, String.toList_append, List.filter_append, String.ofList_append, plain, plain]

theorem plain_singleton (c : Char) :
    plain (String.singleton c) = if isMark c then "" else String.singleton c := by
  rw [plain, String.toList_singleton]
  cases hMark : isMark c with
  | true => rw [List.filter_cons_of_neg (by rw [hMark]; decide)]; rfl
  | false => rw [List.filter_cons_of_pos (by rw [hMark]; rfl)]; rfl

theorem Inserts.plain_eq {cell other : String} (h : Inserts cell other) : plain cell = plain other := by
  obtain ⟨before, after, hMark⟩ := h
  rw [plain_append, plain_append, plain_append, plain_singleton, if_pos hMark, String.append_empty]

theorem Remarked.plain_eq {cell other : String} (h : Remarked cell other) : plain cell = plain other :=
  (InvImage.equivalence Eq plain eq_equivalence).eqvGen_iff.mp (h.mono fun _ _ => Inserts.plain_eq)

/-- The marks behind a text can be taken out, the first one first. -/
theorem remarked_append_plain (before : String) (cs : List Char) :
    Remarked (before ++ String.ofList cs) (before ++ plain (String.ofList cs)) := by
  -- A mark is taken out where it stands; any other character goes to the text in front.
  induction cs generalizing before with
  | nil => exact .refl _
  | cons c cs ih =>
    rw [String.ofList_cons, plain_append, plain_singleton, ← String.append_assoc, ← String.append_assoc]
    split
    · rename_i hMark
      have hStep : Remarked (before ++ String.singleton c ++ String.ofList cs)
          (before ++ String.ofList cs) :=
        .symm _ _ (.rel _ _ (.mark before (String.ofList cs) hMark))
      rw [String.append_empty]
      exact hStep.trans _ _ _ (ih before)
    · exact ih (before ++ String.singleton c)

theorem remarked_plain (cell : String) : Remarked cell (plain cell) := by
  simpa using remarked_append_plain "" cell.toList

/-- **Two texts differ by marks if and only if they are the same without them.** -/
theorem remarked_iff {cell other : String} : Remarked cell other ↔ plain cell = plain other := by
  constructor
  · exact Remarked.plain_eq
  · intro h
    have hOther := remarked_plain other
    rw [← h] at hOther
    exact (remarked_plain cell).trans _ _ _ (hOther.symm _ _)

instance (cell other : String) : Decidable (Remarked cell other) :=
  decidable_of_iff (plain cell = plain other) remarked_iff.symm

/-! ### Cleaning -/

theorem filter_plainLowLines (cs : List Char) :
    ((plainLowLines cs).filter fun c => c != '\\') = cs.filter fun c => c != '\\' := by
  fun_induction plainLowLines cs with
  | case1 cs ih =>
    rw [List.filter_cons_of_pos (by decide), ih, List.filter_cons_of_neg (by decide),
      List.filter_cons_of_pos (by decide)]
  | case2 c cs _ ih => rw [List.filter_cons, List.filter_cons, ih]
  | case3 => rfl

/-- **The three steps drop what one filter drops.** -/
theorem clean_eq_trimmed (cell : String) : clean cell = Text.trimmed (plain cell) := by
  have hMark (c : Char) : (c != '\\' && !isStyle c) = !isMark c := by
    rw [isMark, ← isStyle, Bool.not_or, Bool.and_comm]
    rfl
  rw [clean, filter_plainLowLines, List.filter_filter, Text.trimmed, plain, String.toList_ofList]
  simp only [hMark]

theorem plain_trimmed_plain (cell : String) :
    plain (Text.trimmed (plain cell)) = Text.trimmed (plain cell) := by
  have hNone : ∀ c ∈ (Text.trimmed (plain cell)).toList, !isMark c := by
    intro c hc
    rw [Text.trimmed, String.toList_ofList] at hc
    have hPlain := Text.trim_subset _ hc
    rw [plain, String.toList_ofList] at hPlain
    exact (List.mem_filter.mp hPlain).2
  rw [plain, List.filter_eq_self.mpr hNone, String.ofList_toList]

theorem clean_clean (cell : String) : clean (clean cell) = clean cell := by
  rw [clean_eq_trimmed (clean cell), clean_eq_trimmed, plain_trimmed_plain, Text.trimmed, Text.trimmed,
    String.toList_ofList, Text.trim_trim]

theorem Remarked.clean_eq {cell other : String} (h : Remarked cell other) : clean cell = clean other := by
  rw [clean_eq_trimmed, clean_eq_trimmed, h.plain_eq]

/-! ### What a cell names -/

theorem Remarked.fieldKey?_eq {cell other : String} (h : Remarked cell other) :
    Name.fieldKey? cell = Name.fieldKey? other := by
  rw [Name.fieldKey?, Name.fieldKey?, h.clean_eq]

theorem Remarked.ofConstant?_eq {cell other : String} (h : Remarked cell other) :
    Name.ofConstant? cell = Name.ofConstant? other := by
  rw [Name.ofConstant?, Name.ofConstant?, h.clean_eq]

theorem Remarked.ofCell_eq {cell other : String} (h : Remarked cell other) :
    Value.ofCell cell = Value.ofCell other := by
  rw [Value.ofCell, Value.ofCell, h.clean_eq]

/-- **Marks never change what a cell names.**  Cleaning drops all marks at once and then trims, a clean cell
stays as it is, and a cell gives the same key, the same name and the same value wherever marks are put in or
taken out. -/
theorem clean_remarked (cell : String) :
    clean cell = Text.trimmed (plain cell) ∧ clean (clean cell) = clean cell ∧
    ∀ other, Remarked cell other →
      Name.fieldKey? cell = Name.fieldKey? other ∧ Name.ofConstant? cell = Name.ofConstant? other ∧
      Value.ofCell cell = Value.ofCell other := by
  refine ⟨clean_eq_trimmed cell, clean_clean cell, fun other h => ?_⟩
  exact ⟨h.fieldKey?_eq, h.ofConstant?_eq, h.ofCell_eq⟩

/-- A text with a star between an escape and a low line, code marks around a word and an escape at its end,
beside a text with a star at its start. -/
theorem clean_remarked_lowLine : Remarked " `nick\\*_name`? \\" "* nick_name? " ∧
    Name.fieldKey? " `nick\\*_name`? \\" = some ("nick_name", true) ∧
    Name.ofConstant? " `nick\\*_name`? \\" = some "NICK_NAME" ∧
    Value.ofCell " `nick\\*_name`? \\" = "\"nick_name?\"" := by
  have hMarks : Remarked " `nick\\*_name`? \\" "* nick_name? " := by decide
  obtain ⟨hKey, hName, hValue⟩ := (clean_remarked " `nick\\*_name`? \\").2.2 _ hMarks
  exact ⟨hMarks, hKey.trans (by decide), hName.trans (by decide), hValue.trans (by decide)⟩

end Markup

/-! ### The members of a table -/

theorem Table.cell?_forall₂ (table : Table) {r : String → String → Prop} {row other : List String}
    (h : List.Forall₂ r row other) (name : String) :
    Option.Rel r (table.cell? row name) (table.cell? other name) := by
  rw [Table.cell?, Table.cell?]
  cases table.column? name with
  | none => exact .none
  | some i =>
    simp only [Option.bind_some]
    induction h generalizing i with
    | nil => exact .none
    | cons hCell _ ih =>
      cases i with
      | zero => exact .some hCell
      | succ i => exact ih i

theorem Table.bind_cell?_forall₂ {α : Type} {f : String → Option α} {r : String → String → Prop}
    (hReads : ∀ cell other, r cell other → f cell = f other) (table : Table) {row other : List String}
    (h : List.Forall₂ r row other) (name : String) :
    (table.cell? row name).bind f = (table.cell? other name).bind f := by
  have hCell := table.cell?_forall₂ h name
  generalize table.cell? row name = first at hCell ⊢
  generalize table.cell? other name = second at hCell ⊢
  cases hCell with
  | none => rfl
  | some h => rw [Option.bind_some, Option.bind_some, hReads _ _ h]

namespace Resource

open Markup (Remarked)

def withRows (resource : Resource) (rows : List (List String)) : Resource :=
  { resource with table := ⟨resource.table.headers, rows⟩ }

/-- Two rows whose cells differ by marks, and of which both or neither have a value. -/
structure RowsRemarked (resource : Resource) (row other : List String) : Prop where
  cells : List.Forall₂ Remarked row other
  valued : (resource.valueCell? row).isSome = (resource.valueCell? other).isSome

variable {resource : Resource} {row other : List String}

theorem key?_remarked (h : List.Forall₂ Remarked row other) :
    resource.key? row = resource.key? other := by
  rw [key?, key?]
  refine Table.bind_cell?_forall₂ ?_ resource.table h resource.shape.key
  exact fun cell other hMarks => hMarks.fieldKey?_eq

theorem constantName?_remarked (h : List.Forall₂ Remarked row other) :
    resource.constantName? row = resource.constantName? other := by
  rw [constantName?, constantName?]
  refine Table.bind_cell?_forall₂ ?_ resource.table h resource.shape.key
  exact fun cell other hMarks => hMarks.ofConstant?_eq

theorem RowsRemarked.value_eq (h : resource.RowsRemarked row other) :
    (resource.valueCell? row).map Value.ofCell = (resource.valueCell? other).map Value.ofCell := by
  have hCell := resource.table.cell?_forall₂ h.cells resource.shape.value
  have hValued := h.valued
  cases hRow : resource.valueCell? row with
  | none =>
    rw [hRow, Option.isSome_none, Eq.comm, Option.isSome_eq_false_iff, Option.isNone_iff_eq_none] at hValued
    rw [hValued]
  | some value =>
    rw [hRow, Option.isSome_some, Eq.comm, Option.isSome_iff_exists] at hValued
    obtain ⟨otherValue, hOther⟩ := hValued
    rw [(Option.filter_eq_some_iff.mp hRow).1, (Option.filter_eq_some_iff.mp hOther).1] at hCell
    rw [hOther]
    cases hCell with
    | some hMarks => rw [Option.map_some, Option.map_some, hMarks.ofCell_eq]

theorem map_field? (resource : Resource) (index : LinkIndex) (row : List String) :
    (resource.field? index row).map (fun field => (field.key, field.optional)) = resource.key? row := by
  rw [field?, Option.map_map]
  exact Option.map_id'

theorem map_constant? (resource : Resource) (row : List String) :
    (resource.constant? row).map (fun constant => (constant.name, constant.value)) =
      (resource.constantName? row).bind fun name =>
        ((resource.valueCell? row).map Value.ofCell).map fun value => (name, value) := by
  rw [constant?, Option.map_bind]
  simp only [Function.comp_def, Option.map_map]

theorem filterMap_eq_of_forall₂ {α β : Type} {r : α → α → Prop} {f g : α → Option β} {as bs : List α}
    (h : List.Forall₂ r as bs) (hSame : ∀ a b, r a b → f a = g b) : as.filterMap f = bs.filterMap g := by
  induction h with
  | nil => rfl
  | cons hHead _ ih => rw [List.filterMap_cons, List.filterMap_cons, hSame _ _ hHead, ih]

/-- **Marks do not change the keys of fields**, nor which fields are optional. -/
theorem fields_remarked (index : LinkIndex) {rows : List (List String)}
    (h : List.Forall₂ (List.Forall₂ Remarked) resource.table.rows rows) :
    (resource.draft index).fields.map (fun field => (field.key, field.optional)) =
      ((resource.withRows rows).draft index).fields.map fun field => (field.key, field.optional) := by
  have hKind : (resource.withRows rows).shape.kind = resource.shape.kind := rfl
  rw [draft, draft, hKind]
  cases resource.shape.kind with
  | interface =>
    simp only [Body.fields, List.map_filterMap, map_field?]
    exact filterMap_eq_of_forall₂ h fun row other hRow => key?_remarked hRow
  | enumeration => rfl

/-- **Marks do not change the names and values of constants**, if no row gains or loses its value. -/
theorem constants_remarked (index : LinkIndex) {rows : List (List String)}
    (h : List.Forall₂ resource.RowsRemarked resource.table.rows rows) :
    (resource.draft index).constants.map (fun constant => (constant.name, constant.value)) =
      ((resource.withRows rows).draft index).constants.map
        fun constant => (constant.name, constant.value) := by
  have hKind : (resource.withRows rows).shape.kind = resource.shape.kind := rfl
  rw [draft, draft, hKind]
  cases resource.shape.kind with
  | interface => rfl
  | enumeration =>
    simp only [Body.constants, List.map_filterMap, map_constant?]
    refine filterMap_eq_of_forall₂ h fun row other hRow => ?_
    rw [constantName?_remarked hRow.cells, hRow.value_eq]
    rfl

/-- A value of nothing but marks makes a constant, and no value makes none. -/
example : constant? ⟨"Flags", .names, ⟨["Name", "Value"], []⟩, "a.md", "A/flags"⟩ ["NONE", "**"] =
      some ⟨"NONE", "\"\"", none⟩ ∧
    constant? ⟨"Flags", .names, ⟨["Name", "Value"], []⟩, "a.md", "A/flags"⟩ ["NONE", ""] = none := by
  decide

end Resource

end ProseTypes
