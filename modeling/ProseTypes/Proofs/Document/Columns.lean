import ProseTypes.Proofs.Document.Characters

/-!
# Cells under their headers

A table keeps the headers that repeat none before them, and of each row the cells in the columns of these
headers.  It keeps no column numbers, so a cell is told by its place among the cells that are kept.

* `Table.select_distinctFrom`: the headers are the cells of the header row without repeated ones.
* `Table.getElem?_select`: what is kept from a column has the same place in every row that is long enough.
* `Table.getElem?_extendLast`: extra cells change nothing but the last cell.

So the cell under a header is the cell of the row in the first column that has this header
(`Table.aligned_ofLines?`).
-/

namespace ProseTypes

namespace Text

theorem sameLetters_iff {a b : String} : sameLetters a b = true ↔ foldCase a.toList = foldCase b.toList := by
  rw [sameLetters, beq_iff_eq]

theorem sameLetters_comm (a b : String) : sameLetters a b = sameLetters b a := by
  rw [Bool.eq_iff_iff, sameLetters_iff, sameLetters_iff, eq_comm]

theorem eq_empty_of_sameLetters {a : String} (h : sameLetters "" a = true) : a = "" := by
  rw [sameLetters_iff] at h
  have hNil : a.toList = [] := by
    simpa [foldCase] using h.symm
  exact String.toList_eq_nil_iff.mp hNil

end Text

namespace Table

/-! ### Columns that are kept -/

section

variable {α : Type} {marks : List Bool} {as : List α}

/-- **What is kept from a column** comes after what is kept from the columns before it. -/
theorem getElem?_select {j : Nat} (h : marks[j]? = some true) :
    (select marks as)[(marks.take j).count true]? = as[j]? := by
  induction marks generalizing as j with
  | nil => simp at h
  | cons keep marks ih =>
    cases as with
    | nil => simp [select]
    | cons a as =>
      cases j with
      | zero =>
        obtain rfl : keep = true := by simpa using h
        simp [select]
      | succ j =>
        have hNext : marks[j]? = some true := by simpa using h
        cases keep <;> simp [select, ih hNext]

theorem exists_of_getElem?_select {k : Nat} {a : α} (h : (select marks as)[k]? = some a) :
    ∃ j, marks[j]? = some true ∧ (marks.take j).count true = k ∧ as[j]? = some a := by
  induction marks generalizing as k with
  | nil => simp [select] at h
  | cons keep marks ih =>
    cases as with
    | nil => simp [select] at h
    | cons b as =>
      cases keep with
      | false =>
        obtain ⟨j, hMark, hCount, hAs⟩ := ih (by simpa [select] using h)
        exact ⟨j + 1, hMark, by simpa using hCount, hAs⟩
      | true =>
        cases k with
        | zero => exact ⟨0, rfl, rfl, by simpa [select] using h⟩
        | succ k =>
          obtain ⟨j, hMark, hCount, hAs⟩ := ih (by simpa [select] using h)
          exact ⟨j + 1, hMark, by simpa using hCount, hAs⟩

theorem length_select : (select marks as).length = (marks.take as.length).count true := by
  induction marks generalizing as with
  | nil => simp [select]
  | cons keep marks ih =>
    cases as with
    | nil => simp [select]
    | cons a as => cases keep <;> simp [select, ih]

theorem length_select_of_le (h : marks.length ≤ as.length) :
    (select marks as).length = marks.count true := by
  rw [length_select, List.take_of_length_le h]

end

/-! ### Repeated headers -/

theorem length_distinctFrom (seen headers : List String) :
    (distinctFrom seen headers).length = headers.length := by
  induction headers generalizing seen with
  | nil => rfl
  | cons header rest ih => rw [distinctFrom, List.length_cons, List.length_cons, ih]

theorem getElem?_distinctFrom (seen headers : List String) (j : Nat) :
    (distinctFrom seen headers)[j]? = headers[j]?.map fun header =>
      !(seen ++ headers.take j).any (Text.sameLetters · header) := by
  induction headers generalizing seen j with
  | nil => rfl
  | cons header rest ih =>
    cases j with
    | zero => simp [distinctFrom]
    | succ j => simp [distinctFrom, ih]

/-- **The headers are the cells of the header row without those that repeat an earlier one.** -/
theorem select_distinctFrom (seen headers : List String) : select (distinctFrom seen headers) headers =
    (headers.filter fun header => !seen.any (Text.sameLetters · header)).eraseDupsBy Text.sameLetters := by
  induction headers generalizing seen with
  | nil => rfl
  | cons header rest ih =>
    rw [distinctFrom, select]
    cases hSeen : seen.any (Text.sameLetters · header) with
    | true =>
      -- What repeats this header repeats the one that it repeats itself.
      have hSame : (rest.filter fun other => !(seen ++ [header]).any (Text.sameLetters · other)) =
          rest.filter fun other => !seen.any (Text.sameLetters · other) := by
        refine List.filter_congr fun other _ => ?_
        obtain ⟨first, hFirst, hLetters⟩ := List.any_eq_true.mp hSeen
        rw [List.any_append, List.any_cons, List.any_nil, Bool.or_false]
        cases hOther : Text.sameLetters header other with
        | false => rw [Bool.or_false]
        | true =>
          have hAny : seen.any (Text.sameLetters · other) = true := by
            refine List.any_eq_true.mpr ⟨first, hFirst, ?_⟩
            rw [Text.sameLetters_iff] at hLetters hOther ⊢
            exact hLetters.trans hOther
          rw [hAny, Bool.true_or]
      rw [Bool.not_true, if_neg Bool.false_ne_true, ih, hSame, List.filter_cons_of_neg (by simp [hSeen])]
    | false =>
      rw [Bool.not_false, if_pos rfl, ih, List.filter_cons_of_pos (by simp [hSeen]),
        List.eraseDupsBy_cons, List.filter_filter]
      refine congrArg (fun kept => header :: List.eraseDupsBy Text.sameLetters kept) ?_
      refine List.filter_congr fun other _ => ?_
      rw [List.any_append, List.any_cons, List.any_nil, Bool.or_false, Bool.not_or,
        Text.sameLetters_comm other header]
      cases Text.sameLetters header other <;> simp

theorem exists_column {raw : List String} {k : Nat} {name : String}
    (h : (select (distinctFrom [] raw) raw)[k]? = some name) :
    ∃ j, raw[j]? = some name ∧ (distinctFrom [] raw)[j]? = some true ∧
      ((distinctFrom [] raw).take j).count true = k ∧
      ∀ i < j, ∀ other, raw[i]? = some other → Text.sameLetters other name = false := by
  obtain ⟨j, hMark, hCount, hName⟩ := exists_of_getElem?_select h
  refine ⟨j, hName, hMark, hCount, fun i hi other hOther => ?_⟩
  rw [getElem?_distinctFrom, hName, Option.map_some, List.nil_append, Option.some.injEq,
    Bool.not_eq_true', List.any_eq_false] at hMark
  have hMem : other ∈ raw.take j :=
    List.mem_of_getElem? (i := i) (by rw [List.getElem?_take, if_pos hi, hOther])
  exact eq_false_of_ne_true (hMark other hMem)

/-- **No two headers that are kept have the same letters.** -/
theorem eq_of_sameLetters {raw : List String} {i k : Nat} {a b : String}
    (ha : (select (distinctFrom [] raw) raw)[i]? = some a)
    (hb : (select (distinctFrom [] raw) raw)[k]? = some b) (hSame : Text.sameLetters a b = true) :
    i = k := by
  -- Of two columns with the same letters only the first one is kept.
  obtain ⟨m, hA, -, hCountA, hFirstA⟩ := exists_column ha
  obtain ⟨n, hB, -, hCountB, hFirstB⟩ := exists_column hb
  rcases Nat.lt_trichotomy m n with hLt | hEq | hGt
  · rw [hFirstB m hLt a hA] at hSame
    cases hSame
  · rw [← hCountA, ← hCountB, hEq]
  · rw [Text.sameLetters_comm, hFirstA n hGt b hB] at hSame
    cases hSame

theorem eq_empty_of_select {seen headers : List String} (hSeen : ∀ header ∈ seen, header = "")
    (h : ∀ header ∈ select (distinctFrom seen headers) headers, header = "") :
    ∀ header ∈ headers, header = "" := by
  induction headers generalizing seen with
  | nil => simp
  | cons first rest ih =>
    rw [distinctFrom, select] at h
    have hFirst : first = "" := by
      cases hAny : seen.any (Text.sameLetters · first) with
      | true =>
        obtain ⟨other, hOther, hLetters⟩ := List.any_eq_true.mp hAny
        rw [hSeen other hOther] at hLetters
        exact Text.eq_empty_of_sameLetters hLetters
      | false =>
        rw [hAny, Bool.not_false, if_pos rfl] at h
        exact h first List.mem_cons_self
    have hSeenNext : ∀ header ∈ seen ++ [first], header = "" := by
      intro header hHeader
      rcases List.mem_append.mp hHeader with hHeader | hHeader
      · exact hSeen header hHeader
      · rw [List.mem_singleton.mp hHeader, hFirst]
    intro header hHeader
    rcases List.mem_cons.mp hHeader with rfl | hHeader
    · exact hFirst
    · refine ih hSeenNext (fun kept hKept => h kept ?_) header hHeader
      split
      · exact List.mem_cons_of_mem first hKept
      · exact hKept

/-! ### Extra cells -/

/-- The text that extra cells add to a cell. -/
def overflow (extra : List String) : String :=
  String.join (extra.map (" | " ++ ·))

theorem join_cons (cell : String) (extra : List String) :
    Text.join " | " (cell :: extra) = cell ++ overflow extra := by
  induction extra generalizing cell with
  | nil => rw [Text.join_singleton, overflow, List.map_nil, String.join_nil, String.append_empty]
  | cons next rest ih =>
    rw [Text.join_cons_cons, ih, overflow, overflow, List.map_cons, String.join_cons]
    simp only [String.append_assoc]

/-- **Extra cells are added to the last cell**, and the others stay as they are. -/
theorem getElem?_extendLast {cells extra : List String} (h : cells ≠ [] ∨ extra = []) (k : Nat) :
    (extendLast cells extra)[k]? = cells[k]?.map fun cell =>
      if k + 1 = cells.length then cell ++ overflow extra else cell := by
  fun_induction extendLast cells extra generalizing k with
  | case1 cells =>
    have hSame (cell : String) : cell ++ overflow [] = cell := String.append_empty
    simp [hSame]
  | case2 extra hExtra =>
    rcases h with h | h
    · exact absurd rfl h
    · exact absurd h hExtra
  | case3 cell extra _ =>
    cases k with
    | zero => simp [join_cons]
    | succ k => simp
  | case4 cell rest extra _ hRest ih =>
    cases k with
    | zero =>
      have hLong : rest ≠ [] := fun hNil => hRest hNil
      simp [hLong]
    | succ k => simp [ih (Or.inl hRest)]

theorem getElem?_fitRow {marks : List Bool} (hSome : marks.count true ≠ 0) (cells : List String) (k : Nat) :
    (fitRow marks cells)[k]? = (select marks cells)[k]?.map fun cell =>
      if k + 1 = marks.count true then cell ++ overflow (cells.drop marks.length) else cell := by
  rcases Nat.le_total cells.length marks.length with hShort | hLong
  · have hNone : cells.drop marks.length = [] := List.drop_eq_nil_iff.mpr hShort
    have hSame (cell : String) : cell ++ overflow [] = cell := String.append_empty
    rw [fitRow, getElem?_extendLast (Or.inr hNone), hNone]
    simp [hSame]
  · have hFull := length_select_of_le hLong
    have hCells : select marks cells ≠ [] := by
      intro hNil
      rw [hNil] at hFull
      exact hSome hFull.symm
    rw [fitRow, getElem?_extendLast (Or.inl hCells), hFull]

theorem length_fitRow_le {marks : List Bool} (hSome : marks.count true ≠ 0) (cells : List String) :
    (fitRow marks cells).length ≤ marks.count true := by
  have hSelect : (select marks cells).length ≤ marks.count true := by
    rw [length_select]
    exact (List.take_sublist _ _).count_le true
  have hNone : (fitRow marks cells)[marks.count true]? = none := by
    rw [getElem?_fitRow hSome, List.getElem?_eq_none hSelect, Option.map_none]
  exact List.getElem?_eq_none_iff.mp hNone

/-! ### Tables -/

structure Aligned (header : String) (body : List String) (table : Table) : Prop where
  /-- The headers are the cells of the header row without later ones with the same letters. -/
  headers : table.headers = (splitRow header).eraseDupsBy Text.sameLetters
  column : ∀ (k : Nat) (name : String), table.headers[k]? = some name → table.column? name = some k
  length : table.rows.length = body.length
  width : ∀ row ∈ table.rows, row.length ≤ table.headers.length
  /-- The cell under a header is the cell of the row in the first column that has this header.  If it is
  the last header, the cells beyond the columns of the header row are added. -/
  cell : ∀ (n : Nat) (line : String) (row : List String), body[n]? = some line → table.rows[n]? = some row →
    ∀ (k : Nat) (name : String), table.headers[k]? = some name →
      table.cell? row name = (splitRow line)[(splitRow header).idxOf name]?.map fun cell =>
        if k + 1 = table.headers.length then
          cell ++ overflow ((splitRow line).drop (splitRow header).length)
        else cell

theorem trimmed_of_mem_splitRow {line cell : String} (h : cell ∈ splitRow line) :
    Text.trimmed cell = cell := by
  obtain ⟨raw, -, rfl⟩ := List.mem_map.mp h
  rw [Text.trimmed, String.toList_ofList, Text.trim_trim]

theorem idxOf_eq {raw : List String} {j : Nat} {name : String} (hName : raw[j]? = some name)
    (hFirst : ∀ i < j, ∀ other, raw[i]? = some other → Text.sameLetters other name = false) :
    raw.idxOf name = j := by
  obtain ⟨hj, hAt⟩ := List.getElem?_eq_some_iff.mp hName
  refine (List.findIdx_eq hj).mpr ⟨beq_iff_eq.mpr hAt, fun i hi => ?_⟩
  have hDiffer := hFirst i hi raw[i] (List.getElem?_eq_getElem _)
  rw [beq_eq_false_iff_ne]
  intro hSame
  rw [hSame, Bool.eq_false_iff, ne_eq, Text.sameLetters_iff] at hDiffer
  exact hDiffer rfl

def ofRows (header : String) (body : List String) : Table :=
  let marks := distinctFrom [] (splitRow header)
  ⟨select marks (splitRow header), body.map fun line => fitRow marks (splitRow line)⟩

theorem column?_ofRows {header name : String} (body : List String) {k : Nat}
    (hName : (ofRows header body).headers[k]? = some name) :
    (ofRows header body).column? name = some k := by
  obtain ⟨hk, hAt⟩ := List.getElem?_eq_some_iff.mp hName
  have hTrimmed : ∀ kept ∈ (ofRows header body).headers, Text.trimmed kept = kept :=
    fun kept hKept => trimmed_of_mem_splitRow (select_subset _ _ hKept)
  rw [column?, List.findIdx?_eq_some_iff_getElem]
  refine ⟨hk, ?_, fun i hi hSame => ?_⟩
  · rw [hTrimmed _ (List.getElem_mem _), hAt, Text.sameLetters_iff]
  · rw [hTrimmed _ (List.getElem_mem _)] at hSame
    have hPlaces := eq_of_sameLetters (List.getElem?_eq_getElem _) hName hSame
    omega

theorem aligned_ofRows {header : String} (body : List String)
    (hSome : (ofRows header body).headers ≠ []) : (ofRows header body).Aligned header body := by
  let marks := distinctFrom [] (splitRow header)
  have hWidth : (ofRows header body).headers.length = marks.count true :=
    length_select_of_le (length_distinctFrom _ _).le
  have hPos : marks.count true ≠ 0 := by
    rw [← hWidth]
    exact fun hZero => hSome (List.length_eq_zero_iff.mp hZero)
  refine ⟨?_, fun k name => column?_ofRows body, List.length_map _, ?_, ?_⟩
  · show select marks (splitRow header) = _
    rw [select_distinctFrom]
    simp
  · intro row hRow
    obtain ⟨line, -, rfl⟩ := List.mem_map.mp hRow
    rw [hWidth]
    exact length_fitRow_le hPos _
  · intro n line row hLine hRow k name hName
    obtain rfl : fitRow marks (splitRow line) = row := by
      have hMap : (body.map fun line => fitRow marks (splitRow line))[n]? = some row := hRow
      rw [List.getElem?_map, hLine] at hMap
      exact Option.some.inj hMap
    obtain ⟨j, hAt, hMark, hCount, hFirst⟩ := exists_column hName
    rw [cell?, column?_ofRows body hName, Option.bind_some, getElem?_fitRow hPos, hWidth,
      length_distinctFrom, idxOf_eq hAt hFirst, ← hCount, getElem?_select hMark]

/-- **The cells of a table stand under their headers.**  There is a table if a header is not empty, and
then each header is found where it stands, and the cell under it is the one of the row in the column of the
header, whether the row is short, too long, or has cells under repeated headers. -/
theorem aligned_ofLines? (header : String) (body : List String) :
    ((ofLines? header body).isSome ↔ ∃ cell ∈ splitRow header, cell ≠ "") ∧
    ∀ table, ofLines? header body = some table → table.Aligned header body := by
  have hEq : ofLines? header body = if (ofRows header body).headers.all (·.isEmpty) then none
      else some (ofRows header body) := rfl
  have hKept : (ofRows header body).headers.all (·.isEmpty) = true ↔
      ∀ cell ∈ splitRow header, cell = "" := by
    simp only [List.all_eq_true, String.isEmpty_iff]
    constructor
    · intro h
      have hSeen : ∀ header ∈ ([] : List String), header = "" := by
        simp
      exact eq_empty_of_select hSeen h
    · intro h name hName
      exact h name (select_subset _ _ hName)
  constructor
  · rw [hEq]
    split
    · rename_i hAll
      simpa using hKept.mp hAll
    · rename_i hNot
      simpa using hKept.not.mp hNot
  · intro table hTable
    rw [hEq] at hTable
    split at hTable
    · cases hTable
    · rename_i hNot
      obtain rfl := Option.some.inj hTable
      refine aligned_ofRows body fun hNil => hNot ?_
      rw [hNil]
      rfl

/-- The third column repeats the first one, the first row is short and the second one too long. -/
theorem aligned_ofLines?_wide : ∃ table,
    ofLines? "| Name | Value | name | Note |" ["| a | b |", "| c | d | e | f | g | h |"] = some table ∧
    table.Aligned "| Name | Value | name | Note |" ["| a | b |", "| c | d | e | f | g | h |"] ∧
    table = ⟨["Name", "Value", "Note"], [["a", "b"], ["c", "d", "f | g | h"]]⟩ := by
  have hTable : ofLines? "| Name | Value | name | Note |" ["| a | b |", "| c | d | e | f | g | h |"] =
      some ⟨["Name", "Value", "Note"], [["a", "b"], ["c", "d", "f | g | h"]]⟩ := by
    decide +kernel
  obtain ⟨-, hAligned⟩ := aligned_ofLines? "| Name | Value | name | Note |"
    ["| a | b |", "| c | d | e | f | g | h |"]
  exact ⟨_, hTable, hAligned _ hTable, rfl⟩

end Table

end ProseTypes
