import Mathlib.Data.List.TakeWhile
import ProseTypes.Proofs.Declaration.Reader

/-!
# Declarations are read back

Every member of a structure is read from the lines that are written for it (`ReadsAs.field`,
`ReadsAs.constant`), and so is the whole structure (`Structure.read?_declaration`): its name, its kind,
and for its members in order what they are apart from their descriptions.  The name of the structure,
the names of constants and the names in types are identifiers, and a value is that of a cell; keys and
descriptions can be anything.
-/

namespace ProseTypes

namespace Value

theorem mem_dropWhile_of_not {p : Char → Bool} {cs : List Char} {c : Char} (h : c ∈ cs) :
    p c ∨ c ∈ cs.dropWhile p := by
  rw [← List.takeWhile_append_dropWhile (p := p) (l := cs), List.mem_append] at h
  exact h.imp_left List.mem_takeWhile_imp

theorem exists_of_takeWhile_isDigit {cs : List Char}
    (h : !(cs.takeWhile Char.isDigit).isEmpty) : ∃ d ds, cs = d :: ds ∧ d.isDigit := by
  cases cs with
  | nil => cases h
  | cons d ds =>
    by_cases hd : d.isDigit
    · exact ⟨d, ds, rfl, hd⟩
    · rw [List.takeWhile_cons_of_neg hd] at h
      cases h

theorem exists_head_of_isNumeric {cs : List Char} (h : isNumeric cs) :
    ∃ d ds, cs = d :: ds ∧ (d.isDigit ∨ d = '-') := by
  simp only [isNumeric, Bool.or_eq_true] at h
  rcases h with (h | h) | h
  · simp only [isDecimal, Bool.and_eq_true] at h
    split at h
    · rename_i hSign
      obtain ⟨ds, hEq⟩ := List.head?_eq_some_iff.mp (beq_iff_eq.mp hSign)
      exact ⟨'-', ds, hEq, Or.inr rfl⟩
    · obtain ⟨d, ds, hEq, hd⟩ := exists_of_takeWhile_isDigit h.1
      exact ⟨d, ds, hEq, Or.inl hd⟩
  · unfold isHexadecimal at h
    split at h
    · exact ⟨_, _, rfl, Or.inl (by decide)⟩
    · cases h
  · simp only [isShift, Bool.and_eq_true] at h
    obtain ⟨d, ds, hEq, hd⟩ := exists_of_takeWhile_isDigit h.1
    exact ⟨d, ds, hEq, Or.inl hd⟩

theorem ne_comma_of_isDigit {c : Char} (h : c.isDigit) : c ≠ ',' := by
  rintro rfl
  cases h

theorem ne_comma_of_isBlank {c : Char} (h : Text.isBlank c) : c ≠ ',' := by
  rintro rfl
  cases h

theorem ne_comma_of_isDigits {cs : List Char} (h : isDigits cs) {c : Char} (hc : c ∈ cs) : c ≠ ',' := by
  simp only [isDigits, Bool.and_eq_true, List.all_eq_true] at h
  exact ne_comma_of_isDigit (h.2 c hc)

theorem ne_comma_of_isDecimal {cs : List Char} (h : isDecimal cs) {c : Char} (hc : c ∈ cs) :
    c ≠ ',' := by
  -- Behind its digits a number without a sign ends, or has a point and more digits.
  have hUnsigned (ds : List Char) (hc : c ∈ ds)
      (h : ds.dropWhile Char.isDigit = [] ∨
        (ds.dropWhile Char.isDigit).head? = some '.' ∧
          isDigits (ds.dropWhile Char.isDigit).tail) : c ≠ ',' := by
    rcases mem_dropWhile_of_not (p := Char.isDigit) hc with hc | hc
    · exact ne_comma_of_isDigit hc
    · rcases h with h | ⟨hPoint, h⟩
      · rw [h] at hc
        cases hc
      · obtain ⟨rest, hEq⟩ := List.head?_eq_some_iff.mp hPoint
        rw [hEq] at h hc
        rcases List.mem_cons.mp hc with rfl | hc
        · decide
        · exact ne_comma_of_isDigits h hc
  simp only [isDecimal, Bool.and_eq_true, Bool.or_eq_true, List.isEmpty_iff, beq_iff_eq] at h
  split at h
  · rename_i hSign
    obtain ⟨ds, rfl⟩ := List.head?_eq_some_iff.mp hSign
    rcases List.mem_cons.mp hc with rfl | hc
    · decide
    · exact hUnsigned ds hc h.2
  · exact hUnsigned cs hc h.2

theorem ne_comma_of_isHexadecimal {cs : List Char} (h : isHexadecimal cs) {c : Char} (hc : c ∈ cs) :
    c ≠ ',' := by
  unfold isHexadecimal at h
  split at h
  · simp only [Bool.and_eq_true, List.all_eq_true] at h
    simp only [List.mem_cons] at hc
    rcases hc with rfl | rfl | hc
    · decide
    · decide
    · rintro rfl
      exact absurd (h.2 _ hc) (by decide)
  · cases h

theorem ne_comma_of_isShift {cs : List Char} (h : isShift cs) {c : Char} (hc : c ∈ cs) : c ≠ ',' := by
  simp only [isShift, Bool.and_eq_true] at h
  rcases mem_dropWhile_of_not (p := Char.isDigit) hc with hc | hc
  · exact ne_comma_of_isDigit hc
  rcases mem_dropWhile_of_not (p := Text.isBlank) hc with hc | hc
  · exact ne_comma_of_isBlank hc
  replace h := h.2
  split at h
  · rename_i places hShift
    rw [Text.trimStart] at hShift
    rw [hShift] at hc
    simp only [List.mem_cons] at hc
    rcases hc with rfl | rfl | hc
    · decide
    · decide
    · rcases mem_dropWhile_of_not (p := Text.isBlank) hc with hc | hc
      · exact ne_comma_of_isBlank hc
      · exact ne_comma_of_isDigits h hc
  · cases h

theorem ne_comma_of_isNumeric {cs : List Char} (h : isNumeric cs) : ∀ c ∈ cs, c ≠ ',' := by
  simp only [isNumeric, Bool.or_eq_true] at h
  intro c hc
  rcases h with (h | h) | h
  · exact ne_comma_of_isDecimal h hc
  · exact ne_comma_of_isHexadecimal h hc
  · exact ne_comma_of_isShift h hc

end Value

/-! ### What is read -/

/-- What is read of a field: its type as a text, and no description. -/
def Field.outline (f : Field Symbol) : Field String :=
  ⟨f.key, f.optional, Symbol.text f.type, none⟩

def Constant.outline (c : Constant) : Constant :=
  ⟨c.name, c.value, none⟩

def Body.outline : Body Symbol → Body String
  | interface fields => .interface (fields.map Field.outline)
  | enumeration constants => .enumeration (constants.map Constant.outline)

namespace Declaration

open TypeText (isName isNamePart isName_of_isIdentifier)

/-! ### Keys and values -/

theorem toList_quote (s : String) :
    (Text.Quoted.quote s).toList = Text.Quoted.mark :: (Text.Quoted.encode s.toList ++
      [Text.Quoted.mark]) := by
  rw [Text.Quoted.quote, String.toList_ofList, List.cons_append]

theorem gap_quote (s : String) (rest : List Char) :
    gap ((Text.Quoted.quote s).toList ++ rest) = (Text.Quoted.quote s).toList ++ rest := by
  rw [toList_quote, List.cons_append]
  exact gap_of_solid (by decide) (by decide) _

theorem gap_key (name : String) (rest : List Char) :
    gap ((key name).toList ++ rest) = (key name).toList ++ rest := by
  unfold key
  split
  · rename_i h
    exact (solid_name (isName_of_isIdentifier h) (by decide : isNamePart ':' = false)).gap rest
  · exact gap_quote name rest

theorem exists_head_key (name : String) : ∃ c cs, (key name).toList = c :: cs ∧ c ≠ '\x7d' := by
  unfold key
  split
  · rename_i h
    obtain ⟨c, cs, hs, hc⟩ := exists_head_of_isName (isName_of_isIdentifier h)
    exact ⟨c, cs, hs, ne_of_isNamePart hc (by decide)⟩
  · exact ⟨_, _, toList_quote name, by decide⟩

/-- **A key is read back**, whatever it holds. -/
theorem key?_key (name : String) {c : Char} (hc : isNamePart c = false) (rest : List Char) :
    key? ((key name).toList ++ c :: rest) = some (name, c :: rest) := by
  unfold key
  split
  · rename_i h
    have hName := isName_of_isIdentifier h
    have hWord := word?_name hName hc rest
    obtain ⟨d, ds, hs, hd⟩ := exists_head_of_isName hName
    rw [hs, List.cons_append] at hWord ⊢
    rw [key?, if_neg (ne_of_isNamePart hd (by decide))]
    exact hWord
  · rw [toList_quote, List.cons_append, List.append_assoc, key?, if_pos rfl,
      List.singleton_append, Text.Quoted.span?_encode]
    simp only [Option.bind_eq_bind, Option.bind_some, Text.Quoted.decode?_encode,
      String.ofList_toList]
    rfl

/-- **A value is read back.** -/
theorem value?_ofCell (cell : String) (rest : List Char) :
    gap ((Value.ofCell cell).toList ++ ',' :: rest) = (Value.ofCell cell).toList ++ ',' :: rest ∧
      value? ((Value.ofCell cell).toList ++ ',' :: rest) = some (Value.ofCell cell, ',' :: rest) := by
  simp only [Value.ofCell]
  split
  · rename_i h
    obtain ⟨d, ds, hEq, hd⟩ := Value.exists_head_of_isNumeric h
    have hComma := Value.ne_comma_of_isNumeric h
    rw [hEq] at hComma ⊢
    have hStart : Text.isBlank d = false ∧ d ≠ '/' ∧ d ≠ Text.Quoted.mark := by
      rcases hd with hd | rfl
      · have hPart : isNamePart d := by simp [isNamePart, Char.isAlphanum, hd]
        exact ⟨isBlank_eq_false_of_isNamePart hPart, ne_of_isNamePart hPart (by decide),
          ne_of_isNamePart hPart (by decide)⟩
      · decide
    have hTake : (d :: (ds ++ ',' :: rest)).takeWhile (· != ',') = d :: ds := by
      rw [← List.cons_append, List.takeWhile_append_of_pos (by simpa using hComma),
        List.takeWhile_cons_of_neg (by decide), List.append_nil]
    have hDrop : (d :: (ds ++ ',' :: rest)).dropWhile (· != ',') = ',' :: rest := by
      rw [← List.cons_append, List.dropWhile_append_of_pos (by simpa using hComma),
        List.dropWhile_cons_of_neg (by decide)]
    rw [String.toList_ofList, List.cons_append]
    refine ⟨gap_of_solid hStart.1 hStart.2.1 _, ?_⟩
    rw [value?, if_neg hStart.2.2, hTake, hDrop]
  · refine ⟨gap_quote _ _, ?_⟩
    rw [toList_quote, List.cons_append, List.append_assoc, value?, if_pos rfl,
      List.singleton_append, Text.Quoted.span?_encode]
    rfl

/-! ### Members -/

def ReadsAs {α : Type} (one? : List Char → Option (α × List Char)) (line : String) (member : α) :
    Prop :=
  ∀ rest, ∃ c cs, gap (line.toList ++ rest) = c :: cs ∧ c ≠ '\x7d' ∧
    one? (c :: cs) = some (member, '\n' :: rest)

theorem field?_of_key (f : Field Symbol) (h : Solid ';' (Symbol.text f.type).toList)
    (rest : List Char) :
    field? ((key f.key).toList ++ ((if f.optional then "?" else "").toList ++
      ':' :: ' ' :: ((Symbol.text f.type).toList ++ ';' :: rest))) = some (f.outline, rest) := by
  have hType : Text.cutFirst? (· == ';') (gap (' ' :: ((Symbol.text f.type).toList ++ ';' :: rest))) =
      some ((Symbol.text f.type).toList, rest) := by
    rw [gap_of_isBlank (by decide), h.gap]
    exact cutFirst?_append h.holds rest
  have hColon (cs : List Char) : after? ':' (':' :: cs) = some cs :=
    after?_mark (by decide) (by decide) cs
  cases hOptional : f.optional with
  | true =>
    have hMark (cs : List Char) : after? '?' ('?' :: cs) = some cs :=
      after?_mark (by decide) (by decide) cs
    show field? ((key f.key).toList ++ '?' :: ':' :: _) = _
    rw [field?, key?_key f.key (by decide)]
    simp only [Option.bind_eq_bind, Option.bind_some, hMark, Option.getD_some, hColon, hType,
      Option.isSome_some, String.ofList_toList]
    rw [Field.outline, hOptional]
    rfl
  | false =>
    have hNoMark (cs : List Char) : after? '?' (':' :: cs) = none := by
      rw [after?, gap_of_solid (by decide) (by decide)]
      rfl
    show field? ((key f.key).toList ++ ':' :: _) = _
    rw [field?, key?_key f.key (by decide)]
    simp only [Option.bind_eq_bind, Option.bind_some, hNoMark, Option.getD_none, hColon, hType,
      Option.isSome_none, String.ofList_toList]
    rw [Field.outline, hOptional]
    rfl

theorem readsAs_field {f : Field Symbol} (h : Solid ';' (Symbol.text f.type).toList) :
    ReadsAs field? (field f) f.outline := by
  intro rest
  obtain ⟨c, cs, hHead, hBrace⟩ := exists_head_key f.key
  have hGap : gap ((field f).toList ++ rest) = (key f.key).toList ++
      ((if f.optional then "?" else "").toList ++
        ':' :: ' ' :: ((Symbol.text f.type).toList ++ ';' :: '\n' :: rest)) := by
    simp only [field, String.toList_append, List.append_assoc]
    rw [gap_comment]
    show gap ('\t' :: ((key f.key).toList ++ _)) = _
    rw [gap_of_isBlank (by decide), gap_key]
    rfl
  have hField := field?_of_key f h ('\n' :: rest)
  rw [hHead, List.cons_append] at hGap hField
  exact ⟨c, _, hGap, hBrace, hField⟩

theorem readsAs_constant {c : Constant} (hName : isName c.name) {cell : String}
    (hValue : c.value = Value.ofCell cell) : ReadsAs constant? (constant c) c.outline := by
  intro rest
  obtain ⟨d, ds, hHead, hd⟩ := exists_head_of_isName hName
  have hGap : gap ((constant c).toList ++ rest) = c.name.toList ++
      ' ' :: '=' :: ' ' :: (c.value.toList ++ ',' :: '\n' :: rest) := by
    simp only [constant, String.toList_append, List.append_assoc]
    rw [gap_comment]
    show gap ('\t' :: (c.name.toList ++ _)) = _
    rw [gap_of_isBlank (by decide), (solid_name hName (by decide : isNamePart ',' = false)).gap]
    rfl
  have hConstant : constant? (c.name.toList ++
      ' ' :: '=' :: ' ' :: (c.value.toList ++ ',' :: '\n' :: rest)) =
      some (c.outline, '\n' :: rest) := by
    have hEquals (cs : List Char) : after? '=' (' ' :: '=' :: cs) = some cs := by
      rw [after?, gap_of_isBlank (by decide), gap_of_solid (by decide) (by decide)]
      rfl
    have hComma (cs : List Char) : after? ',' (',' :: cs) = some cs :=
      after?_mark (by decide) (by decide) cs
    obtain ⟨hStart, hRead⟩ := value?_ofCell cell ('\n' :: rest)
    rw [← hValue] at hStart hRead
    rw [constant?, word?_name hName (by decide)]
    simp only [Option.bind_eq_bind, Option.bind_some, hEquals]
    rw [gap_of_isBlank (by decide), hStart, hRead]
    simp only [Option.bind_some, hComma]
    rfl
  rw [hHead, List.cons_append] at hGap hConstant
  exact ⟨d, _, hGap, ne_of_isNamePart hd (by decide), hConstant⟩

theorem all?_of_brace {α : Type} {one? : List Char → Option (α × List Char)} {cs rest : List Char}
    (h : gap cs = '\x7d' :: rest) : all? one? cs = some ([], rest) := by
  rw [all?.eq_def]
  simp only [h, if_true]

theorem all?_of_member {α : Type} {one? : List Char → Option (α × List Char)}
    {cs start after : List Char} {c : Char} {member : α} (hGap : gap cs = c :: start)
    (hBrace : c ≠ '\x7d') (hOne : one? (c :: start) = some (member, after))
    (hShorter : after.length < cs.length) :
    all? one? cs = (all? one? after).map fun (others, rest) => (member :: others, rest) := by
  rw [all?.eq_def]
  simp only [hGap, if_neg hBrace, hOne, if_pos hShorter]

/-- **Members are read one after the other.** -/
theorem all?_join {α β : Type} {one? : List Char → Option (α × List Char)} {line : β → String}
    {read : β → α} {members : List β} (h : ∀ m ∈ members, ReadsAs one? (line m) (read m))
    (rest : List Char) :
    all? one? ('\n' :: ((String.join (members.map line)).toList ++ '\x7d' :: rest)) =
      some (members.map read, rest) := by
  induction members with
  | nil =>
    refine all?_of_brace ?_
    show gap ('\n' :: '\x7d' :: rest) = _
    rw [gap_of_isBlank (by decide), gap_of_solid (by decide) (by decide)]
  | cons m members ih =>
    have hLine := h m List.mem_cons_self
    obtain ⟨c, cs, hGap, hBrace, hOne⟩ :=
      hLine ((String.join (members.map line)).toList ++ '\x7d' :: rest)
    have hNonempty : 0 < (line m).toList.length := by
      obtain ⟨d, ds, hGap, -⟩ := hLine []
      refine List.length_pos_iff.mpr fun hNil => ?_
      rw [hNil] at hGap
      cases hGap
    have hStart : gap ('\n' :: ((line m).toList ++
        ((String.join (members.map line)).toList ++ '\x7d' :: rest))) = c :: cs := by
      rw [gap_of_isBlank (by decide), hGap]
    have hRest := ih fun n hn => h n (List.mem_cons_of_mem _ hn)
    rw [List.map_cons, String.join_cons, String.toList_append, List.append_assoc,
      all?_of_member hStart hBrace hOne, hRest]
    · rfl
    · simp only [List.length_cons, List.length_append]
      omega

/-! ### Structures -/

/-- The names in a body are names, and the values are those of cells. -/
structure Readable (body : Body Symbol) : Prop where
  types : ∀ f ∈ body.fields, ∀ ref, Symbol.Mentions f.type ref → isName ref.name
  constants : ∀ c ∈ body.constants, isName c.name ∧ ∃ cell, c.value = Value.ofCell cell

theorem body?_members {body : Body Symbol} (h : Readable body) (rest : List Char) :
    body? body.kind ('\n' :: ((String.join (members body)).toList ++ '\x7d' :: rest)) =
      some (body.outline, rest) := by
  cases body with
  | interface fields =>
    have hFields (f : Field Symbol) (hf : f ∈ fields) : ReadsAs field? (field f) f.outline := by
      refine readsAs_field (solid_text fun atom hAtom => Atom.isLeaf_text ?_)
      rintro ref rfl
      exact h.types f hf ref hAtom
    rw [Body.kind, body?, members, all?_join hFields]
    rfl
  | enumeration constants =>
    have hConstants (c : Constant) (hc : c ∈ constants) :
        ReadsAs constant? (constant c) c.outline := by
      obtain ⟨hName, cell, hValue⟩ := h.constants c hc
      exact readsAs_constant hName hValue
    rw [Body.kind, body?, members, all?_join hConstants]
    rfl

theorem isName_keyword (kind : Kind) : isName kind.keyword := by
  cases kind <;> decide

theorem find?_keyword (kind : Kind) :
    [Kind.interface, Kind.enumeration].find? (·.keyword = kind.keyword) = some kind := by
  cases kind <;> rfl

theorem word?_gap {s : String} (h : isName s) (cs : List Char) :
    word? (gap (' ' :: (s.toList ++ ' ' :: cs))) = some (s, ' ' :: cs) := by
  rw [gap_of_isBlank (by decide), (solid_name h (by decide : isNamePart ' ' = false)).gap,
    word?_name h (by decide)]

/-- **A declaration is read back.** -/
theorem read?_declaration {s : Structure} (hName : isName s.name) (h : Readable s.body) :
    read? s.declaration = some (s.name, s.body.outline) := by
  have hText : s.declaration.toList = "export".toList ++ ' ' :: (s.body.kind.keyword.toList ++
      ' ' :: (s.name.toList ++ ' ' :: '\x7b' :: '\n' ::
        ((String.join (members s.body)).toList ++ '\x7d' :: ['\n']))) := by
    simp only [Structure.declaration, String.toList_append, List.append_assoc]
    rfl
  have hExport (cs : List Char) :
      word? (gap ("export".toList ++ ' ' :: cs)) = some ("export", ' ' :: cs) := by
    have hWord : isName "export" := by decide
    rw [(solid_name hWord (by decide : isNamePart ' ' = false)).gap, word?_name hWord (by decide)]
  have hBrace (cs : List Char) : after? '\x7b' (' ' :: '\x7b' :: cs) = some cs := by
    rw [after?, gap_of_isBlank (by decide), gap_of_solid (by decide) (by decide)]
    rfl
  have hEnd : gap ['\n'] = [] := rfl
  rw [read?, hText, hExport]
  simp only [Option.bind_eq_bind, Option.bind_some, word?_gap (isName_keyword _), find?_keyword,
    word?_gap hName, hBrace, body?_members h, hEnd]
  rfl

end Declaration

end ProseTypes
