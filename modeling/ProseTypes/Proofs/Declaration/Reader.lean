import ProseTypes.Proofs.Text.Quoted
import ProseTypes.Proofs.TypeTree.Meaning
import ProseTypes.Structure.Declaration

/-!
# Reading declarations

A reader for declarations of interfaces and enumerations in which blanks and comments count for
nothing.  It reads a key as a name or as a quoted string, a type up to the semicolon, and a value as a
quoted string or up to the comma, and it gives what it reads as a body with texts for types and
without descriptions (`Declaration.read?`).

The texts that `Structure.declaration` writes are read member by member.  A description is skipped
whatever it holds, since its comment ends where it was ended and nowhere before (`gap_comment`).  A key
is read back whatever it holds (`key?_key`), since it is quoted unless it is a name.  Types and values
hold no mark that would end them (`Solid`).
-/

namespace ProseTypes.Declaration

open TypeText (isName isNamePart)

/-! ### The reader -/

mutual

/-- What follows the blanks and comments at the start of a text. -/
def gap : List Char → List Char
  | '/' :: '*' :: cs => uncomment cs
  | c :: cs => if Text.isBlank c then gap cs else c :: cs
  | [] => []

/-- What follows the end of the comment that a text starts in, and blanks and comments behind it. -/
def uncomment : List Char → List Char
  | '*' :: '/' :: cs => gap cs
  | _ :: cs => uncomment cs
  | [] => []

end

/-- The name at the start of a text, and what follows it. -/
def word? (cs : List Char) : Option (String × List Char) :=
  let name := cs.takeWhile isNamePart
  if name.isEmpty then none else some (String.ofList name, cs.dropWhile isNamePart)

def after? (mark : Char) (cs : List Char) : Option (List Char) :=
  match gap cs with
  | c :: rest => if c = mark then some rest else none
  | [] => none

def key? : List Char → Option (String × List Char)
  | [] => none
  | c :: cs =>
    if c = Text.Quoted.mark then do
      let (raw, rest) ← Text.Quoted.span? cs
      let key ← Text.Quoted.decode? raw
      return (String.ofList key, rest)
    else word? (c :: cs)

def value? : List Char → Option (String × List Char)
  | [] => none
  | c :: cs =>
    if c = Text.Quoted.mark then do
      let (raw, rest) ← Text.Quoted.span? cs
      return (String.ofList (c :: raw ++ [c]), rest)
    else
      some (String.ofList ((c :: cs).takeWhile (· != ',')), (c :: cs).dropWhile (· != ','))

def field? (cs : List Char) : Option (Field String × List Char) := do
  let (key, cs) ← key? cs
  let optional := (after? '?' cs).isSome
  let cs ← after? ':' ((after? '?' cs).getD cs)
  let (type, cs) ← Text.cutFirst? (· == ';') (gap cs)
  return (⟨key, optional, String.ofList type, none⟩, cs)

def constant? (cs : List Char) : Option (Constant × List Char) := do
  let (name, cs) ← word? cs
  let cs ← after? '=' cs
  let (value, cs) ← value? (gap cs)
  let cs ← after? ',' cs
  return (⟨name, value, none⟩, cs)

/-- Everything up to the closing brace, and what follows it, where `one?` reads one thing. -/
def all? {α : Type} (one? : List Char → Option (α × List Char)) (cs : List Char) :
    Option (List α × List Char) :=
  match gap cs with
  | [] => none
  | c :: rest =>
    if c = '\x7d' then some ([], rest)
    else
      match one? (c :: rest) with
      | none => none
      | some (first, after) =>
        if after.length < cs.length then
          (all? one? after).map fun (others, rest) => (first :: others, rest)
        else none
termination_by cs.length

def body? : Kind → List Char → Option (Body String × List Char)
  | .interface, cs => (all? field? cs).map fun (fields, rest) => (.interface fields, rest)
  | .enumeration, cs =>
    (all? constant? cs).map fun (constants, rest) => (.enumeration constants, rest)

/-- Reads a declaration: the name of the structure and its members. -/
def read? (text : String) : Option (String × Body String) := do
  let (word, cs) ← word? (gap text.toList)
  guard (word = "export")
  let (keyword, cs) ← word? (gap cs)
  let kind ← [Kind.interface, Kind.enumeration].find? (·.keyword = keyword)
  let (name, cs) ← word? (gap cs)
  let cs ← after? '\x7b' cs
  let (body, cs) ← body? kind cs
  guard (gap cs).isEmpty
  return (name, body)

/-! ### Gaps -/

theorem gap_of_isBlank {c : Char} (h : Text.isBlank c) (cs : List Char) : gap (c :: cs) = gap cs := by
  rw [gap, if_pos h]
  rintro rest rfl -
  exact absurd h (by decide)

theorem gap_of_solid {c : Char} (hBlank : Text.isBlank c = false) (hSlash : c ≠ '/')
    (cs : List Char) : gap (c :: cs) = c :: cs := by
  rw [gap, if_neg (by simp [hBlank])]
  rintro rest rfl -
  exact hSlash rfl

theorem head?_protect (text : List Char) : (protect text).head? = text.head? := by
  unfold protect
  split <;> rfl

/-- **A protected text does not end the comment that it stands in.** -/
theorem uncomment_protect (text cs : List Char) :
    uncomment (protect text ++ ' ' :: cs) = uncomment (' ' :: cs) := by
  induction text using protect.induct with
  | case1 rest ih =>
    show uncomment (protect rest ++ ' ' :: cs) = _
    exact ih
  | case2 c rest hNoEnd ih =>
    rw [protect, List.cons_append, uncomment, ih]
    · rintro tail rfl hTail
      have hHead := head?_protect rest
      cases hRest : protect rest with
      | nil =>
        rw [hRest] at hTail
        cases hTail
      | cons d others =>
        rw [hRest] at hTail hHead
        cases hTail
        obtain ⟨others, hEq⟩ := List.head?_eq_some_iff.mp hHead.symm
        exact hNoEnd others rfl hEq
    · exact hNoEnd
  | case3 => rfl

theorem gap_comment (description : Option String) (cs : List Char) :
    gap ((comment description).toList ++ cs) = gap cs := by
  unfold comment
  split
  · rfl
  · rfl
  · rename_i text _ _
    simp only [String.toList_append, String.toList_ofList, List.append_assoc]
    show uncomment (protect text ++ ' ' :: '*' :: '/' :: '\n' :: cs) = _
    rw [uncomment_protect]
    rfl

/-! ### Names and marks -/

theorem isBlank_eq_false_of_isNamePart {c : Char} (h : isNamePart c) : Text.isBlank c = false := by
  simp only [isNamePart, Char.isAlphanum, Bool.or_eq_true, Bool.and_eq_true, beq_iff_eq] at h
  have hSolid (hLow : 48 ≤ c.toNat) (hHigh : c.toNat ≤ 122) : Text.isBlank c = false := by
    simp only [Text.isBlank, Bool.or_eq_false_iff, beq_eq_false_iff_ne, Bool.and_eq_false_iff,
      decide_eq_false_iff_not]
    omega
  rcases h with (((h | h) | rfl) | rfl) | h
  · have hBounds := Name.toNat_of_isAlpha h
    exact hSolid (by omega) (by omega)
  · have hBounds := Name.toNat_of_isDigit h
    exact hSolid (by omega) (by omega)
  · decide
  · decide
  · simpa using h.2

theorem forall_isNamePart {s : String} (h : isName s) : ∀ c ∈ s.toList, isNamePart c := by
  unfold TypeText.isName at h
  cases hs : s.toList with
  | nil => simp [hs] at h
  | cons c cs =>
    simp only [hs, Bool.and_eq_true, List.all_eq_true] at h
    intro d hd
    rcases List.mem_cons.mp hd with rfl | hd
    · exact h.1.2
    · exact h.2 d hd

theorem exists_head_of_isName {s : String} (h : isName s) :
    ∃ c cs, s.toList = c :: cs ∧ isNamePart c := by
  have hParts := forall_isNamePart h
  cases hs : s.toList with
  | nil => simp [TypeText.isName, hs] at h
  | cons c cs => exact ⟨c, cs, rfl, hParts c (hs ▸ List.mem_cons_self)⟩

theorem ne_of_isNamePart {c d : Char} (hc : isNamePart c) (hd : isNamePart d = false) : c ≠ d := by
  rintro rfl
  rw [hc] at hd
  cases hd

theorem word?_name {s : String} (h : isName s) {c : Char} (hc : isNamePart c = false)
    (cs : List Char) : word? (s.toList ++ c :: cs) = some (s, c :: cs) := by
  have hParts := forall_isNamePart h
  have hTake : (s.toList ++ c :: cs).takeWhile isNamePart = s.toList := by
    rw [List.takeWhile_append_of_pos hParts, List.takeWhile_cons_of_neg (by simp [hc]),
      List.append_nil]
  have hDrop : (s.toList ++ c :: cs).dropWhile isNamePart = c :: cs := by
    rw [List.dropWhile_append_of_pos hParts, List.dropWhile_cons_of_neg (by simp [hc])]
  have hNonempty : s.toList.isEmpty = false := by
    obtain ⟨d, ds, hs, -⟩ := exists_head_of_isName h
    rw [hs]
    rfl
  simp only [word?, hTake, hDrop, hNonempty, String.ofList_toList, Bool.false_eq_true, if_false]

theorem after?_mark {c : Char} (hBlank : Text.isBlank c = false) (hSlash : c ≠ '/')
    (cs : List Char) : after? c (c :: cs) = some cs := by
  rw [after?, gap_of_solid hBlank hSlash]
  exact if_pos rfl

theorem cutFirst?_append {mark : Char} {before : List Char} (h : mark ∉ before)
    (after : List Char) :
    Text.cutFirst? (· == mark) (before ++ mark :: after) = some (before, after) := by
  induction before with
  | nil => exact if_pos (beq_self_eq_true mark)
  | cons c before ih =>
    have hc : ¬(c == mark) := by
      rw [beq_iff_eq]
      rintro rfl
      exact h List.mem_cons_self
    rw [List.cons_append, Text.cutFirst?, if_neg hc, ih (List.not_mem_of_not_mem_cons h)]
    rfl

/-! ### Texts between a gap and a mark -/

/-- A text that is read up to a mark: it does not hold the mark, and a gap in front of it takes
nothing of it. -/
structure Solid (mark : Char) (cs : List Char) : Prop where
  gap : ∀ rest, gap (cs ++ rest) = cs ++ rest
  holds : mark ∉ cs

theorem solid_cons {mark c : Char} {cs : List Char} (hBlank : Text.isBlank c = false)
    (hSlash : c ≠ '/') (hMark : mark ∉ c :: cs) : Solid mark (c :: cs) where
  gap rest := gap_of_solid hBlank hSlash (cs ++ rest)
  holds := hMark

theorem Solid.append {mark : Char} {cs ds : List Char} (h : Solid mark cs) (hMark : mark ∉ ds) :
    Solid mark (cs ++ ds) where
  gap rest := by rw [List.append_assoc, h.gap]
  holds hMem := (List.mem_append.mp hMem).elim h.holds hMark

theorem Solid.enclosed {mark : Char} {s : String} (h : Solid mark s.toList) (before after : String)
    (hBefore : Solid mark before.toList) (hAfter : mark ∉ after.toList) :
    Solid mark (before ++ s ++ after).toList := by
  rw [String.toList_append, String.toList_append]
  exact (hBefore.append h.holds).append hAfter

theorem solid_name {s : String} (h : isName s) {mark : Char} (hMark : isNamePart mark = false) :
    Solid mark s.toList := by
  have hHolds : mark ∉ s.toList := fun hMem =>
    ne_of_isNamePart (forall_isNamePart h mark hMem) hMark rfl
  obtain ⟨c, cs, hs, hc⟩ := exists_head_of_isName h
  rw [hs] at hHolds ⊢
  exact solid_cons (isBlank_eq_false_of_isNamePart hc) (ne_of_isNamePart hc (by decide)) hHolds

/-- **No semicolon is in the text of a type**, and no blank at its start. -/
theorem solid_text {α : Type} {leafText : α → String} {t : TypeTree α}
    (h : ∀ a, TypeTree.Occurs a t → TypeText.IsLeaf (leafText a)) :
    Solid ';' (t.text leafText).toList := by
  have hGroup : Solid ';' "(".toList :=
    solid_cons (by decide) (by decide) (by decide)
  induction t with
  | leaf a =>
    rcases h a .leaf with hName | hDict
    · exact solid_name hName (by decide)
    · rw [TypeTree.text, hDict]
      exact solid_cons (by decide) (by decide) (by decide)
  | array t ih =>
    have hInner := ih fun a ha => h a (.array ha)
    rw [TypeTree.text, String.toList_append]
    split
    · exact (hInner.enclosed "(" ")" hGroup (by decide)).append (by decide)
    · exact hInner.append (by decide)
  | nullable t ih =>
    have hInner := ih fun a ha => h a (.nullable ha)
    rw [TypeTree.text]
    split
    · exact hInner
    split
    · exact hInner.enclosed "(" ")|null" hGroup (by decide)
    · rw [String.toList_append]
      exact hInner.append (by decide)
  | partialOf t ih =>
    have hInner := ih fun a ha => h a (.partialOf ha)
    exact hInner.enclosed "Partial<" ">" (solid_cons (by decide) (by decide) (by decide))
      (by decide)
  | either l r ihl ihr =>
    have hLeft := ihl fun a ha => h a (.left ha)
    have hRight := ihr fun a ha => h a (.right ha)
    rw [TypeTree.text, String.toList_append, String.toList_append]
    exact (hLeft.append (by decide)).append hRight.holds

end ProseTypes.Declaration
