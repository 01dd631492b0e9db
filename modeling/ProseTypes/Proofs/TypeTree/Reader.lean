import ProseTypes.Primitive
import ProseTypes.Proofs.Structure.Names
import ProseTypes.TypeTree

/-!
# Reading the text of a type

The other direction of `TypeTree.text`: a reader for texts of types, with the precedence that such
texts have in TypeScript.  Brackets behind an operand bind tighter than a bar, parentheses group, and
`Partial<…>` and `Record<string, unknown>` are operands.  The text is cut into names and marks first
(`lex`), and blanks count for nothing but an end of a name.

The reader goes over the lexemes once.  It is either where an operand begins (`start`) or behind an
operand (`follow`), and it keeps the groups that are open around it and the alternatives that have
been read in the innermost one.  `ReadsTo` says that a text leads it from a place of the first kind to a
place of the second kind, and has one lemma for every way to write an operand.
-/

namespace ProseTypes.TypeText

/-! ### Lexemes -/

inductive Lexeme where
  | name (text : String)
  | mark (c : Char)
deriving DecidableEq, Repr

/-- Says whether a character can stand in a name.  Of the characters beyond ASCII, everything that
is not blank can; this is more than any language allows. -/
def isNamePart (c : Char) : Bool :=
  c.isAlphanum || c == '_' || c == '$' || (0x7f < c.toNat && !Text.isBlank c)

/-- Says whether a text can stand for a type by itself. -/
def isName (s : String) : Bool :=
  match s.toList with
  | [] => false
  | c :: cs => !c.isDigit && isNamePart c && cs.all isNamePart

theorem isName_of_isIdentifier {s : String} (h : Name.isIdentifier s) : isName s := by
  unfold Name.isIdentifier at h
  unfold isName
  cases hs : s.toList with
  | nil => simp [hs] at h
  | cons c cs =>
    simp only [hs, Bool.and_eq_true, List.all_eq_true, Bool.or_eq_true, beq_iff_eq] at h
    obtain ⟨hFirst, hRest⟩ := h
    have hPart (d : Char) (hd : ((d.isAlpha ∨ d = '_') ∨ d = '$') ∨ d.isDigit) : isNamePart d := by
      rcases hd with ((hd | rfl) | rfl) | hd
      · simp [isNamePart, Char.isAlphanum, hd]
      · decide
      · decide
      · simp [isNamePart, Char.isAlphanum, hd]
    have hNoDigit : c.isDigit = false := by
      rcases hFirst with (hAlpha | rfl) | rfl
      · exact Name.isDigit_eq_false_of_isAlpha hAlpha
      · decide
      · decide
    simp only [hNoDigit, Bool.not_false, Bool.true_and, Bool.and_eq_true, List.all_eq_true]
    exact ⟨hPart c (Or.inl hFirst), fun d hd => hPart d (hRest d hd)⟩

def flush (name : List Char) (rest : List Lexeme) : List Lexeme :=
  if name.isEmpty then rest else .name (String.ofList name) :: rest

/-- The lexemes of a text, where `name` has been read of a name that may go on. -/
def lex (name : List Char) : List Char → List Lexeme
  | [] => flush name []
  | c :: cs =>
    if isNamePart c then lex (name ++ [c]) cs
    else if Text.isBlank c then flush name (lex [] cs)
    else flush name (.mark c :: lex [] cs)

theorem flush_append (name : List Char) (rest : List Lexeme) :
    flush name rest = flush name [] ++ rest := by
  cases name <;> rfl

/-- **A text can be cut before any character that no name goes on with.** -/
theorem lex_append (name before : List Char) {c : Char} (after : List Char)
    (hc : isNamePart c = false) :
    lex name (before ++ c :: after) = lex name before ++ lex [] (c :: after) := by
  induction before generalizing name with
  | nil =>
    show lex name (c :: after) = flush name [] ++ lex [] (c :: after)
    simp only [lex, hc, Bool.false_eq_true, if_false]
    split
    · exact flush_append name _
    · exact flush_append name _
  | cons d before ih =>
    rw [List.cons_append, lex, lex]
    split
    · exact ih _
    · split
      · rw [ih, flush_append name (_ ++ _), flush_append name (lex [] before), List.append_assoc]
      · rw [ih, flush_append name (_ :: (_ ++ _)), flush_append name (_ :: lex [] before),
          List.append_assoc, List.cons_append]

theorem lex_mark {c : Char} (cs : List Char) (hc : isNamePart c = false)
    (hBlank : Text.isBlank c = false) : lex [] (c :: cs) = .mark c :: lex [] cs := by
  simp [lex, hc, hBlank, flush]

theorem lex_name {s : String} (h : isName s) : lex [] s.toList = [.name s] := by
  have hAll (name cs : List Char) (hcs : cs.all isNamePart) :
      lex name cs = flush (name ++ cs) [] := by
    induction cs generalizing name with
    | nil => rw [List.append_nil, lex]
    | cons c cs ih =>
      rw [List.all_cons, Bool.and_eq_true] at hcs
      rw [lex, if_pos hcs.1, ih _ hcs.2, List.append_assoc, List.singleton_append]
  unfold isName at h
  cases hs : s.toList with
  | nil => simp [hs] at h
  | cons c cs =>
    simp only [hs, Bool.and_eq_true] at h
    rw [hAll [] (c :: cs) (by simp only [List.all_cons, h.1.2, h.2, Bool.and_self]),
      List.nil_append, flush, List.isEmpty_cons, if_neg (by decide), ← hs, String.ofList_toList]

/-! ### The grammar -/

/-- A group that is open, with the alternatives before it in the group around it. -/
inductive Frame where
  | parentheses (before : Option (TypeTree String))
  | partialOf (before : Option (TypeTree String))
deriving DecidableEq, Repr

def join : Option (TypeTree String) → TypeTree String → TypeTree String
  | none, operand => operand
  | some before, operand => .either before operand

mutual

def start (around : List Frame) (before : Option (TypeTree String)) :
    List Lexeme → Option (TypeTree String)
  | .mark '(' :: rest => start (.parentheses before :: around) none rest
  | .name "Partial" :: .mark '<' :: rest => start (.partialOf before :: around) none rest
  | .name "Record" :: .mark '<' :: .name "string" :: .mark ',' :: .name "unknown" :: .mark '>' ::
      rest => follow around before (.leaf "Record<string, unknown>") rest
  | .name text :: rest =>
    if isName text then follow around before (.leaf text) rest else none
  | _ => none

def follow (around : List Frame) (before : Option (TypeTree String))
    (operand : TypeTree String) : List Lexeme → Option (TypeTree String)
  | .mark '[' :: .mark ']' :: rest => follow around before (.array operand) rest
  | .mark '|' :: rest => start around (some (join before operand)) rest
  | .mark ')' :: rest =>
    match around with
    | .parentheses outer :: around => follow around outer (join before operand) rest
    | _ => none
  | .mark '>' :: rest =>
    match around with
    | .partialOf outer :: around => follow around outer (.partialOf (join before operand)) rest
    | _ => none
  | [] => if around.isEmpty then some (join before operand) else none
  | _ => none

end

def read? (s : String) : Option (TypeTree String) :=
  start [] none (lex [] s.toList)

example : read? "(User|string)[]|Partial<User[]>" =
    some (.either (.array (.either (.leaf "User") (.leaf "string")))
      (.partialOf (.array (.leaf "User")))) := by decide +kernel

example : read? "User|string[]" = some (.either (.leaf "User") (.array (.leaf "string"))) := by
  decide +kernel

/-! ### Ways to write an operand -/

/-- The lexemes of a text lead from `before`, where an operand begins, behind `operand` with the
alternatives `before'` in front of it.  What is behind the text opens no argument list. -/
def ReadsTo (s : String) (before before' : Option (TypeTree String)) (operand : TypeTree String) :
    Prop :=
  ∀ (around : List Frame) (rest : List Lexeme), rest.head? ≠ some (.mark '<') →
    start around before (lex [] s.toList ++ rest) = follow around before' operand rest

namespace ReadsTo

variable {s : String} {before before' : Option (TypeTree String)} {operand : TypeTree String}

theorem name (h : isName s) (before : Option (TypeTree String)) :
    ReadsTo s before before (.leaf s) := by
  intro around rest hRest
  rw [lex_name h, List.singleton_append]
  unfold start
  split
  · rename_i hEq
    cases hEq
  · rename_i hEq
    cases hEq
    exact absurd rfl hRest
  · rename_i hEq
    cases hEq
    exact absurd rfl hRest
  · rename_i hEq
    cases hEq
    exact if_pos h
  · rename_i hNone
    exact absurd rfl (hNone s rest)

theorem dict (before : Option (TypeTree String)) :
    ReadsTo "Record<string, unknown>" before before (.leaf "Record<string, unknown>") := by
  intro around rest _
  have hLex : lex [] "Record<string, unknown>".toList = [.name "Record", .mark '<', .name "string",
      .mark ',', .name "unknown", .mark '>'] := by decide +kernel
  rw [hLex]
  rfl

theorem array (h : ReadsTo s before before' operand) :
    ReadsTo (s ++ "[]") before before' (.array operand) := by
  intro around rest _
  have hLex : lex [] (s ++ "[]").toList = lex [] s.toList ++ [.mark '[', .mark ']'] := by
    rw [String.toList_append]
    exact lex_append [] s.toList [']'] (by decide)
  rw [hLex, List.append_assoc, h around _ (by simp)]
  rfl

theorem parentheses (h : ReadsTo s none before' operand) (before : Option (TypeTree String)) :
    ReadsTo ("(" ++ s ++ ")") before before (join before' operand) := by
  intro around rest _
  have hLex : lex [] ("(" ++ s ++ ")").toList = .mark '(' :: (lex [] s.toList ++ [.mark ')']) := by
    rw [String.toList_append, String.toList_append, List.append_assoc]
    show lex [] ('(' :: (s.toList ++ [')'])) = _
    rw [lex_mark _ (by decide) (by decide), lex_append [] s.toList [] (by decide)]
    rfl
  rw [hLex, List.cons_append, List.append_assoc]
  show start (.parentheses before :: around) none (lex [] s.toList ++ .mark ')' :: rest) = _
  rw [h _ _ (by simp)]
  rfl

theorem partialOf (h : ReadsTo s none before' operand) (before : Option (TypeTree String)) :
    ReadsTo ("Partial<" ++ s ++ ">") before before (.partialOf (join before' operand)) := by
  intro around rest _
  have hLex : lex [] ("Partial<" ++ s ++ ">").toList =
      .name "Partial" :: .mark '<' :: (lex [] s.toList ++ [.mark '>']) := by
    rw [String.toList_append, String.toList_append, List.append_assoc]
    show lex [] ("Partial".toList ++ '<' :: (s.toList ++ ['>'])) = _
    rw [lex_append _ _ _ (by decide), lex_name (by decide), lex_mark _ (by decide) (by decide),
      lex_append [] s.toList [] (by decide)]
    rfl
  rw [hLex, List.cons_append, List.cons_append, List.append_assoc]
  show start (.partialOf before :: around) none (lex [] s.toList ++ .mark '>' :: rest) = _
  rw [h _ _ (by simp)]
  rfl

theorem bar {t : String} {last : Option (TypeTree String)} {lastOperand : TypeTree String}
    (h : ReadsTo s before before' operand)
    (hLast : ReadsTo t (some (join before' operand)) last lastOperand) :
    ReadsTo (s ++ "|" ++ t) before last lastOperand := by
  intro around rest hRest
  have hLex : lex [] (s ++ "|" ++ t).toList = lex [] s.toList ++ .mark '|' :: lex [] t.toList := by
    rw [String.toList_append, String.toList_append, List.append_assoc]
    show lex [] (s.toList ++ '|' :: t.toList) = _
    rw [lex_append [] _ _ (by decide), lex_mark _ (by decide) (by decide)]
  rw [hLex, List.append_assoc, List.cons_append, h around _ (by simp)]
  show start around (some (join before' operand)) (lex [] t.toList ++ rest) = _
  exact hLast around rest hRest

theorem read?_eq (h : ReadsTo s none before operand) : read? s = some (join before operand) := by
  have hWhole := h [] [] (by simp)
  rw [List.append_nil] at hWhole
  exact hWhole

end ReadsTo

end ProseTypes.TypeText
