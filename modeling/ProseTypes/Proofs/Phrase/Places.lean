import ProseTypes.Proofs.Phrase.Tokens

/-!
# Where words stand in a phrase

Every word among the tokens of a phrase is read from one stretch of it, and the text before this stretch is
read as the tokens before the word (`Token.stands_of_ofChars`).  For brackets that make no link this rests on
two facts: in a part of what they enclose they are not closed, so this part is read as if they were not
there, and behind them no part of the text makes a link of them.
-/

namespace ProseTypes.Token

/-! ### Brackets -/

section

variable {opening closing : Char} (hDiffer : closing ≠ opening) {depth : Nat}

include hDiffer

theorem enclosed?_append {cs inside after : List Char}
    (h : enclosed? opening closing depth cs = some (inside, after)) (rest : List Char) :
    enclosed? opening closing depth (cs ++ rest) = some (inside, after ++ rest) := by
  rw [enclosed?_eq_some_iff hDiffer] at h ⊢
  obtain ⟨rfl, hBalanced⟩ := h
  exact ⟨by simp, hBalanced⟩

theorem enclosed?_none_of_append {cs rest : List Char}
    (h : enclosed? opening closing depth (cs ++ rest) = none) :
    enclosed? opening closing depth cs = none := by
  cases hPart : enclosed? opening closing depth cs with
  | none => rfl
  | some found => rw [enclosed?_append hDiffer hPart] at h; cases h

/-- **In a part of what is enclosed the bracket is not closed.** -/
theorem enclosed?_eq_none_of_inside {cs before rest : List Char}
    (h : (enclosed opening closing cs).1 = before ++ rest) :
    enclosed? opening closing 0 before = none := by
  cases hAll : enclosed? opening closing 0 cs with
  | none =>
    rw [enclosed, hAll] at h
    obtain rfl : cs = before ++ rest := h
    exact enclosed?_none_of_append hDiffer hAll
  | some found =>
    obtain ⟨inside, after⟩ := found
    rw [enclosed, hAll] at h
    obtain rfl : inside = before ++ rest := h
    cases hPart : enclosed? opening closing 0 before with
    | none => rfl
    | some found =>
      -- Closed in the part, it would be closed at the same place in the whole.
      obtain ⟨inner, behind⟩ := found
      obtain ⟨rfl, -⟩ := (enclosed?_eq_some_iff hDiffer).mp hAll
      rw [List.append_assoc, enclosed?_append hDiffer hPart, Option.some.injEq, Prod.mk.injEq] at hAll
      obtain ⟨rfl, -⟩ := (enclosed?_eq_some_iff hDiffer).mp hPart
      have hLength := congrArg List.length hAll.1
      simp only [List.length_append, List.length_cons] at hLength
      omega

end

theorem ofChars_open {cs : List Char} (h : enclosed? '[' ']' 0 cs = none) :
    ofChars ('[' :: cs) = ofChars cs := by
  have hLink : link? cs = none := by
    rw [link?, h]
  rw [ofChars_of_link?_none hLink, enclosed, h, Option.getD_none, ofChars_nil, List.append_nil]

/-- **Brackets that make no link with what comes behind make none with a part of it.** -/
theorem link?_eq_none_of_append {inside before rest : List Char}
    (h : link? (inside ++ ']' :: (before ++ rest)) = none) : link? (inside ++ ']' :: before) = none := by
  cases hPart : link? (inside ++ ']' :: before) with
  | none => rfl
  | some found =>
    obtain ⟨token, behind⟩ := found
    obtain ⟨text, target, hSplit, hText, hTarget, rfl⟩ := link?_eq_some_iff.mp hPart
    have hWhole : inside ++ ']' :: (before ++ rest) =
        text ++ ']' :: '(' :: (target ++ ')' :: (behind ++ rest)) := by
      have hAppend := congrArg (· ++ rest) hSplit
      simpa using hAppend
    have hLink := link?_eq_some_iff.mpr ⟨text, target, hWhole, hText, hTarget, rfl⟩
    rw [h] at hLink
    cases hLink

/-! ### Words -/

/-- A word stands in a phrase: the text before its stretch is read as some tokens, and the stretch is read as
the word and ends where the phrase does, or before a character that ends a word or a closing bracket. -/
structure WordAt (cs : List Char) (front : List Token) (token : Token) (before raw after : List Char) :
    Prop where
  split : cs = before ++ raw ++ after
  front : ofChars before = front
  word : word? raw = some token
  inside : ∀ c ∈ raw, endsWord c = false
  behind : ∀ c ∈ after.head?, endsWord c = true ∨ c = ']'

instance (cs : List Char) (front : List Token) (token : Token) (before raw after : List Char) :
    Decidable (WordAt cs front token before raw after) :=
  decidable_of_iff
    (cs = before ++ raw ++ after ∧ ofChars before = front ∧ word? raw = some token ∧
      raw.all (!endsWord ·) = true ∧ after.head?.all (fun c => endsWord c || c == ']') = true)
    ⟨fun ⟨hSplit, hFront, hWord, hInside, hBehind⟩ =>
        ⟨hSplit, hFront, hWord, by simpa using hInside, by simpa [Option.all_eq_true] using hBehind⟩,
      fun h => ⟨h.split, h.front, h.word, by simpa using h.inside,
        by simpa [Option.all_eq_true] using h.behind⟩⟩

/-- A word stands somewhere in a phrase, and nothing is read behind it if the phrase ends with it. -/
def Stands (cs : List Char) (front : List Token) (token : Token) (back : List Token) : Prop :=
  ∃ before raw after, WordAt cs front token before raw after ∧ (after = [] → back = [])

/-- **A word stands where it stands in what comes behind some tokens**, if every part of this is read in the
same way behind them. -/
theorem Stands.append_left {rest : List Char} {front back : List Token} {token : Token}
    (h : Stands rest front token back) {cs : List Char} (first : List Char) (tokens : List Token)
    (hSplit : cs = first ++ rest)
    (hFirst : ∀ before, before <+: rest → ofChars (first ++ before) = tokens ++ ofChars before) :
    Stands cs (tokens ++ front) token back := by
  obtain ⟨before, raw, after, hAt, hEnd⟩ := h
  have hBefore : before <+: rest := by
    rw [hAt.split, List.append_assoc]
    exact List.prefix_append before _
  refine ⟨first ++ before, raw, after, ⟨?_, ?_, hAt.word, hAt.inside, hAt.behind⟩, hEnd⟩
  · rw [hSplit, hAt.split]
    simp
  · rw [hFirst before hBefore, hAt.front]

theorem exists_of_cons_eq {first : Token} {tokens front back : List Token} {word : String}
    (hFirst : first ≠ .word word) (h : first :: tokens = front ++ .word word :: back) :
    ∃ rest, front = [first] ++ rest ∧ tokens = rest ++ .word word :: back := by
  cases front with
  | nil => exact absurd (List.cons.inj h).1 hFirst
  | cons other rest =>
    obtain ⟨rfl, hRest⟩ := List.cons.inj h
    exact ⟨rest, rfl, hRest⟩

/-- **Words inside brackets that make no link stand in the phrase.** -/
theorem Stands.inside {cs : List Char} {front back : List Token} {token : Token}
    (h : Stands (enclosed '[' ']' cs).1 front token back) :
    Stands ('[' :: cs) front token (back ++ ofChars (enclosed '[' ']' cs).2) := by
  obtain ⟨before, raw, after, hAt, hEnd⟩ := h
  have hBefore : ofChars ('[' :: before) = front := by
    have hInside : (enclosed '[' ']' cs).1 = before ++ (raw ++ after) := by
      rw [hAt.split, List.append_assoc]
    rw [ofChars_open (enclosed?_eq_none_of_inside (by decide) hInside), hAt.front]
  cases hEnclosed : enclosed? '[' ']' 0 cs with
  | none =>
    have hSplit : cs = before ++ raw ++ after := by
      have hAll := hAt.split
      rwa [enclosed, hEnclosed] at hAll
    refine ⟨'[' :: before, raw, after, ⟨?_, hBefore, hAt.word, hAt.inside, hAt.behind⟩, ?_⟩
    · rw [hSplit]
      rfl
    · intro hNil
      rw [hEnd hNil, enclosed, hEnclosed]
      exact ofChars_nil
  | some found =>
    obtain ⟨inside, rest⟩ := found
    obtain ⟨rfl, -⟩ := (enclosed?_eq_some_iff (by decide)).mp hEnclosed
    have hSplit : inside = before ++ raw ++ after := by
      have hAll := hAt.split
      rwa [enclosed, hEnclosed] at hAll
    refine ⟨'[' :: before, raw, after ++ ']' :: rest, ⟨?_, hBefore, hAt.word, hAt.inside, ?_⟩, ?_⟩
    · rw [hSplit]
      simp
    · intro c hc
      cases after with
      | nil =>
        cases hc
        exact Or.inr rfl
      | cons d after => exact hAt.behind c hc
    · simp

/-- **Words behind brackets that make no link stand in the phrase.** -/
theorem Stands.behind {cs : List Char} (hNone : link? cs = none) {front back : List Token} {token : Token}
    (h : Stands (enclosed '[' ']' cs).2 front token back) :
    Stands ('[' :: cs) (ofChars (enclosed '[' ']' cs).1 ++ front) token back := by
  cases hEnclosed : enclosed? '[' ']' 0 cs with
  | none =>
    obtain ⟨before, raw, after, hAt, -⟩ := h
    have hSplit := hAt.split
    simp only [enclosed, hEnclosed, Option.getD_none, List.nil_eq, List.append_eq_nil_iff] at hSplit
    have hWord := hAt.word
    rw [hSplit.1.2] at hWord
    cases hWord
  | some found =>
    obtain ⟨inside, rest⟩ := found
    obtain ⟨rfl, hBalanced⟩ := (enclosed?_eq_some_iff (by decide)).mp hEnclosed
    simp only [enclosed, hEnclosed, Option.getD_some] at h ⊢
    refine h.append_left ('[' :: (inside ++ [']'])) (ofChars inside) (by simp) ?_
    rintro before ⟨tail, rfl⟩
    have hEmpty := link?_eq_none_of_append hNone
    have hPart := enclosed?_of_balanced (by decide) hBalanced before
    have hRead := ofChars_of_link?_none hEmpty
    rw [enclosed, hPart, Option.getD_some] at hRead
    simpa using hRead

/-- **The word at the start of a phrase stands in it**, and so do the words behind it. -/
theorem stands_of_stretch {stretch rest : List Char} (hSome : stretch ≠ [])
    (hInside : ∀ c ∈ stretch, endsWord c = false) (hStop : StopsWord rest) {front back : List Token}
    {word : String} (h : (word? stretch).toList ++ ofChars rest = front ++ .word word :: back)
    (hBehind : ∀ front, ofChars rest = front ++ .word word :: back → Stands rest front (.word word) back) :
    Stands (stretch ++ rest) front (.word word) back := by
  have hFirst (before : List Char) (hBefore : before <+: rest) :
      ofChars (stretch ++ before) = (word? stretch).toList ++ ofChars before := by
    refine ofChars_stretch hSome hInside fun c hc => hStop c ?_
    obtain ⟨tail, rfl⟩ := hBefore
    exact List.mem_head?_append_of_mem_head? hc
  cases hWord : word? stretch with
  | none =>
    rw [hWord] at h hFirst
    exact (hBehind front h).append_left stretch _ rfl hFirst
  | some token =>
    rw [hWord] at h hFirst
    cases front with
    | nil =>
      obtain ⟨rfl, rfl⟩ := List.cons.inj h
      refine ⟨[], stretch, rest, ⟨rfl, ofChars_nil, hWord, hInside, fun c hc => Or.inl (hStop c hc)⟩, ?_⟩
      rintro rfl
      exact ofChars_nil
    | cons first front =>
      obtain ⟨rfl, hRest⟩ := List.cons.inj h
      exact (hBehind front hRest).append_left stretch _ rfl hFirst

/-- **Every word of a phrase stands in it.** -/
theorem stands_of_ofChars {cs : List Char} {front back : List Token} {word : String}
    (h : ofChars cs = front ++ .word word :: back) : Stands cs front (.word word) back := by
  fun_induction ofChars cs generalizing front back with
  | case1 => simp at h
  | case2 c cs hBlank ih =>
    exact (ih h).append_left [c] [] rfl fun before _ => ofChars_blank hBlank before
  | case3 cs hBlank ih =>
    obtain ⟨front, rfl, hRest⟩ := exists_of_cons_eq (by simp) h
    exact (ih hRest).append_left ['?'] [.question] rfl fun before _ => ofChars_question before
  | case4 cs hBlank hQuestion ih =>
    obtain ⟨front, rfl, hRest⟩ := exists_of_cons_eq (by simp) h
    cases hEnclosed : enclosed? '(' ')' 0 cs with
    | none => simp [enclosed, hEnclosed, ofChars_nil] at hRest
    | some found =>
      obtain ⟨inside, rest⟩ := found
      obtain ⟨rfl, hBalanced⟩ := (enclosed?_eq_some_iff (by decide)).mp hEnclosed
      simp only [enclosed, hEnclosed, Option.getD_some] at ih hRest ⊢
      refine (ih hRest).append_left ('(' :: (inside ++ [')'])) _ (by simp) fun before _ => ?_
      have hRemark := ofChars_remark_of_balanced hBalanced before
      simpa using hRemark
  | case5 cs token rest hFound _ _ _ ih =>
    obtain ⟨text, target, rfl, hText, hTarget, rfl⟩ := link?_eq_some_iff.mp hFound
    obtain ⟨front, rfl, hRest⟩ := exists_of_cons_eq (by simp) h
    refine (ih hRest).append_left ('[' :: (text ++ ']' :: '(' :: (target ++ [')']))) _ (by simp)
      fun before _ => ?_
    have hLink := ofChars_link hText hTarget before
    simpa using hLink
  | case6 cs hNone _ _ _ ihInside ihRest =>
    rcases List.append_eq_append_iff.mp h with ⟨first, rfl, hRest⟩ | ⟨last, hInside, hBack⟩
    · exact (ihRest hRest).behind hNone
    · cases last with
      | nil =>
        rw [List.append_nil] at hInside
        rw [← hInside, ← List.append_nil (ofChars (enclosed '[' ']' cs).1)]
        have hRest : ofChars (enclosed '[' ']' cs).2 = [] ++ .word word :: back := hBack.symm
        exact (ihRest hRest).behind hNone
      | cons token last =>
        obtain ⟨rfl, rfl⟩ := List.cons.inj hBack
        exact (ihInside hInside).inside
  | case7 c cs hBlank hQuestion hRound hSquare ih =>
    have hInside : ∀ d ∈ c :: cs.takeWhile (fun d => !endsWord d), endsWord d = false := by
      intro d hd
      rcases List.mem_cons.mp hd with rfl | hd
      · simp [endsWord, hBlank, hQuestion, hRound, hSquare]
      · simpa using List.mem_takeWhile_imp hd
    have hStop : StopsWord (cs.dropWhile fun d => !endsWord d) := by
      intro d hd
      have hHead := List.head?_dropWhile_not (fun d => !endsWord d) cs
      rw [Option.mem_def.mp hd] at hHead
      simpa using hHead
    have hStands := stands_of_stretch (by simp) hInside hStop h fun front hRest => ih hRest
    rwa [List.cons_append, List.takeWhile_append_dropWhile] at hStands

end ProseTypes.Token
