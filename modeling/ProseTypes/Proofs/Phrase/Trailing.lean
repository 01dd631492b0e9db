import ProseTypes.Proofs.Compilation.Alike
import ProseTypes.Proofs.Phrase.LetterCase

/-!
# What is said at the end of a phrase for nothing

Remarks and object words at the end of a phrase say nothing, in any order and number.  One more of them
can change how a phrase is read on the way: it hides a question mark or an object word that was the last
thing said, and makes a phrase out of a lone list word.  What it hides comes to light again when it is
left out itself.

* `Form.Steady`: a phrase that opens nothing, but may end with a question mark or an object word.  Of
  such a phrase only the end is left out, so the induction is on its length
  (`LinkIndex.ReadsAlike.append_remarks`) and on that of what comes behind it
  (`LinkIndex.ReadsAlike.append_trailing`).
* `Form.Complete`: a phrase that does not end in the middle.  What it opens it still opens with more
  behind it, and the rest of it is complete again (`LinkIndex.ReadsAlike.append_complete`).
* `Corpus.resolveTokens_trailing`: so resolving comes to the same.
-/

namespace ProseTypes

theorem Token.isWord_of_differ {token : Token} {a b : String} (h : token.isWord a = true)
    (hDiffer : Text.sameLetters a b = false) : token.isWord b = false := by
  cases token with
  | word w =>
    simp only [isWord, Text.sameLetters, beq_iff_eq, beq_eq_false_iff_ne] at h hDiffer ⊢
    rwa [h]
  | link text target => cases h
  | remark text => cases h
  | question => cases h

theorem Token.isWord_of_isRemark {token : Token} (h : token.isRemark = true) (word : String) :
    token.isWord word = false := by
  cases token with
  | remark text => rfl
  | word w => cases h
  | link text target => cases h
  | question => cases h

theorem Token.isRemark_of_isWord {token : Token} {word : String} (h : token.isWord word = true) :
    token.isRemark = false := by
  rw [Bool.eq_false_iff]
  intro hRemark
  rw [isWord_of_isRemark hRemark] at h
  cases h

namespace Form

theorem isRemark_of_meansObject {token : Token} (h : meansObject token = true) :
    token.isRemark = false :=
  (Bool.or_eq_true_iff.mp h).elim Token.isRemark_of_isWord Token.isRemark_of_isWord

def isTrailing (token : Token) : Bool :=
  token.isRemark || meansObject token

theorem isTrailing_of_isRemark {token : Token} (h : token.isRemark = true) :
    isTrailing token = true := by
  rw [isTrailing, h, Bool.true_or]

theorem isWord_of_isTrailing {token : Token} (h : isTrailing token = true) {word : String}
    (hObject : Text.sameLetters "object" word = false)
    (hObjects : Text.sameLetters "objects" word = false) : token.isWord word = false := by
  rw [isTrailing, meansObject, Bool.or_eq_true, Bool.or_eq_true] at h
  rcases h with hRemark | hWord | hWord
  · exact Token.isWord_of_isRemark hRemark word
  · exact Token.isWord_of_differ hWord hObject
  · exact Token.isWord_of_differ hWord hObjects

theorem opensArray_of_isTrailing {token : Token} (h : isTrailing token = true) :
    opensArray token = false := by
  rw [opensArray, isWord_of_isTrailing h (by decide +kernel) (by decide +kernel),
    isWord_of_isTrailing h (by decide +kernel) (by decide +kernel), Bool.or_false]

theorem ne_question_of_isTrailing {token : Token} (h : isTrailing token = true) :
    token ≠ .question := by
  rintro rfl
  cases h

/-! ### What is said last -/

theorem last?_append_of_some {tokens before after : List Token} {token : Token}
    (h : last? tokens = some (before, token, after)) (first : List Token) :
    last? (first ++ tokens) = some (first ++ before, token, after) := by
  obtain ⟨rfl, hToken, hAfter⟩ := last?_eq_some_iff.mp h
  exact last?_eq_some_iff.mpr ⟨(List.append_assoc _ _ _).symm, hToken, hAfter⟩

theorem last?_append_remarks {remarks : List Token} (hRemarks : ∀ t ∈ remarks, t.isRemark = true)
    (tokens : List Token) :
    last? (tokens ++ remarks) = (last? tokens).map fun r => (r.1, r.2.1, r.2.2 ++ remarks) := by
  cases hLast : last? tokens with
  | none =>
    exact last?_eq_none_iff.mpr fun t ht =>
      (List.mem_append.mp ht).elim (last?_eq_none_iff.mp hLast t) (hRemarks t)
  | some found =>
    obtain ⟨before, token, after⟩ := found
    obtain ⟨rfl, hToken, hAfter⟩ := last?_eq_some_iff.mp hLast
    refine last?_eq_some_iff.mpr ⟨by simp, hToken, fun t ht => ?_⟩
    exact (List.mem_append.mp ht).elim (hAfter t) (hRemarks t)

theorem trailing_cases {trailing : List Token} (h : ∀ t ∈ trailing, isTrailing t = true) :
    (∀ t ∈ trailing, t.isRemark = true) ∨
      ∃ before object after, last? trailing = some (before, object, after) ∧
        meansObject object = true := by
  cases hLast : last? trailing with
  | none => exact Or.inl (last?_eq_none_iff.mp hLast)
  | some found =>
    obtain ⟨before, object, after⟩ := found
    obtain ⟨rfl, hObject, -⟩ := last?_eq_some_iff.mp hLast
    refine Or.inr ⟨before, object, after, rfl, ?_⟩
    simpa [isTrailing, hObject] using h object (by simp)

/-- Nothing is left out at the end but remarks. -/
def Kept (tokens : List Token) : Prop :=
  ∀ before token after, last? tokens = some (before, token, after) →
    token ≠ .question ∧ (before = [] ∨ meansObject token = false)

theorem kept_cases (tokens : List Token) :
    Kept tokens ∨ (∃ before after, last? tokens = some (before, .question, after)) ∨
      ∃ start before object after, tokens = start :: (before ++ object :: after) ∧
        meansObject object = true ∧ ∀ t ∈ after, t.isRemark = true := by
  by_cases hKept : Kept tokens
  · exact Or.inl hKept
  simp only [Kept, not_forall, not_and_or, not_or, Bool.not_eq_false] at hKept
  obtain ⟨before, token, after, hLast, hQuestion | ⟨hBefore, hObject⟩⟩ := hKept
  · rw [not_not.mp hQuestion] at hLast
    exact Or.inr (Or.inl ⟨before, after, hLast⟩)
  · obtain ⟨start, others, rfl⟩ := List.exists_cons_of_ne_nil hBefore
    obtain ⟨hTokens, -, hAfter⟩ := last?_eq_some_iff.mp hLast
    exact Or.inr (Or.inr ⟨start, others, token, after, hTokens, hObject, hAfter⟩)

theorem Kept.append_remarks {tokens remarks : List Token} (h : Kept tokens)
    (hRemarks : ∀ t ∈ remarks, t.isRemark = true) : Kept (tokens ++ remarks) := by
  intro before token after hLast
  rw [last?_append_remarks hRemarks] at hLast
  obtain ⟨⟨before, token, after⟩, hFound, hEq⟩ := Option.map_eq_some_iff.mp hLast
  cases hEq
  exact h before token after hFound

theorem Kept.ofPlain_eq {tokens : List Token} (h : Kept tokens) :
    ofPlain tokens =
      if tokens.any Token.isRemark then reduced (tokens.filter fun t => !t.isRemark) else name := by
  unfold ofPlain
  split
  · rename_i first before token after hLast
    obtain ⟨-, hEmpty | hOther⟩ := h _ token after hLast
    · cases hEmpty
    · rw [hOther]
      rfl
  · rfl

theorem alternatives?_append {tokens left right : List Token}
    (h : alternatives? tokens = some (left, right)) (more : List Token) :
    alternatives? (tokens ++ more) = some (left, right ++ more) := by
  obtain ⟨token, rfl, hOr, hLeft, hFirst, hLast⟩ := alternatives?_eq_some_iff.mp h
  exact alternatives?_eq_some_iff.mpr
    ⟨token, by simp, hOr, hLeft, hFirst, List.append_ne_nil_of_left_ne_nil hLast more⟩

/-! ### Phrases that open nothing -/

/-- No list of something, no optional value, no partial object and no choice of two is opened. -/
structure Steady (first : Token) (rest : List Token) : Prop where
  noElement : opensArray first = true → ∀ t ∈ rest.head?, t.isWord "of" = false
  noQuestion : first ≠ .question
  noPartial : first.isWord "partial" = false
  noChoice : first.isWord "or" = true ∨ ∀ t ∈ rest, t.isWord "or" = false

namespace Steady

variable {first : Token} {rest : List Token}

/-- What is steady stays so with remarks and object words at its end, and without some of its tokens. -/
theorem change (h : Steady first rest) {other : List Token}
    (hHead : ∀ t ∈ other.head?, t ∈ rest.head? ∨ isTrailing t = true)
    (hMem : ∀ t ∈ other, t ∈ rest ∨ isTrailing t = true) : Steady first other where
  noElement hArray t ht := (hHead t ht).elim (h.noElement hArray t) fun hTrailing =>
    isWord_of_isTrailing hTrailing (by decide +kernel) (by decide +kernel)
  noQuestion := h.noQuestion
  noPartial := h.noPartial
  noChoice := h.noChoice.imp_right fun hOr t ht => (hMem t ht).elim (hOr t) fun hTrailing =>
    isWord_of_isTrailing hTrailing (by decide +kernel) (by decide +kernel)

theorem of_isTrailing (h : isTrailing first = true) : Steady first [] where
  noElement _ t ht := by cases ht
  noQuestion := ne_question_of_isTrailing h
  noPartial := isWord_of_isTrailing h (by decide +kernel) (by decide +kernel)
  noChoice := Or.inr fun t ht => by cases ht

theorem append (h : Steady first rest) {trailing : List Token}
    (hTrailing : ∀ t ∈ trailing, isTrailing t = true) : Steady first (rest ++ trailing) := by
  refine h.change (fun t ht => ?_) fun t ht => (List.mem_append.mp ht).imp_right (hTrailing t)
  cases rest with
  | nil => exact Or.inr (hTrailing t (List.mem_of_mem_head? ht))
  | cons second others => exact Or.inl ht

theorem cut {before after : List Token} {token : Token} (h : Steady first (before ++ token :: after))
    (hAfter : ∀ t ∈ after, t.isRemark = true) : Steady first (before ++ after) := by
  refine h.change (fun t ht => ?_) fun t ht => Or.inl ?_
  · cases before with
    | nil => exact Or.inr (isTrailing_of_isRemark (hAfter t (List.mem_of_mem_head? ht)))
    | cons second others => exact Or.inl ht
  · exact (List.mem_append.mp ht).elim (List.mem_append_left _)
      fun ht => List.mem_append_right _ (List.mem_cons_of_mem _ ht)

theorem alternatives?_eq_none (h : Steady first rest) : alternatives? (first :: rest) = none := by
  cases hSplit : alternatives? (first :: rest) with
  | none => rfl
  | some found =>
    obtain ⟨token, hTokens, hOr, hLeft, hSome, -⟩ := alternatives?_eq_some_iff.mp hSplit
    obtain ⟨l, ls, hFound⟩ := List.exists_cons_of_ne_nil hSome
    rw [hFound, List.cons_append, List.cons.injEq] at hTokens
    obtain ⟨rfl, hRest⟩ := hTokens
    rcases h.noChoice with hFirst | hAll
    · rw [hLeft first (by rw [hFound]; exact List.mem_cons_self)] at hFirst
      cases hFirst
    · rw [hAll token (by rw [hRest]; simp)] at hOr
      cases hOr

/-- A lone list word is a list of anything, and else the end of the phrase decides. -/
theorem ofTokens_eq (h : Steady first rest) :
    ofTokens (first :: rest) =
      if opensArray first && rest.all Token.isRemark then array []
      else
        match last? (first :: rest) with
        | some (before, .question, _) => nullable before
        | _ => ofPlain (first :: rest) := by
  have hElement : (opensArray first && rest.head?.any (Token.isWord "of")) = false := by
    cases hOpens : opensArray first with
    | false => rfl
    | true =>
      cases rest with
      | nil => rfl
      | cons second others => exact h.noElement hOpens second rfl
  rw [ofTokens, hElement, ofOptional, h.alternatives?_eq_none, if_neg h.noQuestion, h.noPartial]
  rfl

theorem ofTokens_array (h : Steady first rest)
    (hAlone : (opensArray first && rest.all Token.isRemark) = true) :
    ofTokens (first :: rest) = array [] := by
  rw [h.ofTokens_eq, if_pos hAlone]

theorem not_alone {before after : List Token} {token : Token}
    (hLast : last? (first :: rest) = some (first :: before, token, after)) :
    (opensArray first && rest.all Token.isRemark) = false := by
  obtain ⟨hTokens, hToken, -⟩ := last?_eq_some_iff.mp hLast
  rw [List.cons_append, List.cons.injEq] at hTokens
  rw [hTokens.2, List.all_append, List.all_cons, hToken, Bool.false_and, Bool.and_false,
    Bool.and_false]

theorem ofTokens_nullable (h : Steady first rest) {before after : List Token}
    (hLast : last? (first :: rest) = some (before, .question, after)) :
    ofTokens (first :: rest) = nullable before := by
  cases before with
  | nil =>
    obtain ⟨hTokens, -⟩ := last?_eq_some_iff.mp hLast
    exact absurd (List.cons.inj hTokens).1 h.noQuestion
  | cons start before =>
    obtain ⟨hTokens, -⟩ := last?_eq_some_iff.mp hLast
    obtain ⟨rfl, -⟩ := List.cons.inj hTokens
    rw [h.ofTokens_eq, not_alone hLast, hLast]
    rfl

theorem ofTokens_object {before after : List Token} {object : Token}
    (h : Steady first (before ++ object :: after)) (hObject : meansObject object = true)
    (hAfter : ∀ t ∈ after, t.isRemark = true) :
    ofTokens (first :: (before ++ object :: after)) = reduced (first :: (before ++ after)) := by
  have hLast : last? (first :: (before ++ object :: after)) = some (first :: before, object, after) :=
    last?_eq_some_iff.mpr ⟨rfl, isRemark_of_meansObject hObject, hAfter⟩
  rw [h.ofTokens_eq, not_alone hLast, hLast]
  split
  · rename_i hTrue
    cases hTrue
  split
  · rename_i hQuestion
    cases hQuestion
    cases hObject
  · rw [ofPlain, hLast]
    simp only [hObject, if_true, List.cons_append]

theorem ofTokens_kept (h : Steady first rest)
    (hAlone : (opensArray first && rest.all Token.isRemark) = false) (hKept : Kept (first :: rest)) :
    ofTokens (first :: rest) =
      if (first :: rest).any Token.isRemark
      then reduced ((first :: rest).filter fun t => !t.isRemark) else name := by
  rw [h.ofTokens_eq, hAlone, ← hKept.ofPlain_eq]
  split
  · rename_i hTrue
    cases hTrue
  split
  · rename_i before after hLast
    exact absurd rfl (hKept before _ after hLast).1
  · rfl

end Steady

/-! ### Phrases that do not end in the middle -/

/-- What is said last is no question mark, and neither `or` nor `partial`, which are about what follows
them. -/
def Complete (tokens : List Token) : Prop :=
  ∀ before token after, last? tokens = some (before, token, after) →
    token ≠ .question ∧ token.isWord "or" = false ∧ token.isWord "partial" = false

namespace Complete

theorem of_append (first : List Token) {rest : List Token} (h : Complete (first ++ rest)) :
    Complete rest :=
  fun _ _ _ hLast => h _ _ _ (last?_append_of_some hLast first)

theorem right {tokens left right : List Token} (h : Complete tokens)
    (hSplit : alternatives? tokens = some (left, right)) : Complete right := by
  obtain ⟨token, rfl, -⟩ := alternatives?_eq_some_iff.mp hSplit
  rw [← List.singleton_append, ← List.append_assoc] at h
  exact of_append _ h

theorem append {tokens : List Token} (h : Complete tokens) {trailing : List Token}
    (hTrailing : ∀ t ∈ trailing, isTrailing t = true) : Complete (tokens ++ trailing) := by
  intro before token after hLast
  rcases trailing_cases hTrailing with hRemarks | ⟨others, object, remarks, hObject, hMeans⟩
  · rw [last?_append_remarks hRemarks] at hLast
    obtain ⟨⟨before, token, after⟩, hFound, hEq⟩ := Option.map_eq_some_iff.mp hLast
    cases hEq
    exact h before token after hFound
  · rw [last?_append_of_some hObject] at hLast
    cases hLast
    have hToken : isTrailing token = true := by rw [isTrailing, hMeans, Bool.or_true]
    exact ⟨ne_question_of_isTrailing hToken,
      isWord_of_isTrailing hToken (by decide +kernel) (by decide +kernel),
      isWord_of_isTrailing hToken (by decide +kernel) (by decide +kernel)⟩

variable {first : Token} {rest : List Token}

theorem last?_ne_question {tokens : List Token} (h : Complete tokens) :
    ∀ before after, last? tokens ≠ some (before, .question, after) :=
  fun before after hLast => (h before _ after hLast).1 rfl

theorem ofTokens_nullable (h : Complete (.question :: rest)) :
    ofTokens (.question :: rest) = nullable rest := by
  rw [ofTokens, ofOptional_of_last h.last?_ne_question]
  rfl

theorem ofTokens_partialOf (h : Complete (first :: rest)) (hPartial : first.isWord "partial" = true) :
    ofTokens (first :: rest) = partialOf rest := by
  have hArray : opensArray first = false := by
    rw [opensArray, Token.isWord_of_differ hPartial (by decide +kernel),
      Token.isWord_of_differ hPartial (by decide +kernel), Bool.or_false]
  have hQuestion : first ≠ .question := by
    rintro rfl
    cases hPartial
  have hSome : rest.isEmpty = false := by
    cases rest with
    | cons second others => rfl
    | nil =>
      have hLast : last? [first] = some ([], first, []) :=
        last?_eq_some_iff.mpr ⟨rfl, Token.isRemark_of_isWord hPartial, by simp⟩
      rw [(h _ _ _ hLast).2.2] at hPartial
      cases hPartial
  rw [ofTokens, hArray, ofOptional_of_last h.last?_ne_question, if_neg hQuestion, hPartial, hSome]
  rfl

theorem ofTokens_either (h : Complete (first :: rest)) {left right : List Token}
    (hElement : (opensArray first && rest.head?.any (Token.isWord "of")) = false)
    (hQuestion : first ≠ .question) (hPartial : first.isWord "partial" = false)
    (hSplit : alternatives? (first :: rest) = some (left, right)) :
    ofTokens (first :: rest) = either left right := by
  obtain ⟨token, hTokens, hOr, -, hLeft, -⟩ := alternatives?_eq_some_iff.mp hSplit
  have hAlone : rest.all Token.isRemark = false := by
    obtain ⟨start, others, rfl⟩ := List.exists_cons_of_ne_nil hLeft
    rw [(List.cons.inj hTokens).2, List.append_eq, List.all_append, List.all_cons,
      Token.isRemark_of_isWord hOr, Bool.false_and, Bool.and_false]
  rw [ofTokens, hElement, hAlone, Bool.and_false, ofOptional_of_last h.last?_ne_question,
    if_neg hQuestion, hPartial, hSplit]
  rfl

theorem noChoice (h : Complete (first :: rest)) (hSplit : alternatives? (first :: rest) = none) :
    first.isWord "or" = true ∨ ∀ t ∈ rest, t.isWord "or" = false := by
  cases hFirst : first.isWord "or" with
  | true => exact Or.inl rfl
  | false =>
    refine Or.inr fun t ht => ?_
    cases hFound : rest.find? (Token.isWord "or") with
    | none => simpa using List.find?_eq_none.mp hFound t ht
    | some token =>
      obtain ⟨hOr, left, right, rfl, hLeft⟩ := List.find?_eq_some_iff_append.mp hFound
      have hSome : right ≠ [] := by
        rintro rfl
        have hLast : last? (first :: (left ++ [token])) = some (first :: left, token, []) :=
          last?_eq_some_iff.mpr ⟨rfl, Token.isRemark_of_isWord hOr, by simp⟩
        rw [(h _ _ _ hLast).2.1] at hOr
        cases hOr
      have hBefore : ∀ t ∈ first :: left, t.isWord "or" = false := by
        intro t ht
        rcases List.mem_cons.mp ht with rfl | ht
        · exact hFirst
        · simpa using hLeft t ht
      have hBoth : alternatives? (first :: (left ++ token :: right)) = some (first :: left, right) :=
        alternatives?_eq_some_iff.mpr ⟨token, rfl, hOr, hBefore, by simp, hSome⟩
      rw [hSplit] at hBoth
      cases hBoth

end Complete

end Form

open Form

namespace LinkIndex.ReadsAlike

variable {index : LinkIndex}

theorem without_remarks {first : Token} {rest : List Token} (h : Steady first rest)
    (hAlone : (opensArray first && rest.all Token.isRemark) = false) (hKept : Kept (first :: rest)) :
    index.ReadsAlike (first :: rest) ((first :: rest).filter fun t => !t.isRemark) := by
  have hForm := h.ofTokens_kept hAlone hKept
  cases hAny : (first :: rest).any Token.isRemark with
  | true =>
    rw [hAny, if_pos rfl] at hForm
    exact reduced hForm rfl
  | false =>
    have hSelf : (first :: rest).filter (fun t => !t.isRemark) = first :: rest := by
      refine List.filter_eq_self.mpr fun t ht => ?_
      rw [Bool.eq_false_iff.mpr (List.any_eq_false.mp hAny t ht)]
      rfl
    rw [hSelf]
    rfl

/-- **Remarks behind a phrase that opens nothing say nothing.**  What is left out before them at the end
is left out all the same. -/
theorem append_remarks {remarks : List Token} (hRemarks : ∀ t ∈ remarks, t.isRemark = true)
    {first : Token} {rest : List Token} (h : Steady first rest) :
    index.ReadsAlike (first :: (rest ++ remarks)) (first :: rest) := by
  induction hLength : rest.length using Nat.strongRecOn generalizing rest with
  | _ length ih =>
    have hLonger : Steady first (rest ++ remarks) :=
      h.append fun t ht => isTrailing_of_isRemark (hRemarks t ht)
    have hAll : (rest ++ remarks).all Token.isRemark = rest.all Token.isRemark := by
      rw [List.all_append, List.all_eq_true.mpr hRemarks, Bool.and_true]
    cases hAlone : opensArray first && rest.all Token.isRemark with
    | true =>
      -- a lone list word is still alone
      have hForm := h.ofTokens_array hAlone
      have hSame := hLonger.ofTokens_array (by rw [hAll, hAlone])
      exact of_form_eq (hSame.trans hForm.symm) (by rw [hForm]; simp)
    | false =>
      rcases kept_cases (first :: rest) with hKept | ⟨before, after, hLast⟩ |
        ⟨start, before, object, after, hTokens, hObject, hAfter⟩
      · -- nothing hides what is said last, and no remark remains
        have hFilter : (first :: (rest ++ remarks)).filter (fun t => !t.isRemark) =
            (first :: rest).filter fun t => !t.isRemark := by
          have hNone : remarks.filter (fun t => !t.isRemark) = [] :=
            List.filter_eq_nil_iff.mpr fun t ht => by simp [hRemarks t ht]
          rw [← List.cons_append, List.filter_append, hNone, List.append_nil]
        have hSame : index.ReadsAlike (first :: (rest ++ remarks)) _ :=
          without_remarks hLonger (by rw [hAll, hAlone]) (hKept.append_remarks hRemarks)
        rw [hFilter] at hSame
        exact hSame.trans (without_remarks h hAlone hKept).symm
      · -- the remarks go with the question mark
        have hSame : last? (first :: (rest ++ remarks)) =
            some (before, .question, after ++ remarks) := by
          rw [← List.cons_append, last?_append_remarks hRemarks, hLast]
          rfl
        have hForm := h.ofTokens_nullable hLast
        exact of_form_eq ((hLonger.ofTokens_nullable hSame).trans hForm.symm) (by rw [hForm]; simp)
      · -- the object word goes, and the remarks stay behind a shorter phrase
        obtain ⟨rfl, rfl⟩ := List.cons.inj hTokens
        rw [List.append_assoc, List.cons_append] at hLonger ⊢
        have hForm := h.ofTokens_object hObject hAfter
        have hSame := hLonger.ofTokens_object hObject fun t ht =>
          (List.mem_append.mp ht).elim (hAfter t) (hRemarks t)
        have hShorter := ih (before ++ after).length (by subst hLength; simp) (h.cut hAfter) rfl
        rw [List.append_assoc] at hShorter
        exact reduced hSame (hShorter.trans (reduced hForm rfl).symm)

/-- **So do object words among them**: the last of them is left out before the remarks are. -/
theorem append_trailing {first : Token} {rest : List Token} (h : Steady first rest)
    {trailing : List Token} (hTrailing : ∀ t ∈ trailing, isTrailing t = true) :
    index.ReadsAlike (first :: (rest ++ trailing)) (first :: rest) := by
  induction hLength : trailing.length using Nat.strongRecOn generalizing trailing with
  | _ length ih =>
    rcases trailing_cases hTrailing with hRemarks | ⟨before, object, after, hLast, hObject⟩
    · exact append_remarks hRemarks h
    · obtain ⟨rfl, -, hAfter⟩ := last?_eq_some_iff.mp hLast
      have hLonger := h.append hTrailing
      rw [← List.append_assoc] at hLonger ⊢
      have hShorter := ih (before ++ after).length (by subst hLength; simp)
        (fun t ht => hTrailing t ?_) rfl
      · rw [← List.append_assoc] at hShorter
        exact reduced (hLonger.ofTokens_object hObject hAfter) hShorter
      · exact (List.mem_append.mp ht).elim (List.mem_append_left _)
          fun ht => List.mem_append_right _ (List.mem_cons_of_mem _ ht)

theorem object_singleton {object : Token} (hObject : meansObject object = true) :
    index.ReadsAlike [object] [] := by
  have hTrailing : isTrailing object = true := by rw [isTrailing, hObject, Bool.or_true]
  have hKept : Kept [object] := by
    intro before token after hLast
    obtain ⟨hTokens, -⟩ := last?_eq_some_iff.mp hLast
    rcases List.singleton_eq_append_iff.mp hTokens with ⟨rfl, hEq⟩ | ⟨-, hEq⟩
    · cases hEq
      exact ⟨ne_question_of_isTrailing hTrailing, Or.inl rfl⟩
    · cases hEq
  have hForm : Form.ofTokens [object] = .name := by
    rw [(Steady.of_isTrailing hTrailing).ofTokens_kept
      (by rw [opensArray_of_isTrailing hTrailing, Bool.false_and]) hKept,
      List.any_cons, isRemark_of_meansObject hObject]
    rfl
  cases object with
  | word w =>
    have hNone : Leaf.primitive? w = none := by
      rcases Bool.or_eq_true_iff.mp hObject with hSame | hSame
      · rw [Leaf.primitive?_sameLetters hSame]
        decide +kernel
      · rw [Leaf.primitive?_sameLetters hSame]
        decide +kernel
    have hText : Token.plainText [.word w] = w := by
      simp [Token.plainText, Token.words?, Text.join]
    have hAtom : (Leaf.ofTokens [.word w] : Leaf index).atom.map Subtype.val = .unknown := by
      rw [Leaf.ofTokens_of_words (by simp), Leaf.atom_ofWords, hText, Leaf.atomOfWords, hNone]
    rw [ReadsAlike, Reading.ofTokens_eq, hForm, Reading.ofTokens_eq index []]
    exact congrArg TypeTree.leaf hAtom
  | link text target => cases hObject
  | remark text => cases hObject
  | question => cases hObject

theorem trailing_nil {trailing : List Token} (hTrailing : ∀ t ∈ trailing, isTrailing t = true) :
    index.ReadsAlike trailing [] := by
  cases trailing with
  | nil => rfl
  | cons first rest =>
    have hFirst : isTrailing first = true := hTrailing first List.mem_cons_self
    have hAlone : index.ReadsAlike (first :: ([] ++ rest)) [first] :=
      append_trailing (Steady.of_isTrailing hFirst)
        fun t ht => hTrailing t (List.mem_cons_of_mem first ht)
    refine hAlone.trans ?_
    rcases Bool.or_eq_true_iff.mp hFirst with hRemark | hObject
    · have hForm : Form.ofTokens [first] = .reduced [] := by
        cases first <;> first | rfl | cases hRemark
      exact reduced hForm rfl
    · exact object_singleton hObject

/-- **Remarks and object words behind a complete phrase say nothing.**  They come behind the last part
of what the phrase opens, down to a part that opens nothing. -/
theorem append_complete {tokens : List Token} (h : Complete tokens) {trailing : List Token}
    (hTrailing : ∀ t ∈ trailing, isTrailing t = true) :
    index.ReadsAlike (tokens ++ trailing) tokens := by
  induction hLength : tokens.length using Nat.strongRecOn generalizing tokens with
  | _ length ih =>
    cases tokens with
    | nil => exact trailing_nil hTrailing
    | cons first rest =>
      subst hLength
      have hLonger := h.append hTrailing
      cases hElement : opensArray first && rest.head?.any (Token.isWord "of") with
      | true =>
        obtain ⟨hOpens, hOf⟩ := Bool.and_eq_true_iff.mp hElement
        cases rest with
        | nil => cases hOf
        | cons preposition inner =>
          have hInner : Complete inner := Complete.of_append [first, preposition] h
          exact array (ofTokens_array hOpens hOf _) (ofTokens_array hOpens hOf _)
            (ih _ (by simp) hInner rfl)
      | false =>
        by_cases hQuestion : first = .question
        · subst hQuestion
          exact nullable hLonger.ofTokens_nullable h.ofTokens_nullable
            (ih _ (by simp) (Complete.of_append [.question] h) rfl)
        cases hPartial : first.isWord "partial" with
        | true =>
          exact partialOf (hLonger.ofTokens_partialOf hPartial) (h.ofTokens_partialOf hPartial)
            (ih _ (by simp) (Complete.of_append [first] h) rfl)
        | false =>
          cases hSplit : alternatives? (first :: rest) with
          | some found =>
            obtain ⟨left, right⟩ := found
            have hShorter := length_of_alternatives? hSplit
            have hRest : rest ≠ [] := by
              obtain ⟨-, -, -, -, hLeft, -⟩ := alternatives?_eq_some_iff.mp hSplit
              have hPos := List.length_pos_iff.mpr hLeft
              rintro rfl
              rw [List.length_singleton] at hShorter
              omega
            have hSame : (opensArray first && (rest ++ trailing).head?.any (Token.isWord "of")) =
                false := by
              rw [List.head?_append_of_ne_nil _ hRest, hElement]
            exact either (hLonger.ofTokens_either hSame hQuestion hPartial
                (alternatives?_append hSplit trailing))
              (h.ofTokens_either hElement hQuestion hPartial hSplit)
              (ih right.length (by omega) (h.right hSplit) rfl)
          | none =>
            have hSteady : Steady first rest :=
              { noElement := fun hOpens t ht => by
                  rw [hOpens, Option.mem_def.mp ht] at hElement
                  exact hElement
                noQuestion := hQuestion
                noPartial := hPartial
                noChoice := h.noChoice hSplit }
            exact append_trailing hSteady hTrailing

end LinkIndex.ReadsAlike

/-- **Remarks and object words at the end of a phrase say nothing**, in any order and number and in
letters of either case: whatever has been asked of the corpus, the symbol is the same with them and
without, and so are the structures, the modules with their imports, and the requests. -/
theorem Corpus.resolveTokens_trailing (corpus : Corpus) (scope : Scope) (operations : List Operation)
    {before after : List Token} {token : Token} (hToken : token.isRemark = false)
    (hAfter : ∀ t ∈ after, t.isRemark = true) (hQuestion : token ≠ .question)
    (hOr : token.isWord "or" = false) (hPartial : token.isWord "partial" = false)
    {trailing : List Token} (hTrailing : ∀ t ∈ trailing,
      t.isRemark = true ∨ t.isWord "object" = true ∨ t.isWord "objects" = true) :
    let tokens := before ++ token :: after
    let progress := corpus.perform scope operations
    (progress.resolveTokens corpus.index (tokens ++ trailing)).1 =
        (progress.resolveTokens corpus.index tokens).1 ∧
      (progress.resolveTokens corpus.index tokens).2.Unchanged
        (progress.resolveTokens corpus.index (tokens ++ trailing)).2 := by
  intro tokens progress
  have hComplete : Complete tokens := by
    intro b t a hLast
    have hSame : last? tokens = some (before, token, after) :=
      last?_eq_some_iff.mpr ⟨rfl, hToken, hAfter⟩
    rw [hSame] at hLast
    cases hLast
    exact ⟨hQuestion, hOr, hPartial⟩
  have hSays : ∀ t ∈ trailing, isTrailing t = true := fun t ht => by
    rw [isTrailing, meansObject, Bool.or_eq_true, Bool.or_eq_true]
    exact hTrailing t ht
  exact (LinkIndex.ReadsAlike.append_complete hComplete hSays).resolveTokens progress

/-- An object word that hides a question mark, with more behind it. -/
theorem Corpus.resolveTokens_trailing_guild :
    let said := Token.ofPhrase "array of [guild](#A/guild)? object"
    let more := Token.ofPhrase "(sic) Objects (max 10) object"
    let progress := guild.perform .everything [.compile]
    (Token.word "object").isRemark = false ∧
    (∀ t ∈ more, t.isRemark = true ∨ t.isWord "object" = true ∨ t.isWord "objects" = true) ∧
    (progress.resolveTokens guild.index said).1.named =
      .array (.nullable (.leaf (.named "Guild"))) ∧
    (progress.resolveTokens guild.index (said ++ more)).1 =
      (progress.resolveTokens guild.index said).1 ∧
    (progress.resolveTokens guild.index said).2.Unchanged
      (progress.resolveTokens guild.index (said ++ more)).2 := by
  intro said more progress
  have hSaid : said = [Token.word "array", Token.word "of", Token.link "guild" "#A/guild",
      Token.question] ++ [Token.word "object"] := by
    decide +kernel
  have hMore : ∀ t ∈ more,
      t.isRemark = true ∨ t.isWord "object" = true ∨ t.isWord "objects" = true := by
    decide +kernel
  have hRead : (Reading.ofPhrase guild.index "array of [guild](#A/guild)? object").named =
      .array (.nullable (.leaf (.named "Guild"))) := by
    decide +kernel
  have hSound : progress.Sound := guild.sound_perform .everything [.compile]
  have hNamed := (hSound.named_resolvePhrase "array of [guild](#A/guild)? object").trans hRead
  rw [Progress.resolvePhrase_eq] at hNamed
  refine ⟨rfl, hMore, hNamed, ?_⟩
  rw [hSaid]
  exact guild.resolveTokens_trailing .everything [.compile] rfl (by simp) (by simp)
    (by decide +kernel) (by decide +kernel) hMore

end ProseTypes
