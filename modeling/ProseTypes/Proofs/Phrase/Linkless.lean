import ProseTypes.Proofs.Document.Characters
import ProseTypes.Proofs.Resolution.Steps
import ProseTypes.Request.Response

/-!
# Phrases without links

A link begins with an opening square bracket.  So text without one is cut into tokens none of which is
a link (`Token.isLink_ofChars`).  The phrases that remain behind a form are made of tokens of the
whole phrase (`Form.rests_subset`), so the reading of such text leads to no resource
(`Reading.links_ofPhrase_eq_nil`).  The phrase for a response is cut out of its paragraph
(`Response.phrase?_subset`), so this covers what paragraphs without brackets name.
-/

namespace ProseTypes

/-! ### Tokens -/

namespace Token

def isLink : Token → Bool
  | link _ _ => true
  | _ => false

theorem enclosed?_subset {opening closing : Char} {depth : Nat} {cs inside after : List Char}
    (h : enclosed? opening closing depth cs = some (inside, after)) : inside ⊆ cs ∧ after ⊆ cs := by
  induction cs generalizing depth inside with
  | nil => cases h
  | cons c cs ih =>
    have hPush {d : Nat} (h : (enclosed? opening closing d cs).map
        (fun r => (c :: r.1, r.2)) = some (inside, after)) : inside ⊆ c :: cs ∧ after ⊆ c :: cs := by
      obtain ⟨⟨i, a⟩, hr, he⟩ := Option.map_eq_some_iff.mp h
      obtain ⟨rfl, rfl⟩ := Prod.mk.inj he
      obtain ⟨hInside, hAfter⟩ := ih hr
      exact ⟨List.cons_subset_cons c hInside, List.subset_cons_of_subset c hAfter⟩
    unfold enclosed? at h
    split at h
    · exact hPush h
    split at h
    · cases depth with
      | zero =>
        obtain ⟨rfl, rfl⟩ := Prod.mk.inj (Option.some.inj h)
        exact ⟨List.nil_subset _, List.subset_cons_self _ _⟩
      | succ outer => exact hPush h
    · exact hPush h

theorem enclosed_subset (opening closing : Char) (cs : List Char) :
    (enclosed opening closing cs).2 ⊆ cs := by
  unfold enclosed
  cases h : enclosed? opening closing 0 cs with
  | none => exact List.nil_subset cs
  | some r => exact (enclosed?_subset h).2

theorem isLink_of_word? {cs : List Char} {token : Token} (h : word? cs = some token) :
    token.isLink = false := by
  unfold word? at h
  dsimp only at h
  split at h
  · cases h
  · rw [← Option.some.inj h]
    rfl

/-- **Text without an opening bracket has no links among its tokens.** -/
theorem isLink_ofChars {cs : List Char} (h : '[' ∉ cs) : ∀ token ∈ ofChars cs, token.isLink = false := by
  fun_induction ofChars cs with
  | case1 => simp
  | case2 c cs hBlank ih => exact ih (List.not_mem_of_not_mem_cons h)
  | case3 cs hBlank ih =>
    intro token hToken
    rcases List.mem_cons.mp hToken with rfl | hToken
    · rfl
    · exact ih (List.not_mem_of_not_mem_cons h) token hToken
  | case4 cs hBlank _ ih =>
    intro token hToken
    rcases List.mem_cons.mp hToken with rfl | hToken
    · rfl
    · refine ih (fun hMem => ?_) token hToken
      exact List.not_mem_of_not_mem_cons h (enclosed_subset _ _ cs hMem)
  | case5 => simp at h
  | case6 => simp at h
  | case7 c cs hBlank hQuestion hRound hSquare ih =>
    intro token hToken
    rcases List.mem_append.mp hToken with hWord | hToken
    · exact isLink_of_word? (Option.mem_toList.mp hWord)
    · refine ih (fun hMem => ?_) token hToken
      exact List.not_mem_of_not_mem_cons h ((List.dropWhile_sublist _).subset hMem)

end Token

/-! ### Forms -/

namespace Form

def rests : Form → List (List Token)
  | nothing | name => []
  | array inner | nullable inner | partialOf inner | reduced inner => [inner]
  | either left right => [left, right]

theorem last?_subset {tokens before after : List Token} {token : Token}
    (h : last? tokens = some (before, token, after)) : before ⊆ tokens ∧ after ⊆ tokens := by
  obtain ⟨rfl, -, -⟩ := last?_eq_some_iff.mp h
  exact ⟨List.subset_append_left _ _,
    List.Subset.trans (List.subset_cons_self _ _) (List.subset_append_right _ _)⟩

theorem alternatives?_subset {tokens left right : List Token}
    (h : alternatives? tokens = some (left, right)) : left ⊆ tokens ∧ right ⊆ tokens := by
  obtain ⟨token, rfl, -⟩ := alternatives?_eq_some_iff.mp h
  exact ⟨List.subset_append_left _ _,
    List.Subset.trans (List.subset_cons_self _ _) (List.subset_append_right _ _)⟩

theorem rests_ofPlain_subset {tokens inner : List Token} (h : inner ∈ (ofPlain tokens).rests) :
    inner ⊆ tokens := by
  unfold ofPlain at h
  split at h
  · rename_i hLast
    obtain ⟨hBefore, hAfter⟩ := last?_subset hLast
    split at h
    · rw [List.mem_singleton.mp h]
      exact List.append_subset_of_subset_of_subset hBefore hAfter
    split at h
    · rw [List.mem_singleton.mp h]
      exact List.filter_sublist.subset
    · cases h
  · split at h
    · rw [List.mem_singleton.mp h]
      exact List.filter_sublist.subset
    · cases h

theorem rests_ofOptional_subset {first : Token} {rest inner : List Token}
    (h : inner ∈ (ofOptional first rest).rests) : inner ⊆ first :: rest := by
  unfold ofOptional at h
  split at h
  · rename_i hLast
    rw [List.mem_singleton.mp h]
    exact (last?_subset hLast).1
  split at h
  · rw [List.mem_singleton.mp h]
    exact List.subset_cons_self _ _
  split at h
  · rw [List.mem_singleton.mp h]
    exact List.subset_cons_self _ _
  split at h
  · rename_i hOr
    obtain ⟨hLeft, hRight⟩ := alternatives?_subset hOr
    rcases List.mem_pair.mp h with rfl | rfl
    · exact hLeft
    · exact hRight
  · exact rests_ofPlain_subset h

/-- **Whatever remains of a phrase is made of its tokens.** -/
theorem rests_subset {tokens inner : List Token} (h : inner ∈ (ofTokens tokens).rests) :
    inner ⊆ tokens := by
  cases tokens with
  | nil => cases h
  | cons first rest =>
    simp only [ofTokens] at h
    split at h
    · rw [List.mem_singleton.mp h]
      exact List.subset_cons_of_subset first (List.tail_sublist rest).subset
    split at h
    · rw [List.mem_singleton.mp h]
      exact List.nil_subset _
    · exact rests_ofOptional_subset h

theorem isLink_rests {tokens : List Token} (h : ∀ token ∈ tokens, token.isLink = false)
    {form : Form} (hForm : ofTokens tokens = form) {inner : List Token} (hInner : inner ∈ form.rests) :
    ∀ token ∈ inner, token.isLink = false :=
  fun token hToken => h token (rests_subset (hForm ▸ hInner) hToken)

end Form

/-! ### Readings -/

namespace Reading

variable {index : LinkIndex}

/-- **Tokens among which there are no links lead to no resources.** -/
theorem links_ofTokens_eq_nil {tokens : List Token} (h : ∀ token ∈ tokens, token.isLink = false) :
    (Reading.ofTokens index tokens).links = [] := by
  fun_induction Reading.ofTokens index tokens with
  | case1 => rfl
  | case2 => rfl
  | case3 tokens _ inner hForm ih => exact ih (Form.isLink_rests h hForm (by simp [Form.rests]))
  | case4 tokens _ inner hForm ih => exact ih (Form.isLink_rests h hForm (by simp [Form.rests]))
  | case5 tokens _ inner hForm ih => exact ih (Form.isLink_rests h hForm (by simp [Form.rests]))
  | case6 tokens _ left right hForm ihLeft ihRight =>
    rw [links_either, ihLeft (Form.isLink_rests h hForm (by simp [Form.rests])),
      ihRight (Form.isLink_rests h hForm (by simp [Form.rests])), List.append_nil]
  | case7 tokens _ inner hForm ih => exact ih (Form.isLink_rests h hForm (by simp [Form.rests]))
  | case8 tokens _ hForm =>
    have hWords : ∀ text target, tokens ≠ [.link text target] := by
      rintro text target rfl
      exact Bool.noConfusion (h _ List.mem_cons_self)
    rw [Leaf.ofTokens_of_words hWords, Leaf.links_ofWords]

/-- **A phrase without an opening bracket leads to no resources.** -/
theorem links_ofPhrase_eq_nil {phrase : String} (h : '[' ∉ phrase.toList) :
    (Reading.ofPhrase index phrase).links = [] :=
  links_ofTokens_eq_nil (Token.isLink_ofChars h)

end Reading

/-! ### Phrases for responses -/

namespace Response

theorem opened?_subset {cs rest : List Char} (h : opened? cs = some rest) : rest ⊆ cs := by
  obtain ⟨behind, hBehind, hRest⟩ := Option.bind_eq_some_iff.mp h
  split at hRest
  · rw [← Option.some.inj hRest]
    exact List.Subset.trans (Text.trimStart_subset behind) (Text.dropPrefix?_subset hBehind)
  · cases hRest

theorem sentence?_subset {place : Place} {cs rest : List Char}
    (h : sentence? place cs = some rest) : rest ⊆ cs := by
  induction cs generalizing place with
  | nil => cases h
  | cons c cs ih =>
    unfold sentence? at h
    split at h
    · rename_i found hFound
      rw [← Option.some.inj h]
      split at hFound
      · exact opened?_subset hFound
      · cases hFound
    · exact List.subset_cons_of_subset c (ih h)

theorem untilEnd_subset (cs : List Char) : untilEnd cs ⊆ cs := by
  induction cs with
  | nil => exact List.nil_subset _
  | cons c cs ih =>
    unfold untilEnd
    split
    · exact List.nil_subset _
    · exact List.cons_subset_cons c ih

theorem phrase_subset (cs : List Char) : phrase cs ⊆ cs := by
  cases cs with
  | nil => exact List.nil_subset _
  | cons c cs => exact List.cons_subset_cons c (untilEnd_subset cs)

theorem dropArticle_subset (cs : List Char) : dropArticle cs ⊆ cs := by
  unfold dropArticle
  split
  · exact List.Subset.trans (Text.trimStart_subset _) (List.drop_sublist _ cs).subset
  · exact List.Subset.refl cs

theorem objectWord?_subset {cs word after : List Char} (h : objectWord? cs = some (word, after)) :
    word ⊆ cs := by
  unfold objectWord? at h
  split at h
  · dsimp only at h
    split at h
    · cases h
    · obtain ⟨rfl, -⟩ := Prod.mk.inj (Option.some.inj h)
      refine List.append_subset_of_subset_of_subset (List.take_sublist 6 cs).subset ?_
      have hEnding : List.Sublist (((cs.drop 6).take 1).filter isPluralEnding) ((cs.drop 6).take 1) :=
        List.filter_sublist
      exact ((hEnding.trans (List.take_sublist 1 _)).trans (List.drop_sublist 6 cs)).subset
  · cases h

theorem cutObject?_subset {cs before after : List Char} (h : cutObject? cs = some (before, after)) :
    before ⊆ cs := by
  induction cs generalizing before with
  | nil => cases h
  | cons c cs ih =>
    unfold cutObject? at h
    split at h
    · rename_i word behind hWord
      obtain ⟨rfl, -⟩ := Prod.mk.inj (Option.some.inj h)
      split at hWord
      · exact List.cons_subset_cons c (objectWord?_subset hWord)
      · cases hWord
    · obtain ⟨⟨first, behind⟩, hCut, hSame⟩ := Option.map_eq_some_iff.mp h
      obtain ⟨rfl, rfl⟩ := Prod.mk.inj hSame
      exact List.cons_subset_cons c (ih hCut)

theorem upToObject_subset (cs : List Char) : upToObject cs ⊆ cs := by
  unfold upToObject
  split
  · rename_i before after hCut
    split
    · exact List.Subset.refl cs
    · exact cutObject?_subset hCut
  · exact List.Subset.refl cs

/-- **The phrase for a response is made of characters of its paragraph.** -/
theorem phrase?_subset {paragraph named : String} (h : phrase? paragraph = some named) :
    named.toList ⊆ paragraph.toList := by
  obtain ⟨rest, hRest, hNamed⟩ := Option.bind_eq_some_iff.mp h
  dsimp only at hNamed
  split at hNamed
  · cases hNamed
  · rw [← Option.some.inj hNamed, String.toList_ofList]
    have hPhrase := List.Subset.trans (Text.trim_subset _) (phrase_subset rest)
    have hKept := List.Subset.trans (dropArticle_subset _) hPhrase
    exact List.Subset.trans (List.Subset.trans (upToObject_subset _) hKept) (sentence?_subset hRest)

end Response

end ProseTypes
