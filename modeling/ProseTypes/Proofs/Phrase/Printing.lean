import ProseTypes.Proofs.Phrase.Tokens

/-!
# Phrases written from tokens

A token has a plain way to be written, and `Token.Writes tokens phrase` says that a phrase is made of tokens
in this way with blanks between each two.  Reading the phrase gives the tokens back, if they are well-formed:
their words have nothing in them that ends a word or is dropped, and their brackets are balanced.  Inside a
link text or a remark the other brackets stand for themselves and need not be balanced.

* `Token.lexes_text`: a well-formed token is read from its text, whatever comes after it.
* `Token.ofPhrase_of_writes`: **reading a phrase gives the tokens that it is written from.**
-/

namespace ProseTypes.Token

/-- In a text as many brackets close as open, and no prefix of it closes more than it opens. -/
structure Balanced (opening closing : Char) (cs : List Char) : Prop where
  total : cs.count closing = cs.count opening
  prefixes : ∀ before, before <+: cs → before.count closing ≤ before.count opening

theorem balanced_zero_iff {opening closing : Char} (hDiffer : closing ≠ opening) {cs : List Char} :
    balanced opening closing 0 cs = true ↔ Balanced opening closing cs := by
  rw [balanced_iff hDiffer]
  simp only [Nat.zero_add]
  exact ⟨fun h => ⟨h.1, h.2⟩, fun h => ⟨h.total, h.prefixes⟩⟩

/-- A token that can be written so that it is read again. -/
def WellFormed : Token → Prop
  | word w => IsWord w.toList
  | link text target => Text.Unpadded text.toList ∧ Text.Unpadded target.toList ∧
      Balanced '[' ']' text.toList ∧ Balanced '(' ')' target.toList
  | remark text => Text.Unpadded text.toList ∧ Balanced '(' ')' text.toList
  | question => True

def text : Token → String
  | word w => w
  | link text target => "[" ++ text ++ "](" ++ target ++ ")"
  | remark text => "(" ++ text ++ ")"
  | question => "?"

/-- A phrase is written from tokens, with blanks between each two of them. -/
inductive Writes : List Token → String → Prop
  | nil : Writes [] ""
  | single (token : Token) : Writes [token] token.text
  | cons (token : Token) {gap : String} {next : Token} {tokens : List Token} {phrase : String} :
      gap ≠ "" → (∀ c ∈ gap.toList, Text.isBlank c = true) → Writes (next :: tokens) phrase →
      Writes (token :: next :: tokens) (token.text ++ gap ++ phrase)

/-- **A well-formed token is read from its text**, whatever comes after it, unless it continues a word. -/
theorem lexes_text {token : Token} (h : token.WellFormed) : Lexes token.text.toList [token] := by
  cases token with
  | word w => simpa [Token.text] using IsWord.lexes h
  | link text target =>
    obtain ⟨hText, hTarget, hSquare, hRound⟩ := h
    have hLexes := lexes_link ((balanced_zero_iff (by decide)).mpr hSquare)
      ((balanced_zero_iff (by decide)).mpr hRound)
    rw [hText.trim_eq, hTarget.trim_eq, String.ofList_toList, String.ofList_toList] at hLexes
    simpa [Token.text] using hLexes
  | remark text =>
    obtain ⟨hText, hRound⟩ := h
    have hLexes := lexes_remark ((balanced_zero_iff (by decide)).mpr hRound)
    rw [hText.trim_eq, String.ofList_toList] at hLexes
    simpa [Token.text] using hLexes
  | question => exact fun rest _ => ofChars_question rest

theorem lexes_of_writes {tokens : List Token} {phrase : String} (h : Writes tokens phrase)
    (hTokens : ∀ token ∈ tokens, token.WellFormed) : Lexes phrase.toList tokens := by
  induction h with
  | nil => exact fun _ _ => rfl
  | single token => exact lexes_text (hTokens token List.mem_cons_self)
  | @cons token gap next tokens phrase hGap hBlank _ ih =>
    have hRest := ih fun t ht => hTokens t (List.mem_cons_of_mem token ht)
    rw [String.toList_append, String.toList_append]
    exact (lexes_text (hTokens token List.mem_cons_self)).gap (by simpa using hGap) hBlank hRest

/-- **Reading a phrase gives the tokens that it is written from.** -/
theorem ofPhrase_of_writes {tokens : List Token} {phrase : String} (h : Writes tokens phrase)
    (hTokens : ∀ token ∈ tokens, token.WellFormed) : ofPhrase phrase = tokens :=
  (lexes_of_writes h hTokens).ofChars_eq

def nested : List Token :=
  [.question, .word "it's,a)b", .link "f(x [or y]" "#A/b(c)]", .remark "see (the) [list", .word "é"]

/-- Blanks of several kinds stand between the tokens. -/
theorem ofPhrase_of_writes_nested : (∀ token ∈ nested, token.WellFormed) ∧
    Writes nested "? it's,a)b\t [f(x [or y]](#A/b(c)])\u3000(see (the) [list)\né" ∧
    ofPhrase "? it's,a)b\t [f(x [or y]](#A/b(c)])\u3000(see (the) [list)\né" = nested := by
  have hTokens : ∀ token ∈ nested, token.WellFormed := by
    simp only [nested, List.forall_mem_cons, WellFormed, true_and]
    refine ⟨by decide +kernel, ⟨by decide +kernel, by decide +kernel, ?_, ?_⟩,
      ⟨by decide +kernel, ?_⟩, by decide +kernel, by simp⟩
    · exact (balanced_zero_iff (by decide)).mp (by decide)
    · exact (balanced_zero_iff (by decide)).mp (by decide)
    · exact (balanced_zero_iff (by decide)).mp (by decide)
  have hPhrase : "? it's,a)b\t [f(x [or y]](#A/b(c)])\u3000(see (the) [list)\né" =
      question.text ++ " " ++ ((word "it's,a)b").text ++ "\t " ++
        ((link "f(x [or y]" "#A/b(c)]").text ++ "\u3000" ++
          ((remark "see (the) [list").text ++ "\n" ++ (word "é").text))) := by
    decide +kernel
  have hWrites : Writes nested "? it's,a)b\t [f(x [or y]](#A/b(c)])\u3000(see (the) [list)\né" := by
    rw [hPhrase]
    have hBlank : ∀ gap ∈ [" ", "\t ", "\u3000", "\n"], ∀ c ∈ gap.toList, Text.isBlank c = true := by
      simp [Text.isBlank]
    exact .cons _ (by decide) (hBlank " " (by simp)) (.cons _ (by decide) (hBlank "\t " (by simp))
      (.cons _ (by decide) (hBlank "\u3000" (by simp)) (.cons _ (by decide) (hBlank "\n" (by simp))
        (.single _))))
  exact ⟨hTokens, hWrites, ofPhrase_of_writes hWrites hTokens⟩

end ProseTypes.Token
