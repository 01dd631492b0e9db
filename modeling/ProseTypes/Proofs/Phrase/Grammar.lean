import ProseTypes.Proofs.Compilation.History
import ProseTypes.Proofs.Phrase.Tokens
import ProseTypes.Proofs.Text.Cutting

/-!
# The grammar of phrases

`Written index t phrase` says that a phrase writes a type: list words, a question mark or `partial`
before the type they are about, `or` between alternatives, vocabulary for primitive types, and links
to sections with a table for structures.  Reading a phrase inverts this, at any depth.

* `Form.Opening`: the tokens that a leaf is written with say nothing about lists, optional values,
  partial objects or alternatives.
* `Written.exists_tokens`: whatever a phrase writes, its tokens are read as that type.
* `Corpus.resolvePhrase_written`: so resolving the phrase gives the type, whatever has been asked of
  the corpus before.
-/

namespace ProseTypes

/-- A phrase writes a type in a corpus with a link index. -/
inductive Written (index : LinkIndex) : TypeTree (Atom String) → String → Prop where
  | primitive {phrase p ending} : (phrase, p) ∈ Primitive.vocabulary → ending ∈ ["", "s"] →
      Written index (.leaf (.primitive p)) (phrase ++ ending)
  | link {text target ending found choice name} :
      Token.balanced '[' ']' 0 text.toList → Token.balanced '(' ')' 0 target.toList →
      index.find? target = some found → found.here.linkedTable? = some choice →
      Name.ofTitle? found.here.title = some name → ending ∈ ["", " object", " objects"] →
      Written index (.leaf (.named name)) ("[" ++ text ++ "](" ++ target ++ ")" ++ ending)
  | array {opening t phrase} : opening ∈ ["array of ", "list of "] → Written index t phrase →
      Written index (.array t) (opening ++ phrase)
  | nullable {t phrase} : Written index t phrase → Written index (.nullable t) ("?" ++ phrase)
  | partialOf {t phrase} : Written index t phrase →
      Written index (.partialOf t) ("partial " ++ phrase)
  | either {atom t left right} : Written index (.leaf atom) left → Written index t right →
      Written index (.either (.leaf atom) t) (left ++ " or " ++ right)

/-! ### Forms of token lists -/

namespace Form

/-- A phrase ends with something that is said: its last token is neither a question mark nor a
remark, and it has no remarks before. -/
structure Closed (tokens : List Token) : Prop where
  remarks : ∀ token ∈ tokens, token.isRemark = false
  last : ∃ before token, tokens = before ++ [token] ∧ token ≠ .question

theorem last?_of_remarks {before : List Token} {token : Token}
    (h : ∀ t ∈ before ++ [token], t.isRemark = false) :
    last? (before ++ [token]) = some (before, token, []) :=
  last?_eq_some_iff.mpr ⟨rfl, h token (by simp), by simp⟩

theorem Closed.ne_nil {tokens : List Token} (h : Closed tokens) : tokens ≠ [] := by
  obtain ⟨before, token, rfl, -⟩ := h.last
  simp

theorem Closed.append {tokens : List Token} (h : Closed tokens) (first : List Token)
    (hFirst : ∀ token ∈ first, token.isRemark = false) : Closed (first ++ tokens) where
  remarks token hMem := (List.mem_append.mp hMem).elim (hFirst token) (h.remarks token)
  last := by
    obtain ⟨before, token, rfl, hToken⟩ := h.last
    exact ⟨first ++ before, token, (List.append_assoc _ _ _).symm, hToken⟩

theorem ofOptional_of_last {first : Token} {rest : List Token}
    (h : ∀ before after, last? (first :: rest) ≠ some (before, .question, after)) :
    ofOptional first rest =
      if first = .question then nullable rest
      else if first.isWord "partial" && !rest.isEmpty then partialOf rest
      else
        match alternatives? (first :: rest) with
        | some (left, right) => either left right
        | none => ofPlain (first :: rest) := by
  unfold ofOptional
  split
  · rename_i hLast
    exact absurd hLast (h _ _)
  · rfl

theorem Closed.last?_ne_question {tokens : List Token} (h : Closed tokens) :
    ∀ before after, last? tokens ≠ some (before, .question, after) := by
  obtain ⟨before, token, rfl, hToken⟩ := h.last
  intro other after hOther
  rw [last?_of_remarks h.remarks] at hOther
  cases hOther
  exact hToken rfl

theorem ofTokens_array {opening : Token} (hOpening : opensArray opening = true) {preposition : Token}
    (hOf : preposition.isWord "of" = true) (tokens : List Token) :
    ofTokens (opening :: preposition :: tokens) = array tokens := by
  rw [ofTokens, hOpening, List.head?_cons, Option.any_some, hOf]
  rfl

theorem ofTokens_nullable {tokens : List Token} (h : Closed tokens) :
    ofTokens (.question :: tokens) = nullable tokens := by
  have hClosed : Closed (.question :: tokens) := h.append [.question] (by simp [Token.isRemark])
  rw [ofTokens, ofOptional_of_last hClosed.last?_ne_question]
  rfl

theorem ofTokens_partialOf {tokens : List Token} (h : Closed tokens) :
    ofTokens (.word "partial" :: tokens) = partialOf tokens := by
  have hClosed : Closed (.word "partial" :: tokens) :=
    h.append [.word "partial"] (by simp [Token.isRemark])
  have hWord : (Token.word "partial").isWord "partial" = true := by decide +kernel
  have hArray : opensArray (.word "partial") = false := by decide +kernel
  have hSome : tokens.isEmpty = false := by simpa using h.ne_nil
  rw [ofTokens, hArray, ofOptional_of_last hClosed.last?_ne_question, hWord, hSome]
  rfl

/-- Tokens that a leaf is written with: none of them is `or`, and the first one opens no list, no
optional value and no partial object. -/
structure Opening (tokens : List Token) : Prop extends Closed tokens where
  or : ∀ token ∈ tokens, token.isWord "or" = false
  array : ∀ token ∈ tokens.head?, opensArray token = false
  question : tokens.head? ≠ some .question
  partialOf : ∀ token ∈ tokens.head?, token.isWord "partial" = false

theorem Opening.ofTokens_eq {tokens : List Token} (h : Opening tokens) (rest : List Token)
    (hRest : Closed (tokens ++ rest)) :
    ofTokens (tokens ++ rest) =
      match alternatives? (tokens ++ rest) with
      | some (left, right) => either left right
      | none => ofPlain (tokens ++ rest) := by
  obtain ⟨first, others, rfl⟩ := List.exists_cons_of_ne_nil h.ne_nil
  have hArray : opensArray first = false := h.array first rfl
  have hQuestion : first ≠ .question := fun hEq => h.question (by rw [hEq]; rfl)
  have hPartial : first.isWord "partial" = false := h.partialOf first rfl
  rw [List.cons_append] at hRest ⊢
  rw [ofTokens, hArray, ofOptional_of_last hRest.last?_ne_question, if_neg hQuestion, hPartial]
  rfl

theorem Closed.either {left right : List Token} (hLeft : Closed left) (hRight : Closed right) :
    Closed (left ++ .word "or" :: right) := by
  rw [← List.singleton_append, ← List.append_assoc]
  refine hRight.append _ fun token hMem => ?_
  rcases List.mem_append.mp hMem with hMem | hMem
  · exact hLeft.remarks token hMem
  · rw [List.mem_singleton.mp hMem]
    rfl

/-- **The first `or` is the one after the tokens of a leaf.** -/
theorem Opening.ofTokens_either {left right : List Token} (hLeft : Opening left)
    (hRight : Closed right) : ofTokens (left ++ .word "or" :: right) = either left right := by
  have hOr : (Token.word "or").isWord "or" = true := by decide +kernel
  have hSplit : alternatives? (left ++ .word "or" :: right) = some (left, right) :=
    alternatives?_eq_some_iff.mpr ⟨_, rfl, hOr, hLeft.or, hLeft.ne_nil, hRight.ne_nil⟩
  rw [hLeft.ofTokens_eq _ (hLeft.toClosed.either hRight), hSplit]

theorem Opening.ofTokens_plain {tokens : List Token} (h : Opening tokens) :
    ofTokens tokens = ofPlain tokens := by
  have hNone : alternatives? tokens = none := by
    cases hSplit : alternatives? tokens with
    | none => rfl
    | some found =>
      obtain ⟨token, hTokens, hOr, -⟩ := alternatives?_eq_some_iff.mp hSplit
      rw [h.or token (by rw [hTokens]; simp)] at hOr
      cases hOr
  have hEq := h.ofTokens_eq [] (by rw [List.append_nil]; exact h.toClosed)
  rw [List.append_nil, hNone] at hEq
  exact hEq

theorem ofPlain_name {tokens : List Token} (h : Closed tokens)
    (hObject : ∀ token ∈ tokens, meansObject token = false) : ofPlain tokens = name := by
  have hRemark : tokens.any Token.isRemark = false := by
    rw [List.any_eq_false]
    intro token hMem
    rw [h.remarks token hMem]
    exact Bool.false_ne_true
  obtain ⟨before, token, rfl, -⟩ := h.last
  unfold ofPlain
  rw [last?_of_remarks h.remarks]
  split
  · rename_i heq
    cases heq
    rw [hObject token (by simp), hRemark]
    rfl
  · rw [hRemark]
    rfl

theorem ofPlain_object {before : List Token} {object : Token} (hBefore : before ≠ [])
    (hObject : meansObject object = true) (hRemark : ∀ t ∈ before ++ [object], t.isRemark = false) :
    ofPlain (before ++ [object]) = reduced before := by
  obtain ⟨first, others, rfl⟩ := List.exists_cons_of_ne_nil hBefore
  unfold ofPlain
  rw [last?_of_remarks hRemark]
  simp only [hObject, if_true, List.append_nil]

end Form

/-! ### Vocabulary -/

def Token.isKeyword (token : Token) : Bool :=
  token.isWord "or" || token.isWord "partial" || Form.opensArray token || Form.meansObject token

/-- Says whether a phrase consists of plain words, none of them a keyword, that name a primitive
type. -/
def Primitive.spells (p : Primitive) (phrase : String) : Bool :=
  let words := Text.words phrase.toList
  !words.isEmpty && [' '].intercalate words == phrase.toList &&
    words.all (fun word => word.all Token.isPlain && !(Token.word (String.ofList word)).isKeyword) &&
    Leaf.primitive? phrase == some p

/-- **The vocabulary spells its types**, in the singular and the plural. -/
theorem Primitive.spells_vocabulary : ∀ entry ∈ vocabulary, ∀ ending ∈ ["", "s"],
    entry.2.spells (entry.1 ++ ending) = true := by
  decide +kernel

/-! ### Leaves -/

namespace Token

theorem isKeyword_eq_false {token : Token} (h : token.isKeyword = false) :
    token.isWord "or" = false ∧ token.isWord "partial" = false ∧
      Form.opensArray token = false ∧ Form.meansObject token = false := by
  simpa [isKeyword, and_assoc] using h

theorem opening_words {words : List (List Char)} (hWords : words ≠ [])
    (hKey : ∀ word ∈ words, (Token.word (String.ofList word)).isKeyword = false) :
    Form.Opening (words.map fun word => Token.word (String.ofList word)) := by
  have hAll : ∀ token ∈ words.map (fun word => Token.word (String.ofList word)),
      token.isKeyword = false ∧ token.isRemark = false ∧ token ≠ .question := by
    intro token hMem
    obtain ⟨word, hWord, rfl⟩ := List.mem_map.mp hMem
    exact ⟨hKey word hWord, rfl, by simp⟩
  constructor
  · constructor
    · exact fun token hMem => (hAll token hMem).2.1
    · refine ⟨_, _, (List.dropLast_concat_getLast (by simpa using hWords)).symm, ?_⟩
      exact (hAll _ (List.getLast_mem _)).2.2
  · exact fun token hMem => (isKeyword_eq_false (hAll token hMem).1).1
  · exact fun token hMem => (isKeyword_eq_false (hAll token (List.mem_of_mem_head? hMem)).1).2.2.1
  · exact fun hHead => (hAll _ (List.mem_of_mem_head? hHead)).2.2 rfl
  · exact fun token hMem => (isKeyword_eq_false (hAll token (List.mem_of_mem_head? hMem)).1).2.1

theorem plainText_words (words : List (List Char)) :
    plainText (words.map fun word => .word (String.ofList word)) =
      String.ofList ([' '].intercalate words) := by
  have hTexts : (words.map fun word => Token.word (String.ofList word)).filterMap words? =
      words.map String.ofList := by
    rw [List.filterMap_map, ← List.filterMap_eq_map]
    rfl
  rw [plainText, hTexts, Text.join, List.map_map]
  simp [Function.comp_def]

end Token

variable {index : LinkIndex}

/-- **A phrase that spells a primitive type is read as this type.** -/
theorem Primitive.exists_tokens_of_spells {p : Primitive} {phrase : String}
    (h : p.spells phrase = true) : ∃ tokens, Token.Lexes phrase.toList tokens ∧
      Form.Opening tokens ∧ (Reading.ofTokens index tokens).named = .leaf (.primitive p) := by
  simp only [spells, Bool.and_eq_true, Bool.not_eq_true', beq_iff_eq, List.all_eq_true,
    List.isEmpty_eq_false_iff] at h
  obtain ⟨⟨⟨hWords, hChars⟩, hAll⟩, hPrimitive⟩ := h
  let words := Text.words phrase.toList
  have hPlain : ∀ word ∈ words, word ≠ [] ∧ ∀ c ∈ word, Token.isPlain c = true := by
    intro word hMem
    refine ⟨?_, (hAll word hMem).1⟩
    simpa using List.of_mem_filter hMem
  let tokens := words.map fun word => Token.word (String.ofList word)
  have hOpening : Form.Opening tokens :=
    Token.opening_words hWords fun word hMem => (hAll word hMem).2
  have hForm : Form.ofTokens tokens = .name := by
    rw [hOpening.ofTokens_plain, Form.ofPlain_name hOpening.toClosed]
    intro token hMem
    obtain ⟨word, hWord, rfl⟩ := List.mem_map.mp hMem
    exact (Token.isKeyword_eq_false (hAll word hWord).2).2.2.2
  have hLeaf : (Leaf.ofTokens tokens : Leaf index) = ⟨[], .primitive p⟩ := by
    have hText : Token.plainText tokens = phrase := by
      rw [Token.plainText_words, hChars, String.ofList_toList]
    have hOther : ∀ text target, tokens ≠ [.link text target] := by
      intro text target hTokens
      have hMem : Token.link text target ∈ tokens := hTokens ▸ List.mem_singleton_self _
      obtain ⟨word, -, hWord⟩ := List.mem_map.mp hMem
      cases hWord
    rw [Leaf.ofTokens_of_words hOther, hText, Leaf.ofWords, hPrimitive]
  refine ⟨tokens, ?_, hOpening, ?_⟩
  · have hLexes := Token.lexes_words hWords hPlain
    rwa [hChars] at hLexes
  · rw [Reading.ofTokens_eq, hForm]
    simp only [hLeaf]
    rfl

/-- Links are looked up without regard to the blanks around them. -/
theorem LinkIndex.find?_trim (target : String) :
    index.find? (String.ofList (Text.trim target.toList)) = index.find? target := by
  simp only [find?, Anchor.normalize, String.toList_ofList, Text.trim_trim]

theorem Form.opening_link (text target : String) {rest : List Token}
    (hRest : rest = [] ∨ ∃ word, rest = [.word word] ∧ (Token.word word).isWord "or" = false) :
    Opening (.link text target :: rest) := by
  have hAll : ∀ token ∈ rest, token.isRemark = false ∧ token.isWord "or" = false ∧
      token ≠ .question := by
    rcases hRest with rfl | ⟨word, rfl, hOr⟩
    · simp
    · intro token hMem
      rw [List.mem_singleton.mp hMem]
      exact ⟨rfl, hOr, by simp⟩
  constructor
  · constructor
    · intro token hMem
      rcases List.mem_cons.mp hMem with rfl | hMem
      · rfl
      · exact (hAll token hMem).1
    · rcases hRest with rfl | ⟨word, rfl, -⟩
      · exact ⟨[], _, rfl, by simp⟩
      · exact ⟨[.link text target], _, rfl, by simp⟩
  · intro token hMem
    rcases List.mem_cons.mp hMem with rfl | hMem
    · rfl
    · exact (hAll token hMem).2.1
  · intro token hMem
    cases hMem
    rfl
  · simp
  · intro token hMem
    cases hMem
    rfl

theorem Form.ofTokens_link (text target : String) : ofTokens [.link text target] = name := by
  have hOpening := opening_link text target (Or.inl rfl)
  rw [hOpening.ofTokens_plain, ofPlain_name hOpening.toClosed]
  intro token hMem
  rw [List.mem_singleton.mp hMem]
  rfl

theorem Form.ofTokens_link_object (text target : String) {word : String}
    (hObject : meansObject (.word word) = true) (hOr : (Token.word word).isWord "or" = false) :
    ofTokens [.link text target, .word word] = reduced [.link text target] := by
  have hOpening := opening_link text target (Or.inr ⟨word, rfl, hOr⟩)
  rw [hOpening.ofTokens_plain]
  exact @ofPlain_object [.link text target] _ (List.cons_ne_nil _ _) hObject hOpening.remarks

/-- **A link to a section with a table is read as the structure of this section**, whether or not an
object word comes after it. -/
theorem LinkIndex.exists_tokens_of_link {text target ending : String} {found : Target}
    {choice : Table × Shape} {name : String}
    (hText : Token.balanced '[' ']' 0 text.toList = true)
    (hTarget : Token.balanced '(' ')' 0 target.toList = true)
    (hFound : index.find? target = some found) (hChoice : found.here.linkedTable? = some choice)
    (hName : Name.ofTitle? found.here.title = some name)
    (hEnding : ending ∈ ["", " object", " objects"]) :
    ∃ tokens, Token.Lexes ("[" ++ text ++ "](" ++ target ++ ")" ++ ending).toList tokens ∧
      Form.Opening tokens ∧ (Reading.ofTokens index tokens).named = .leaf (.named name) := by
  let shown := String.ofList (Text.trim text.toList)
  let sought := String.ofList (Text.trim target.toList)
  have hLexes : Token.Lexes ("[" ++ text ++ "](" ++ target ++ ")").toList [.link shown sought] := by
    have h := Token.lexes_link hText hTarget
    simpa using h
  have hOne : (Reading.ofTokens index [.link shown sought]).named = .leaf (.named name) := by
    have hResource : found.resource =
        .ok ⟨name, choice.2, choice.1, found.path, found.anchor⟩ := by
      simp only [Target.resource, hChoice, Target.named, hName]
    have hTrimmed : index.find? sought = some found := by
      rw [find?_trim, hFound]
    have hBound := (link_of_found hTrimmed).trans (bind_of_ok _ hResource)
    rw [Reading.ofTokens_eq, Form.ofTokens_link]
    simp only [Leaf.ofTokens, hBound]
    rfl
  have hObject (word : String) (hWord : word.toList ≠ [])
      (hPlain : word.toList.all Token.isPlain = true)
      (hMeans : Form.meansObject (.word word) = true)
      (hOr : (Token.word word).isWord "or" = false) :
      ∃ tokens, Token.Lexes ("[" ++ text ++ "](" ++ target ++ ")" ++ (" " ++ word)).toList tokens ∧
        Form.Opening tokens ∧ (Reading.ofTokens index tokens).named = .leaf (.named name) := by
    refine ⟨[.link shown sought, .word word], ?_, ?_, ?_⟩
    · have h := hLexes.space (Token.lexes_word hWord (List.all_eq_true.mp hPlain))
      simpa using h
    · exact Form.opening_link shown sought (Or.inr ⟨word, rfl, hOr⟩)
    · rw [Reading.ofTokens_eq, Form.ofTokens_link_object shown sought hMeans hOr]
      exact hOne
  simp only [List.mem_cons, List.not_mem_nil, or_false] at hEnding
  rcases hEnding with rfl | rfl | rfl
  · refine ⟨[.link shown sought], ?_, Form.opening_link shown sought (Or.inl rfl), hOne⟩
    rwa [String.append_empty]
  · exact hObject "object" (by decide +kernel) (by decide +kernel) (by decide +kernel)
      (by decide +kernel)
  · exact hObject "objects" (by decide +kernel) (by decide +kernel) (by decide +kernel)
      (by decide +kernel)

/-! ### Whole phrases -/

theorem Token.Lexes.after {cs : List Char} {tokens : List Token} (h : Lexes cs tokens)
    (word : String) (hWord : word.toList ≠ []) (hPlain : word.toList.all isPlain = true) :
    Lexes (word.toList ++ ' ' :: cs) (.word word :: tokens) := by
  have hAll := (lexes_word hWord (List.all_eq_true.mp hPlain)).space h
  rwa [String.ofList_toList, List.singleton_append] at hAll

theorem Token.Lexes.array {phrase : String} {tokens : List Token} (h : Lexes phrase.toList tokens)
    {opening : String} (hOpening : opening ∈ ["array of ", "list of "]) :
    ∃ word, Form.opensArray (.word word) = true ∧
      Lexes (opening ++ phrase).toList (.word word :: .word "of" :: tokens) := by
  have hOf : Lexes ("of".toList ++ ' ' :: phrase.toList) (.word "of" :: tokens) :=
    h.after "of" (by decide +kernel) (by decide +kernel)
  simp only [List.mem_cons, List.not_mem_nil, or_false] at hOpening
  rcases hOpening with rfl | rfl
  · refine ⟨"array", by decide +kernel, ?_⟩
    have hArray := hOf.after "array" (by decide +kernel) (by decide +kernel)
    simpa using hArray
  · refine ⟨"list", by decide +kernel, ?_⟩
    have hList := hOf.after "list" (by decide +kernel) (by decide +kernel)
    simpa using hList

/-- **Reading inverts writing**: a phrase is cut into tokens that are read as the type it writes. -/
theorem Written.exists_tokens {t : TypeTree (Atom String)} {phrase : String}
    (h : Written index t phrase) : ∃ tokens, Token.Lexes phrase.toList tokens ∧
      Form.Closed tokens ∧ (∀ atom, t = .leaf atom → Form.Opening tokens) ∧
      (Reading.ofTokens index tokens).named = t := by
  induction h with
  | primitive hVocabulary hEnding =>
    obtain ⟨tokens, hLexes, hOpening, hNamed⟩ := Primitive.exists_tokens_of_spells
      (Primitive.spells_vocabulary _ hVocabulary _ hEnding)
    exact ⟨tokens, hLexes, hOpening.toClosed, fun _ _ => hOpening, hNamed⟩
  | link hText hTarget hFound hChoice hName hEnding =>
    obtain ⟨tokens, hLexes, hOpening, hNamed⟩ :=
      index.exists_tokens_of_link hText hTarget hFound hChoice hName hEnding
    exact ⟨tokens, hLexes, hOpening.toClosed, fun _ _ => hOpening, hNamed⟩
  | array hOpening _ ih =>
    obtain ⟨tokens, hLexes, hClosed, -, hNamed⟩ := ih
    obtain ⟨word, hArray, hAll⟩ := hLexes.array hOpening
    refine ⟨.word word :: .word "of" :: tokens, hAll, ?_, ?_, ?_⟩
    · exact hClosed.append [.word word, .word "of"] (by simp [Token.isRemark])
    · simp
    · rw [Reading.ofTokens_eq, Form.ofTokens_array hArray (by decide +kernel)]
      exact congrArg TypeTree.array hNamed
  | nullable _ ih =>
    obtain ⟨tokens, hLexes, hClosed, -, hNamed⟩ := ih
    refine ⟨.question :: tokens, ?_, ?_, ?_, ?_⟩
    · simpa using hLexes.question
    · exact hClosed.append [.question] (by simp [Token.isRemark])
    · simp
    · rw [Reading.ofTokens_eq, Form.ofTokens_nullable hClosed]
      exact congrArg TypeTree.nullable hNamed
  | partialOf _ ih =>
    obtain ⟨tokens, hLexes, hClosed, -, hNamed⟩ := ih
    refine ⟨.word "partial" :: tokens, ?_, ?_, ?_, ?_⟩
    · have hAll := hLexes.after "partial" (by decide +kernel) (by decide +kernel)
      simpa using hAll
    · exact hClosed.append [.word "partial"] (by simp [Token.isRemark])
    · simp
    · rw [Reading.ofTokens_eq, Form.ofTokens_partialOf hClosed]
      exact congrArg TypeTree.partialOf hNamed
  | either _ _ ihLeft ihRight =>
    obtain ⟨first, hFirst, hClosed, hOpening, hLeft⟩ := ihLeft
    obtain ⟨second, hSecond, hEnd, -, hRight⟩ := ihRight
    have hOr := hSecond.after "or" (by decide +kernel) (by decide +kernel)
    refine ⟨first ++ .word "or" :: second, ?_, ?_, ?_, ?_⟩
    · simpa using hFirst.space hOr
    · exact hClosed.either hEnd
    · simp
    · rw [Reading.ofTokens_eq, (hOpening _ rfl).ofTokens_either hEnd, ← hLeft, ← hRight]
      rfl

theorem Written.named_ofPhrase {t : TypeTree (Atom String)} {phrase : String}
    (h : Written index t phrase) : (Reading.ofPhrase index phrase).named = t := by
  obtain ⟨tokens, hLexes, -, -, hNamed⟩ := h.exists_tokens
  have hTokens : Token.ofPhrase phrase = tokens := hLexes.ofChars_eq
  rw [Reading.ofPhrase, hTokens, hNamed]

/-- **Resolving a phrase gives the type that it writes**, whatever has been asked of the corpus
before, and every structure in the type is registered then, under its name.  The recursion over the
tokens, in which the left alternative is resolved before the right one, gives the same. -/
theorem Corpus.resolvePhrase_written (corpus : Corpus) (scope : Scope) (operations : List Operation)
    {t : TypeTree (Atom String)} {phrase : String} (h : Written corpus.index t phrase) :
    let before := corpus.perform scope operations
    let resolved := before.resolvePhrase corpus.index phrase
    resolved.1.named = t ∧
    (∀ ref, resolved.1.Mentions ref → resolved.2.registry.Binds ref) ∧
    ∀ s made after, Resolves corpus.index before.registry (Token.ofPhrase phrase) s made after →
      s = resolved.1 ∧ after = resolved.2.registry := by
  intro before resolved
  have hSound : before.Sound := corpus.sound_perform scope operations
  refine ⟨?_, ?_, ?_⟩
  · exact (hSound.named_resolvePhrase phrase).trans h.named_ofPhrase
  · have hBinds := Progress.bindsAll_resolveAny corpus.index hSound.registry (some phrase)
    exact hBinds resolved.1 rfl
  · intro s made after hResolves
    obtain ⟨hAfter, hSymbol⟩ := hResolves.sound hSound.registry.indexed
    have hSame : after = resolved.2.registry := by
      rw [hAfter]
      exact (Progress.registry_resolve before _).symm
    refine ⟨?_, hSame⟩
    rw [hSymbol, hSame]
    rfl

def LinkIndex.nameAt? (index : LinkIndex) (target : String) : Option String :=
  (index.find? target).bind fun found =>
    found.here.linkedTable?.bind fun _ => Name.ofTitle? found.here.title

theorem Written.of_nameAt? {text target name : String} (h : index.nameAt? target = some name)
    (hText : Token.balanced '[' ']' 0 text.toList = true)
    (hTarget : Token.balanced '(' ')' 0 target.toList = true) {ending : String}
    (hEnding : ending ∈ ["", " object", " objects"]) :
    Written index (.leaf (.named name)) ("[" ++ text ++ "](" ++ target ++ ")" ++ ending) := by
  obtain ⟨found, hFound, h⟩ := Option.bind_eq_some_iff.mp h
  obtain ⟨choice, hChoice, hName⟩ := Option.bind_eq_some_iff.mp h
  exact link hText hTarget hFound hChoice hName hEnding

def Corpus.guild : Corpus :=
  ⟨[.ofText "a.md" "# Guild\n\n| Field | Type |\n|---|---|\n| id | snowflake |\n"], 1⟩

/-- A list of alternatives, resolved after the corpus has been compiled. -/
theorem Corpus.resolvePhrase_written_guild :
    Written guild.index
      (.array (.either (.leaf (.named "Guild"))
        (.nullable (.either (.leaf (.primitive .string)) (.leaf (.primitive .null))))))
      "array of [guild](#A/guild) objects or ?strings or null" ∧
    ((guild.perform .everything [.compile]).resolvePhrase guild.index
      "array of [guild](#A/guild) objects or ?strings or null").1.named =
      .array (.either (.leaf (.named "Guild"))
        (.nullable (.either (.leaf (.primitive .string)) (.leaf (.primitive .null))))) := by
  have hLink : Written guild.index (.leaf (.named "Guild")) "[guild](#A/guild) objects" :=
    @Written.of_nameAt? guild.index "guild" "#A/guild" "Guild" (by decide +kernel)
      (by decide +kernel) (by decide +kernel) " objects" (by decide)
  have hString : Written guild.index (.leaf (.primitive .string)) "strings" :=
    @Written.primitive guild.index "string" .string "s" (by decide +kernel) (by decide)
  have hNull : Written guild.index (.leaf (.primitive .null)) "null" :=
    @Written.primitive guild.index "null" .null "" (by decide +kernel) (by decide)
  have h : Written guild.index
      (.array (.either (.leaf (.named "Guild"))
        (.nullable (.either (.leaf (.primitive .string)) (.leaf (.primitive .null))))))
      "array of [guild](#A/guild) objects or ?strings or null" :=
    @Written.array guild.index "array of " _ _ (by decide)
      (hLink.either (hString.either hNull).nullable)
  exact ⟨h, (guild.resolvePhrase_written .everything [.compile] h).1⟩

end ProseTypes
