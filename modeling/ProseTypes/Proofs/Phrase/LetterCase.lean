import ProseTypes.Proofs.Compilation.Alike
import ProseTypes.Proofs.Phrase.Grammar
import ProseTypes.Proofs.Text.LetterCase

/-!
# Phrases up to the case of ASCII letters

Every step from a phrase to its type either compares text without regard to case or goes by characters
that are no letters.  Tokens are cut at the same places (`Token.ofChars_foldCase`), the same forms are
seen in them (`Form.ofTokens_map_foldCase`), link targets are normalized to the same anchor
(`Anchor.normalize_folded`), and words name the same primitive type (`Leaf.primitive?_folded`), also
where a link that binds to nothing is read as its text.  So phrases that differ only in the case of
ASCII letters have alike readings, and resolving them comes to the same
(`Corpus.resolvePhrase_sameLetters`).
-/

namespace ProseTypes

/-- The same text with its ASCII capitals made small. -/
def Text.folded (s : String) : String :=
  String.ofList (foldCase s.toList)

/-! ### Anchors and primitive types -/

/-- **Link targets are compared without regard to case.** -/
theorem Anchor.normalize_folded (target : String) :
    normalize (Text.folded target) = normalize target := by
  have hTrim : ((Text.trim (Text.folded target).toList).dropWhile (· == '#')) =
      Text.foldCase ((Text.trim target.toList).dropWhile (· == '#')) := by
    rw [Text.folded, String.toList_ofList, Text.trim_foldCase,
      Text.dropWhile_foldCase (Text.caseless_beq (by decide))]
  simp only [normalize, hTrim, Text.cutFirst?_foldCase (Text.caseless_beq (d := '/') (by decide))]
  cases Text.cutFirst? (· == '/') ((Text.trim target.toList).dropWhile (· == '#')) with
  | none => simp only [Option.map_none, Text.upper_foldCase]
  | some cut => simp only [Option.map_some, Text.upper_foldCase, Text.lower_foldCase]

theorem Primitive.normalize_folded (phrase : String) :
    normalize (Text.folded phrase) = normalize phrase := by
  have hSpace : Text.foldCase [' '] = [' '] := by decide
  rw [normalize, Text.folded, String.toList_ofList, Text.words_foldCase]
  conv_lhs => rw [← hSpace, ← Text.foldCase_intercalate, Text.lower_foldCase]
  rw [normalize]

theorem Primitive.ofPhrase?_folded (phrase : String) :
    ofPhrase? (Text.folded phrase) = ofPhrase? phrase := by
  simp only [ofPhrase?, normalize_folded]

/-- **Words name the same primitive type**, as a whole or by their last word. -/
theorem Leaf.primitive?_folded (words : String) :
    primitive? (Text.folded words) = primitive? words := by
  have hHead : headNoun? (Text.folded words) = (headNoun? words).map Text.folded := by
    rw [headNoun?, Text.folded, String.toList_ofList,
      Text.cutLast?_foldCase (Text.caseless_beq (by decide)), headNoun?, Option.map_map, Option.map_map]
    refine congrArg (Option.map · _) (funext fun cut => ?_)
    simp [Text.folded]
  rw [primitive?, Primitive.ofPhrase?_folded, hHead, primitive?]
  cases headNoun? words with
  | none => rfl
  | some word => simp only [Option.map_some, Option.bind_some, Primitive.ofPhrase?_folded]

theorem Text.folded_eq_of_sameLetters {a b : String} (h : sameLetters a b = true) :
    folded a = folded b := by
  rw [folded, folded]
  exact congrArg String.ofList (by simpa [sameLetters] using h)

theorem Leaf.primitive?_sameLetters {a b : String} (h : Text.sameLetters a b = true) :
    primitive? a = primitive? b := by
  rw [← primitive?_folded a, Text.folded_eq_of_sameLetters h, primitive?_folded]

/-! ### Tokens -/

namespace Token

/-- The same token with the ASCII capitals in its texts made small. -/
def foldCase : Token → Token
  | word w => word (Text.folded w)
  | link text target => link (Text.folded text) (Text.folded target)
  | remark text => remark (Text.folded text)
  | question => question

@[simp] theorem isWord_foldCase (expected : String) (token : Token) :
    token.foldCase.isWord expected = token.isWord expected := by
  have hTwice (cs : List Char) : Text.foldCase (Text.foldCase cs) = Text.foldCase cs := by
    simp [Text.foldCase]
  cases token <;> simp [foldCase, isWord, Text.sameLetters, Text.folded, hTwice]

@[simp] theorem isRemark_foldCase (token : Token) : token.foldCase.isRemark = token.isRemark := by
  cases token <;> rfl

@[simp] theorem foldCase_eq_question {token : Token} : token.foldCase = question ↔ token = question := by
  cases token <;> simp [foldCase]

theorem plainText_map_foldCase (tokens : List Token) :
    plainText (tokens.map foldCase) = Text.folded (plainText tokens) := by
  have hWords (token : Token) : token.foldCase.words? = token.words?.map Text.folded := by
    cases token <;> rfl
  have hSpace : Text.foldCase " ".toList = " ".toList := by decide
  rw [plainText, plainText, List.filterMap_map]
  simp only [Function.comp_def, hWords, Text.join, Text.folded, String.toList_ofList]
  rw [Text.foldCase_intercalate, hSpace, ← List.map_filterMap, List.map_map, List.map_map]
  simp [Function.comp_def, Text.folded]

theorem enclosed?_foldCase {opening closing : Char} (hOpening : opening.isAlpha = false)
    (hClosing : closing.isAlpha = false) (depth : Nat) (cs : List Char) :
    enclosed? opening closing depth (Text.foldCase cs) =
      (enclosed? opening closing depth cs).map fun r => (Text.foldCase r.1, Text.foldCase r.2) := by
  induction cs generalizing depth with
  | nil => rfl
  | cons c cs ih =>
    have hPush (d : Nat) : (enclosed? opening closing d (Text.foldCase cs)).map
        (fun r => (c.toLower :: r.1, r.2)) =
          ((enclosed? opening closing d cs).map fun r => (c :: r.1, r.2)).map
            fun r => (Text.foldCase r.1, Text.foldCase r.2) := by
      rw [ih, Option.map_map, Option.map_map]
      rfl
    rw [Text.foldCase_cons]
    unfold enclosed?
    simp only [Text.toLower_eq_iff hOpening, Text.toLower_eq_iff hClosing, hPush]
    split
    · rfl
    split
    · cases depth <;> rfl
    · rfl

theorem enclosed_foldCase {opening closing : Char} (hOpening : opening.isAlpha = false)
    (hClosing : closing.isAlpha = false) (cs : List Char) :
    enclosed opening closing (Text.foldCase cs) =
      (Text.foldCase (enclosed opening closing cs).1,
        Text.foldCase (enclosed opening closing cs).2) := by
  rw [enclosed, enclosed?_foldCase hOpening hClosing, enclosed]
  cases enclosed? opening closing 0 cs <;> rfl

theorem link?_foldCase (cs : List Char) :
    link? (Text.foldCase cs) = (link? cs).map fun r => (r.1.foldCase, Text.foldCase r.2) := by
  unfold link?
  rw [enclosed?_foldCase (by decide) (by decide)]
  cases enclosed? '[' ']' 0 cs with
  | none => rfl
  | some found =>
    obtain ⟨text, after⟩ := found
    cases after with
    | nil => rfl
    | cons c after =>
      rw [Option.map_some, Text.foldCase_cons]
      by_cases hc : c = '('
      · subst hc
        show (enclosed? '(' ')' 0 (Text.foldCase after)).map _ =
          ((enclosed? '(' ')' 0 after).map _).map _
        rw [enclosed?_foldCase (by decide) (by decide), Option.map_map, Option.map_map]
        refine congrArg (Option.map · _) (funext fun r => ?_)
        simp [foldCase, Text.folded, Text.trim_foldCase]
      · have hLower : c.toLower ≠ '(' := fun h => hc ((Text.toLower_eq_iff (by decide)).mp h)
        simp [hc, hLower]

theorem word?_foldCase (cs : List Char) : word? (Text.foldCase cs) = (word? cs).map foldCase := by
  have hMark : Text.Caseless fun c => !Markup.isMark c :=
    (((Text.caseless_beq (by decide)).or (Text.caseless_beq (by decide))).or
      (Text.caseless_beq (by decide))).not
  have hPunctuation : Text.Caseless isPunctuation :=
    (((((Text.caseless_beq (by decide)).or (Text.caseless_beq (by decide))).or
      (Text.caseless_beq (by decide))).or (Text.caseless_beq (by decide))).or
      (Text.caseless_beq (by decide))).or (Text.caseless_beq (by decide))
  have hEmpty (kept : List Char) : (Text.foldCase kept).isEmpty = kept.isEmpty := by
    cases kept <;> rfl
  unfold word?
  rw [Text.filter_foldCase hMark, Text.dropWhile_foldCase hPunctuation,
    Text.dropEndWhile_foldCase hPunctuation]
  simp only [hEmpty]
  split
  · rfl
  · simp [foldCase, Text.folded]

/-- **Tokens are cut at the same places.** -/
theorem ofChars_foldCase (cs : List Char) :
    ofChars (Text.foldCase cs) = (ofChars cs).map foldCase := by
  have hInside : Text.Caseless fun d => !endsWord d :=
    (((Text.caseless_isBlank.or (Text.caseless_beq (by decide))).or
      (Text.caseless_beq (by decide))).or (Text.caseless_beq (by decide))).not
  have hNeither {c d : Char} (hd : d.isAlpha = false) (hc : ¬c = d) : ¬c.toLower = d :=
    fun h => hc ((Text.toLower_eq_iff hd).mp h)
  fun_induction ofChars cs with
  | case1 => rw [Text.foldCase_nil, ofChars_nil, List.map_nil]
  | case2 c cs hBlank ih =>
    rw [Text.foldCase_cons, ofChars_blank (by rw [Text.caseless_isBlank c, hBlank]), ih]
  | case3 cs hBlank ih =>
    rw [Text.foldCase_cons, show '?'.toLower = '?' from rfl, ofChars_question, ih]
    rfl
  | case4 cs hBlank _ ih =>
    rw [Text.foldCase_cons, show '('.toLower = '(' from rfl, ofChars_remark,
      enclosed_foldCase (by decide) (by decide), ih, Text.trim_foldCase]
    simp [foldCase, Text.folded]
  | case5 cs token rest hFound _ _ _ ih =>
    have hFolded : link? (Text.foldCase cs) = some (token.foldCase, Text.foldCase rest) := by
      rw [link?_foldCase, hFound, Option.map_some]
    rw [Text.foldCase_cons, show '['.toLower = '[' from rfl, ofChars_of_link? hFolded, ih,
      List.map_cons]
  | case6 cs hNone _ _ _ ihInside ihAfter =>
    have hFolded : link? (Text.foldCase cs) = none := by
      rw [link?_foldCase, hNone, Option.map_none]
    rw [Text.foldCase_cons, show '['.toLower = '[' from rfl, ofChars_of_link?_none hFolded,
      enclosed_foldCase (by decide) (by decide), ihInside, ihAfter, List.map_append]
  | case7 c cs hBlank hQuestion hRound hSquare ih =>
    have hWord : word? (c.toLower :: (Text.foldCase cs).takeWhile fun d => !endsWord d) =
        (word? (c :: cs.takeWhile fun d => !endsWord d)).map foldCase := by
      rw [Text.takeWhile_foldCase hInside, ← Text.foldCase_cons, word?_foldCase]
    have hFolded : Text.isBlank c.toLower = false := by
      rwa [Text.caseless_isBlank c, ← Bool.not_eq_true]
    rw [Text.foldCase_cons, ofChars_of_other hFolded (hNeither (by decide) hQuestion)
      (hNeither (by decide) hRound) (hNeither (by decide) hSquare), hWord,
      Text.dropWhile_foldCase hInside, ih, List.map_append]
    cases word? (c :: cs.takeWhile fun d => !endsWord d) <;> rfl

end Token

/-! ### Forms -/

namespace Form

theorem last?_map_foldCase (tokens : List Token) :
    last? (tokens.map Token.foldCase) = (last? tokens).map fun r =>
      (r.1.map Token.foldCase, r.2.1.foldCase, r.2.2.map Token.foldCase) := by
  have hRemark : Token.isRemark ∘ Token.foldCase = Token.isRemark := funext Token.isRemark_foldCase
  unfold last?
  rw [← List.map_reverse, List.dropWhile_map, List.takeWhile_map, hRemark]
  cases tokens.reverse.dropWhile Token.isRemark with
  | nil => rfl
  | cons token before => simp

theorem alternatives?_map_foldCase (tokens : List Token) :
    alternatives? (tokens.map Token.foldCase) = (alternatives? tokens).map fun r =>
      (r.1.map Token.foldCase, r.2.map Token.foldCase) := by
  have hOr : (fun t : Token => !t.isWord "or") ∘ Token.foldCase = fun t => !t.isWord "or" :=
    funext fun token => by simp
  unfold alternatives?
  rw [List.takeWhile_map, List.dropWhile_map, hOr]
  cases tokens.takeWhile (fun t => !t.isWord "or") with
  | nil => rfl
  | cons first left =>
    cases tokens.dropWhile (fun t => !t.isWord "or") with
    | nil => rfl
    | cons or right => cases right <;> rfl

theorem meansObject_foldCase (token : Token) : meansObject token.foldCase = meansObject token := by
  rw [meansObject, Token.isWord_foldCase, Token.isWord_foldCase, meansObject]

theorem ofPlain_map_foldCase (tokens : List Token) :
    ofPlain (tokens.map Token.foldCase) = (ofPlain tokens).map Token.foldCase := by
  have hAny : (tokens.map Token.foldCase).any Token.isRemark = tokens.any Token.isRemark := by
    simp [List.any_map, Function.comp_def]
  have hFilter : (tokens.map Token.foldCase).filter (fun t => !t.isRemark) =
      (tokens.filter fun t => !t.isRemark).map Token.foldCase := by
    simp [List.filter_map, Function.comp_def]
  unfold ofPlain
  rw [last?_map_foldCase, hAny, hFilter]
  have hRest : (if tokens.any Token.isRemark
      then reduced ((tokens.filter fun t => !t.isRemark).map Token.foldCase) else name) =
      (if tokens.any Token.isRemark then reduced (tokens.filter fun t => !t.isRemark)
        else name).map Token.foldCase := by
    split <;> rfl
  cases last? tokens with
  | none => exact hRest
  | some found =>
    obtain ⟨before, token, after⟩ := found
    cases before with
    | nil => exact hRest
    | cons first before =>
      simp only [Option.map_some, List.map_cons, meansObject_foldCase]
      split
      · simp [map]
      · exact hRest

theorem ofOptional_map_foldCase (first : Token) (rest : List Token) :
    ofOptional first.foldCase (rest.map Token.foldCase) = (ofOptional first rest).map Token.foldCase := by
  by_cases hQuestion : ∃ before after, last? (first :: rest) = some (before, .question, after)
  · obtain ⟨before, after, hLast⟩ := hQuestion
    have hFolded : last? (first.foldCase :: rest.map Token.foldCase) =
        some (before.map Token.foldCase, .question, after.map Token.foldCase) := by
      rw [← List.map_cons, last?_map_foldCase, hLast]
      rfl
    rw [ofOptional, hFolded, ofOptional, hLast]
    rfl
  · have hOther : ∀ before after, last? (first :: rest) ≠ some (before, .question, after) :=
      fun before after hLast => hQuestion ⟨before, after, hLast⟩
    have hFolded : ∀ before after, last? (first.foldCase :: rest.map Token.foldCase) ≠
        some (before, .question, after) := by
      intro before after hLast
      rw [← List.map_cons, last?_map_foldCase] at hLast
      obtain ⟨⟨others, token, remarks⟩, hFound, hSame⟩ := Option.map_eq_some_iff.mp hLast
      have hToken : token = .question :=
        Token.foldCase_eq_question.mp (Prod.mk.inj (Prod.mk.inj hSame).2).1
      rw [hToken] at hFound
      exact hOther others remarks hFound
    have hEmpty : (rest.map Token.foldCase).isEmpty = rest.isEmpty := by
      cases rest <;> rfl
    rw [ofOptional_of_last hFolded, ofOptional_of_last hOther, ← List.map_cons,
      alternatives?_map_foldCase, ofPlain_map_foldCase, hEmpty]
    simp only [Token.foldCase_eq_question, Token.isWord_foldCase]
    split
    · rfl
    split
    · rfl
    · cases alternatives? (first :: rest) <;> rfl

/-- **The same forms are seen.** -/
theorem ofTokens_map_foldCase (tokens : List Token) :
    ofTokens (tokens.map Token.foldCase) = (ofTokens tokens).map Token.foldCase := by
  cases tokens with
  | nil => rfl
  | cons first rest =>
    have hArray : opensArray first.foldCase = opensArray first := by
      rw [opensArray, Token.isWord_foldCase, Token.isWord_foldCase, opensArray]
    have hOf : (rest.map Token.foldCase).head?.any (Token.isWord "of") =
        rest.head?.any (Token.isWord "of") := by
      cases rest <;> simp
    have hAll : (rest.map Token.foldCase).all Token.isRemark = rest.all Token.isRemark := by
      simp [List.all_map, Function.comp_def]
    rw [List.map_cons, ofTokens, ofTokens, hArray, hOf, hAll, ofOptional_map_foldCase]
    split
    · simp [map]
    split
    · rfl
    · rfl

end Form

/-! ### Readings -/

/-- **What names a type is not told apart by case**: a link binds to the same resource, and words name
the same primitive type. -/
theorem Leaf.atom_ofTokens_map_foldCase {index : LinkIndex} (tokens : List Token) :
    (Leaf.ofTokens (tokens.map Token.foldCase) : Leaf index).atom.map Subtype.val =
      (Leaf.ofTokens tokens : Leaf index).atom.map Subtype.val := by
  have hWords (words : String) : atomOfWords (Text.folded words) = atomOfWords words := by
    rw [atomOfWords, primitive?_folded, atomOfWords]
  by_cases hLink : ∃ text target, tokens = [.link text target]
  · obtain ⟨text, target, rfl⟩ := hLink
    have hBound : index.bound? (Text.folded target) = index.bound? target := by
      rw [LinkIndex.bound?, LinkIndex.find?, Anchor.normalize_folded, LinkIndex.bound?,
        LinkIndex.find?]
    rw [List.map_singleton, Token.foldCase, atom_link, atom_link, hBound, hWords]
  · have hOther : ∀ text target, tokens ≠ [.link text target] :=
      fun text target hEq => hLink ⟨text, target, hEq⟩
    have hFolded : ∀ text target, tokens.map Token.foldCase ≠ [.link text target] := by
      intro text target hEq
      obtain ⟨token, rfl, hToken⟩ := List.map_eq_singleton_iff.mp hEq
      cases token with
      | link text target => exact hOther text target rfl
      | word w => cases hToken
      | remark text => cases hToken
      | question => cases hToken
    rw [ofTokens_of_words hFolded, ofTokens_of_words hOther, atom_ofWords, atom_ofWords,
      Token.plainText_map_foldCase, hWords]

/-- **Phrases with the same letters have alike readings.** -/
theorem LinkIndex.readsAlike_of_sameLetters {index : LinkIndex} {p q : String}
    (h : Text.sameLetters p q = true) :
    index.ReadsAlike (Token.ofPhrase p) (Token.ofPhrase q) := by
  have hFolded (phrase : String) :
      index.ReadsAlike (Token.ofChars (Text.foldCase phrase.toList)) (Token.ofPhrase phrase) := by
    rw [Token.ofChars_foldCase]
    exact Reading.bare_ofTokens_map Form.ofTokens_map_foldCase Leaf.atom_ofTokens_map_foldCase _
  have hSame : Text.foldCase p.toList = Text.foldCase q.toList := by
    simpa [Text.sameLetters] using h
  have hFirst := hFolded p
  rw [hSame] at hFirst
  exact hFirst.symm.trans (hFolded q)

/-- **The case of ASCII letters in a phrase makes no difference**, in words, in the texts and targets of
links and in remarks: whatever has been asked of the corpus, the symbol is the same, and so are the
structures, the modules with their imports, and the requests. -/
theorem Corpus.resolvePhrase_sameLetters (corpus : Corpus) (scope : Scope)
    (operations : List Operation) {p q : String} (h : Text.sameLetters p q = true) :
    let before := corpus.perform scope operations
    (before.resolvePhrase corpus.index p).1 = (before.resolvePhrase corpus.index q).1 ∧
      (before.resolvePhrase corpus.index q).2.Unchanged (before.resolvePhrase corpus.index p).2 :=
  (corpus.index.readsAlike_of_sameLetters h).resolveTokens (corpus.perform scope operations)

/-- Words, a link text and a link target in either case, while nothing is compiled yet. -/
theorem Corpus.resolvePhrase_sameLetters_guild :
    let before := guild.perform .everything []
    let small := before.resolvePhrase guild.index "array of [guild](#a/guild) objects (or so)"
    let capital := before.resolvePhrase guild.index "ARRAY OF [GUILD](#A/GUILD) Objects (OR SO)"
    Text.sameLetters "ARRAY OF [GUILD](#A/GUILD) Objects (OR SO)"
      "array of [guild](#a/guild) objects (or so)" = true ∧
    small.1.named = .array (.leaf (.named "Guild")) ∧
    capital.1 = small.1 ∧ small.2.Unchanged capital.2 := by
  have hRead : (Reading.ofPhrase guild.index "array of [guild](#a/guild) objects (or so)").named =
      .array (.leaf (.named "Guild")) := by
    decide +kernel
  have hSound : (guild.perform .everything []).Sound := guild.sound_perform .everything []
  have h : Text.sameLetters "ARRAY OF [GUILD](#A/GUILD) Objects (OR SO)"
      "array of [guild](#a/guild) objects (or so)" = true := by
    decide +kernel
  exact ⟨h, (hSound.named_resolvePhrase _).trans hRead,
    guild.resolvePhrase_sameLetters .everything [] h⟩

end ProseTypes
