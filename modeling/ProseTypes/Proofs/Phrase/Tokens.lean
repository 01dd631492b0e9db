import ProseTypes.Phrase.Token
import ProseTypes.Proofs.Text.Cutting

/-!
# What a stretch of a phrase is cut into

`Token.Lexes cs tokens` says that characters are cut into tokens whatever comes after them, if what
comes after them ends a word.  Words, question marks, and links and remarks with balanced brackets do so,
and pieces that do can be put together with blanks between them.
-/

namespace ProseTypes.Token

/-! ### Single characters -/

theorem ofChars_nil : ofChars [] = [] := by
  rw [ofChars]

/-- The equation of a phrase that is not empty, without the fact about its link that the recursion
needs. -/
theorem ofChars_cons (c : Char) (cs : List Char) :
    ofChars (c :: cs) =
      if Text.isBlank c then ofChars cs
      else if c = '?' then .question :: ofChars cs
      else if c = '(' then
        .remark (String.ofList (Text.trim (enclosed '(' ')' cs).1)) ::
          ofChars (enclosed '(' ')' cs).2
      else if c = '[' then
        match link? cs with
        | some (token, rest) => token :: ofChars rest
        | none => ofChars (enclosed '[' ']' cs).1 ++ ofChars (enclosed '[' ']' cs).2
      else
        (word? (c :: cs.takeWhile fun d => !endsWord d)).toList ++
          ofChars (cs.dropWhile fun d => !endsWord d) := by
  rw [ofChars]
  split_ifs <;> try rfl
  split <;> simp_all only

theorem ofChars_blank {c : Char} (h : Text.isBlank c = true) (cs : List Char) :
    ofChars (c :: cs) = ofChars cs := by
  rw [ofChars_cons, if_pos h]

theorem ofChars_blanks {gap : List Char} (h : ∀ c ∈ gap, Text.isBlank c = true) (cs : List Char) :
    ofChars (gap ++ cs) = ofChars cs := by
  induction gap with
  | nil => rfl
  | cons c gap ih =>
    rw [List.cons_append, ofChars_blank (h c List.mem_cons_self),
      ih fun d hd => h d (List.mem_cons_of_mem c hd)]

theorem ofChars_question (cs : List Char) : ofChars ('?' :: cs) = .question :: ofChars cs := by
  rw [ofChars_cons, if_neg (by decide), if_pos rfl]

theorem ofChars_remark (cs : List Char) :
    ofChars ('(' :: cs) = .remark (String.ofList (Text.trim (enclosed '(' ')' cs).1)) ::
      ofChars (enclosed '(' ')' cs).2 := by
  rw [ofChars_cons, if_neg (by decide), if_neg (by decide), if_pos rfl]

theorem ofChars_of_link? {cs rest : List Char} {token : Token} (h : link? cs = some (token, rest)) :
    ofChars ('[' :: cs) = token :: ofChars rest := by
  rw [ofChars_cons, if_neg (by decide), if_neg (by decide), if_neg (by decide), if_pos rfl, h]

theorem ofChars_of_link?_none {cs : List Char} (h : link? cs = none) :
    ofChars ('[' :: cs) = ofChars (enclosed '[' ']' cs).1 ++ ofChars (enclosed '[' ']' cs).2 := by
  rw [ofChars_cons, if_neg (by decide), if_neg (by decide), if_neg (by decide), if_pos rfl, h]

theorem ofChars_of_other {c : Char} (hBlank : Text.isBlank c = false) (hQuestion : c ≠ '?')
    (hRound : c ≠ '(') (hSquare : c ≠ '[') (cs : List Char) :
    ofChars (c :: cs) = (word? (c :: cs.takeWhile fun d => !endsWord d)).toList ++
      ofChars (cs.dropWhile fun d => !endsWord d) := by
  rw [ofChars_cons, if_neg (by rw [hBlank]; exact Bool.false_ne_true), if_neg hQuestion,
    if_neg hRound, if_neg hSquare]

/-! ### Words -/

def isPlain (c : Char) : Bool :=
  !endsWord c && !Markup.isMark c && !isPunctuation c

/-- A word that is read as it is written: no character ends it before its end or is a mark, and there is no
punctuation at its ends. -/
structure IsWord (word : List Char) : Prop where
  some : word ≠ []
  inside : ∀ c ∈ word, endsWord c = false ∧ Markup.isMark c = false
  first : ∀ c ∈ word.head?, isPunctuation c = false
  last : ∀ c ∈ word.getLast?, isPunctuation c = false

instance (word : List Char) : Decidable (IsWord word) :=
  decidable_of_iff (word ≠ [] ∧ word.all (fun c => !endsWord c && !Markup.isMark c) = true ∧
      word.head?.all (!isPunctuation ·) = true ∧ word.getLast?.all (!isPunctuation ·) = true)
    ⟨fun ⟨hSome, hInside, hFirst, hLast⟩ => ⟨hSome, by simpa using hInside,
        by simpa [Option.all_eq_true] using hFirst, by simpa [Option.all_eq_true] using hLast⟩,
      fun h => ⟨h.some, by simpa using h.inside, by simpa [Option.all_eq_true] using h.first,
        by simpa [Option.all_eq_true] using h.last⟩⟩

theorem isWord_of_isPlain {word : List Char} (hWord : word ≠ [])
    (hPlain : ∀ c ∈ word, isPlain c = true) : IsWord word := by
  have h (c : Char) (hc : c ∈ word) :
      (endsWord c = false ∧ Markup.isMark c = false) ∧ isPunctuation c = false := by
    simpa [isPlain] using hPlain c hc
  exact ⟨hWord, fun c hc => (h c hc).1, fun c hc => (h c (List.mem_of_head? hc)).2,
    fun c hc => (h c (List.mem_of_getLast? hc)).2⟩

theorem IsWord.word?_eq {word : List Char} (h : IsWord word) :
    word? word = Option.some (.word (String.ofList word)) := by
  have hMark : word.filter (fun c => !Markup.isMark c) = word := by
    rw [List.filter_eq_self]
    intro c hc
    rw [(h.inside c hc).2, Bool.not_false]
  rw [word?, hMark, Text.dropWhile_of_head? h.first, Text.dropEndWhile_of_getLast? h.last,
    if_neg (by simpa using h.some)]

/-- What comes after a word: nothing, or a character that ends it. -/
def StopsWord (rest : List Char) : Prop :=
  ∀ c ∈ rest.head?, endsWord c = true

/-- **A stretch of characters that end no word is read as one word**, if anything is left of it. -/
theorem ofChars_stretch {stretch rest : List Char} (hSome : stretch ≠ [])
    (hInside : ∀ c ∈ stretch, endsWord c = false) (hRest : StopsWord rest) :
    ofChars (stretch ++ rest) = (word? stretch).toList ++ ofChars rest := by
  obtain ⟨c, cs, rfl⟩ := List.exists_cons_of_ne_nil hSome
  have hTail : ∀ d ∈ cs, (!endsWord d) = true := by
    intro d hd
    rw [hInside d (List.mem_cons_of_mem c hd), Bool.not_false]
  have hStop : ∀ d ∈ rest.head?, (!endsWord d) = false := by
    intro d hd
    rw [hRest d hd, Bool.not_true]
  have hTake : rest.takeWhile (fun d => !endsWord d) = [] := by
    cases rest with
    | nil => rfl
    | cons d rest => exact List.takeWhile_cons_of_neg (by rw [hStop d rfl]; exact Bool.false_ne_true)
  have hFirst := hInside c List.mem_cons_self
  simp only [endsWord, Bool.or_eq_false_iff, beq_eq_false_iff_ne] at hFirst
  obtain ⟨⟨⟨hBlank, hQuestion⟩, hRound⟩, hSquare⟩ := hFirst
  rw [List.cons_append, ofChars_of_other hBlank hQuestion hRound hSquare,
    List.takeWhile_append_of_pos hTail, List.dropWhile_append_of_pos hTail, hTake,
    Text.dropWhile_of_head? hStop, List.append_nil]

/-- **A word is a token**, if it is not continued. -/
theorem ofChars_word {word rest : List Char} (h : IsWord word) (hRest : StopsWord rest) :
    ofChars (word ++ rest) = .word (String.ofList word) :: ofChars rest := by
  rw [ofChars_stretch h.some (fun c hc => (h.inside c hc).1) hRest, h.word?_eq]
  rfl

/-! ### Links and remarks -/

def balanced (opening closing : Char) : (depth : Nat) → List Char → Bool
  | depth, [] => depth == 0
  | depth, c :: cs =>
    if c = opening then balanced opening closing (depth + 1) cs
    else if c = closing then
      match depth with
      | 0 => false
      | outer + 1 => balanced opening closing outer cs
    else balanced opening closing depth cs

/-- **A text is balanced if as many brackets close as open, and no prefix closes more than it opens.** -/
theorem balanced_iff {opening closing : Char} (hDiffer : closing ≠ opening) {depth : Nat}
    {cs : List Char} : balanced opening closing depth cs = true ↔
      cs.count closing = depth + cs.count opening ∧
        ∀ before, before <+: cs → before.count closing ≤ depth + before.count opening := by
  induction cs generalizing depth with
  | nil => simpa [balanced] using eq_comm
  | cons c cs ih =>
    have hPrefixes : (∀ before, before <+: c :: cs →
        before.count closing ≤ depth + before.count opening) ↔ ∀ before, before <+: cs →
          (c :: before).count closing ≤ depth + (c :: before).count opening := by
      constructor
      · exact fun h before hBefore => h _ ((List.prefix_cons_inj c).mpr hBefore)
      · intro h before hBefore
        rcases List.prefix_cons_iff.mp hBefore with rfl | ⟨rest, rfl, hRest⟩
        · exact Nat.zero_le _
        · exact h rest hRest
    rw [hPrefixes]
    unfold balanced
    by_cases hOpen : c = opening
    · subst hOpen
      simp only [if_true, ih, List.count_cons_self, List.count_cons_of_ne hDiffer.symm,
        Nat.add_assoc, Nat.add_comm 1]
    rw [if_neg hOpen]
    by_cases hClose : c = closing
    · subst hClose
      simp only [if_true, List.count_cons_self, List.count_cons_of_ne hOpen]
      cases depth with
      | zero =>
        -- The bracket alone closes more than it opens.
        have hAlone : ¬∀ before, before <+: cs → before.count c + 1 ≤ 0 + before.count opening :=
          fun h => absurd (h [] (List.nil_prefix)) (by simp)
        simp only [Bool.false_eq_true, hAlone, and_false]
      | succ outer =>
        simp only [ih, Nat.add_right_comm outer 1, Nat.add_le_add_iff_right,
          Nat.add_right_cancel_iff]
    · rw [if_neg hClose, ih, List.count_cons_of_ne hOpen, List.count_cons_of_ne hClose]
      simp only [List.count_cons_of_ne hOpen, List.count_cons_of_ne hClose]

/-- **Balanced text is enclosed up to the bracket after it.** -/
theorem enclosed?_of_balanced {opening closing : Char} (hDiffer : closing ≠ opening) {depth : Nat}
    {cs : List Char} (h : balanced opening closing depth cs = true) (rest : List Char) :
    enclosed? opening closing depth (cs ++ closing :: rest) = some (cs, rest) := by
  induction cs generalizing depth with
  | nil =>
    rw [balanced, beq_iff_eq] at h
    subst h
    simp only [List.nil_append, enclosed?, if_neg hDiffer, if_true]
  | cons c cs ih =>
    rw [List.cons_append]
    unfold enclosed?
    unfold balanced at h
    by_cases hOpen : c = opening
    · rw [if_pos hOpen] at h ⊢
      rw [ih h, Option.map_some]
    rw [if_neg hOpen] at h ⊢
    by_cases hClose : c = closing
    · rw [if_pos hClose] at h ⊢
      cases depth with
      | zero => cases h
      | succ outer =>
        simp only at h ⊢
        rw [ih h, Option.map_some]
    · rw [if_neg hClose] at h ⊢
      rw [ih h, Option.map_some]

/-- **What is enclosed is balanced**, and the bracket that closes it comes right behind. -/
theorem enclosed?_eq_some_iff {opening closing : Char} (hDiffer : closing ≠ opening) {depth : Nat}
    {cs inside after : List Char} : enclosed? opening closing depth cs = some (inside, after) ↔
      cs = inside ++ closing :: after ∧ balanced opening closing depth inside = true := by
  constructor
  · intro h
    induction cs generalizing depth inside with
    | nil => cases h
    | cons c cs ih =>
      have hPush {d : Nat} (h : (enclosed? opening closing d cs).map
          (fun r => (c :: r.1, r.2)) = some (inside, after)) : ∃ rest, inside = c :: rest ∧
            cs = rest ++ closing :: after ∧ balanced opening closing d rest = true := by
        obtain ⟨⟨rest, behind⟩, hRest, hSame⟩ := Option.map_eq_some_iff.mp h
        obtain ⟨rfl, rfl⟩ := Prod.mk.inj hSame
        exact ⟨rest, rfl, ih hRest⟩
      unfold enclosed? at h
      split at h
      · rename_i hOpen
        obtain ⟨rest, rfl, rfl, hBalanced⟩ := hPush h
        refine ⟨rfl, ?_⟩
        unfold balanced
        rw [if_pos hOpen, hBalanced]
      · rename_i hOpen
        split at h
        · rename_i hClose
          cases depth with
          | zero =>
            obtain ⟨rfl, rfl⟩ := Prod.mk.inj (Option.some.inj h)
            exact ⟨by rw [hClose]; rfl, rfl⟩
          | succ outer =>
            obtain ⟨rest, rfl, rfl, hBalanced⟩ := hPush h
            refine ⟨rfl, ?_⟩
            unfold balanced
            rw [if_neg hOpen, if_pos hClose]
            exact hBalanced
        · rename_i hClose
          obtain ⟨rest, rfl, rfl, hBalanced⟩ := hPush h
          refine ⟨rfl, ?_⟩
          unfold balanced
          rw [if_neg hOpen, if_neg hClose, hBalanced]
  · rintro ⟨rfl, hBalanced⟩
    exact enclosed?_of_balanced hDiffer hBalanced after

/-- **A link is made of a text and a target with balanced brackets.** -/
theorem link?_eq_some_iff {cs rest : List Char} {token : Token} : link? cs = some (token, rest) ↔
    ∃ text target, cs = text ++ ']' :: '(' :: (target ++ ')' :: rest) ∧
      balanced '[' ']' 0 text = true ∧ balanced '(' ')' 0 target = true ∧
      token = .link (String.ofList (Text.trim text)) (String.ofList (Text.trim target)) := by
  constructor
  · intro h
    unfold link? at h
    split at h
    · rename_i text after hText
      obtain ⟨⟨target, behind⟩, hTarget, hSame⟩ := Option.map_eq_some_iff.mp h
      obtain ⟨rfl, rfl⟩ := Prod.mk.inj hSame
      obtain ⟨rfl, hSquare⟩ := (enclosed?_eq_some_iff (by decide)).mp hText
      obtain ⟨rfl, hRound⟩ := (enclosed?_eq_some_iff (by decide)).mp hTarget
      exact ⟨text, target, rfl, hSquare, hRound, rfl⟩
    · cases h
  · rintro ⟨text, target, rfl, hText, hTarget, rfl⟩
    rw [link?, enclosed?_of_balanced (by decide) hText]
    simp only [enclosed?_of_balanced (show ')' ≠ '(' by decide) hTarget, Option.map_some]

/-- **A link with balanced brackets is a token**, whatever comes after it. -/
theorem ofChars_link {text target : List Char} (hText : balanced '[' ']' 0 text = true)
    (hTarget : balanced '(' ')' 0 target = true) (rest : List Char) :
    ofChars ('[' :: (text ++ ']' :: '(' :: (target ++ ')' :: rest))) =
      .link (String.ofList (Text.trim text)) (String.ofList (Text.trim target)) ::
        ofChars rest :=
  ofChars_of_link? (link?_eq_some_iff.mpr ⟨text, target, rfl, hText, hTarget, rfl⟩)

/-- **A remark with balanced brackets is a token**, whatever comes after it. -/
theorem ofChars_remark_of_balanced {text : List Char} (hText : balanced '(' ')' 0 text = true)
    (rest : List Char) :
    ofChars ('(' :: (text ++ ')' :: rest)) =
      .remark (String.ofList (Text.trim text)) :: ofChars rest := by
  rw [ofChars_remark, enclosed, enclosed?_of_balanced (by decide) hText, Option.getD_some]

/-! ### Stretches -/

/-- Characters are cut into tokens whatever comes after them, unless it continues a word. -/
def Lexes (cs : List Char) (tokens : List Token) : Prop :=
  ∀ rest, StopsWord rest → ofChars (cs ++ rest) = tokens ++ ofChars rest

theorem Lexes.ofChars_eq {cs : List Char} {tokens : List Token} (h : Lexes cs tokens) :
    ofChars cs = tokens := by
  have hAll := h [] (by simp [StopsWord])
  rwa [List.append_nil, ofChars_nil, List.append_nil] at hAll

theorem IsWord.lexes {word : List Char} (h : IsWord word) : Lexes word [.word (String.ofList word)] :=
  fun _ hRest => ofChars_word h hRest

theorem lexes_word {word : List Char} (hWord : word ≠ []) (hPlain : ∀ c ∈ word, isPlain c = true) :
    Lexes word [.word (String.ofList word)] :=
  (isWord_of_isPlain hWord hPlain).lexes

theorem lexes_link {text target : List Char} (hText : balanced '[' ']' 0 text = true)
    (hTarget : balanced '(' ')' 0 target = true) :
    Lexes ('[' :: (text ++ ']' :: '(' :: (target ++ [')'])))
      [.link (String.ofList (Text.trim text)) (String.ofList (Text.trim target))] := by
  intro rest _
  have h := ofChars_link hText hTarget rest
  simpa using h

theorem lexes_remark {text : List Char} (hText : balanced '(' ')' 0 text = true) :
    Lexes ('(' :: (text ++ [')'])) [.remark (String.ofList (Text.trim text))] := by
  intro rest _
  have h := ofChars_remark_of_balanced hText rest
  simpa using h

theorem Lexes.question {cs : List Char} {tokens : List Token} (h : Lexes cs tokens) :
    Lexes ('?' :: cs) (.question :: tokens) := by
  intro rest hRest
  rw [List.cons_append, ofChars_question, h rest hRest, List.cons_append]

/-- **Stretches with blanks between them are cut one after the other.** -/
theorem Lexes.gap {first gap second : List Char} {a b : List Token} (hFirst : Lexes first a)
    (hGap : gap ≠ []) (hBlank : ∀ c ∈ gap, Text.isBlank c = true) (hSecond : Lexes second b) :
    Lexes (first ++ gap ++ second) (a ++ b) := by
  intro rest hRest
  have hStop : StopsWord (gap ++ (second ++ rest)) := by
    intro c hc
    obtain ⟨d, others, rfl⟩ := List.exists_cons_of_ne_nil hGap
    cases hc
    rw [endsWord, hBlank _ List.mem_cons_self]
    rfl
  rw [List.append_assoc, List.append_assoc, List.append_assoc, hFirst _ hStop, ofChars_blanks hBlank,
    hSecond rest hRest]

theorem Lexes.space {first second : List Char} {a b : List Token} (hFirst : Lexes first a)
    (hSecond : Lexes second b) : Lexes (first ++ ' ' :: second) (a ++ b) := by
  have h := hFirst.gap (List.cons_ne_nil ' ' []) (by simp [Text.isBlank]) hSecond
  simpa using h

/-- **Plain words are tokens**, one each. -/
theorem lexes_words {words : List (List Char)} (hWords : words ≠ [])
    (hPlain : ∀ word ∈ words, word ≠ [] ∧ ∀ c ∈ word, isPlain c = true) :
    Lexes ([' '].intercalate words) (words.map fun word => .word (String.ofList word)) := by
  induction words with
  | nil => exact absurd rfl hWords
  | cons word words ih =>
    obtain ⟨hWord, hChars⟩ := hPlain word List.mem_cons_self
    cases words with
    | nil =>
      have hOne : [' '].intercalate [word] = word := by simp [List.intercalate]
      rw [hOne]
      exact lexes_word hWord hChars
    | cons next words =>
      have hRest := ih (by simp) fun w hw => hPlain w (List.mem_cons_of_mem _ hw)
      rw [List.intercalate_cons_cons, List.append_assoc, List.singleton_append, List.map_cons]
      exact (lexes_word hWord hChars).space hRest

end ProseTypes.Token
