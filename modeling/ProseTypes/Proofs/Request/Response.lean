import ProseTypes.Phrase.Form
import ProseTypes.Proofs.Phrase.Places
import ProseTypes.Proofs.Text.Blanks
import ProseTypes.Proofs.Text.LetterCase
import ProseTypes.Request.Response

/-!
# Where the phrase for a response ends

The phrase that names the type of a response is cut behind its first object word, so that no token follows
an object word (`Response.phrase?_object`).  There are two exceptions.  The cut is left out when a closing
bracket stands behind the place of the cut (`Response.Bracketed`): the bracket may be that of a link whose
text has the object word in it, or that of a later link.  And object words are found by a blank in front of
their letters, so one at the start of the phrase, or behind a mark, is not seen (`Response.Hidden`).

A word of the tokens has no blanks in it and stands at one place of the phrase (`Proofs/Phrase/Places`).  The
proof follows it there: the search of the cut finds an object word at this place or before it
(`Response.exists_cutObject?`), and what is left behind the cut is not longer than what stands behind the
word.
-/

namespace ProseTypes

theorem Token.isWordChar_of_isMark {c : Char} (h : Markup.isMark c = true) : Text.isWordChar c = false := by
  simp only [Markup.isMark, Bool.or_eq_true, beq_iff_eq] at h
  rcases h with (rfl | rfl) | rfl <;> decide

theorem Token.isWordChar_of_isPunctuation {c : Char} (h : isPunctuation c = true) :
    Text.isWordChar c = false := by
  simp only [isPunctuation, Bool.or_eq_true, beq_iff_eq] at h
  rcases h with ((((rfl | rfl) | rfl) | rfl) | rfl) | rfl <;> decide

theorem Token.isWordChar_of_endsWord {c : Char} (h : endsWord c = true) : Text.isWordChar c = false := by
  simp only [endsWord, Bool.or_eq_true, beq_iff_eq] at h
  rcases h with ((h | rfl) | rfl) | rfl
  · exact Text.isWordChar_of_isBlank h
  all_goals decide

namespace Response

/-! ### Object words -/

/-- The letters of an object word: the singular in any letter case, and at most one plural ending. -/
def IsObject (word : List Char) : Prop :=
  ∃ stem ending, word = stem ++ ending ∧ Text.foldCase stem = "object".toList ∧
    (ending = [] ∨ ∃ c, ending = [c] ∧ isPluralEnding c = true)

theorem isWordChar_of_isPluralEnding {c : Char} (h : isPluralEnding c = true) :
    Text.isWordChar c = true := by
  simp only [isPluralEnding, Bool.or_eq_true, beq_iff_eq] at h
  rcases h with (rfl | rfl) | rfl <;> decide

theorem isWordChar_of_stem {stem : List Char} (h : Text.foldCase stem = "object".toList) :
    ∀ c ∈ stem, Text.isWordChar c = true := by
  intro c hc
  have hLetter : c.toLower ∈ "object".toList := by
    rw [← h]
    exact List.mem_map_of_mem hc
  have hLetters : c.toLower = 'o' ∨ c.toLower = 'b' ∨ c.toLower = 'j' ∨ c.toLower = 'e' ∨
      c.toLower = 'c' ∨ c.toLower = 't' := by
    simpa using hLetter
  rcases hLetters with h | h | h | h | h | h <;>
    rcases Text.eq_or_eq_of_toLower h with rfl | rfl <;> decide

theorem IsObject.isWordChar {word : List Char} (h : IsObject word) :
    ∀ c ∈ word, Text.isWordChar c = true := by
  obtain ⟨stem, ending, rfl, hStem, hEnding⟩ := h
  intro c hc
  rcases List.mem_append.mp hc with hc | hc
  · exact isWordChar_of_stem hStem c hc
  · rcases hEnding with rfl | ⟨d, rfl, hd⟩
    · cases hc
    · rw [List.mem_singleton.mp hc]
      exact isWordChar_of_isPluralEnding hd

theorem IsObject.isBlank {word : List Char} (h : IsObject word) : ∀ c ∈ word, Text.isBlank c = false := by
  intro c hc
  rw [← Bool.not_eq_true]
  intro hBlank
  have hWord := h.isWordChar c hc
  rw [Text.isWordChar_of_isBlank hBlank] at hWord
  cases hWord

section

variable {stem : List Char} (hStem : Text.foldCase stem = "object".toList)

include hStem

theorem objectWord?_append (tail : List Char) : objectWord? (stem ++ tail) =
    let ending := (tail.take 1).filter isPluralEnding
    if (tail.drop ending.length).head?.any Text.isWordChar then none
    else some (stem ++ ending, tail.drop ending.length) := by
  have hLength : stem.length = 6 := by
    have h := congrArg List.length hStem
    simpa [Text.foldCase] using h
  have hTake : (stem ++ tail).take 6 = stem := List.take_left' hLength
  have hDrop (n : Nat) : (stem ++ tail).drop (6 + n) = tail.drop n := by
    rw [← hLength, List.drop_length_add_append]
  have hDropStem : (stem ++ tail).drop 6 = tail := hDrop 0
  rw [objectWord?, hTake, if_pos hStem]
  simp only [hDropStem, hDrop]

theorem objectWord?_plural {c : Char} (hPlural : isPluralEnding c = true) (rest : List Char) :
    objectWord? (stem ++ c :: rest) =
      if rest.head?.any Text.isWordChar then none else some (stem ++ [c], rest) := by
  simp [objectWord?_append hStem, hPlural]

theorem objectWord?_singular {tail : List Char} (hTail : ∀ c ∈ tail.head?, isPluralEnding c = false) :
    objectWord? (stem ++ tail) =
      if tail.head?.any Text.isWordChar then none else some (stem, tail) := by
  have hNone : (tail.take 1).filter isPluralEnding = [] := by
    rw [List.filter_eq_nil_iff, List.take_one]
    intro c hc
    rw [hTail c (Option.mem_toList.mp hc)]
    exact Bool.false_ne_true
  simp [objectWord?_append hStem, hNone]

end

/-- **An object word is found where its letters stand and no word goes on behind them.** -/
theorem objectWord?_eq_some_iff {cs word after : List Char} : objectWord? cs = some (word, after) ↔
    cs = word ++ after ∧ IsObject word ∧ ∀ c ∈ after.head?, Text.isWordChar c = false := by
  have hNoWord (cs : List Char) :
      (∀ c ∈ cs.head?, Text.isWordChar c = false) ↔ cs.head?.any Text.isWordChar = false := by
    cases cs <;> simp
  rw [hNoWord]
  constructor
  · intro h
    have hStem : Text.foldCase (cs.take 6) = "object".toList := by
      by_contra hOther
      rw [objectWord?, if_neg hOther] at h
      cases h
    have hSplit := List.take_append_drop 6 cs
    rw [← hSplit] at h ⊢
    by_cases hPlural : ∃ c rest, cs.drop 6 = c :: rest ∧ isPluralEnding c = true
    · obtain ⟨c, rest, hTail, hc⟩ := hPlural
      rw [hTail, objectWord?_plural hStem hc] at h
      split at h
      · cases h
      · rename_i hStop
        obtain ⟨rfl, rfl⟩ := Prod.mk.inj (Option.some.inj h)
        exact ⟨by simp [hTail], ⟨_, [c], rfl, hStem, Or.inr ⟨c, rfl, hc⟩⟩, eq_false_of_ne_true hStop⟩
    · have hTail : ∀ c ∈ (cs.drop 6).head?, isPluralEnding c = false := by
        intro c hc
        obtain ⟨rest, hRest⟩ := List.head?_eq_some_iff.mp hc
        exact eq_false_of_ne_true fun hTrue => hPlural ⟨c, rest, hRest, hTrue⟩
      rw [objectWord?_singular hStem hTail] at h
      split at h
      · cases h
      · rename_i hStop
        obtain ⟨rfl, rfl⟩ := Prod.mk.inj (Option.some.inj h)
        exact ⟨rfl, ⟨_, [], by simp, hStem, Or.inl rfl⟩, eq_false_of_ne_true hStop⟩
  · rintro ⟨rfl, ⟨stem, ending, rfl, hStem, hEnding⟩, hAfter⟩
    rcases hEnding with rfl | ⟨c, rfl, hPlural⟩
    · -- A plural ending would be a word that goes on.
      have hTail : ∀ c ∈ after.head?, isPluralEnding c = false := by
        intro c hc
        refine eq_false_of_ne_true fun hPlural => ?_
        have hWord := isWordChar_of_isPluralEnding hPlural
        rw [(hNoWord after).mpr hAfter c hc] at hWord
        cases hWord
      rw [List.append_nil, objectWord?_singular hStem hTail, hAfter]
      rfl
    · rw [List.append_assoc, List.singleton_append, objectWord?_plural hStem hPlural, hAfter]
      rfl

/-! ### The cut -/

theorem cutObject?_cons (c : Char) (cs : List Char) : cutObject? (c :: cs) =
    match if Text.isBlank c then objectWord? cs else none with
    | some (word, after) => some (c :: word, after)
    | none => (cutObject? cs).map fun (before, after) => (c :: before, after) := by
  rfl

theorem exists_isBlank_of_cutObject? {cs before after : List Char}
    (h : cutObject? cs = some (before, after)) :
    cs = before ++ after ∧ ∃ b ∈ before, Text.isBlank b = true := by
  induction cs generalizing before with
  | nil => cases h
  | cons c cs ih =>
    rw [cutObject?_cons] at h
    split at h
    · rename_i word behind hWord
      obtain ⟨rfl, rfl⟩ := Prod.mk.inj (Option.some.inj h)
      split at hWord
      · rename_i hBlank
        obtain ⟨rfl, -⟩ := objectWord?_eq_some_iff.mp hWord
        exact ⟨rfl, c, List.mem_cons_self, hBlank⟩
      · cases hWord
    · obtain ⟨⟨first, behind⟩, hCut, hSame⟩ := Option.map_eq_some_iff.mp h
      obtain ⟨rfl, rfl⟩ := Prod.mk.inj hSame
      obtain ⟨rfl, b, hb, hBlank⟩ := ih hCut
      exact ⟨rfl, b, List.mem_cons_of_mem c hb, hBlank⟩

/-- **What has been cut is not cut again.** -/
theorem cutObject?_before {cs before after : List Char} (h : cutObject? cs = some (before, after)) :
    cutObject? before = some (before, []) := by
  induction cs generalizing before with
  | nil => cases h
  | cons c cs ih =>
    rw [cutObject?_cons] at h
    split at h
    · rename_i word behind hWord
      obtain ⟨rfl, rfl⟩ := Prod.mk.inj (Option.some.inj h)
      split at hWord
      · rename_i hBlank
        obtain ⟨-, hObject, -⟩ := objectWord?_eq_some_iff.mp hWord
        have hAgain : objectWord? word = some (word, []) :=
          objectWord?_eq_some_iff.mpr ⟨by simp, hObject, by simp⟩
        rw [cutObject?_cons, if_pos hBlank, hAgain]
      · cases hWord
    · rename_i hNone
      obtain ⟨⟨first, behind⟩, hCut, hSame⟩ := Option.map_eq_some_iff.mp h
      obtain ⟨rfl, rfl⟩ := Prod.mk.inj hSame
      obtain ⟨rfl, b, hb, hBlank⟩ := exists_isBlank_of_cutObject? hCut
      -- What follows an object word in a part with a blank follows it in the whole too.
      have hStill : (if Text.isBlank c then objectWord? first else none) = none := by
        split
        · rename_i hFirst
          rw [if_pos hFirst] at hNone
          cases hPart : objectWord? first with
          | none => rfl
          | some found =>
            obtain ⟨word, rest⟩ := found
            obtain ⟨rfl, hObject, hStop⟩ := objectWord?_eq_some_iff.mp hPart
            have hRest : b ∈ rest := by
              refine (List.mem_append.mp hb).resolve_left fun hMem => ?_
              rw [hObject.isBlank b hMem] at hBlank
              cases hBlank
            have hWhole : objectWord? (word ++ rest ++ behind) = some (word, rest ++ behind) := by
              refine objectWord?_eq_some_iff.mpr ⟨List.append_assoc _ _ _, hObject, ?_⟩
              obtain ⟨d, others, rfl⟩ := List.exists_cons_of_ne_nil (List.ne_nil_of_mem hRest)
              exact hStop
            rw [hWhole] at hNone
            cases hNone
        · rfl
      rw [cutObject?_cons, hStill, ih hCut]
      rfl

/-- **An object word behind a blank is cut behind**, if no other one comes before it. -/
theorem exists_cutObject? (first : List Char) {rest word after : List Char} {b : Char}
    (hBlank : Text.isBlank b = true) (hWord : objectWord? rest = some (word, after)) :
    ∃ before behind, cutObject? (first ++ b :: rest) = some (before, behind) ∧
      after.length ≤ behind.length := by
  induction first with
  | nil => exact ⟨b :: word, after, by rw [List.nil_append, cutObject?_cons, if_pos hBlank, hWord], le_rfl⟩
  | cons c first ih =>
    cases hFound : (if Text.isBlank c then objectWord? (first ++ b :: rest) else none) with
    | none =>
      obtain ⟨before, behind, hCut, hLength⟩ := ih
      refine ⟨c :: before, behind, ?_, hLength⟩
      rw [List.cons_append, cutObject?_cons, hFound, hCut]
      rfl
    | some found =>
      obtain ⟨other, behind⟩ := found
      refine ⟨c :: other, behind, by rw [List.cons_append, cutObject?_cons, hFound], ?_⟩
      split at hFound
      · obtain ⟨hSplit, hObject, -⟩ := objectWord?_eq_some_iff.mp hFound
        obtain ⟨rfl, -⟩ := objectWord?_eq_some_iff.mp hWord
        -- The other word has no blank in it, so it ends before this one.
        have hBehind : b :: (word ++ after) <:+ behind := by
          rcases List.append_eq_append_iff.mp hSplit with ⟨part, rfl, hRest⟩ | ⟨part, rfl, rfl⟩
          · cases part with
            | nil => exact ⟨[], hRest⟩
            | cons d part =>
              obtain ⟨rfl, -⟩ := List.cons.inj hRest
              have hInside := hObject.isBlank b (List.mem_append_right _ List.mem_cons_self)
              rw [hInside] at hBlank
              cases hBlank
          · exact List.suffix_append part _
        have hLength := hBehind.length_le
        simp only [List.length_cons, List.length_append] at hLength
        omega
      · cases hFound

/-! ### Object words among the tokens -/

/-- What is left of the characters of a word without marks and without punctuation at the end. -/
def kept (cs : List Char) : List Char :=
  Text.dropEndWhile Token.isPunctuation (cs.filter fun c => !Markup.isMark c)

theorem isMark_of_isWordChar {c : Char} (h : Text.isWordChar c = true) :
    Markup.isMark c = false ∧ Token.isPunctuation c = false := by
  constructor
  · refine eq_false_of_ne_true fun hMark => ?_
    rw [Token.isWordChar_of_isMark hMark] at h
    cases h
  · refine eq_false_of_ne_true fun hPunctuation => ?_
    rw [Token.isWordChar_of_isPunctuation hPunctuation] at h
    cases h

theorem kept_cons {c : Char} (h : Text.isWordChar c = true) (cs : List Char) :
    kept (c :: cs) = c :: kept cs := by
  obtain ⟨hMark, hPunctuation⟩ := isMark_of_isWordChar h
  rw [kept, List.filter_cons_of_pos (by rw [hMark]; rfl), Text.dropEndWhile_cons_of_neg hPunctuation, kept]

theorem kept_append {first : List Char} (h : ∀ c ∈ first, Text.isWordChar c = true) (cs : List Char) :
    kept (first ++ cs) = first ++ kept cs := by
  induction first with
  | nil => rfl
  | cons c first ih =>
    rw [List.cons_append, kept_cons (h c List.mem_cons_self),
      ih fun d hd => h d (List.mem_cons_of_mem c hd), List.cons_append]

theorem word?_eq_kept {c : Char} (h : Text.isWordChar c = true) (cs : List Char) :
    Token.word? (c :: cs) = some (.word (String.ofList (kept (c :: cs)))) := by
  obtain ⟨hMark, hPunctuation⟩ := isMark_of_isWordChar h
  have hFilter : (c :: cs).filter (fun d => !Markup.isMark d) =
      c :: cs.filter fun d => !Markup.isMark d :=
    List.filter_cons_of_pos (by rw [hMark]; rfl)
  have hDrop : ((c :: cs).filter fun d => !Markup.isMark d).dropWhile Token.isPunctuation =
      (c :: cs).filter fun d => !Markup.isMark d := by
    rw [hFilter, List.dropWhile_cons_of_neg (by rw [hPunctuation]; exact Bool.false_ne_true)]
  rw [Token.word?, hDrop, ← kept, kept_cons h]
  rfl

theorem foldCase_of_meansObject {word : String} (h : Form.meansObject (.word word) = true) :
    Text.foldCase word.toList = "object".toList ++ [] ∨
      Text.foldCase word.toList = "object".toList ++ ['s'] := by
  have hSingular : Text.foldCase "object".toList = "object".toList ++ [] := by decide
  have hPlural : Text.foldCase "objects".toList = "object".toList ++ ['s'] := by decide
  simp only [Form.meansObject, Token.isWord, Text.sameLetters, Bool.or_eq_true, beq_iff_eq] at h
  rwa [hSingular, hPlural] at h

theorem isPluralEnding_of_toLower {c : Char} (h : c.toLower = 's') : isPluralEnding c = true := by
  rcases Text.eq_or_eq_of_toLower h with rfl | rfl <;> decide

/-- **A word that starts with the letters of an object word and is read as one is found** where it stands. -/
theorem exists_objectWord? {raw after : List Char} {word : String}
    (hWord : Token.word? raw = some (.word word)) (hObject : Form.meansObject (.word word) = true)
    (hLetters : "object".toList <+: Text.foldCase raw)
    (hAfter : ∀ c ∈ after.head?, Text.isWordChar c = false) :
    ∃ found tail, objectWord? (raw ++ after) = some (found, tail ++ after) := by
  obtain ⟨behind, hBehind⟩ := hLetters
  obtain ⟨stem, tail, rfl, hStem, -⟩ := List.map_eq_append_iff.mp hBehind.symm
  have hKept : word.toList = stem ++ kept tail := by
    have hChars := isWordChar_of_stem hStem
    rw [← kept_append hChars]
    cases stem with
    | nil => cases hStem
    | cons c stem =>
      rw [List.cons_append, word?_eq_kept (hChars c List.mem_cons_self)] at hWord
      obtain rfl := Token.word.inj (Option.some.inj hWord)
      rw [String.toList_ofList, List.cons_append]
  have hEnding : Text.foldCase (kept tail) = [] ∨ Text.foldCase (kept tail) = ['s'] := by
    have hFold : Text.foldCase word.toList = "object".toList ++ Text.foldCase (kept tail) := by
      rw [hKept, ← hStem]
      exact List.map_append
    have hCases := foldCase_of_meansObject hObject
    rwa [hFold, List.append_cancel_left_eq, List.append_cancel_left_eq] at hCases
  cases tail with
  | nil =>
    refine ⟨stem, [], objectWord?_eq_some_iff.mpr ⟨by simp, ⟨stem, [], by simp, hStem, Or.inl rfl⟩, hAfter⟩⟩
  | cons c rest =>
    cases hNext : Text.isWordChar c with
    | false =>
      refine ⟨stem, c :: rest, objectWord?_eq_some_iff.mpr
        ⟨by simp, ⟨stem, [], by simp, hStem, Or.inl rfl⟩, ?_⟩⟩
      rintro d hd
      cases hd
      exact hNext
    | true =>
      -- The word goes on, so the rest of it is the plural ending alone.
      rw [kept_cons hNext, Text.foldCase_cons] at hEnding
      obtain ⟨hSmall, hRest⟩ : c.toLower = 's' ∧ Text.foldCase (kept rest) = [] := by
        simpa using hEnding
      have hNil : kept rest = [] := by simpa [Text.foldCase] using hRest
      refine ⟨stem ++ [c], rest, objectWord?_eq_some_iff.mpr ⟨by simp, ⟨stem, [c], rfl, hStem,
        Or.inr ⟨c, rfl, isPluralEnding_of_toLower hSmall⟩⟩, ?_⟩⟩
      cases rest with
      | nil => exact hAfter
      | cons d rest =>
        rintro e he
        cases he
        refine eq_false_of_ne_true fun hGoesOn => ?_
        rw [kept_cons hGoesOn] at hNil
        cases hNil

/-! ### The end of a phrase -/

/-- A closing bracket stands behind the first object word of a phrase that has a blank before it. -/
def Bracketed (cs : List Char) : Prop :=
  ∃ before after, cutObject? cs = some (before, after) ∧ ']' ∈ after

/-- A word of a phrase has no blank right before it, or does not start with the letters of an object word. -/
def Hidden (cs : List Char) (front : List Token) (token : Token) : Prop :=
  ∃ before raw after, Token.WordAt cs front token before raw after ∧
    ¬(before.getLast?.any Text.isBlank = true ∧ "object".toList <+: Text.foldCase raw)

instance (cs : List Char) : Decidable (Bracketed cs) :=
  decidable_of_iff ((cutObject? cs).any (fun (_, after) => after.contains ']') = true)
    (by simp [Bracketed, Option.any_eq_true])

/-- The parts of a phrase at which a word of it stands are found among the beginnings of lists. -/
theorem hidden_iff {cs : List Char} {front : List Token} {token : Token} : Hidden cs front token ↔
    ∃ before ∈ cs.inits, ∃ raw ∈ (cs.drop before.length).inits,
      Token.WordAt cs front token before raw (cs.drop (before.length + raw.length)) ∧
        ¬(before.getLast?.any Text.isBlank = true ∧ "object".toList <+: Text.foldCase raw) := by
  constructor
  · rintro ⟨before, raw, after, hAt, hHidden⟩
    obtain rfl := hAt.split
    refine ⟨before, ?_, raw, ?_, ?_, hHidden⟩
    · rw [List.mem_inits, List.append_assoc]
      exact List.prefix_append before _
    · rw [List.mem_inits, List.append_assoc, List.drop_left]
      exact List.prefix_append raw _
    · rwa [← List.length_append, List.drop_left]
  · rintro ⟨before, -, raw, -, hAt, hHidden⟩
    exact ⟨before, raw, _, hAt, hHidden⟩

instance (cs : List Char) (front : List Token) (token : Token) : Decidable (Hidden cs front token) :=
  decidable_of_iff _ hidden_iff.symm

/-- **A phrase ends behind the first object word that has a blank before it**, or a closing bracket stands
behind this word. -/
theorem cutObject?_upToObject {cs before after : List Char}
    (h : cutObject? (upToObject cs) = some (before, after)) :
    after = [] ∨ (']' ∈ after ∧ upToObject cs = cs) := by
  cases hCut : cutObject? cs with
  | none =>
    rw [upToObject, hCut] at h
    rw [hCut] at h
    cases h
  | some cut =>
    obtain ⟨first, behind⟩ := cut
    by_cases hBracket : behind.contains ']' = true
    · have hSame : upToObject cs = cs := by
        rw [upToObject, hCut]
        exact if_pos hBracket
      rw [hSame, hCut] at h
      cases h
      exact Or.inr ⟨by simpa using hBracket, hSame⟩
    · have hFirst : upToObject cs = first := by
        rw [upToObject, hCut]
        exact if_neg hBracket
      rw [hFirst, cutObject?_before hCut] at h
      cases h
      exact Or.inl rfl

/-- **No token follows an object word** that is not hidden, in a phrase that is not bracketed. -/
theorem eq_nil_of_upToObject {cs : List Char} {front back : List Token} {word : String}
    (h : Token.ofChars (upToObject cs) = front ++ .word word :: back)
    (hObject : Form.meansObject (.word word) = true) :
    back = [] ∨ Bracketed (upToObject cs) ∨ Hidden (upToObject cs) front (.word word) := by
  obtain ⟨before, raw, after, hAt, hEnd⟩ := Token.stands_of_ofChars h
  by_cases hPlain : before.getLast?.any Text.isBlank = true ∧ "object".toList <+: Text.foldCase raw
  · obtain ⟨hSpaced, hLetters⟩ := hPlain
    have hStop : ∀ c ∈ after.head?, Text.isWordChar c = false := by
      intro c hc
      rcases hAt.behind c hc with hEnds | rfl
      · exact Token.isWordChar_of_endsWord hEnds
      · decide
    obtain ⟨found, tail, hFound⟩ := exists_objectWord? hAt.word hObject hLetters hStop
    obtain ⟨b, hb, hBlank⟩ := (Option.any_eq_true _ _).mp hSpaced
    obtain ⟨first, rfl⟩ := List.getLast?_eq_some_iff.mp hb
    obtain ⟨cut, behind, hCut, hLength⟩ := exists_cutObject? first hBlank hFound
    have hSplit : first ++ b :: (raw ++ after) = upToObject cs := by
      rw [hAt.split]
      simp
    rw [hSplit] at hCut
    rcases cutObject?_upToObject hCut with rfl | ⟨hBracket, -⟩
    · left
      apply hEnd
      simp only [List.length_append, List.length_nil] at hLength
      exact List.length_eq_zero_iff.mp (by omega)
    · exact Or.inr (Or.inl ⟨cut, behind, hCut, hBracket⟩)
  · exact Or.inr (Or.inr ⟨before, raw, after, hAt, hPlain⟩)

/-- **The phrase for a response ends at its object word**: no token follows an object word, unless a closing
bracket stands behind the first one that has a blank before it, or the word is hidden.  With the bracket the
phrase is not cut at all. -/
theorem phrase?_object {paragraph named : String} (h : phrase? paragraph = some named) :
    (∀ front token back, Token.ofPhrase named = front ++ token :: back → Form.meansObject token = true →
      back = [] ∨ Bracketed named.toList ∨ Hidden named.toList front token) ∧
    (Bracketed named.toList → ∃ rest, sentence? .lineStart paragraph.toList = some rest ∧
      named.toList = dropArticle (Text.trim (phrase rest))) := by
  obtain ⟨rest, hRest, hNamed⟩ := Option.bind_eq_some_iff.mp h
  dsimp only at hNamed
  split at hNamed
  · cases hNamed
  · obtain rfl := Option.some.inj hNamed
    rw [Token.ofPhrase, String.toList_ofList]
    constructor
    · intro front token back hTokens hObject
      cases token with
      | word w => exact eq_nil_of_upToObject hTokens hObject
      | link _ _ => cases hObject
      | remark _ => cases hObject
      | question => cases hObject
    · rintro ⟨before, after, hCut, hBracket⟩
      rcases cutObject?_upToObject hCut with rfl | ⟨-, hSame⟩
      · cases hBracket
      · exact ⟨rest, hRest, hSame⟩

theorem phrase?_object_linked :
    phrase? "Returns the [user](#A/user) object of the requester's account." =
        some "[user](#A/user) object" ∧
      ∀ back, Token.ofPhrase "[user](#A/user) object" =
        [.link "user" "#A/user"] ++ .word "object" :: back → back = [] := by
  have hPhrase : phrase? "Returns the [user](#A/user) object of the requester's account." =
      some "[user](#A/user) object" := by
    decide +kernel
  refine ⟨hPhrase, fun back hTokens => ?_⟩
  rcases (phrase?_object hPhrase).1 _ _ _ hTokens (by decide +kernel) with hEnd | hBracketed | hHidden
  · exact hEnd
  · exact absurd hBracketed (by decide +kernel)
  · exact absurd hHidden (by decide +kernel)

/-- A link behind the object word keeps everything, where the phrase should end at the word: tokens follow
the first object word. -/
theorem not_ends_at_object : ¬∀ paragraph named, phrase? paragraph = some named →
    ∀ front token back, Token.ofPhrase named = front ++ token :: back →
      (∀ earlier ∈ front, Form.meansObject earlier = false) → Form.meansObject token = true → back = [] := by
  intro hEnds
  have hPhrase : phrase? "Returns the [user](#A/user) object and a [guild](#B/guild)." =
      some "[user](#A/user) object and a [guild](#B/guild)" := by
    decide +kernel
  have hTokens : Token.ofPhrase "[user](#A/user) object and a [guild](#B/guild)" =
      [.link "user" "#A/user"] ++ .word "object" :: [.word "and", .word "a", .link "guild" "#B/guild"] := by
    decide +kernel
  have hNil := hEnds _ _ hPhrase _ _ _ hTokens (by decide +kernel) (by decide +kernel)
  cases hNil

end Response

end ProseTypes
