import ProseTypes.Phrase.Token

/-!
# Forms of phrases

What a phrase says first: that it means a list, an optional value, a partial object or a choice
of two, or that a part of it can be left out. What remains then is a shorter phrase. A phrase
that says nothing of the kind names its type.
-/

namespace ProseTypes

/-- The leading form of a phrase, with the phrases that remain. -/
inductive Form where
  | nothing
  | array (element : List Token)
  | nullable (inner : List Token)
  | partialOf (inner : List Token)
  | either (left right : List Token)
  | reduced (inner : List Token)
  | name
deriving DecidableEq, Repr

namespace Form

def opensArray (token : Token) : Bool :=
  token.isWord "array" || token.isWord "list"

/-- The words that say no more than that a structure is meant. -/
def meansObject (token : Token) : Bool :=
  token.isWord "object" || token.isWord "objects"

def last? (tokens : List Token) : Option (List Token × Token × List Token) :=
  match tokens.reverse.dropWhile Token.isRemark with
  | [] => none
  | token :: before =>
    some (before.reverse, token, (tokens.reverse.takeWhile Token.isRemark).reverse)

/-- The phrases around the first `or`, if both say something. -/
def alternatives? (tokens : List Token) : Option (List Token × List Token) :=
  match tokens.takeWhile (fun t => !t.isWord "or"), tokens.dropWhile (fun t => !t.isWord "or") with
  | left@(_ :: _), _ :: right@(_ :: _) => some (left, right)
  | _, _ => none

/-- The form of a phrase without list words, question marks and alternatives: an object word at
its end is left out, and so are remarks, unless a link is all there is. -/
def ofPlain (tokens : List Token) : Form :=
  match last? tokens with
  | some (before@(_ :: _), token, after) =>
    if meansObject token then reduced (before ++ after)
    else if tokens.any Token.isRemark then reduced (tokens.filter fun t => !t.isRemark)
    else name
  | _ => if tokens.any Token.isRemark then reduced (tokens.filter fun t => !t.isRemark) else name

/-- The form of a phrase that begins with no list words. A question mark at the end counts before
one at the start. -/
def ofOptional (first : Token) (rest : List Token) : Form :=
  match last? (first :: rest) with
  | some (before, .question, _) => nullable before
  | _ =>
    if first = .question then nullable rest
    else if first.isWord "partial" && !rest.isEmpty then partialOf rest
    else
      match alternatives? (first :: rest) with
      | some (left, right) => either left right
      | none => ofPlain (first :: rest)

def ofTokens : List Token → Form
  | [] => nothing
  | first :: rest =>
    if opensArray first && rest.head?.any (Token.isWord "of") then array rest.tail
    else if opensArray first && rest.all Token.isRemark then array []
    else ofOptional first rest

/-- The number of tokens of the longest phrase that remains. -/
def size : Form → Nat
  | nothing | name => 0
  | array inner | nullable inner | partialOf inner | reduced inner => inner.length
  | either left right => max left.length right.length

theorem last?_eq_some_iff {tokens before after : List Token} {token : Token} :
    last? tokens = some (before, token, after) ↔ tokens = before ++ token :: after ∧
      token.isRemark = false ∧ ∀ t ∈ after, t.isRemark = true := by
  constructor
  · intro h
    unfold last? at h
    split at h
    · cases h
    · rename_i t bs hDrop
      obtain ⟨rfl, rfl, rfl⟩ := by simpa only [Option.some.injEq, Prod.mk.injEq] using h
      have hAll := List.takeWhile_append_dropWhile (p := Token.isRemark) (l := tokens.reverse)
      have hHead := List.head?_dropWhile_not Token.isRemark tokens.reverse
      rw [hDrop] at hAll hHead
      refine ⟨?_, hHead, fun u hu => ?_⟩
      · have hTokens := congrArg List.reverse hAll.symm
        simpa using hTokens
      · exact List.all_eq_true.mp List.all_takeWhile u (List.mem_reverse.mp hu)
  · rintro ⟨rfl, hToken, hAfter⟩
    have hBehind : ∀ t ∈ after.reverse, t.isRemark = true :=
      fun t ht => hAfter t (List.mem_reverse.mp ht)
    have hStop : ¬token.isRemark = true := by
      rw [hToken]
      exact Bool.false_ne_true
    unfold last?
    rw [List.reverse_append, List.reverse_cons, List.append_assoc, List.singleton_append,
      List.dropWhile_append_of_pos hBehind, List.takeWhile_append_of_pos hBehind,
      List.dropWhile_cons_of_neg hStop, List.takeWhile_cons_of_neg hStop]
    simp

theorem last?_eq_none_iff {tokens : List Token} :
    last? tokens = none ↔ ∀ t ∈ tokens, t.isRemark = true := by
  constructor
  · intro h t ht
    unfold last? at h
    split at h
    · rename_i hDrop
      have hAll := List.takeWhile_append_dropWhile (p := Token.isRemark) (l := tokens.reverse)
      rw [hDrop, List.append_nil] at hAll
      rw [← List.mem_reverse, ← hAll] at ht
      exact List.all_eq_true.mp List.all_takeWhile t ht
    · cases h
  · intro h
    cases hLast : last? tokens with
    | none => rfl
    | some found =>
      obtain ⟨before, token, after⟩ := found
      obtain ⟨rfl, hToken, -⟩ := last?_eq_some_iff.1 hLast
      rw [h token (by simp)] at hToken
      cases hToken

theorem alternatives?_eq_some_iff {tokens left right : List Token} :
    alternatives? tokens = some (left, right) ↔ ∃ token, tokens = left ++ token :: right ∧
      token.isWord "or" = true ∧ (∀ t ∈ left, t.isWord "or" = false) ∧ left ≠ [] ∧ right ≠ [] := by
  constructor
  · intro h
    unfold alternatives? at h
    split at h
    · rename_i l ls o r rs hLeft hRight
      obtain ⟨rfl, rfl⟩ := by simpa only [Option.some.injEq, Prod.mk.injEq] using h
      have hAll := List.takeWhile_append_dropWhile (p := fun t : Token => !t.isWord "or") (l := tokens)
      have hHead := List.head?_dropWhile_not (fun t : Token => !t.isWord "or") tokens
      have hBefore := List.all_takeWhile (p := fun t : Token => !t.isWord "or") (l := tokens)
      rw [hLeft] at hAll hBefore
      rw [hRight] at hAll hHead
      refine ⟨o, hAll.symm, by simpa using hHead, fun t ht => ?_, List.cons_ne_nil _ _,
        List.cons_ne_nil _ _⟩
      simpa using List.all_eq_true.mp hBefore t ht
    · cases h
  · rintro ⟨token, rfl, hToken, hLeft, hFirst, hLast⟩
    obtain ⟨l, ls, rfl⟩ := List.exists_cons_of_ne_nil hFirst
    obtain ⟨r, rs, rfl⟩ := List.exists_cons_of_ne_nil hLast
    have hBefore : ∀ t ∈ l :: ls, (!t.isWord "or") = true :=
      fun t ht => by rw [hLeft t ht]; rfl
    unfold alternatives?
    rw [List.takeWhile_append_of_pos hBefore, List.dropWhile_append_of_pos hBefore,
      List.takeWhile_cons_of_neg (by simp [hToken]), List.dropWhile_cons_of_neg (by simp [hToken]),
      List.append_nil]

theorem length_of_last? {tokens before after : List Token} {token : Token}
    (h : last? tokens = some (before, token, after)) :
    before.length + after.length + 1 = tokens.length := by
  obtain ⟨rfl, -, -⟩ := last?_eq_some_iff.1 h
  simp only [List.length_append, List.length_cons]
  omega

theorem length_of_alternatives? {tokens left right : List Token}
    (h : alternatives? tokens = some (left, right)) :
    left.length + right.length < tokens.length := by
  obtain ⟨token, rfl, -⟩ := alternatives?_eq_some_iff.1 h
  simp only [List.length_append, List.length_cons]
  omega

theorem length_filter_lt {tokens : List Token} (h : tokens.any Token.isRemark) :
    (tokens.filter fun t => !t.isRemark).length < tokens.length := by
  refine List.length_filter_lt_length_iff_exists.2 ?_
  obtain ⟨t, hMem, hRemark⟩ := List.any_eq_true.1 h
  exact ⟨t, hMem, by simp [hRemark]⟩

theorem size_ofPlain_lt {tokens : List Token} (h : tokens ≠ []) :
    (ofPlain tokens).size < tokens.length := by
  have hPos : 0 < tokens.length := List.length_pos_iff.2 h
  unfold ofPlain
  split
  · rename_i hLast
    have := length_of_last? hLast
    split
    · simp only [size, List.length_append, List.length_cons] at *
      omega
    split
    · exact length_filter_lt (by assumption)
    · exact hPos
  · split
    · exact length_filter_lt (by assumption)
    · exact hPos

theorem size_ofOptional_lt (first : Token) (rest : List Token) :
    (ofOptional first rest).size < (first :: rest).length := by
  unfold ofOptional
  split
  · rename_i hLast
    have := length_of_last? hLast
    simp only [size]
    omega
  split
  · simp [size]
  split
  · simp [size]
  split
  · rename_i hOr
    have := length_of_alternatives? hOr
    simp only [size]
    omega
  · exact size_ofPlain_lt (List.cons_ne_nil _ _)

theorem size_ofTokens_lt {tokens : List Token} (h : tokens ≠ []) :
    (ofTokens tokens).size < tokens.length := by
  cases tokens with
  | nil => exact absurd rfl h
  | cons first rest =>
    simp only [ofTokens]
    split
    · simp only [size, List.length_tail, List.length_cons]
      omega
    split
    · simp [size]
    · exact size_ofOptional_lt first rest

end Form

end ProseTypes
