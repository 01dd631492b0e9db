import ProseTypes.Markup

/-!
# Tokens of a phrase

A phrase in a type column is cut into words, links, remarks in parentheses and question marks.
Words lose emphasis marks, escapes and the punctuation around them.
-/

namespace ProseTypes

inductive Token where
  | word (word : String)
  | link (text target : String)
  | remark (text : String)
  | question
deriving DecidableEq, Repr

namespace Token

/-- Compares a token with a word, without regard to the case of ASCII letters. -/
def isWord (expected : String) : Token → Bool
  | word w => Text.sameLetters w expected
  | _ => false

def isRemark : Token → Bool
  | remark _ => true
  | _ => false

def words? : Token → Option String
  | word w => some w
  | link text _ => some text
  | remark _ | question => none

/-- The words and link texts of a phrase, with spaces between them. -/
def plainText (tokens : List Token) : String :=
  Text.join " " (tokens.filterMap words?)

/-- The text up to the bracket that closes the one before it, and the text after that; `depth`
counts the brackets open in between. -/
def enclosed? (opening closing : Char) : (depth : Nat) → List Char → Option (List Char × List Char)
  | _, [] => none
  | depth, c :: cs =>
    if c = opening then (enclosed? opening closing (depth + 1) cs).map fun r => (c :: r.1, r.2)
    else if c = closing then
      match depth with
      | 0 => some ([], cs)
      | outer + 1 => (enclosed? opening closing outer cs).map fun r => (c :: r.1, r.2)
    else (enclosed? opening closing depth cs).map fun r => (c :: r.1, r.2)

/-- As `enclosed?`, but a bracket that is never closed reaches to the end. -/
def enclosed (opening closing : Char) (cs : List Char) : List Char × List Char :=
  (enclosed? opening closing 0 cs).getD (cs, [])

theorem length_of_enclosed? {opening closing : Char} {depth : Nat} {cs inside after : List Char}
    (h : enclosed? opening closing depth cs = some (inside, after)) :
    inside.length + after.length < cs.length := by
  induction cs generalizing depth inside with
  | nil => simp [enclosed?] at h
  | cons c cs ih =>
    have hPush {d : Nat} (h : (enclosed? opening closing d cs).map
        (fun r => (c :: r.1, r.2)) = some (inside, after)) :
        inside.length + after.length < (c :: cs).length := by
      obtain ⟨⟨i, a⟩, hr, he⟩ := Option.map_eq_some_iff.1 h
      obtain ⟨rfl, rfl⟩ := Prod.mk.inj he
      have : i.length + a.length < cs.length := ih hr
      simp only [List.length_cons]
      omega
    unfold enclosed? at h
    split at h
    · exact hPush h
    split at h
    · cases depth with
      | zero =>
        obtain ⟨rfl, rfl⟩ := Prod.mk.inj (Option.some.inj h)
        simp
      | succ outer => exact hPush h
    · exact hPush h

theorem length_enclosed_le (opening closing : Char) (cs : List Char) :
    (enclosed opening closing cs).1.length + (enclosed opening closing cs).2.length ≤
      cs.length := by
  unfold enclosed
  cases h : enclosed? opening closing 0 cs with
  | none => simp
  | some r =>
    obtain ⟨inside, after⟩ := r
    exact Nat.le_of_lt (length_of_enclosed? h)

/-- The text and target of a link whose opening bracket has been read, and what follows it. -/
def link? (cs : List Char) : Option (Token × List Char) :=
  match enclosed? '[' ']' 0 cs with
  | some (text, '(' :: after) =>
    (enclosed? '(' ')' 0 after).map fun (target, rest) =>
      (.link (String.ofList (Text.trim text)) (String.ofList (Text.trim target)), rest)
  | _ => none

theorem length_of_link? {cs rest : List Char} {token : Token}
    (h : link? cs = some (token, rest)) : rest.length < cs.length := by
  unfold link? at h
  split at h
  · rename_i text after hText
    obtain ⟨⟨target, rest'⟩, hTarget, he⟩ := Option.map_eq_some_iff.1 h
    obtain ⟨_, rfl⟩ := Prod.mk.inj he
    have hOuter := length_of_enclosed? hText
    have hInner := length_of_enclosed? hTarget
    simp only [List.length_cons] at hOuter
    omega
  · cases h

def endsWord (c : Char) : Bool :=
  Text.isBlank c || c == '?' || c == '(' || c == '['

def isPunctuation (c : Char) : Bool :=
  c == ',' || c == ';' || c == ':' || c == '\x22' || c == ')' || c == ']'

/-- The word in a stretch of characters, if anything is left of it. -/
def word? (cs : List Char) : Option Token :=
  let kept := Text.dropEndWhile isPunctuation
    ((cs.filter fun c => !Markup.isMark c).dropWhile isPunctuation)
  if kept.isEmpty then none else some (.word (String.ofList kept))

/-- Cuts characters into tokens. Brackets that make no link are dropped, and what they enclose
is read as if they were not there. -/
def ofChars : List Char → List Token
  | [] => []
  | c :: cs =>
    if Text.isBlank c then ofChars cs
    else if c = '?' then .question :: ofChars cs
    else if c = '(' then
      .remark (String.ofList (Text.trim (enclosed '(' ')' cs).1)) ::
        ofChars (enclosed '(' ')' cs).2
    else if c = '[' then
      match _found : link? cs with
      | some (token, rest) => token :: ofChars rest
      | none => ofChars (enclosed '[' ']' cs).1 ++ ofChars (enclosed '[' ']' cs).2
    else
      (word? (c :: cs.takeWhile fun d => !endsWord d)).toList ++
        ofChars (cs.dropWhile fun d => !endsWord d)
termination_by cs => cs.length
decreasing_by
  all_goals simp only [List.length_cons]
  · omega
  · omega
  · have := length_enclosed_le '(' ')' cs
    omega
  · have := length_of_link? (by assumption)
    omega
  · have := length_enclosed_le '[' ']' cs
    omega
  · have := length_enclosed_le '[' ']' cs
    omega
  · have := (List.dropWhile_sublist (l := cs) fun d => !endsWord d).length_le
    omega

def ofPhrase (phrase : String) : List Token :=
  ofChars phrase.toList

end Token

end ProseTypes
