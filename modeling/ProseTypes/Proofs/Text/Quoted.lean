import ProseTypes.Structure.Value

/-!
# Reading quoted strings

`span?` cuts a quoted string at the first quotation mark without a backslash in front of it, and
`decode?` takes the escapes of JSON back.  What `quote` writes is cut where it ends, whatever follows
(`span?_encode`), and taken back to what was quoted (`decode?_encode`).
-/

namespace ProseTypes.Text.Quoted

/-- The text up to the quotation mark that closes a string, with its escapes, and what follows. -/
def span? : List Char → Option (List Char × List Char)
  | [] => none
  | ['\\'] => none
  | '\\' :: c :: cs => (span? cs).map fun (raw, rest) => ('\\' :: c :: raw, rest)
  | c :: cs =>
    if c = mark then some ([], cs)
    else (span? cs).map fun (raw, rest) => (c :: raw, rest)

def digit? (c : Char) : Option Nat :=
  if Value.isHexDigit c then
    some (if c.isDigit then c.toNat - 48 else c.toLower.toNat - 87)
  else none

/-- The character with a number of four hexadecimal digits. -/
def unicode? (a b c d : Char) : Option Char := do
  let n := 4096 * (← digit? a) + 256 * (← digit? b) + 16 * (← digit? c) + (← digit? d)
  if n.isValidChar then some (Char.ofNat n) else none

/-- The character that a backslash and a letter stand for. -/
def escape? (c : Char) : Option Char :=
  [(mark, mark), ('\\', '\\'), ('/', '/'), ('b', '\x08'), ('f', '\x0c'), ('n', '\n'), ('r', '\r'),
    ('t', '\t')].lookup c

/-- The text that a text with escapes stands for. -/
def decode? : List Char → Option (List Char)
  | [] => some []
  | '\\' :: 'u' :: a :: b :: c :: d :: cs => do
    let one ← unicode? a b c d
    let rest ← decode? cs
    return one :: rest
  | '\\' :: c :: cs => do
    let one ← escape? c
    let rest ← decode? cs
    return one :: rest
  | ['\\'] => none
  | c :: cs => (decode? cs).map (c :: ·)

/-- How the characters are written that do not stand for themselves: with a backslash and one
character, or with their number. -/
theorem encodeChar_cases (c : Char) :
    (∃ e, escape? e = some c ∧ e ≠ 'u' ∧ encodeChar c = ['\\', e]) ∨
    (c.toNat < 32 ∧ encodeChar c = '\\' :: 'u' :: hexDigits c.toNat) ∨
    (c ≠ mark ∧ c ≠ '\\' ∧ encodeChar c = [c]) := by
  unfold encodeChar
  split
  · rename_i h
    exact Or.inl ⟨mark, by rw [h]; rfl, by decide, rfl⟩
  split
  · rename_i h
    exact Or.inl ⟨'\\', by rw [h]; rfl, by decide, rfl⟩
  split
  · rename_i h
    exact Or.inl ⟨'n', by rw [h]; rfl, by decide, rfl⟩
  split
  · rename_i h
    exact Or.inl ⟨'r', by rw [h]; rfl, by decide, rfl⟩
  split
  · rename_i h
    exact Or.inl ⟨'t', by rw [h]; rfl, by decide, rfl⟩
  split
  · rename_i h
    have hChar : c = '\x08' := Char.toNat_inj.mp h
    exact Or.inl ⟨'b', by rw [hChar]; rfl, by decide, rfl⟩
  split
  · rename_i h
    have hChar : c = '\x0c' := Char.toNat_inj.mp h
    exact Or.inl ⟨'f', by rw [hChar]; rfl, by decide, rfl⟩
  split
  · rename_i h
    exact Or.inr (Or.inl ⟨h, rfl⟩)
  · rename_i hMark hBackslash _ _ _ _ _ _
    exact Or.inr (Or.inr ⟨hMark, hBackslash, rfl⟩)

theorem span?_of_plain {c : Char} (hMark : c ≠ mark) (hBackslash : c ≠ '\\') (cs : List Char) :
    span? (c :: cs) = (span? cs).map fun (raw, rest) => (c :: raw, rest) := by
  rw [span?.eq_def]
  split
  · rename_i hEq
    cases hEq
  · rename_i hEq
    exact absurd (List.cons.inj hEq).1 hBackslash
  · rename_i hEq
    exact absurd (List.cons.inj hEq).1 hBackslash
  · rename_i hEq
    cases hEq
    exact if_neg hMark

theorem span?_encodeChar (c : Char) (cs : List Char) :
    span? (encodeChar c ++ cs) =
      (span? cs).map fun (raw, rest) => (encodeChar c ++ raw, rest) := by
  rcases encodeChar_cases c with ⟨e, -, -, h⟩ | ⟨-, h⟩ | ⟨hMark, hBackslash, h⟩
  · rw [h]
    rfl
  · have hDigit (n : Nat) : Nat.digitChar (n % 16) ≠ mark ∧ Nat.digitChar (n % 16) ≠ '\\' := by
      have hAll : ∀ n, n < 16 → Nat.digitChar n ≠ mark ∧ Nat.digitChar n ≠ '\\' := by decide
      exact hAll _ (Nat.mod_lt n (by decide))
    rw [h, hexDigits]
    simp only [List.map_cons, List.map_nil, List.cons_append, List.nil_append, span?,
      span?_of_plain (hDigit _).1 (hDigit _).2, Option.map_map]
    rfl
  · rw [h]
    exact span?_of_plain hMark hBackslash cs

/-- **A quoted string ends where it was closed**, whatever follows. -/
theorem span?_encode (cs rest : List Char) :
    span? (encode cs ++ mark :: rest) = some (encode cs, rest) := by
  induction cs with
  | nil => rfl
  | cons c cs ih =>
    rw [encode, List.flatMap_cons, List.append_assoc, span?_encodeChar]
    rw [encode] at ih
    rw [ih]
    rfl

theorem unicode?_hexDigits {n : Nat} (h : n < 32) :
    ∃ a b c d, hexDigits n = [a, b, c, d] ∧ unicode? a b c d = some (Char.ofNat n) := by
  have hAll : ∀ n, n < 32 → unicode? (Nat.digitChar (n / 4096 % 16)) (Nat.digitChar (n / 256 % 16))
      (Nat.digitChar (n / 16 % 16)) (Nat.digitChar (n % 16)) = some (Char.ofNat n) := by
    decide +kernel
  exact ⟨_, _, _, _, rfl, hAll n h⟩

theorem decode?_encodeChar (c : Char) (cs : List Char) :
    decode? (encodeChar c ++ cs) = (decode? cs).map (c :: ·) := by
  rcases encodeChar_cases c with ⟨e, hEscape, hNotU, h⟩ | ⟨hSmall, h⟩ | ⟨-, hBackslash, h⟩
  · rw [h, List.cons_append, List.singleton_append, decode?.eq_def]
    split
    · rename_i hEq
      cases hEq
    · rename_i hEq
      exact absurd (List.cons.inj (List.cons.inj hEq).2).1 hNotU
    · rename_i hEq
      cases hEq
      rw [hEscape]
      cases decode? cs <;> rfl
    · rename_i hEq
      cases hEq
    · rename_i hNone _ hEq
      cases hEq
      exact (hNone e cs rfl rfl).elim
  · obtain ⟨a, b, d, e, hDigits, hUnicode⟩ := unicode?_hexDigits hSmall
    rw [h, hDigits]
    show (do
      let one ← unicode? a b d e
      let rest ← decode? cs
      return one :: rest) = _
    rw [hUnicode, Char.ofNat_toNat]
    cases decode? cs <;> rfl
  · rw [h, List.singleton_append, decode?.eq_def]
    split
    · rename_i hEq
      cases hEq
    · rename_i hEq
      exact absurd (List.cons.inj hEq).1 hBackslash
    · rename_i hEq
      exact absurd (List.cons.inj hEq).1 hBackslash
    · rename_i hEq
      exact absurd (List.cons.inj hEq).1 hBackslash
    · rename_i hEq
      cases hEq
      rfl

/-- **Quoting is taken back.** -/
theorem decode?_encode (cs : List Char) : decode? (encode cs) = some cs := by
  induction cs with
  | nil => rfl
  | cons c cs ih =>
    rw [encode, List.flatMap_cons, decode?_encodeChar]
    rw [encode] at ih
    rw [ih]
    rfl

end ProseTypes.Text.Quoted
