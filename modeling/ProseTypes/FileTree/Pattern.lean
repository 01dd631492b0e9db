import ProseTypes.FileTree.Path

/-!
# File patterns

A pattern is a path whose segments may have wildcards: a question mark stands for one character,
a star for any number of them, and brackets for one of a set of characters or, with an exclamation
mark, for one outside it. A segment of two stars stands for any number of directories.
-/

namespace ProseTypes.Pattern

inductive Wildcard where
  | char (c : Char)
  | anyChar
  | anyText
  | oneOf (ranges : List (Char × Char))
  | noneOf (ranges : List (Char × Char))
deriving DecidableEq, Repr

namespace Wildcard

def inSome (ranges : List (Char × Char)) (c : Char) : Bool :=
  ranges.any fun range => range.1 ≤ c && c ≤ range.2

/-- Says whether a wildcard for one character accepts it. -/
def accepts (c : Char) : Wildcard → Bool
  | char d => c == d
  | anyChar => true
  | anyText => false
  | oneOf ranges => inSome ranges c
  | noneOf ranges => !inSome ranges c

def acceptAll : List Wildcard → List Char → Bool
  | [], cs => cs.isEmpty
  | anyText :: rest, cs => Text.anySuffix (acceptAll rest) cs
  | _ :: _, [] => false
  | wildcard :: rest, c :: cs => wildcard.accepts c && acceptAll rest cs

/-- The ranges in brackets: three characters with a hyphen in the middle, or single ones. -/
def ranges : List Char → List (Char × Char)
  | a :: '-' :: b :: cs => (a, b) :: ranges cs
  | a :: cs => (a, a) :: ranges cs
  | [] => []

/-- A set of characters whose opening bracket has been read, with what follows it. The first
character of a set may be a closing bracket. -/
def set? : List Char → Option (Wildcard × List Char)
  | '!' :: first :: cs =>
    (Text.cutFirst? (· == ']') cs).map fun (more, after) => (noneOf (ranges (first :: more)), after)
  | first :: cs =>
    if first = '!' then none
    else (Text.cutFirst? (· == ']') cs).map fun (more, after) =>
      (oneOf (ranges (first :: more)), after)
  | [] => none

theorem length_of_cutFirst? {p : Char → Bool} {cs before after : List Char}
    (h : Text.cutFirst? p cs = some (before, after)) : after.length < cs.length := by
  induction cs generalizing before with
  | nil => simp [Text.cutFirst?] at h
  | cons c cs ih =>
    unfold Text.cutFirst? at h
    split at h
    · obtain ⟨_, rfl⟩ := Prod.mk.inj (Option.some.inj h)
      simp
    · obtain ⟨⟨b, a⟩, hCut, he⟩ := Option.map_eq_some_iff.1 h
      obtain ⟨_, rfl⟩ := Prod.mk.inj he
      exact Nat.lt_succ_of_lt (ih hCut)

theorem length_of_set? {cs after : List Char} {wildcard : Wildcard}
    (h : set? cs = some (wildcard, after)) : after.length < cs.length := by
  unfold set? at h
  split at h
  · obtain ⟨⟨b, a⟩, hCut, he⟩ := Option.map_eq_some_iff.1 h
    obtain ⟨_, rfl⟩ := Prod.mk.inj he
    have := length_of_cutFirst? hCut
    simp only [List.length_cons]
    omega
  · split at h
    · cases h
    · obtain ⟨⟨b, a⟩, hCut, he⟩ := Option.map_eq_some_iff.1 h
      obtain ⟨_, rfl⟩ := Prod.mk.inj he
      have := length_of_cutFirst? hCut
      simp only [List.length_cons]
      omega
  · cases h

/-- Reads wildcards. Two stars in a row and a bracket that opens no set are mistakes. -/
def ofChars? : List Char → Option (List Wildcard)
  | [] => some []
  | c :: cs =>
    if c = '?' then (ofChars? cs).map (anyChar :: ·)
    else if c = '*' then
      if cs.head? == some '*' then none else (ofChars? cs).map (anyText :: ·)
    else if c = '[' then
      match _found : set? cs with
      | some (wildcard, after) => (ofChars? after).map (wildcard :: ·)
      | none => none
    else (ofChars? cs).map (char c :: ·)
termination_by cs => cs.length
decreasing_by
  all_goals simp only [List.length_cons]
  · omega
  · omega
  · have := length_of_set? (by assumption)
    omega
  · omega

/-- The character that a wildcard stands for, if it is no wildcard at all. -/
def char? : Wildcard → Option Char
  | char c => some c
  | _ => none

end Wildcard

/-- A segment of a pattern: a name, a name with wildcards, or any number of directories. -/
inductive Segment where
  | literal (name : String)
  | wild (wildcards : List Wildcard)
  | anyDepth
deriving DecidableEq, Repr

namespace Segment

def ofChars? (cs : List Char) : Option Segment :=
  if cs = ['*', '*'] then some .anyDepth
  else (Wildcard.ofChars? cs).map fun wildcards =>
    if wildcards.all fun w => w.char?.isSome then .literal (String.ofList cs) else .wild wildcards

/-- Says whether a segment accepts a name. -/
def accepts (name : String) : Segment → Bool
  | literal expected => name == expected
  | wild wildcards => Wildcard.acceptAll wildcards name.toList
  | anyDepth => false

/-- Says whether a segment may also stand for the current or the parent directory: it has to
start with a dot. -/
def startsWithDot : Segment → Bool
  | wild (.char '.' :: _) => true
  | _ => false

def collapse : List Segment → List Segment
  | anyDepth :: anyDepth :: rest => collapse (anyDepth :: rest)
  | segment :: rest => segment :: collapse rest
  | [] => []

end Segment

/-- The segments of a pattern, if it has no mistakes. A slash at its end adds none. -/
def ofText? (pattern : String) : Option (List Segment) :=
  let relative := pattern.toList.dropWhile (· == '/')
  let pieces := Text.pieces (· == '/') relative
  let pieces := if pieces.getLast? == some [] && 1 < pieces.length then pieces.dropLast else pieces
  (pieces.mapM Segment.ofChars?).map Segment.collapse

end ProseTypes.Pattern
