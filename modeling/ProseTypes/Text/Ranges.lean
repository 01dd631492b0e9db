/-!
# Character classes given by a table of boundaries

A class of characters is written as an increasing list of code points in pairs: each pair holds
the first code point of a stretch inside the class and the first one after it.
-/

namespace ProseTypes.Text

/-- Says whether code point `n` lies in one of the stretches of a table of boundaries. -/
def inRanges : (boundaries : List Nat) → (n : Nat) → Bool
  | first :: past :: rest, n => (first ≤ n && n < past) || (past ≤ n && inRanges rest n)
  | _, _ => false

end ProseTypes.Text
