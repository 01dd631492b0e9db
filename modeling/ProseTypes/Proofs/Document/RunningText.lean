import ProseTypes.Document.Block
import ProseTypes.Proofs.Text.Cutting

/-!
# Running text

A paragraph joins the lines of a run, without the gaps at its ends.  It can be made line by line
too: a gap after a run changes nothing at first (`Item.paragraph?_append_gap`), and a line of text
comes after the text so far and the gaps since then (`Item.paragraph?_append_text`).
-/

namespace ProseTypes

namespace Text

theorem join_replicate_append (count : Nat) (text : String) :
    "\n" ++ join "\n" (List.replicate count "" ++ [text]) =
      String.ofList (List.replicate (count + 1) '\n') ++ text := by
  have hLine : String.ofList ['\n'] = "\n" := rfl
  induction count with
  | zero => rw [List.replicate_zero, List.nil_append, join_singleton, List.replicate_one, hLine]
  | succ count ih =>
    rw [List.replicate_succ, List.replicate_succ, List.cons_append,
      ← List.singleton_append (l := List.replicate (count + 1) '\n'), String.ofList_append,
      String.append_assoc, ← ih, hLine, ← List.singleton_append,
      join_append _ (by simp) (by simp), join_singleton, String.empty_append]

end Text

namespace Item

def core (run : List Item) : List Item :=
  ((run.dropWhile isGap).reverse.dropWhile isGap).reverse

def gapsAfter (run : List Item) : Nat :=
  ((run.dropWhile isGap).reverse.takeWhile isGap).length

theorem paragraph?_of_core_nil {run : List Item} (h : core run = []) : paragraph? run = none := by
  rw [core] at h
  rw [paragraph?, h]

theorem paragraph?_of_core {run : List Item} (h : core run ≠ []) :
    paragraph? run = some (.text (Text.join "\n" ((core run).map line))) := by
  obtain ⟨item, items, hCore⟩ := List.exists_cons_of_ne_nil h
  rw [hCore]
  rw [core] at hCore
  rw [paragraph?, hCore]

theorem core_eq_nil_iff {run : List Item} : core run = [] ↔ run.dropWhile isGap = [] := by
  constructor
  · intro h
    cases hText : run.dropWhile isGap with
    | nil => rfl
    | cons item items =>
      have hGap : isGap item = true := by
        rw [core, List.reverse_eq_nil_iff, List.dropWhile_eq_nil_iff, hText] at h
        exact h item (by simp)
      have hFirst : isGap item = false := by
        have h := List.head?_dropWhile_not isGap run
        rwa [hText] at h
      rw [hGap] at hFirst
      cases hFirst
  · intro h
    rw [core, h]
    rfl

theorem core_append_gap (run : List Item) : core (run ++ [.gap]) = core run := by
  rw [core, core, List.dropWhile_append]
  split
  · rename_i hNone
    rw [List.isEmpty_iff.mp hNone]
    rfl
  · rw [List.reverse_append, List.reverse_singleton, List.singleton_append,
      List.dropWhile_cons_of_pos rfl]

theorem paragraph?_append_gap (run : List Item) : paragraph? (run ++ [.gap]) = paragraph? run := by
  by_cases hCore : core run = []
  · rw [paragraph?_of_core_nil hCore, paragraph?_of_core_nil (by rw [core_append_gap, hCore])]
  · rw [paragraph?_of_core hCore, paragraph?_of_core (by rw [core_append_gap]; exact hCore),
      core_append_gap]

theorem gapsAfter_append_gap {run : List Item} (h : core run ≠ []) :
    gapsAfter (run ++ [.gap]) = gapsAfter run + 1 := by
  have hText : run.dropWhile isGap ≠ [] := core_eq_nil_iff.not.mp h
  rw [gapsAfter, gapsAfter, List.dropWhile_append, if_neg (by simpa using hText),
    List.reverse_append, List.reverse_singleton, List.singleton_append,
    List.takeWhile_cons_of_pos rfl, List.length_cons]

theorem gapsAfter_append_text (run : List Item) (content : String) :
    gapsAfter (run ++ [.text content]) = 0 := by
  rw [gapsAfter, List.dropWhile_append]
  split
  · rfl
  · rw [List.reverse_append, List.reverse_singleton, List.singleton_append,
      List.takeWhile_cons_of_neg (by simp [isGap]), List.length_nil]

theorem core_append_text (run : List Item) (content : String) :
    core (run ++ [.text content]) = run.dropWhile isGap ++ [.text content] := by
  rw [core, List.dropWhile_append]
  split
  · rename_i hNone
    rw [List.isEmpty_iff.mp hNone]
    rfl
  · rw [List.reverse_append, List.reverse_singleton, List.singleton_append,
      List.dropWhile_cons_of_neg (by simp [isGap]), List.reverse_cons, List.reverse_reverse]

/-- The lines of a run from its first text on, the gaps after its last text as empty lines. -/
theorem map_line_dropWhile (run : List Item) :
    (run.dropWhile isGap).map line =
      (core run).map line ++ List.replicate (gapsAfter run) "" := by
  let gaps := ((run.dropWhile isGap).reverse.takeWhile isGap).reverse
  have hSplit : run.dropWhile isGap = core run ++ gaps := by
    rw [core, ← List.reverse_append, List.takeWhile_append_dropWhile, List.reverse_reverse]
  have hGaps : gaps.map line = List.replicate (gapsAfter run) "" := by
    refine List.eq_replicate_iff.mpr ⟨by simp [gaps, gapsAfter], fun text hMem => ?_⟩
    obtain ⟨item, hItem, rfl⟩ := List.mem_map.mp hMem
    have hGap := List.mem_takeWhile_imp (List.mem_reverse.mp hItem)
    cases item with
    | gap => rfl
    | block made => cases hGap
    | text content => cases hGap
  rw [hSplit, List.map_append, hGaps]

theorem paragraph?_append_text_of_nil {run : List Item} (h : core run = []) (content : String) :
    paragraph? (run ++ [.text content]) = some (.text content) := by
  have hCore : core (run ++ [.text content]) = [.text content] := by
    rw [core_append_text, core_eq_nil_iff.mp h, List.nil_append]
  rw [paragraph?_of_core (by rw [hCore]; simp), hCore, List.map_singleton, Text.join_singleton]
  rfl

/-- **A line of text after a paragraph** comes after the gaps at the end of the run. -/
theorem paragraph?_append_text {run : List Item} (h : core run ≠ []) (content : String) :
    paragraph? (run ++ [.text content]) = some (.text (Text.join "\n" ((core run).map line) ++
      String.ofList (List.replicate (gapsAfter run + 1) '\n') ++ content)) := by
  have hCore : core (run ++ [.text content]) ≠ [] := by
    rw [core_append_text]
    simp
  have hLines : (core (run ++ [.text content])).map line =
      (core run).map line ++ (List.replicate (gapsAfter run) "" ++ [content]) := by
    rw [core_append_text, List.map_append, map_line_dropWhile, List.append_assoc]
    rfl
  rw [paragraph?_of_core hCore, hLines, Text.join_append _ (by simpa using h) (by simp),
    String.append_assoc, String.append_assoc, Text.join_replicate_append]

end Item

end ProseTypes
