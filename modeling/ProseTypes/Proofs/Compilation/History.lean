import ProseTypes.Proofs.Compilation.Operations
import ProseTypes.Proofs.Resolution.Steps

/-!
# Types do not depend on history

What has been registered decides which identifiers a type refers to, and nothing else.  A type with
the names of structures in place of references (`Symbol.named`) is that of its reading
(`Indexed.named_symbol`), and a reading knows no registry.  The text of a type is the text of its
named form (`Symbol.text_eq`).  So a phrase has the same text and the same tree after any
operations, whichever structures they registered and in whichever order
(`Corpus.resolvePhrase_independent`).
-/

namespace ProseTypes

variable {index : LinkIndex}

namespace TypeTree

variable {α β γ : Type}

theorem map_map (f : α → β) (g : β → γ) (t : TypeTree α) :
    (t.map f).map g = t.map fun a => g (f a) := by
  induction t with
  | leaf a => rfl
  | array t ih => exact congrArg array ih
  | nullable t ih => exact congrArg nullable ih
  | partialOf t ih => exact congrArg partialOf ih
  | either l r ihl ihr => rw [map, map, map, ihl, ihr]

theorem exists_leaf_of_map {f : α → β} {t : TypeTree α} {b : β} (h : t.map f = .leaf b) :
    ∃ a, t = .leaf a ∧ f a = b := by
  cases t with
  | leaf a => exact ⟨a, rfl, leaf.inj h⟩
  | array t => cases h
  | nullable t => cases h
  | partialOf t => cases h
  | either l r => cases h

@[simp] theorem isUnion_map (f : α → β) (t : TypeTree α) : (t.map f).isUnion = t.isUnion := by
  cases t <;> rfl

@[simp] theorem isEither_map (f : α → β) (t : TypeTree α) : (t.map f).isEither = t.isEither := by
  cases t <;> rfl

@[simp] theorem isNullable_map (f : α → β) (t : TypeTree α) :
    (t.map f).isNullable = t.isNullable := by
  cases t <;> rfl

/-- **Parentheses depend on the tree alone**, so a text can be taken after the leaves have been
replaced. -/
theorem text_map (f : α → β) (leafText : β → String) (t : TypeTree α) :
    (t.map f).text leafText = t.text fun a => leafText (f a) := by
  induction t with
  | leaf a => rfl
  | array t ih => simp only [map, text, ih, isUnion_map]
  | nullable t ih => simp only [map, text, ih, isEither_map, isNullable_map]
  | partialOf t ih => simp only [map, text, ih]
  | either l r ihl ihr => simp only [map, text, ihl, ihr]

end TypeTree

/-! ### Types by name -/

def Symbol.named (s : Symbol) : TypeTree (Atom String) :=
  TypeTree.map (Atom.map StructureRef.name) s

def Reading.named (reading : Reading index) : TypeTree (Atom String) :=
  TypeTree.map (fun leaf => leaf.atom.map fun linked => linked.1.name) reading

/-- **The text of a type is the text of its named form.** -/
theorem Symbol.text_eq (s : Symbol) : s.text = TypeTree.text (Atom.text id) s.named := by
  rw [named, TypeTree.text_map, text]
  refine congrArg (TypeTree.text · s) (funext fun atom => ?_)
  cases atom <;> rfl

/-- **A symbol whose links are all registered has the named form of its reading.** -/
theorem Registry.Indexed.named_symbol {registry : Registry} (h : registry.Indexed)
    {reading : Reading index} (hLinks : ∀ linked ∈ reading.links, registry.has linked.1.name) :
    (registry.symbol reading).named = reading.named := by
  rw [Symbol.named, Registry.symbol, TypeTree.map_map]
  refine TypeTree.map_congr fun leaf hLeaf => ?_
  cases hAtom : leaf.atom with
  | primitive p => rfl
  | named linked =>
    have hLinked := hLinks linked (Reading.mem_links.mpr ⟨leaf, hLeaf, hAtom⟩)
    exact congrArg Atom.named (h.name_refTo hLinked)
  | unknown => rfl

/-- Wherever the recursion of a resolution ends, its symbol has the named form of the reading. -/
theorem Resolves.named_eq {r after : Registry} {tokens : List Token} {s : Symbol}
    {made : List Resource} (h : Resolves index r tokens s made after) (hr : r.Indexed) :
    s.named = (Reading.ofTokens index tokens).named := by
  obtain ⟨rfl, rfl⟩ := h.sound hr
  exact (hr.reach _).named_symbol fun linked hLinked => Registry.has_of_mem_reach hLinked r

/-- **The text of a reading is the text of its named form.** -/
theorem Reading.text_eq (reading : Reading index) :
    reading.text = TypeTree.text (Atom.text id) reading.named := by
  rw [named, TypeTree.text_map, text]
  refine congrArg (TypeTree.text · reading) (funext fun leaf => ?_)
  cases leaf.atom <;> rfl

/-! ### Phrases after any operations -/

namespace Progress

variable {progress : Progress}

theorem Sound.named_resolvePhrase (h : progress.Sound) (phrase : String) :
    (progress.resolvePhrase index phrase).1.named = (Reading.ofPhrase index phrase).named := by
  have hAfter := h.of_grows (grows_resolve index progress (Reading.ofPhrase index phrase))
  refine hAfter.registry.indexed.named_symbol fun linked hLinked => ?_
  rw [registry_resolve]
  exact Registry.has_of_mem_reach hLinked _

/-- **A phrase has the text of its reading.** -/
theorem Sound.text_resolvePhrase (h : progress.Sound) (phrase : String) :
    (progress.resolvePhrase index phrase).1.text = (Reading.ofPhrase index phrase).text := by
  rw [Symbol.text_eq, h.named_resolvePhrase, Reading.text_eq]

end Progress

/-- **The type of a phrase does not depend on history**: whatever two runs have asked of a corpus,
with whichever scope, the phrase has the same text in both, and the same tree up to the identifiers
of structures. -/
theorem Corpus.resolvePhrase_independent (corpus : Corpus) (scope other : Scope)
    (operations others : List Operation) (phrase : String) :
    ((corpus.perform scope operations).resolvePhrase corpus.index phrase).1.text =
      ((corpus.perform other others).resolvePhrase corpus.index phrase).1.text ∧
    ((corpus.perform scope operations).resolvePhrase corpus.index phrase).1.named =
      ((corpus.perform other others).resolvePhrase corpus.index phrase).1.named := by
  have hFirst := corpus.sound_perform scope operations
  have hSecond := corpus.sound_perform other others
  constructor
  · rw [hFirst.text_resolvePhrase, hSecond.text_resolvePhrase]
  · rw [hFirst.named_resolvePhrase, hSecond.named_resolvePhrase]

end ProseTypes
