import ProseTypes.Proofs.Compilation.History

/-!
# What resources mean to indexes that agree

Two link indexes may list the same sections in different orders.  If every lookup finds the same
section in both, then a phrase has the same reading in both up to the proofs that its resources are
indexed (`Agrees.bare_ofTokens`).  So a resource links to the same resources (`Agrees.linksTo_iff`)
and has the same draft (`Agrees.bare_draft`).
-/

namespace ProseTypes

variable {first second : LinkIndex}

def LinkIndex.Agrees (first second : LinkIndex) : Prop :=
  ∀ target, first.find? target = second.find? target

/-- A reading with resources at its leaves and nothing else. -/
def Reading.bare {index : LinkIndex} (reading : Reading index) : TypeTree (Atom Resource) :=
  TypeTree.map (fun leaf => leaf.atom.map Subtype.val) reading

theorem Reading.named_eq {index : LinkIndex} (reading : Reading index) :
    reading.named = reading.bare.map (Atom.map Resource.name) := by
  rw [bare, TypeTree.map_map, named]
  refine TypeTree.map_congr fun leaf _ => ?_
  cases leaf.atom <;> rfl

theorem Reading.map_name_links {index : LinkIndex} (reading : Reading index) :
    reading.links.map (fun linked => linked.1.name) =
      (TypeTree.leaves reading.named).filterMap Atom.ref? := by
  rw [links, named, TypeTree.leaves_map, List.map_filterMap, List.filterMap_map]
  refine congrArg (List.filterMap · (TypeTree.leaves reading)) (funext fun leaf => ?_)
  cases h : leaf.atom <;> simp [Atom.ref?, Atom.map, h]

theorem Reading.occurs_bare_iff {index : LinkIndex} {reading : Reading index}
    {resource : Resource} : TypeTree.Occurs (.named resource) reading.bare ↔
      ∃ linked ∈ reading.links, linked.1 = resource := by
  rw [TypeTree.occurs_iff_mem_leaves, bare, TypeTree.leaves_map, List.mem_map]
  constructor
  · rintro ⟨leaf, hLeaf, hAtom⟩
    cases hNamed : leaf.atom with
    | named linked =>
      rw [hNamed] at hAtom
      exact ⟨linked, mem_links.mpr ⟨leaf, hLeaf, hNamed⟩, by cases hAtom; rfl⟩
    | primitive p =>
      rw [hNamed] at hAtom
      cases hAtom
    | unknown =>
      rw [hNamed] at hAtom
      cases hAtom
  · rintro ⟨linked, hLinked, rfl⟩
    obtain ⟨leaf, hLeaf, hNamed⟩ := mem_links.mp hLinked
    refine ⟨leaf, hLeaf, ?_⟩
    rw [hNamed]
    rfl

namespace LinkIndex

def bound? (index : LinkIndex) (target : String) : Option Resource :=
  (index.find? target).bind fun found => found.resource.toOption

theorem exists_link_of_bound? {index : LinkIndex} {target : String} {resource : Resource}
    (h : index.bound? target = some resource) :
    ∃ linked, index.link target = .ok linked ∧ linked.1 = resource := by
  obtain ⟨found, hFound, hResource⟩ := Option.bind_eq_some_iff.mp h
  cases hOk : found.resource with
  | error note =>
    rw [hOk] at hResource
    cases hResource
  | ok other =>
    rw [hOk] at hResource
    cases hResource
    exact ⟨_, (link_of_found hFound).trans (bind_of_ok _ hOk), rfl⟩

theorem exists_error_of_bound? {index : LinkIndex} {target : String}
    (h : index.bound? target = none) : ∃ note, index.link target = .error note := by
  cases hFound : index.find? target with
  | none => exact ⟨_, link_of_missing hFound⟩
  | some found =>
    rw [bound?, hFound, Option.bind_some] at h
    cases hOk : found.resource with
    | ok resource =>
      rw [hOk] at h
      cases h
    | error note => exact ⟨note, (link_of_found hFound).trans (bind_of_error _ hOk)⟩

end LinkIndex

def Leaf.atomOfWords (words : String) : Atom Resource :=
  match Leaf.primitive? words with
  | some p => .primitive p
  | none => .unknown

theorem Leaf.atom_ofWords {index : LinkIndex} (notes : List Note) (words : String) :
    (Leaf.ofWords notes words : Leaf index).atom.map Subtype.val = atomOfWords words := by
  unfold Leaf.ofWords atomOfWords
  cases Leaf.primitive? words with
  | some p => rfl
  | none =>
    dsimp only
    split <;> rfl

/-- **A link names what it binds to**, or what its text names. -/
theorem Leaf.atom_link {index : LinkIndex} (text target : String) :
    (Leaf.ofTokens [.link text target] : Leaf index).atom.map Subtype.val =
      match index.bound? target with
      | some resource => .named resource
      | none => atomOfWords text := by
  simp only [Leaf.ofTokens]
  cases hBound : index.bound? target with
  | some resource =>
    obtain ⟨linked, hLinked, rfl⟩ := LinkIndex.exists_link_of_bound? hBound
    rw [hLinked]
    rfl
  | none =>
    obtain ⟨note, hNote⟩ := LinkIndex.exists_error_of_bound? hBound
    rw [hNote]
    exact atom_ofWords _ _

def Form.map (f : Token → Token) : Form → Form
  | nothing => nothing
  | array element => array (element.map f)
  | nullable inner => nullable (inner.map f)
  | partialOf inner => partialOf (inner.map f)
  | either left right => either (left.map f) (right.map f)
  | reduced inner => reduced (inner.map f)
  | name => name

/-- **Tokens have the same bare reading** if the same forms are seen in them and the same is known of
those that name their type.  The tokens may be changed one by one, and the indexes may differ. -/
theorem Reading.bare_ofTokens_map {f : Token → Token}
    (hForm : ∀ tokens, Form.ofTokens (tokens.map f) = (Form.ofTokens tokens).map f)
    (hLeaf : ∀ tokens, (Leaf.ofTokens (tokens.map f) : Leaf second).atom.map Subtype.val =
      (Leaf.ofTokens tokens : Leaf first).atom.map Subtype.val) (tokens : List Token) :
    (Reading.ofTokens second (tokens.map f)).bare = (Reading.ofTokens first tokens).bare := by
  fun_induction Reading.ofTokens first tokens with
  | case1 =>
    rw [List.map_nil, Reading.ofTokens_eq]
    rfl
  | case2 tokens _ hHere =>
    rw [Reading.ofTokens_eq second, hForm, hHere]
    rfl
  | case3 tokens _ inner hHere ih =>
    rw [Reading.ofTokens_eq second, hForm, hHere]
    exact congrArg TypeTree.array ih
  | case4 tokens _ inner hHere ih =>
    rw [Reading.ofTokens_eq second, hForm, hHere]
    exact congrArg TypeTree.nullable ih
  | case5 tokens _ inner hHere ih =>
    rw [Reading.ofTokens_eq second, hForm, hHere]
    exact congrArg TypeTree.partialOf ih
  | case6 tokens _ left right hHere ihLeft ihRight =>
    rw [Reading.ofTokens_eq second, hForm, hHere]
    exact congrArg₂ TypeTree.either ihLeft ihRight
  | case7 tokens _ inner hHere ih =>
    rw [Reading.ofTokens_eq second, hForm, hHere]
    exact ih
  | case8 tokens _ hHere =>
    rw [Reading.ofTokens_eq second, hForm, hHere]
    exact congrArg TypeTree.leaf (hLeaf tokens)

namespace LinkIndex.Agrees

variable (h : first.Agrees second)

include h

theorem atom_ofTokens (tokens : List Token) :
    (Leaf.ofTokens tokens : Leaf second).atom.map Subtype.val =
      (Leaf.ofTokens tokens : Leaf first).atom.map Subtype.val := by
  by_cases hLink : ∃ text target, tokens = [.link text target]
  · obtain ⟨text, target, rfl⟩ := hLink
    rw [Leaf.atom_link, Leaf.atom_link, bound?, bound?, h target]
  · have hOther : ∀ text target, tokens ≠ [.link text target] :=
      fun text target hEq => hLink ⟨text, target, hEq⟩
    rw [Leaf.ofTokens_of_words hOther, Leaf.ofTokens_of_words hOther, Leaf.atom_ofWords,
      Leaf.atom_ofWords]

/-- **Tokens have the same reading.** -/
theorem bare_ofTokens (tokens : List Token) :
    (Reading.ofTokens first tokens).bare = (Reading.ofTokens second tokens).bare := by
  have hForm (form : Form) : form.map id = form := by
    cases form <;> simp [Form.map]
  have hAll : (Reading.ofTokens second (tokens.map id)).bare = (Reading.ofTokens first tokens).bare :=
    Reading.bare_ofTokens_map (fun tokens => by rw [List.map_id, hForm])
      (fun tokens => by rw [List.map_id, h.atom_ofTokens]) tokens
  rw [List.map_id] at hAll
  exact hAll.symm

theorem bare_ofPhrase (phrase : String) :
    (Reading.ofPhrase first phrase).bare = (Reading.ofPhrase second phrase).bare :=
  h.bare_ofTokens _

/-- **A resource has the same draft.** -/
theorem bare_draft (resource : Resource) :
    (resource.draft first).map Reading.bare = (resource.draft second).map Reading.bare := by
  have hType (row : List String) :
      (resource.typeOf first row).bare = (resource.typeOf second row).bare := by
    unfold Resource.typeOf
    cases resource.table.cell? row resource.shape.value with
    | some phrase => exact h.bare_ofPhrase phrase
    | none => rfl
  have hField (row : List String) :
      (resource.field? first row).map (fun field => (⟨field.key, field.optional,
        Reading.bare field.type, field.description⟩ : Field (TypeTree (Atom Resource)))) =
      (resource.field? second row).map fun field => ⟨field.key, field.optional,
        Reading.bare field.type, field.description⟩ := by
    unfold Resource.field?
    cases resource.key? row with
    | none => rfl
    | some key =>
      simp only [Option.map_some, hType]
  unfold Resource.draft
  cases resource.shape.kind with
  | enumeration => rfl
  | interface =>
    simp only [Body.map, List.map_filterMap, hField]

theorem named_draft (resource : Resource) :
    (resource.draft first).map Reading.named = (resource.draft second).map Reading.named := by
  have hNamed (index : LinkIndex) : (resource.draft index).map Reading.named =
      ((resource.draft index).map Reading.bare).map (TypeTree.map (Atom.map Resource.name)) := by
    cases resource.draft index with
    | enumeration constants => rfl
    | interface fields =>
      simp only [Body.map, List.map_map, Function.comp_def, Reading.named_eq]
  rw [hNamed, hNamed, h.bare_draft]

end LinkIndex.Agrees

def Resource.LinksTo (index : LinkIndex) (resource other : Resource) : Prop :=
  ∃ linked ∈ resource.links index, linked.1 = other

theorem Resource.linksTo_iff {index : LinkIndex} {resource other : Resource} :
    resource.LinksTo index other ↔ ∃ field ∈ ((resource.draft index).map Reading.bare).fields,
      TypeTree.Occurs (.named other) field.type := by
  have hFields : ((resource.draft index).map Reading.bare).fields =
      (resource.draft index).fields.map fun field =>
        ⟨field.key, field.optional, field.type.bare, field.description⟩ := by
    cases resource.draft index <;> rfl
  rw [hFields]
  constructor
  · rintro ⟨linked, hLinked, hOther⟩
    obtain ⟨field, hField, hLinked⟩ := List.mem_flatMap.mp hLinked
    exact ⟨_, List.mem_map_of_mem hField, Reading.occurs_bare_iff.mpr ⟨linked, hLinked, hOther⟩⟩
  · rintro ⟨field, hField, hOccurs⟩
    obtain ⟨source, hSource, rfl⟩ := List.mem_map.mp hField
    obtain ⟨linked, hLinked, hOther⟩ := Reading.occurs_bare_iff.mp hOccurs
    exact ⟨linked, List.mem_flatMap.mpr ⟨source, hSource, hLinked⟩, hOther⟩

/-- **A resource links to the same resources.** -/
theorem LinkIndex.Agrees.linksTo_iff (h : first.Agrees second) {resource other : Resource} :
    resource.LinksTo first other ↔ resource.LinksTo second other := by
  rw [Resource.linksTo_iff, Resource.linksTo_iff, h.bare_draft]

end ProseTypes
