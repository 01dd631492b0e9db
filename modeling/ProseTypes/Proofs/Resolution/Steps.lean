import ProseTypes.Proofs.Registry.Mentions
import ProseTypes.Proofs.Resolution.Visits

/-!
# Resolution step by step

The recursion that resolves a phrase, as a relation between the registry before and after: tokens
lead to links, a link to a section, a section to a structure, a structure to the rows of its table,
and each row to tokens again.  A symbol is read off the registry when its tokens have been resolved,
and the resources that were given members on the way are listed in the order in which they were
declared.

* `Resolves.sound`: wherever the recursion ends, the registry is the one that visits to the links of
  the reading leave, and the symbol is the symbol of the reading.
* `Adds.sound`: adding a structure enters its resource.

That the recursion ends on every link graph, and that the listed resources are those that were
registered, is proved in `Resolution/Total.lean`.
-/

namespace ProseTypes

def Leaf.symbolOfWords (words : String) : Symbol :=
  match Leaf.primitive? words with
  | some p => .leaf (.primitive p)
  | none => .unknown

mutual

/-- Tokens are resolved to a symbol. -/
inductive Resolves (index : LinkIndex) :
    Registry → List Token → Symbol → List Resource → Registry → Prop where
  | nothing {r tokens} : Form.ofTokens tokens = .nothing → Resolves index r tokens .unknown [] r
  | array {r tokens inner s made after} : Form.ofTokens tokens = .array inner →
      Resolves index r inner s made after → Resolves index r tokens (.array s) made after
  | nullable {r tokens inner s made after} : Form.ofTokens tokens = .nullable inner →
      Resolves index r inner s made after → Resolves index r tokens (.nullable s) made after
  | partialOf {r tokens inner s made after} : Form.ofTokens tokens = .partialOf inner →
      Resolves index r inner s made after → Resolves index r tokens (.partialOf s) made after
  | either {r tokens left right a b first second between after} :
      Form.ofTokens tokens = .either left right →
      Resolves index r left a first between → Resolves index between right b second after →
      Resolves index r tokens (.either a b) (first ++ second) after
  | reduced {r tokens inner s made after} : Form.ofTokens tokens = .reduced inner →
      Resolves index r inner s made after → Resolves index r tokens s made after
  | link {r text target ref made after} : Form.ofTokens [.link text target] = .name →
      Follows index r target (some ref) made after →
      Resolves index r [.link text target] (Symbol.ofRef ref) made after
  | deadLink {r text target made after} : Form.ofTokens [.link text target] = .name →
      Follows index r target none made after →
      Resolves index r [.link text target] (Leaf.symbolOfWords text) made after
  | words {r tokens} : Form.ofTokens tokens = .name →
      (∀ text target, tokens ≠ [.link text target]) →
      Resolves index r tokens (Leaf.symbolOfWords (Token.plainText tokens)) [] r

/-- A link is followed to the structure that it leads to, if it leads to one. -/
inductive Follows (index : LinkIndex) :
    Registry → String → Option StructureRef → List Resource → Registry → Prop where
  | missing {r target} : index.find? target = none → Follows index r target none [] r
  | found {r target hit id s made after} : index.find? target = some hit →
      Enters index r hit (some id) made after → after.structure? id = some s →
      Follows index r target (some ⟨id, s.name⟩) made after
  | barren {r target hit made after} : index.find? target = some hit →
      Enters index r hit none made after → Follows index r target none made after

/-- The structure of a section is added, if it has a table and a name. -/
inductive Enters (index : LinkIndex) :
    Registry → Target → Option Nat → List Resource → Registry → Prop where
  | unusable {r target note} : target.resource = .error note → Enters index r target none [] r
  | usable {r target resource id made after} : target.resource = .ok resource →
      Adds index r resource id made after → Enters index r target (some id) made after

/-- A structure is added: a registered name keeps what it has, and a new one is declared before the
table is read. -/
inductive Adds (index : LinkIndex) :
    Registry → Resource → Nat → List Resource → Registry → Prop where
  | known {r resource id} : r.idOf? resource.name = some id → Adds index r resource id [] r
  | interface {r resource fields made after} : r.idOf? resource.name = none →
      resource.shape.kind = .interface →
      Reads index resource (r.declare resource) resource.table.rows fields made after →
      (∀ ref, (Body.interface fields).Mentions ref → (after.structure? ref.id).isSome) →
      Adds index r resource r.structures.length (resource :: made)
        (after.complete resource.name (.interface fields))
  | enumeration {r resource} : r.idOf? resource.name = none →
      resource.shape.kind = .enumeration →
      Adds index r resource r.structures.length [resource]
        ((r.declare resource).complete resource.name
          (.enumeration (resource.table.rows.filterMap resource.constant?)))

/-- The rows of a table are read as fields. -/
inductive Reads (index : LinkIndex) : Resource → Registry → List (List String) →
    List (Field Symbol) → List Resource → Registry → Prop where
  | nil {resource r} : Reads index resource r [] [] [] r
  | keyless {resource r row rows fields made after} : resource.key? row = none →
      Reads index resource r rows fields made after →
      Reads index resource r (row :: rows) fields made after
  | untyped {resource r row rows key fields made after} : resource.key? row = some key →
      resource.table.cell? row resource.shape.value = none →
      Reads index resource r rows fields made after →
      Reads index resource r (row :: rows)
        (⟨key.1, key.2, .unknown, Resource.description? resource.table row⟩ :: fields) made after
  | typed {resource r row rows key phrase s first between fields second after} :
      resource.key? row = some key →
      resource.table.cell? row resource.shape.value = some phrase →
      Resolves index r (Token.ofPhrase phrase) s first between →
      Reads index resource between rows fields second after →
      Reads index resource r (row :: rows)
        (⟨key.1, key.2, s, Resource.description? resource.table row⟩ :: fields)
        (first ++ second) after

end

variable {index : LinkIndex}

/-! ### Readings by form -/

namespace Reading

/-- **The reading of tokens goes by their form.** -/
theorem ofTokens_eq (index : LinkIndex) (tokens : List Token) :
    Reading.ofTokens index tokens =
      match Form.ofTokens tokens with
      | .nothing => .leaf .unknown
      | .array element => .array (Reading.ofTokens index element)
      | .nullable inner => .nullable (Reading.ofTokens index inner)
      | .partialOf inner => .partialOf (Reading.ofTokens index inner)
      | .either left right => .either (Reading.ofTokens index left) (Reading.ofTokens index right)
      | .reduced inner => Reading.ofTokens index inner
      | .name => .leaf (.ofTokens tokens) := by
  by_cases hEmpty : tokens = []
  · rw [Reading.ofTokens, dif_pos hEmpty, hEmpty]
    rfl
  · rw [Reading.ofTokens, dif_neg hEmpty]
    split <;> simp only [*]

theorem links_either (left right : Reading index) :
    Reading.links (TypeTree.either left right) = left.links ++ right.links :=
  List.filterMap_append

end Reading

/-! ### Links -/

namespace LinkIndex

theorem link_of_missing {target : String} (h : index.find? target = none) :
    index.link target = .error (.unresolvedTarget target) := by
  unfold link
  split
  · rename_i found hFound
    rw [h] at hFound
    cases hFound
  · rfl

theorem link_of_found {target : String} {hit : Target} (h : index.find? target = some hit) :
    index.link target = index.bind hit (List.mem_of_find?_eq_some h) := by
  unfold link
  split
  · rename_i found hFound
    rw [h] at hFound
    cases hFound
    rfl
  · rename_i hNone
    rw [h] at hNone
    cases hNone

theorem bind_of_ok {hit : Target} (hMem : hit ∈ index.entries) {resource : Resource}
    (h : hit.resource = .ok resource) :
    index.bind hit hMem = .ok ⟨resource, mem_resources hMem h⟩ := by
  unfold bind
  split
  · rename_i other hOther
    rw [h] at hOther
    cases hOther
    rfl
  · rename_i note hError
    rw [h] at hError
    cases hError

theorem bind_of_error {hit : Target} (hMem : hit ∈ index.entries) {note : Note}
    (h : hit.resource = .error note) : index.bind hit hMem = .error note := by
  unfold bind
  split
  · rename_i resource hOk
    rw [h] at hOk
    cases hOk
  · rename_i other hError
    rw [h] at hError
    cases hError
    rfl

end LinkIndex

/-! ### Where the recursion ends -/

theorem Leaf.symbolOfWords_eq (registry : Registry) (notes : List Note) (words : String) :
    Leaf.symbolOfWords words = registry.symbol (.leaf (Leaf.ofWords notes words : Leaf index)) := by
  unfold Leaf.symbolOfWords Leaf.ofWords
  cases Leaf.primitive? words with
  | some p => rfl
  | none =>
    show Symbol.unknown = _
    dsimp only
    split <;> rfl

theorem Leaf.links_ofWords (notes : List Note) (words : String) :
    Reading.links (.leaf (Leaf.ofWords notes words : Leaf index)) = [] := by
  unfold Leaf.ofWords
  split
  · rfl
  · split <;> rfl

theorem Leaf.ofTokens_of_words {tokens : List Token}
    (h : ∀ text target, tokens ≠ [.link text target]) :
    (Leaf.ofTokens tokens : Leaf index) = Leaf.ofWords [] (Token.plainText tokens) := by
  unfold Leaf.ofTokens
  split
  · exact absurd rfl (h _ _)
  · rfl

def Resource.fieldsOf (index : LinkIndex) (resource : Resource) (rows : List (List String)) :
    List (Field (Reading index)) :=
  rows.filterMap (resource.field? index)

def linksOf (fields : List (Field (Reading index))) : List index.Linked :=
  fields.flatMap fun field => Reading.links field.type

theorem linksOf_cons (field : Field (Reading index)) (fields : List (Field (Reading index))) :
    linksOf (field :: fields) = Reading.links field.type ++ linksOf fields :=
  rfl

theorem Resource.fieldsOf_keyless {resource : Resource} {row : List String}
    {rows : List (List String)} (hKey : resource.key? row = none) :
    resource.fieldsOf index (row :: rows) = resource.fieldsOf index rows := by
  rw [fieldsOf, List.filterMap_cons, field?, hKey]
  rfl

theorem Resource.fieldsOf_key {resource : Resource} {row : List String}
    {rows : List (List String)} {key : String × Bool} (hKey : resource.key? row = some key) :
    resource.fieldsOf index (row :: rows) =
      ⟨key.1, key.2, resource.typeOf index row, description? resource.table row⟩ ::
        resource.fieldsOf index rows := by
  rw [fieldsOf, List.filterMap_cons, field?, hKey]
  rfl

def Registry.symbols (registry : Registry) (fields : List (Field (Reading index))) :
    List (Field Symbol) :=
  fields.map fun field =>
    ⟨field.key, field.optional, registry.symbol field.type, field.description⟩

/-- **The symbol of a reading whose links have been visited does not change.** -/
theorem Registry.symbol_reach {registry : Registry} (h : registry.Indexed) (reading : Reading index)
    {after : Registry} (hExtends : Extends (registry.reach index reading.links) after) :
    (registry.reach index reading.links).symbol reading = after.symbol reading := by
  refine (hExtends.symbol fun linked hLinked => ?_).symm
  exact (h.reach reading.links).isSome_ref? (has_of_mem_reach hLinked registry)

-- The recursive calls come before any equation is used: they are made on parts of the derivation.
mutual

/-- **Resolving tokens visits the links of their reading and gives its symbol.** -/
theorem Resolves.sound {r after : Registry} {tokens : List Token} {s : Symbol}
    {made : List Resource} (h : Resolves index r tokens s made after) (hr : r.Indexed) :
    after = r.reach index (Reading.ofTokens index tokens).links ∧
      s = after.symbol (Reading.ofTokens index tokens) := by
  match h with
  | .nothing hForm =>
    rw [Reading.ofTokens_eq, hForm]
    exact ⟨(Registry.reach_nil r).symm, rfl⟩
  | .array hForm hInner | .nullable hForm hInner | .partialOf hForm hInner | .reduced hForm hInner =>
    have hInnerSound := hInner.sound hr
    obtain ⟨rfl, rfl⟩ := hInnerSound
    rw [Reading.ofTokens_eq index tokens, hForm]
    exact ⟨rfl, rfl⟩
  | .either hForm hLeft hRight =>
    have hLeftSound := hLeft.sound hr
    have hRightSound := hRight.sound (hLeftSound.1 ▸ hr.reach _)
    obtain ⟨rfl, rfl⟩ := hLeftSound
    obtain ⟨rfl, rfl⟩ := hRightSound
    rw [Reading.ofTokens_eq index tokens, hForm, Reading.links_either, Registry.reach_append]
    -- The left side was read off before the right side was resolved.
    rw [Registry.symbol_reach hr _ (Registry.extends_reach _ _)]
    exact ⟨rfl, rfl⟩
  | .link hForm hFollows =>
    have hFollowsSound := hFollows.sound hr
    obtain ⟨linked, hLink, rfl, rfl⟩ := hFollowsSound.1 _ rfl
    rw [Reading.ofTokens_eq, hForm]
    simp only [Leaf.ofTokens, hLink]
    exact ⟨(Registry.reach_singleton r linked).symm, rfl⟩
  | .deadLink hForm hFollows =>
    have hFollowsSound := hFollows.sound hr
    obtain ⟨note, hLink, rfl⟩ := hFollowsSound.2 rfl
    rw [Reading.ofTokens_eq, hForm]
    simp only [Leaf.ofTokens, hLink, Leaf.links_ofWords]
    exact ⟨(Registry.reach_nil after).symm, Leaf.symbolOfWords_eq after [note] _⟩
  | .words hForm hOther =>
    rw [Reading.ofTokens_eq, hForm, Leaf.ofTokens_of_words hOther, Leaf.links_ofWords]
    exact ⟨(Registry.reach_nil r).symm, Leaf.symbolOfWords_eq r [] _⟩
termination_by structural h

/-- **Following a link enters the resource that it binds to**, if there is one. -/
theorem Follows.sound {r after : Registry} {target : String} {found : Option StructureRef}
    {made : List Resource} (h : Follows index r target found made after) (hr : r.Indexed) :
    (∀ ref, found = some ref → ∃ linked, index.link target = .ok linked ∧
      after = r.enter index linked.1 ∧ ref = after.refTo linked.1.name) ∧
    (found = none → ∃ note, index.link target = .error note ∧ after = r) := by
  match h with
  | .missing hMissing =>
    refine ⟨fun ref hRef => ?_, fun _ => ⟨_, LinkIndex.link_of_missing hMissing, rfl⟩⟩
    cases hRef
  | .found hFound hEnters hs =>
    have hEntersSound := hEnters.sound hr
    refine ⟨fun ref hRef => ?_, fun hNone => ?_⟩
    · obtain ⟨resource, hOk, rfl, hId⟩ := hEntersSound.1 _ rfl
      have hLink := (LinkIndex.link_of_found hFound).trans (LinkIndex.bind_of_ok _ hOk)
      refine ⟨_, hLink, rfl, ?_⟩
      rw [Registry.refTo, Registry.ref?, hId, Option.bind_some, hs]
      exact (Option.some.inj hRef).symm
    · cases hNone
  | .barren hFound hEnters =>
    have hEntersSound := hEnters.sound hr
    refine ⟨fun ref hRef => ?_, fun _ => ?_⟩
    · cases hRef
    · obtain ⟨note, hError, rfl⟩ := hEntersSound.2 rfl
      exact ⟨note, (LinkIndex.link_of_found hFound).trans (LinkIndex.bind_of_error _ hError), rfl⟩
termination_by structural h

theorem Enters.sound {r after : Registry} {target : Target} {found : Option Nat}
    {made : List Resource} (h : Enters index r target found made after) (hr : r.Indexed) :
    (∀ id, found = some id → ∃ resource, target.resource = .ok resource ∧
      after = r.enter index resource ∧ after.idOf? resource.name = some id) ∧
    (found = none → ∃ note, target.resource = .error note ∧ after = r) := by
  match h with
  | .unusable hError =>
    refine ⟨fun id hId => ?_, fun _ => ⟨_, hError, rfl⟩⟩
    cases hId
  | .usable hOk hAdds =>
    have hAddsSound := hAdds.sound hr
    refine ⟨fun id hId => ?_, fun hNone => ?_⟩
    · cases hId
      exact ⟨_, hOk, hAddsSound⟩
    · cases hNone
termination_by structural h

/-- **Adding a structure enters its resource.** -/
theorem Adds.sound {r after : Registry} {resource : Resource} {id : Nat} {made : List Resource}
    (h : Adds index r resource id made after) (hr : r.Indexed) :
    after = r.enter index resource ∧ after.idOf? resource.name = some id := by
  match h with
  | .known hId =>
    refine ⟨(Registry.enter_of_has ?_).symm, hId⟩
    rw [Registry.has, hId]
    rfl
  | .interface hNew hKind hReads hBound =>
    have hReadsSound := hReads.sound (hr.declare hNew)
    obtain ⟨rfl, rfl⟩ := hReadsSound
    rw [Registry.idOf?_complete]
    refine ⟨?_, (Registry.extends_reach _ _).idOf? (by rw [Registry.idOf?_declare, if_pos rfl])⟩
    rw [Registry.enter_of_new (Registry.not_has_of_idOf? hNew), Registry.completeAs, Resource.links, Resource.draft, hKind]
    rfl
  | .enumeration hNew hKind =>
    rw [Registry.idOf?_complete, Registry.idOf?_declare, if_pos rfl]
    refine ⟨?_, rfl⟩
    rw [Registry.enter_of_new (Registry.not_has_of_idOf? hNew), Registry.completeAs, Resource.links, Resource.draft, hKind]
    show _ = Registry.complete (Registry.reach index _ []) _ _
    rw [Registry.reach_nil]
    rfl
termination_by structural h

/-- **Reading the rows of a table visits the links of its fields.** -/
theorem Reads.sound {r after : Registry} {resource : Resource} {rows : List (List String)}
    {fields : List (Field Symbol)} {made : List Resource}
    (h : Reads index resource r rows fields made after) (hr : r.Indexed) :
    after = r.reach index (linksOf (resource.fieldsOf index rows)) ∧
      fields = after.symbols (resource.fieldsOf index rows) := by
  match h with
  | .nil => exact ⟨(Registry.reach_nil r).symm, rfl⟩
  | .keyless hKey hRest =>
    have hRestSound := hRest.sound hr
    obtain ⟨rfl, rfl⟩ := hRestSound
    rw [Resource.fieldsOf_keyless hKey]
    exact ⟨rfl, rfl⟩
  | .untyped hKey hCell hRest =>
    have hRestSound := hRest.sound hr
    obtain ⟨rfl, rfl⟩ := hRestSound
    rw [Resource.fieldsOf_key hKey, Resource.typeOf, hCell]
    exact ⟨rfl, rfl⟩
  | .typed hKey hCell hResolves hRest =>
    have hResolvesSound := hResolves.sound hr
    have hRestSound := hRest.sound (hResolvesSound.1 ▸ hr.reach _)
    obtain ⟨rfl, rfl⟩ := hResolvesSound
    obtain ⟨rfl, rfl⟩ := hRestSound
    rw [Resource.fieldsOf_key hKey, Resource.typeOf, hCell, linksOf_cons, Registry.reach_append]
    -- The symbol of the first field was read off before the other rows were read.
    rw [Registry.symbol_reach hr _ (Registry.extends_reach _ _)]
    exact ⟨rfl, rfl⟩
termination_by structural h

end

end ProseTypes
