import Mathlib.Data.Finset.Card
import Mathlib.Data.Finset.Dedup
import ProseTypes.Proofs.Resolution.Sound
import ProseTypes.Proofs.Resolution.Steps

/-!
# Resolution ends

The recursion of `Resolution/Steps.lean` has an end from every registry whose indexes are in step,
on every link graph.  Two measures carry the proof.  Inside one phrase the tokens become fewer
(`Resolves.exists_of_adds`).  A link starts on a whole new table, but it declares a structure first,
so the number of resources that links can bind to and that are not registered falls
(`Resolves.exists_of_indexed`).

The structures that are given members on the way are those that get registered, each once, and
links can bind to all of them but the one that was asked for (`Resolves.made`, `Adds.made`).  So
there are at most as many as there are names left to register (`Made.length_le`).
-/

namespace ProseTypes

variable {index : LinkIndex}

/-! ### What was given members -/

namespace Registry

theorem names_declare (registry : Registry) (resource : Resource) :
    (registry.declare resource).names = registry.names ++ [resource.name] := by
  simp [names, declare]

theorem names_complete (registry : Registry) (name : String) (body : Body Symbol) :
    (registry.complete name body).names = registry.names := by
  unfold complete
  split
  · split
    · refine List.ext_getElem? fun i => ?_
      simp only [names, List.getElem?_map, List.getElem?_modify, Option.map_eq_map, Option.map_map]
      refine congrArg (Option.map · _) (funext fun s => ?_)
      simp only [Function.comp]
      split <;> rfl
    · rfl
  · rfl

end Registry

/-- The resources that were given members are those that were registered, and links can bind to all
of them but `own`. -/
structure Made (index : LinkIndex) (own : Resource → Prop) (before : Registry)
    (made : List Resource) (after : Registry) : Prop where
  names_eq : after.names = before.names ++ made.map Resource.name
  mem : ∀ resource ∈ made, own resource ∨ resource ∈ index.resources

namespace Made

variable {own other : Resource → Prop} {a b c : Registry} {first second : List Resource}

theorem nothing (registry : Registry) : Made index own registry [] registry where
  names_eq := (List.append_nil _).symm
  mem _ h := by cases h

theorem append (hFirst : Made index own a first b) (hSecond : Made index own b second c) :
    Made index own a (first ++ second) c where
  names_eq := by
    rw [hSecond.names_eq, hFirst.names_eq, List.map_append, List.append_assoc]
  mem resource hMem := (List.mem_append.mp hMem).elim (hFirst.mem resource) (hSecond.mem resource)

theorem mono (h : Made index own a first b)
    (hOwn : ∀ resource, own resource → other resource ∨ resource ∈ index.resources) :
    Made index other a first b where
  names_eq := h.names_eq
  mem resource hMem := (h.mem resource hMem).elim (hOwn resource) Or.inr

end Made

mutual

/-- **Resolving tokens gives members to what links can bind to.** -/
theorem Resolves.made {r after : Registry} {tokens : List Token} {s : Symbol}
    {made : List Resource} (h : Resolves index r tokens s made after) :
    Made index (fun _ => False) r made after := by
  match h with
  | .nothing _ => exact .nothing r
  | .array _ hInner | .nullable _ hInner | .partialOf _ hInner | .reduced _ hInner =>
    exact hInner.made
  | .either _ hLeft hRight => exact hLeft.made.append hRight.made
  | .link _ hFollows | .deadLink _ hFollows => exact hFollows.made
  | .words _ _ => exact .nothing r
termination_by structural h

theorem Follows.made {r after : Registry} {target : String} {found : Option StructureRef}
    {made : List Resource} (h : Follows index r target found made after) :
    Made index (fun _ => False) r made after := by
  match h with
  | .missing _ => exact .nothing r
  | .found hFound hEnters _ | .barren hFound hEnters =>
    have hMade := hEnters.made
    refine hMade.mono fun resource hResource => Or.inr ?_
    exact LinkIndex.mem_resources (List.mem_of_find?_eq_some hFound) hResource
termination_by structural h

theorem Enters.made {r after : Registry} {target : Target} {found : Option Nat}
    {made : List Resource} (h : Enters index r target found made after) :
    Made index (fun resource => target.resource = .ok resource) r made after := by
  match h with
  | .unusable _ => exact .nothing r
  | .usable hOk hAdds =>
    have hMade := hAdds.made
    refine hMade.mono fun resource hResource => Or.inl ?_
    rw [hResource, hOk]
termination_by structural h

/-- **Adding a structure gives members to it and to what links can bind to.** -/
theorem Adds.made {r after : Registry} {resource : Resource} {id : Nat} {made : List Resource}
    (h : Adds index r resource id made after) : Made index (· = resource) r made after := by
  match h with
  | .known _ => exact .nothing r
  | .interface _ _ hReads _ =>
    have hMade := hReads.made
    refine ⟨?_, fun other hMem => ?_⟩
    · rw [Registry.names_complete, hMade.names_eq, Registry.names_declare, List.map_cons,
        List.append_assoc, List.singleton_append]
    · rcases List.mem_cons.mp hMem with rfl | hMem
      · exact Or.inl rfl
      · exact (hMade.mem other hMem).elim False.elim Or.inr
  | .enumeration _ _ =>
    refine ⟨?_, fun other hMem => Or.inl (List.mem_singleton.mp hMem)⟩
    rw [Registry.names_complete, Registry.names_declare]
    rfl
termination_by structural h

theorem Reads.made {r after : Registry} {resource : Resource} {rows : List (List String)}
    {fields : List (Field Symbol)} {made : List Resource}
    (h : Reads index resource r rows fields made after) :
    Made index (fun _ => False) r made after := by
  match h with
  | .nil => exact .nothing r
  | .keyless _ hRest | .untyped _ _ hRest => exact hRest.made
  | .typed _ _ hResolves hRest => exact hResolves.made.append hRest.made
termination_by structural h

end

/-! ### How many there can be -/

def Registry.missing (registry : Registry) (names : List String) : Finset String :=
  names.toFinset.filter fun name => ¬registry.has name

/-- **At most as many structures are given members as there are names left to register.** -/
theorem Made.length_le {own : Resource → Prop} {before after : Registry} {made : List Resource}
    (h : Made index own before made after) (hBefore : before.Indexed) (hAfter : after.Indexed)
    {names : List String} (hNames : ∀ resource ∈ made, resource.name ∈ names) :
    made.length ≤ (before.missing names).card := by
  have hNodup := hAfter.names_nodup
  rw [h.names_eq] at hNodup
  obtain ⟨-, hMade, hDisjoint⟩ := List.nodup_append.mp hNodup
  have hSubset : (made.map Resource.name).toFinset ⊆ before.missing names := by
    intro name hMem
    obtain ⟨resource, hResource, rfl⟩ := List.mem_map.mp (List.mem_toFinset.mp hMem)
    refine Finset.mem_filter.mpr ⟨List.mem_toFinset.mpr (hNames resource hResource), fun hHas => ?_⟩
    exact hDisjoint _ (hBefore.has_iff.mp hHas) _ (List.mem_toFinset.mp hMem) rfl
  calc made.length = (made.map Resource.name).length := (List.length_map _).symm
    _ = (made.map Resource.name).toFinset.card := (List.toFinset_card_of_nodup hMade).symm
    _ ≤ (before.missing names).card := Finset.card_le_card hSubset

/-! ### Existence -/

theorem Follows.exists_of_adds {r : Registry} (hr : r.Indexed)
    (hAdds : ∀ resource ∈ index.resources, ∃ id made after, Adds index r resource id made after)
    (target : String) : ∃ found made after, Follows index r target found made after := by
  cases hFound : index.find? target with
  | none => exact ⟨none, [], r, .missing hFound⟩
  | some hit =>
    cases hResource : hit.resource with
    | error note => exact ⟨none, [], r, .barren hFound (.unusable hResource)⟩
    | ok resource =>
      have hMem := LinkIndex.mem_resources (List.mem_of_find?_eq_some hFound) hResource
      obtain ⟨id, made, after, hAdded⟩ := hAdds resource hMem
      obtain ⟨hAfter, hId⟩ := hAdded.sound hr
      have hIndexed : after.Indexed := hAfter ▸ hr.enter resource
      obtain ⟨s, hs, -⟩ := hIndexed.idOf?_iff.mp hId
      exact ⟨some ⟨id, s.name⟩, made, after, .found hFound (.usable hResource hAdded) hs⟩

/-- **Tokens can be resolved where structures can be added**, by induction on their number. -/
theorem Resolves.exists_of_adds {r : Registry} (hr : r.Indexed)
    (hAdds : ∀ q, Registry.Extends r q → q.Indexed → ∀ resource ∈ index.resources,
      ∃ id made after, Adds index q resource id made after)
    (tokens : List Token) : ∃ s made after, Resolves index r tokens s made after := by
  induction hn : tokens.length using Nat.strongRecOn generalizing r tokens with
  | ind n ih =>
    have hShorter (h : Form.ofTokens tokens ≠ .nothing) : (Form.ofTokens tokens).size < n := by
      rw [← hn]
      refine Form.size_ofTokens_lt fun hEmpty => h ?_
      rw [hEmpty]
      rfl
    cases hForm : Form.ofTokens tokens with
    | nothing => exact ⟨_, _, _, .nothing hForm⟩
    | array inner =>
      rw [hForm] at hShorter
      obtain ⟨s, made, after, hInner⟩ := ih inner.length (hShorter (by simp)) hr hAdds inner rfl
      exact ⟨_, _, _, .array hForm hInner⟩
    | nullable inner =>
      rw [hForm] at hShorter
      obtain ⟨s, made, after, hInner⟩ := ih inner.length (hShorter (by simp)) hr hAdds inner rfl
      exact ⟨_, _, _, .nullable hForm hInner⟩
    | partialOf inner =>
      rw [hForm] at hShorter
      obtain ⟨s, made, after, hInner⟩ := ih inner.length (hShorter (by simp)) hr hAdds inner rfl
      exact ⟨_, _, _, .partialOf hForm hInner⟩
    | either left right =>
      rw [hForm] at hShorter
      have hSize : max left.length right.length < n := hShorter (by simp)
      obtain ⟨a, first, between, hLeft⟩ := ih left.length (by omega) hr hAdds left rfl
      have hBetween := (hLeft.sound hr).1
      have hExtends : Registry.Extends r between := hBetween ▸ Registry.extends_reach r _
      obtain ⟨b, second, after, hRight⟩ := ih right.length (by omega) (hBetween ▸ hr.reach _)
        (fun q hq => hAdds q (hExtends.trans hq)) right rfl
      exact ⟨_, _, _, .either hForm hLeft hRight⟩
    | reduced inner =>
      rw [hForm] at hShorter
      obtain ⟨s, made, after, hInner⟩ := ih inner.length (hShorter (by simp)) hr hAdds inner rfl
      exact ⟨_, _, _, .reduced hForm hInner⟩
    | name =>
      by_cases hLink : ∃ text target, tokens = [.link text target]
      · obtain ⟨text, target, rfl⟩ := hLink
        obtain ⟨found, made, after, hFollows⟩ :=
          Follows.exists_of_adds hr (hAdds r (.refl r) hr) target
        cases found with
        | none => exact ⟨_, _, _, .deadLink hForm hFollows⟩
        | some ref => exact ⟨_, _, _, .link hForm hFollows⟩
      · exact ⟨_, _, _, .words hForm fun text target h => hLink ⟨text, target, h⟩⟩

theorem Reads.exists_of_resolves {r : Registry} (hr : r.Indexed) {resource : Resource}
    (hResolves : ∀ q, Registry.Extends r q → q.Indexed → ∀ tokens,
      ∃ s made after, Resolves index q tokens s made after)
    (rows : List (List String)) :
    ∃ fields made after, Reads index resource r rows fields made after := by
  induction rows generalizing r with
  | nil => exact ⟨[], [], r, .nil⟩
  | cons row rest ih =>
    cases hKey : resource.key? row with
    | none =>
      obtain ⟨fields, made, after, hRest⟩ := ih hr hResolves
      exact ⟨_, _, _, .keyless hKey hRest⟩
    | some key =>
      cases hCell : resource.table.cell? row resource.shape.value with
      | none =>
        obtain ⟨fields, made, after, hRest⟩ := ih hr hResolves
        exact ⟨_, _, _, .untyped hKey hCell hRest⟩
      | some phrase =>
        obtain ⟨s, first, between, hPhrase⟩ := hResolves r (.refl r) hr (Token.ofPhrase phrase)
        have hBetween := (hPhrase.sound hr).1
        have hExtends : Registry.Extends r between := hBetween ▸ Registry.extends_reach r _
        obtain ⟨fields, second, after, hRest⟩ := ih (hBetween ▸ hr.reach _)
          fun q hq => hResolves q (hExtends.trans hq)
        exact ⟨_, _, _, .typed hKey hCell hPhrase hRest⟩

/-- **A structure can be added where tokens can be resolved once it is declared.** -/
theorem Adds.exists_of_resolves {r : Registry} (hr : r.Indexed) {resource : Resource}
    (hResolves : ¬r.has resource.name → ∀ q, Registry.Extends (r.declare resource) q →
      q.Indexed → ∀ tokens, ∃ s made after, Resolves index q tokens s made after) :
    ∃ id made after, Adds index r resource id made after := by
  cases hId : r.idOf? resource.name with
  | some id => exact ⟨id, [], r, .known hId⟩
  | none =>
    have hNew := Registry.not_has_of_idOf? hId
    have hDeclared := hr.declare hId
    cases hKind : resource.shape.kind with
    | enumeration => exact ⟨_, _, _, .enumeration hId hKind⟩
    | interface =>
      obtain ⟨fields, made, after, hReads⟩ :=
        Reads.exists_of_resolves hDeclared (hResolves hNew) resource.table.rows
      refine ⟨_, _, _, .interface hId hKind hReads fun ref hRef => ?_⟩
      -- No reference of a field is dangling, since the links of the fields have been visited.
      obtain ⟨rfl, rfl⟩ := hReads.sound hDeclared
      obtain ⟨field, hField, hMention⟩ := hRef
      obtain ⟨source, hSource, rfl⟩ := List.mem_map.mp hField
      have hLinks (linked : index.Linked) (hLinked : linked ∈ Reading.links source.type) :
          linked ∈ linksOf (resource.fieldsOf index resource.table.rows) :=
        List.mem_flatMap.mpr ⟨source, hSource, hLinked⟩
      obtain ⟨s, hs, -⟩ := (hDeclared.reach _).binds_of_mentions
        (fun linked hLinked => Registry.has_of_mem_reach (hLinks linked hLinked) _) hMention
      rw [hs]
      rfl

/-- **Resolution ends**, by induction on the number of resources that links can bind to and that
are not registered. -/
theorem Resolves.exists_of_indexed {r : Registry} (hr : r.Indexed) (tokens : List Token) :
    ∃ s made after, Resolves index r tokens s made after := by
  induction hn : Agenda.remaining index r using Nat.strongRecOn generalizing r tokens with
  | ind n ih =>
    refine Resolves.exists_of_adds hr (fun q hq hqIndexed resource hMem => ?_) tokens
    refine Adds.exists_of_resolves hqIndexed fun hNew p hp hpIndexed tokens => ?_
    have hLt : Agenda.remaining index (q.declare resource) < Agenda.remaining index q :=
      @Agenda.remaining_declare_lt index q ⟨resource, hMem⟩ (eq_false_of_ne_true hNew)
    have hLe : Agenda.remaining index p ≤ Agenda.remaining index (q.declare resource) :=
      Registry.remaining_le_of_extends hp
    have hBefore : Agenda.remaining index q ≤ Agenda.remaining index r :=
      Registry.remaining_le_of_extends hq
    exact ih _ (by omega) hpIndexed tokens rfl

/-- **Adding a structure ends**, whether or not links can bind to its resource. -/
theorem Adds.exists_of_indexed {r : Registry} (hr : r.Indexed) (resource : Resource) :
    ∃ id made after, Adds index r resource id made after :=
  Adds.exists_of_resolves hr fun _ _ _ hq tokens => Resolves.exists_of_indexed hq tokens

end ProseTypes
