import ProseTypes.Proofs.Compilation.Session
import ProseTypes.Proofs.Resolution.Agreement

/-!
# Readings that are alike

Two readings with the same resources and primitive types at the same leaves differ at most in what is
to be said about them.  Resolving one or the other gives the same symbol and leaves the same structures,
modules and requests (`LinkIndex.ReadsAlike.resolveTokens`).  So it is enough to compare how two lists of
tokens are read to see that they come to the same, and this goes form by form.
-/

namespace ProseTypes

variable {index : LinkIndex}

theorem Reading.map_val_links (reading : Reading index) :
    reading.links.map Subtype.val = (TypeTree.leaves reading.bare).filterMap Atom.ref? := by
  rw [links, bare, TypeTree.leaves_map, List.map_filterMap, List.filterMap_map]
  refine congrArg (List.filterMap · (TypeTree.leaves reading)) (funext fun leaf => ?_)
  cases h : leaf.atom <;> simp [Atom.ref?, Atom.map, h]

/-- **Alike readings link to the same resources**, in the same order. -/
theorem Reading.links_eq_of_bare {a b : Reading index} (h : a.bare = b.bare) : a.links = b.links := by
  have hVal : a.links.map Subtype.val = b.links.map Subtype.val := by
    rw [map_val_links, map_val_links, h]
  exact List.map_injective_iff.mpr Subtype.val_injective hVal

theorem Registry.symbol_eq_map_bare (registry : Registry) (reading : Reading index) :
    registry.symbol reading =
      reading.bare.map (Atom.map fun resource => registry.refTo resource.name) := by
  rw [symbol, Reading.bare, TypeTree.map_map]
  refine TypeTree.map_congr fun leaf _ => ?_
  cases leaf.atom <;> rfl

namespace Progress

def resolveTokens (index : LinkIndex) (progress : Progress) (tokens : List Token) :
    Symbol × Progress :=
  let reading := Reading.ofTokens index tokens
  let after := progress.resolve index reading
  (after.registry.symbol reading, after)

theorem resolvePhrase_eq (progress : Progress) (phrase : String) :
    progress.resolvePhrase index phrase = progress.resolveTokens index (Token.ofPhrase phrase) :=
  rfl

end Progress

namespace LinkIndex

/-- Two lists of tokens are read alike: with the same resources and primitive types at the same
leaves. -/
def ReadsAlike (index : LinkIndex) (a b : List Token) : Prop :=
  (Reading.ofTokens index a).bare = (Reading.ofTokens index b).bare

namespace ReadsAlike

/-! ### By form -/

variable {a b : List Token}

theorem of_form_eq (hForm : Form.ofTokens a = Form.ofTokens b) (hName : Form.ofTokens b ≠ .name) :
    index.ReadsAlike a b := by
  rw [ReadsAlike, Reading.ofTokens_eq, Reading.ofTokens_eq index b, hForm]
  cases hb : Form.ofTokens b with
  | name => exact absurd hb hName
  | _ => rfl

theorem reduced {rest : List Token} (hForm : Form.ofTokens a = .reduced rest)
    (h : index.ReadsAlike rest b) : index.ReadsAlike a b := by
  rw [ReadsAlike, Reading.ofTokens_eq, hForm]
  exact h

theorem array {x y : List Token} (ha : Form.ofTokens a = .array x) (hb : Form.ofTokens b = .array y)
    (h : index.ReadsAlike x y) : index.ReadsAlike a b := by
  rw [ReadsAlike, Reading.ofTokens_eq, ha, Reading.ofTokens_eq index b, hb]
  exact congrArg TypeTree.array h

theorem nullable {x y : List Token} (ha : Form.ofTokens a = .nullable x)
    (hb : Form.ofTokens b = .nullable y) (h : index.ReadsAlike x y) : index.ReadsAlike a b := by
  rw [ReadsAlike, Reading.ofTokens_eq, ha, Reading.ofTokens_eq index b, hb]
  exact congrArg TypeTree.nullable h

theorem partialOf {x y : List Token} (ha : Form.ofTokens a = .partialOf x)
    (hb : Form.ofTokens b = .partialOf y) (h : index.ReadsAlike x y) : index.ReadsAlike a b := by
  rw [ReadsAlike, Reading.ofTokens_eq, ha, Reading.ofTokens_eq index b, hb]
  exact congrArg TypeTree.partialOf h

theorem either {left x y : List Token} (ha : Form.ofTokens a = .either left x)
    (hb : Form.ofTokens b = .either left y) (h : index.ReadsAlike x y) : index.ReadsAlike a b := by
  rw [ReadsAlike, Reading.ofTokens_eq, ha, Reading.ofTokens_eq index b, hb]
  exact congrArg (TypeTree.either _) h

/-! ### What is left behind -/

/-- **Tokens that are read alike are resolved to the same symbol and leave the same behind**, but for
what is said about them. -/
theorem resolveTokens (h : index.ReadsAlike a b) (progress : Progress) :
    (progress.resolveTokens index a).1 = (progress.resolveTokens index b).1 ∧
      (progress.resolveTokens index b).2.Unchanged (progress.resolveTokens index a).2 := by
  have hRegistry : (progress.resolve index (Reading.ofTokens index a)).registry =
      (progress.resolve index (Reading.ofTokens index b)).registry := by
    rw [Progress.registry_resolve, Progress.registry_resolve, Reading.links_eq_of_bare h]
  refine ⟨?_, hRegistry, ?_⟩
  · show (progress.resolve index (Reading.ofTokens index a)).registry.symbol _ =
      (progress.resolve index (Reading.ofTokens index b)).registry.symbol _
    rw [hRegistry, Registry.symbol_eq_map_bare, Registry.symbol_eq_map_bare, h]
  · exact (Progress.grows_resolve index progress _).requests.trans
      (Progress.grows_resolve index progress _).requests.symm

end ReadsAlike

end LinkIndex

end ProseTypes
