import CrudUi.Proofs.Resolution.Folding

/-!
# Flags are neither lost nor made up

A resolution visits a schema and then, one after the other, whatever it goes on with.  A flag comes
through two ways: beside a reference it is written over that of the target, and in an `allOf` it is
joined with those of the other branches.  Neither way loses a flag that is true or makes one true:
`readOnly` is true in the resolved schema exactly if it is true in a schema that is visited, and so
is `writeOnly` (`Components.flags_resolve_iff`).

## Main definitions

* `Components.Visits` : a resolution comes by a schema.
-/

namespace CrudUi

theorem mergeFlag_eq_some_true_iff {acc branch : Option Bool} :
    mergeFlag acc branch = some true ↔ acc = some true ∨ branch = some true := by
  rcases acc with _ | _ | _ <;> rcases branch with _ | _ | _ <;> decide

namespace Schema.IsFlag

variable {flag : Schema → Option Bool}

/-- Nothing makes a flag true but a schema in which it is true. -/
theorem inherited (hflag : IsFlag flag) : Inherited (flag · = some true) where
  not_empty := by simp [hflag.empty]
  of_withoutAllOf schema h := hflag.withoutAllOf schema ▸ h
  of_merge acc branch h := by rwa [hflag.merge, mergeFlag_eq_some_true_iff] at h
  of_withFlagsOf schema node h := by
    rw [hflag.withFlagsOf] at h
    split at h
    · exact .inr ‹_›
    · exact .inl h

end Schema.IsFlag

namespace Components

/-- The resolution of the first schema visits the second one: it goes on with it, in any number of
steps. -/
def Visits (components : Components) : Schema × RefChain → Schema × RefChain → Prop :=
  Relation.ReflTransGen (Function.swap components.GoesOn)

variable {components : Components} {flag : Schema → Option Bool}

/-- A flag that is true is kept by the resolution. -/
theorem flag_resolve_of_flag (hflag : Schema.IsFlag flag) {schema : Schema} (chain : RefChain)
    (h : flag schema = some true) :
    flag (components.resolve schema chain).schema = some true := by
  cases href : schema.reference with
  | some target =>
    cases hfollow : components.follow? chain target with
    | some found => rw [resolve_of_follow?_eq_some href hfollow, hflag.withFlagsOf, if_pos h]
    | none => rwa [resolve_of_follow?_eq_none href hfollow]
  | none =>
    by_cases hallOf : schema.allOf = []
    · rwa [resolve_of_allOf_eq_nil href hallOf]
    · rw [resolve_of_allOf_ne_nil href hallOf, hflag.mergeAll, joinFlags_eq_some_true_iff,
        List.map_cons, hflag.withoutAllOf, h]
      exact List.mem_cons_self

/-- A flag that is true where a resolution goes on is true where it came from. -/
theorem GoesOn.flag_resolve (hflag : Schema.IsFlag flag) {inner outer : Schema × RefChain}
    (hgoesOn : components.GoesOn inner outer)
    (h : flag (components.resolve inner.1 inner.2).schema = some true) :
    flag (components.resolve outer.1 outer.2).schema = some true := by
  cases hgoesOn with
  | follow href hfollow =>
    rw [resolve_of_follow?_eq_some href hfollow, hflag.withFlagsOf, h, ite_self]
  | branch href hbranch =>
    rw [resolve_of_allOf_ne_nil href (List.ne_nil_of_mem hbranch), hflag.mergeAll,
      joinFlags_eq_some_true_iff]
    exact List.mem_cons_of_mem _ (List.mem_map.mpr ⟨_, List.mem_map_of_mem hbranch, h⟩)

theorem Visits.flag_resolve (hflag : Schema.IsFlag flag) {start node : Schema × RefChain}
    (hvisits : components.Visits start node) (h : flag node.1 = some true) :
    flag (components.resolve start.1 start.2).schema = some true := by
  induction hvisits using Relation.ReflTransGen.head_induction_on with
  | refl => exact flag_resolve_of_flag hflag node.2 h
  | head hgoesOn _ ih => exact GoesOn.flag_resolve hflag hgoesOn ih

theorem flag_resolve_iff (hflag : Schema.IsFlag flag) (components : Components) (schema : Schema)
    (chain : RefChain) :
    flag (components.resolve schema chain).schema = some true ↔
      ∃ node, components.Visits (schema, chain) node ∧ flag node.1 = some true :=
  ⟨exists_goesOn_of_resolve hflag.inherited, fun ⟨_, hvisits, hnode⟩ =>
    hvisits.flag_resolve hflag hnode⟩

/-- A flag is true in the resolved schema exactly if it is true in a schema that is visited. -/
theorem flags_resolve_iff (components : Components) (schema : Schema) (chain : RefChain) :
    ((components.resolve schema chain).schema.readOnly = some true ↔
      ∃ node, components.Visits (schema, chain) node ∧ node.1.readOnly = some true) ∧
    ((components.resolve schema chain).schema.writeOnly = some true ↔
      ∃ node, components.Visits (schema, chain) node ∧ node.1.writeOnly = some true) :=
  ⟨flag_resolve_iff Schema.isFlag_readOnly components schema chain,
    flag_resolve_iff Schema.isFlag_writeOnly components schema chain⟩

end Components

end CrudUi
