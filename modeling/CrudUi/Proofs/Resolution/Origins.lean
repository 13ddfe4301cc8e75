import CrudUi.Proofs.Resolution.NormalForm
import Mathlib.Data.List.Induction
import Mathlib.Logic.Relation

/-!
# Where the keywords of a resolved schema come from

A resolution makes new schemas out of old ones, but it does not make up what they say.  If a fold of
two schemas has a property only where one of them has it, and the like holds of flags that are taken
over, then a resolved schema has the property only if one of the schemas has it that the resolution
went on with (`Components.exists_goesOn_of_resolve`).

## Main definitions

* `Schema.Inherited` : a property that a fold of schemas has only from one of them.
-/

namespace CrudUi

/-- What every step keeps, any number of steps keep. -/
theorem keeps_of_reflTransGen {α : Type} {step : α → α → Prop} (kept : α → Prop)
    (hstep : ∀ first next, step first next → kept first → kept next) {first last : α}
    (h : Relation.ReflTransGen step first last) (hfirst : kept first) : kept last := by
  induction h with
  | refl => exact hfirst
  | tail _ hnext ih => exact hstep _ _ hnext ih

namespace Schema

/-- Nothing that a resolution does to a schema gives it the property, unless a schema has it that
goes into it. -/
structure Inherited (property : Schema → Prop) : Prop where
  not_empty : ¬ property {}
  of_withoutAllOf : ∀ schema : Schema, property { schema with allOf := [] } → property schema
  of_merge : ∀ acc branch : Schema, property (acc.merge branch) → property acc ∨ property branch
  of_withFlagsOf : ∀ schema node : Schema, property (schema.withFlagsOf node) →
    property schema ∨ property node

theorem mergeAll_append_singleton (branches : List Schema) (last : Schema) :
    mergeAll (branches ++ [last]) = (mergeAll branches).merge last := by
  simp [mergeAll]

theorem Inherited.exists_of_mergeAll {property : Schema → Prop} (hproperty : Inherited property)
    {branches : List Schema} (h : property (mergeAll branches)) :
    ∃ branch ∈ branches, property branch := by
  induction branches using List.reverseRecOn with
  | nil => exact absurd h hproperty.not_empty
  | append_singleton branches last ih =>
    rw [mergeAll_append_singleton] at h
    rcases hproperty.of_merge _ _ h with h | h
    · obtain ⟨branch, hmem, hbranch⟩ := ih h
      exact ⟨branch, List.mem_append_left _ hmem, hbranch⟩
    · exact ⟨last, by simp, h⟩

/-- The items of a fold are those of a branch. -/
theorem inherited_items (items : Schema) : Inherited fun schema => schema.items = some items where
  not_empty := nofun
  of_withoutAllOf _ h := h
  of_merge _ _ h := (Option.or_eq_some_iff.mp h).symm.imp And.right id
  of_withFlagsOf _ _ h := .inl h

end Schema

namespace Components

variable {components : Components}

/-- A resolved schema has a property of this kind only if a schema has it that the resolution goes
on with. -/
theorem exists_goesOn_of_resolve {property : Schema → Prop} (hproperty : Schema.Inherited property)
    {schema : Schema} {chain : RefChain} (h : property (components.resolve schema chain).schema) :
    ∃ part, Relation.ReflTransGen (Function.swap components.GoesOn) (schema, chain) part ∧
      property part.1 := by
  induction schema, chain using resolve_induction components with
  | followed schema chain target name definition href hfollow heq ih =>
    rw [heq] at h
    rcases hproperty.of_withFlagsOf _ _ h with h | h
    · obtain ⟨part, hreach, hpart⟩ := ih h
      exact ⟨part, .head (.follow href hfollow) hreach, hpart⟩
    · exact ⟨(schema, chain), .refl, h⟩
  | unfollowed schema chain target href hfollow heq =>
    rw [heq] at h
    exact ⟨(schema, chain), .refl, h⟩
  | plain schema chain href hallOf heq =>
    rw [heq] at h
    exact ⟨(schema, chain), .refl, h⟩
  | composed schema chain href hallOf heq ih =>
    rw [heq] at h
    obtain ⟨merged, hmem, hmerged⟩ := hproperty.exists_of_mergeAll h
    rcases List.mem_cons.mp hmem with rfl | hmem
    · exact ⟨(schema, chain), .refl, hproperty.of_withoutAllOf _ hmerged⟩
    · obtain ⟨branch, hbranch, rfl⟩ := List.mem_map.mp hmem
      obtain ⟨part, hreach, hpart⟩ := ih branch hbranch hmerged
      exact ⟨part, .head (.branch href hbranch) hreach, hpart⟩

end Components

end CrudUi
