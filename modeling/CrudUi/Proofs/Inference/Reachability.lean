import CrudUi.Proofs.Inference.Unwrapping
import CrudUi.Proofs.Resolution.Reachability

/-!
# Fields depend on the components that are reached

Two tables of components that agree on every name that is reached from a schema give it the same
fields, and so they do to a component that is reached (`Components.AgreesFrom.fields?_eq`,
`Components.AgreesFrom.namedFields?_eq`).  What the rest of the tables holds makes them larger or
smaller, and with it the bound on the steps into items, but no such bound is ever noticed.
-/

namespace CrudUi.Components

variable {components components' : Components} {schema : Schema} {resolved : Resolved}

/-- Both tables agree on everything that is reached from inside a resolved schema. -/
def AgreesInside (components components' : Components) (resolved : Resolved) : Prop :=
  ∀ part, resolved.schema.Holds part → components.AgreesFrom components' part

theorem AgreesFrom.agreesInside_resolve (h : components.AgreesFrom components' schema)
    (chain : RefChain) : components.AgreesInside components' (components.resolve schema chain) :=
  fun _ => h.of_holds_resolve

namespace AgreesInside

theorem enterItems?_eq (h : components.AgreesInside components' resolved) :
    components'.enterItems? resolved = components.enterItems? resolved := by
  rw [enterItems?, enterItems?]
  split
  · exact Option.map_congr fun items hitems => (h items (.inl hitems)).resolve_eq resolved.chain
  · rfl

theorem enters (h : components.AgreesInside components' resolved) {inner : Resolved}
    (henter : components.Enters resolved inner) : components.AgreesInside components' inner := by
  obtain ⟨-, items, hitems, rfl⟩ := enters_iff.mp henter
  exact (h items (.inl hitems)).agreesInside_resolve resolved.chain

theorem objectFields_eq (h : components.AgreesInside components' resolved) :
    components'.objectFields resolved = components.objectFields resolved := by
  rw [objectFields, objectFields]
  split
  · rfl
  · refine List.filterMap_congr fun name _ => Option.map_congr fun property hproperty => ?_
    rw [(h property (.inr ⟨name, Entries.mem_of_lookup hproperty⟩)).resolve_eq]

/-- On the way into items, both tables agree at every step. -/
theorem map_objectFields_unwrapArrays_eq (h : components.AgreesInside components' resolved)
    (steps : ℕ) :
    (components'.unwrapArrays steps resolved).map components'.objectFields =
      (components.unwrapArrays steps resolved).map components.objectFields := by
  induction steps generalizing resolved with
  | zero => rfl
  | succ steps ih =>
    rw [unwrapArrays_succ, unwrapArrays_succ, h.enterItems?_eq]
    cases henter : components.enterItems? resolved with
    | none => exact congrArg some h.objectFields_eq
    | some inner => exact ih (h.enters henter)

end AgreesInside

namespace AgreesFrom

theorem fields?_eq (h : components.AgreesFrom components' schema) :
    components'.fields? schema = components.fields? schema := by
  refine fieldsOf?_congr (within_resolve components' schema) (within_resolve components schema)
    fun steps => ?_
  rw [h.resolve_eq]
  exact (h.agreesInside_resolve []).map_objectFields_unwrapArrays_eq steps

theorem namedFields?_eq (h : components.AgreesFrom components' schema) {name : String}
    (hreach : components.Reaches schema name) :
    components'.namedFields? name = components.namedFields? name := by
  have hresolve : components'.resolveNamed name = components.resolveNamed name ∧
      components.AgreesInside components' (components.resolveNamed name) := by
    rw [resolveNamed, resolveNamed, h name hreach]
    obtain ⟨part, hpart, hname⟩ := hreach
    cases hlookup : components.schemas.lookup name with
    | none => exact ⟨rfl, fun part hheld => by simp [Schema.ofReference, Schema.Holds] at hheld⟩
    | some definition =>
      have hdefinition := h.of_leads (hpart.tail (.definition hname hlookup))
      exact ⟨hdefinition.resolve_eq [name], hdefinition.agreesInside_resolve [name]⟩
  refine fieldsOf?_congr (within_resolveNamed components' name)
    (within_resolveNamed components name) fun steps => ?_
  rw [hresolve.1]
  exact hresolve.2.map_objectFields_unwrapArrays_eq steps

end AgreesFrom

end CrudUi.Components
