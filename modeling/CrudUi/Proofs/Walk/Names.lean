import CrudUi.Walk.Draft
import Mathlib.Data.Option.Basic

/-!
# The names of entities

Of the four rules that name the entity of an operation, the first two read the components that its
payloads refer to, in the order in which these name the schema of a draft.  An operation that names
a schema is therefore identified by that name (`CrudOperation.identify_of_schemaName?`), and only
the others by their tag or path.  No entity has an empty name (`CrudOperation.identify_ne_empty`).
-/

namespace CrudUi

namespace CrudOperation

variable {components : Components}

/-- The name of the schema goes before the tag, and the tag before the path. -/
theorem identify_eq (operation : CrudOperation) (components : Components) :
    (operation.identify components).1 = ((operation.operation.schemaName? components).or
      (IdentityRule.tagName? operation.operation)).getD (IdentityRule.pathName operation.path) := by
  simp only [identify, IdentityRule.all, List.findSome?_cons, List.findSome?_nil,
    IdentityRule.entityName?, Operation.schemaName?]
  cases (operation.operation.responseSchema? components).bind Schema.referencedName? with
  | some name => rfl
  | none =>
    cases (operation.operation.requestSchema? components).bind Schema.referencedName? with
    | some name => rfl
    | none =>
      cases IdentityRule.tagName? operation.operation with
      | some name => rfl
      | none => rfl

/-- An operation that names a schema belongs to the entity of that name. -/
theorem identify_of_schemaName? {operation : CrudOperation} {name : String}
    (h : operation.operation.schemaName? components = some name) :
    (operation.identify components).1 = name := by
  rw [identify_eq, h]
  rfl

end CrudOperation

theorem Reference.componentName?_ne_empty {group reference name : String}
    (h : Reference.componentName? group reference = some name) : name ≠ "" := by
  simp only [componentName?] at h
  split at h
  · split at h
    · split at h
      · split at h
        · cases h
        · rename_i hname
          obtain rfl := Option.some.inj h
          simpa [String.ofList_eq_empty_iff] using hname
      · cases h
    · cases h
  · cases h

namespace IdentityRule

theorem tagName?_ne_empty {operation : Operation} {name : String}
    (h : tagName? operation = some name) : name ≠ "" := by
  simp only [tagName?] at h
  split at h
  · cases h
  · split at h
    · cases h
    · rename_i hname
      obtain rfl := Option.some.inj h
      exact hname

theorem pathName_ne_empty (path : String) : pathName path ≠ "" := by
  simp only [pathName]
  split
  · split
    · decide
    · assumption
  · decide

end IdentityRule

theorem Operation.schemaName?_ne_empty {operation : Operation} {components : Components}
    {name : String} (h : operation.schemaName? components = some name) : name ≠ "" := by
  have hreferenced : ∀ schema : Option Schema,
      schema.bind Schema.referencedName? = some name → name ≠ "" := by
    intro schema hschema
    obtain ⟨schema, -, hname⟩ := Option.bind_eq_some_iff.mp hschema
    obtain ⟨target, -, hname⟩ := Option.bind_eq_some_iff.mp hname
    exact Reference.componentName?_ne_empty hname
  rcases Option.or_eq_some_iff.mp h with hresponse | ⟨-, hrequest⟩
  · exact hreferenced _ hresponse
  · exact hreferenced _ hrequest

theorem CrudOperation.identify_ne_empty (operation : CrudOperation) (components : Components) :
    (operation.identify components).1 ≠ "" := by
  rw [identify_eq]
  cases hname : (operation.operation.schemaName? components).or
      (IdentityRule.tagName? operation.operation) with
  | none => exact IdentityRule.pathName_ne_empty operation.path
  | some name =>
    rcases Option.or_eq_some_iff.mp hname with hschema | ⟨-, htag⟩
    · exact Operation.schemaName?_ne_empty hschema
    · exact IdentityRule.tagName?_ne_empty htag

end CrudUi
