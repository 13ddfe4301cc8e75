import CrudUi.Proofs.Resolution.Induction
import Mathlib.Order.WellFounded

/-!
# The normal form of a schema

A resolution goes on from a schema to the definition that its reference leads to, or to the branches
of its `allOf`.  It never goes on for ever, whatever the references between components: a reference
that is followed puts a component on the chain, and a branch is smaller than the whole
(`Components.wellFounded_goesOn`).

What is left is in normal form: it has neither reference nor `allOf`, or it has a reference that
cannot be followed with the chain that is handed back.  A normal form resolves to itself
(`Components.resolve_reaches_normal_form`).

## Main definitions

* `Components.GoesOn` : one resolution goes on with another.
* `Components.IsNormal` : there is nothing left to resolve.
-/

namespace CrudUi

namespace Components

variable {components : Components}

/-! ### The end of a resolution -/

/-- The resolution of the second schema goes on with that of the first: the definition that its
reference leads to, or a branch of its `allOf`. -/
inductive GoesOn (components : Components) : Schema × RefChain → Schema × RefChain → Prop
  | follow {schema : Schema} {chain : RefChain} {target name : String} {definition : Schema}
      (href : schema.reference = some target)
      (hfollow : components.follow? chain target = some (name, definition)) :
      GoesOn components (definition, Ascending.insert name chain) (schema, chain)
  | branch {schema : Schema} {chain : RefChain} {branch : Schema}
      (href : schema.reference = none) (hbranch : branch ∈ schema.allOf) :
      GoesOn components (branch, chain) (schema, chain)

/-- Either fewer components are left to follow, or the schema is smaller. -/
theorem GoesOn.lex {inner outer : Schema × RefChain} (h : components.GoesOn inner outer) :
    Prod.Lex (· < ·) (· < ·) (components.fresh inner.2, inner.1.size)
      (components.fresh outer.2, outer.1.size) := by
  cases h with
  | follow href hfollow =>
    obtain ⟨-, hfresh, hlookup⟩ := follow?_eq_some hfollow
    exact .left _ _ (fresh_insert_lt (Entries.mem_keys_of_lookup hlookup) hfresh)
  | branch href hbranch => exact .right _ (Schema.size_lt_of_mem_allOf hbranch)

/-- No resolution goes on for ever. -/
theorem wellFounded_goesOn (components : Components) : WellFounded components.GoesOn := by
  let measure (node : Schema × RefChain) : ℕ × ℕ := (components.fresh node.2, node.1.size)
  have hwf : WellFounded (InvImage (Prod.Lex (· < ·) (· < ·)) measure) :=
    InvImage.wf measure (WellFounded.prod_lex Nat.lt_wfRel.wf Nat.lt_wfRel.wf)
  exact Subrelation.wf GoesOn.lex hwf

/-! ### Normal forms -/

/-- A reference is not followed if it names no schema, a component that is missing, or one that is
on the chain. -/
theorem follow?_eq_none_iff {chain : RefChain} {target : String} :
    components.follow? chain target = none ↔ Reference.schemaName? target = none ∨
      ∃ name, Reference.schemaName? target = some name ∧
        (components.schemas.lookup name = none ∨ name ∈ chain) := by
  cases hname : Reference.schemaName? target with
  | none => simp [follow?, hname]
  | some name =>
    by_cases hchain : name ∈ chain
    · simp [follow?, hname, hchain]
    · simp [follow?, hname, hchain, ← Option.eq_none_iff_forall_ne_some]

/-- Nothing is left to resolve: there is neither a reference nor an `allOf`, or there is a reference
that names no schema, a component that is missing, or one that is on the chain. -/
def IsNormal (components : Components) (resolved : Resolved) : Prop :=
  (resolved.schema.reference = none ∧ resolved.schema.allOf = []) ∨
    ∃ target, resolved.schema.reference = some target ∧
      (Reference.schemaName? target = none ∨ ∃ name, Reference.schemaName? target = some name ∧
        (components.schemas.lookup name = none ∨ name ∈ resolved.chain))

theorem resolve_of_isNormal {resolved : Resolved} (h : components.IsNormal resolved) :
    components.resolve resolved.schema resolved.chain = resolved := by
  rcases h with ⟨href, hallOf⟩ | ⟨target, href, hstuck⟩
  · exact resolve_of_allOf_eq_nil href hallOf
  · exact resolve_of_follow?_eq_none href (follow?_eq_none_iff.mpr hstuck)

/-- A fold of branches takes over neither their references nor their own branches. -/
theorem reference_mergeAll (branches : List Schema) :
    (Schema.mergeAll branches).reference = none ∧ (Schema.mergeAll branches).allOf = [] := by
  suffices h : ∀ acc : Schema, acc.reference = none ∧ acc.allOf = [] →
      (branches.foldl Schema.merge acc).reference = none ∧
        (branches.foldl Schema.merge acc).allOf = [] from h {} ⟨rfl, rfl⟩
  induction branches with
  | nil => exact fun _ hacc => hacc
  | cons branch rest ih => exact fun acc hacc => ih (acc.merge branch) hacc

theorem isNormal_resolve (components : Components) (schema : Schema) (chain : RefChain) :
    components.IsNormal (components.resolve schema chain) := by
  induction schema, chain using resolve_induction components with
  | followed schema chain target name definition href hfollow heq ih =>
    -- The flags beside the reference are no part of what makes a form normal.
    rw [heq]
    exact ih
  | unfollowed schema chain target href hfollow heq =>
    rw [heq]
    exact .inr ⟨target, href, follow?_eq_none_iff.mp hfollow⟩
  | plain schema chain href hallOf heq =>
    rw [heq]
    exact .inl ⟨href, hallOf⟩
  | composed schema chain href hallOf heq ih =>
    rw [heq]
    exact .inl (reference_mergeAll _)

/-- Only names of components come onto the chain. -/
theorem mem_chain_resolve {schema : Schema} {chain : RefChain} {name : String}
    (h : name ∈ (components.resolve schema chain).chain) :
    name ∈ chain ∨ name ∈ Entries.keys components.schemas := by
  have hadded := chain_resolve_induction
    (motive := fun other => ∀ name ∈ other, name ∈ chain ∨ name ∈ Entries.keys components.schemas)
    (fun hkey ih other hother => (Ascending.mem_insert.mp hother).elim
      (fun heq => .inr (heq ▸ hkey)) (ih other))
    schema (fun _ => Or.inl)
  exact hadded name h

/-- Every resolution ends, with a normal form and a chain to which names of components have been
added; and to resolve again changes nothing. -/
theorem resolve_reaches_normal_form (components : Components) (schema : Schema) (chain : RefChain) :
    Acc components.GoesOn (schema, chain) ∧
    chain ⊆ (components.resolve schema chain).chain ∧
    (∀ name ∈ (components.resolve schema chain).chain,
      name ∈ chain ∨ name ∈ Entries.keys components.schemas) ∧
    components.IsNormal (components.resolve schema chain) ∧
    components.resolve (components.resolve schema chain).schema
      (components.resolve schema chain).chain = components.resolve schema chain :=
  ⟨(wellFounded_goesOn components).apply _, subset_chain_resolve schema chain,
    fun _ => mem_chain_resolve, isNormal_resolve components schema chain,
    resolve_of_isNormal (isNormal_resolve components schema chain)⟩

end Components

end CrudUi
