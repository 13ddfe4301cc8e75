import CrudUi.Proofs.Ascending.Members
import CrudUi.Proofs.Resolution.Folding

/-!
# Branches within branches

Folding schemas is associative, and a schema that says nothing is its unit
(`Schema.merge_assoc`, `Schema.merge_empty`).  So it makes no difference whether some branches of an
`allOf` stand in the `allOf` of a branch of their own (`Components.resolve_nested_allOf`).

Both laws have a condition, and every fold meets it: of a property that is declared twice only the
first entry is written over, and required names are sorted even if nothing is added to them.
-/

namespace CrudUi

theorem mergeFlag_none (flag : Option Bool) : mergeFlag flag none = flag := by
  rcases flag with _ | _ | _ <;> rfl

theorem mergeFlag_assoc (first second third : Option Bool) :
    mergeFlag (mergeFlag first second) third = mergeFlag first (mergeFlag second third) := by
  rcases first with _ | _ | _ <;> rcases second with _ | _ | _ <;> rcases third with _ | _ | _ <;>
    rfl

namespace Schema

/-! ### The laws of folding -/

/-- The last of three choices that is not empty is found from either side. -/
theorem ite_isEmpty_assoc (first second third : List Schema) :
    (if third.isEmpty then if second.isEmpty then first else second else third) =
      if (if third.isEmpty then second else third).isEmpty then first
      else if third.isEmpty then second else third := by
  cases third <;> simp

theorem merge_empty {acc : Schema} (h : acc.required.Pairwise (· < ·)) : acc.merge {} = acc := by
  have hrequired : Ascending.ofList (acc.required ++ []) = acc.required :=
    Ascending.eq_of_mem_iff (Ascending.pairwise_ofList _) h fun name => by
      rw [Ascending.mem_ofList, List.append_nil]
  cases acc
  simp only [merge, mk.injEq, mergeFlag_none, Option.none_or, hrequired, true_and, and_true]
  -- properties and the two choices
  exact ⟨rfl, rfl, rfl⟩

theorem merge_assoc {middle : Schema} (h : (Entries.keys middle.properties).Nodup)
    (acc branch : Schema) : (acc.merge middle).merge branch = acc.merge (middle.merge branch) := by
  have hrequired : Ascending.ofList (Ascending.ofList (acc.required ++ middle.required) ++
      branch.required) = Ascending.ofList (acc.required ++
        Ascending.ofList (middle.required ++ branch.required)) :=
    Ascending.ofList_congr fun name => by
      simp only [List.mem_append, Ascending.mem_ofList, or_assoc]
  simp only [merge, mk.injEq, mergeFlag_assoc, Option.or_assoc, Entries.merge_merge h, hrequired,
    true_and, and_true]
  -- the two choices
  exact ⟨ite_isEmpty_assoc .., ite_isEmpty_assoc ..⟩

/-! ### Folds within folds -/

theorem mergeAll_append (front back : List Schema) :
    mergeAll (front ++ back) = back.foldl merge (mergeAll front) :=
  List.foldl_append

/-- Branches are folded into a schema one by one, or all at once when they are folded. -/
theorem merge_mergeAll {acc : Schema} (h : acc.required.Pairwise (· < ·))
    (branches : List Schema) : acc.merge (mergeAll branches) = branches.foldl merge acc := by
  induction branches using List.reverseRecOn with
  | nil => exact merge_empty h
  | append_singleton rest branch ih =>
    -- What the other branches are folded to names each property once, as associativity asks for.
    rw [mergeAll_append_singleton, ← merge_assoc (nodup_keys_properties_mergeAll rest), ih,
      List.foldl_append]
    rfl

theorem mergeAll_append_mergeAll_cons (front middle back : List Schema) :
    mergeAll (front ++ mergeAll middle :: back) = mergeAll (front ++ middle ++ back) :=
  calc mergeAll (front ++ mergeAll middle :: back)
      = back.foldl merge ((mergeAll front).merge (mergeAll middle)) := mergeAll_append _ _
    _ = back.foldl merge (middle.foldl merge (mergeAll front)) := by
        rw [merge_mergeAll (pairwise_required_mergeAll front)]
    _ = mergeAll (front ++ middle ++ back) := by rw [mergeAll_append, mergeAll_append]

/-- A schema that says nothing may be left out in front. -/
theorem mergeAll_empty_cons (branches : List Schema) :
    mergeAll ({} :: branches) = mergeAll branches := by
  have hempty : merge {} {} = {} := merge_empty .nil
  rw [mergeAll, List.foldl_cons, hempty, mergeAll]

end Schema

namespace Components

variable {components : Components} {chain : RefChain} {siblings : Schema}

theorem resolveAll_append (front back : List Schema) :
    components.resolveAll (front ++ back) chain =
      components.resolveAll front chain ++ components.resolveAll back chain :=
  List.map_append

theorem resolve_withAllOf (href : siblings.reference = none) {branches : List Schema}
    (hne : branches ≠ []) :
    components.resolve { siblings with allOf := branches } chain =
      ⟨.mergeAll ({ siblings with allOf := [] } :: components.resolveAll branches chain), chain⟩ :=
  resolve_of_allOf_ne_nil href hne

/-- Branches alone are resolved to their fold. -/
theorem resolveAll_nested {inner : List Schema} (hne : inner ≠ []) :
    components.resolveAll [{ allOf := inner }] chain =
      [.mergeAll (components.resolveAll inner chain)] := by
  rw [resolveAll, List.map_singleton, resolve_of_allOf_ne_nil rfl hne]
  exact congrArg ([·]) (Schema.mergeAll_empty_cons _)

/-- Branches that stand in the `allOf` of a branch could as well stand in the place of that
branch. -/
theorem resolve_nested_allOf (components : Components) (chain : RefChain) {siblings : Schema}
    (href : siblings.reference = none) (front : List Schema) {inner : List Schema}
    (hinner : inner ≠ []) (back : List Schema) :
    components.resolve { siblings with allOf := front ++ [{ allOf := inner }] ++ back } chain =
      components.resolve { siblings with allOf := front ++ inner ++ back } chain := by
  have hfold : Schema.mergeAll ({ siblings with allOf := [] } ::
        components.resolveAll (front ++ [{ allOf := inner }] ++ back) chain) =
      Schema.mergeAll ({ siblings with allOf := [] } ::
        components.resolveAll (front ++ inner ++ back) chain) := by
    rw [resolveAll_append, resolveAll_append, resolveAll_nested hinner, resolveAll_append,
      resolveAll_append, List.append_assoc, List.singleton_append, ← List.cons_append,
      Schema.mergeAll_append_mergeAll_cons]
    rfl
  rw [resolve_withAllOf href (by simp), resolve_withAllOf href (by simp [hinner]), hfold]

/-- What an invoice adds to a record may stand in a branch of its own; the properties keep their
order. -/
theorem resolve_nested_invoice :
    invoiceSchema.reference = none ∧ invoiceSchema.allOf.drop 1 ≠ [] ∧
      invoiceComponents.resolve
          { invoiceSchema with
            allOf := invoiceSchema.allOf.take 1 ++ [{ allOf := invoiceSchema.allOf.drop 1 }] ++ [] }
          [] = invoiceComponents.resolve invoiceSchema [] ∧
      Entries.keys (invoiceComponents.resolve invoiceSchema []).schema.properties =
        ["total", "id", "note"] := by
  have href : invoiceSchema.reference = none := rfl
  have hinner : invoiceSchema.allOf.drop 1 ≠ [] := List.cons_ne_nil _ _
  refine ⟨href, hinner, resolve_nested_allOf invoiceComponents [] href _ hinner [], ?_⟩
  have hfold : invoiceComponents.resolve invoiceSchema [] =
      ⟨.mergeAll ({ invoiceSchema with allOf := [] } ::
        invoiceComponents.resolveAll invoiceSchema.allOf []), []⟩ :=
    resolve_of_allOf_ne_nil href (List.cons_ne_nil _ _)
  rw [hfold, resolveAll_invoiceSchema]
  rfl

end Components

end CrudUi
