import Mathlib.Data.Finset.Card
import Mathlib.Data.Finset.Prod
import Mathlib.Data.List.Sort
import Mathlib.Logic.Relation
import CrudUi.Inference.Fields
import CrudUi.Proofs.Resolution.Items

/-!
# When going into the items of lists has an end

Going from a list into its items is one step of a relation between resolved schemas.  The items met
are schemas of the document and the chain only grows, so a course that is long enough meets the same
items with the same chain twice, and from there on goes round for ever.  There are no fields exactly
if a list is reached that leads back to itself (`Components.fields?_eq_none_iff`).

Such a list cannot be reached by references alone, since a reference that is followed makes the
chain longer.  The branches of an `allOf` hand no names on to what comes after them, so every course
without end goes through items that hold an `allOf` in place
(`Components.Circular.exists_composed_items`).

## Main definitions

* `Components.Enters` : a step from a list into its items.
* `Components.Circular` : a list that leads back to itself is reached.
-/

namespace CrudUi

/-- The schema is folded from an `allOf` that it holds itself. -/
def Schema.IsComposed (schema : Schema) : Prop :=
  schema.reference = none ∧ schema.allOf ≠ []

namespace Components

variable {components : Components}

/-! ### Steps -/

/-- The resolved items of a list. -/
def enterItems? (components : Components) (resolved : Resolved) : Option Resolved :=
  if resolved.schema.isArray then
    resolved.schema.items.map fun items => components.resolve items resolved.chain
  else none

/-- The second schema is the resolved items of the first one, a list. -/
def Enters (components : Components) (outer inner : Resolved) : Prop :=
  components.enterItems? outer = some inner

/-- Going into items leads to a list, and from that list back to it. -/
def Circular (components : Components) (resolved : Resolved) : Prop :=
  ∃ list, Relation.ReflTransGen components.Enters resolved list ∧
    Relation.TransGen components.Enters list list

theorem enters_iff {outer inner : Resolved} :
    components.Enters outer inner ↔ outer.schema.isArray = true ∧
      ∃ items, outer.schema.items = some items ∧
        inner = components.resolve items outer.chain := by
  by_cases harray : outer.schema.isArray = true
  · simp [Enters, enterItems?, harray, eq_comm]
  · simp [Enters, enterItems?, harray]

/-- The same items with the same chain resolve to the same schema. -/
theorem Enters.inner_eq {outer outer' inner inner' : Resolved}
    (h : components.Enters outer inner) (h' : components.Enters outer' inner')
    (hitems : outer.schema.items = outer'.schema.items) (hchain : outer.chain = outer'.chain) :
    inner = inner' := by
  obtain ⟨-, items, hsome, rfl⟩ := enters_iff.mp h
  obtain ⟨-, items', hsome', rfl⟩ := enters_iff.mp h'
  obtain rfl : items = items' := Option.some.inj (hsome.symm.trans (hitems.trans hsome'))
  rw [hchain]

theorem unwrapArrays_succ (steps : ℕ) (resolved : Resolved) :
    components.unwrapArrays (steps + 1) resolved =
      match components.enterItems? resolved with
      | some inner => components.unwrapArrays steps inner
      | none => some resolved := by
  rw [unwrapArrays, enterItems?]
  cases resolved.schema.items <;> by_cases harray : resolved.schema.isArray <;> simp [harray]

theorem Enters.unwrapArrays_succ {outer inner : Resolved} (h : components.Enters outer inner)
    (steps : ℕ) :
    components.unwrapArrays (steps + 1) outer = components.unwrapArrays steps inner := by
  rw [Components.unwrapArrays_succ, show components.enterItems? outer = some inner from h]

/-- What is left in the end is reached by steps, and no list that has items. -/
theorem reaches_of_unwrapArrays_eq_some {steps : ℕ} {resolved final : Resolved}
    (h : components.unwrapArrays steps resolved = some final) :
    Relation.ReflTransGen components.Enters resolved final ∧
      components.enterItems? final = none := by
  induction steps generalizing resolved with
  | zero => simp [unwrapArrays] at h
  | succ steps ih =>
    rw [unwrapArrays_succ] at h
    cases henter : components.enterItems? resolved with
    | none =>
      rw [henter] at h
      obtain rfl := Option.some.inj h
      exact ⟨.refl, henter⟩
    | some inner =>
      rw [henter] at h
      obtain ⟨hreach, hend⟩ := ih h
      exact ⟨.head henter hreach, hend⟩

theorem exists_unwrapArrays_eq_some_of_reaches {resolved final : Resolved}
    (hreach : Relation.ReflTransGen components.Enters resolved final)
    (hend : components.enterItems? final = none) :
    ∃ steps, components.unwrapArrays steps resolved = some final := by
  induction hreach using Relation.ReflTransGen.head_induction_on with
  | refl => exact ⟨1, by rw [unwrapArrays_succ, hend]⟩
  | head henter _ ih =>
    obtain ⟨steps, hsteps⟩ := ih
    exact ⟨steps + 1, by rw [henter.unwrapArrays_succ, hsteps]⟩

/-- Further steps change nothing once the end is reached. -/
theorem unwrapArrays_eq_some_of_le {steps more : ℕ} (hle : steps ≤ more)
    {resolved final : Resolved} (h : components.unwrapArrays steps resolved = some final) :
    components.unwrapArrays more resolved = some final := by
  induction steps generalizing more resolved with
  | zero => simp [unwrapArrays] at h
  | succ steps ih =>
    obtain ⟨more, rfl⟩ := Nat.exists_eq_add_of_le' (Nat.zero_lt_of_lt hle)
    rw [unwrapArrays_succ] at h ⊢
    cases henter : components.enterItems? resolved with
    | none => rwa [henter] at h
    | some inner =>
      rw [henter] at h
      exact ih (Nat.le_of_succ_le_succ hle) h

/-! ### Courses without end -/

theorem Circular.exists_enters {resolved : Resolved} (h : components.Circular resolved) :
    ∃ inner, components.Enters resolved inner ∧ components.Circular inner := by
  obtain ⟨list, hreach, hround⟩ := h
  rcases hreach.cases_head with rfl | ⟨inner, henter, hreach⟩
  · obtain ⟨inner, henter, hback⟩ := Relation.TransGen.head'_iff.mp hround
    exact ⟨inner, henter, resolved, hback, hround⟩
  · exact ⟨inner, henter, list, hreach, hround⟩

/-- No number of steps is enough on a course that goes round. -/
theorem Circular.unwrapArrays_eq_none {resolved : Resolved} (h : components.Circular resolved)
    (steps : ℕ) : components.unwrapArrays steps resolved = none := by
  induction steps generalizing resolved with
  | zero => rfl
  | succ steps ih =>
    obtain ⟨inner, henter, hinner⟩ := h.exists_enters
    rw [henter.unwrapArrays_succ]
    exact ih hinner

/-- A number of steps that is not enough is the length of a course. -/
theorem exists_course_of_unwrapArrays_eq_none {steps : ℕ} {resolved : Resolved}
    (h : components.unwrapArrays steps resolved = none) :
    ∃ course : ℕ → Resolved, course 0 = resolved ∧
      ∀ i < steps, components.Enters (course i) (course (i + 1)) := by
  induction steps generalizing resolved with
  | zero => exact ⟨fun _ => resolved, rfl, fun i hi => absurd hi (Nat.not_lt_zero i)⟩
  | succ steps ih =>
    rw [unwrapArrays_succ] at h
    cases henter : components.enterItems? resolved with
    | none => simp [henter] at h
    | some inner =>
      rw [henter] at h
      obtain ⟨course, rfl, hcourse⟩ := ih h
      refine ⟨fun i => i.casesOn resolved course, rfl, fun i hi => ?_⟩
      cases i with
      | zero => exact henter
      | succ i => exact hcourse i (Nat.lt_of_succ_lt_succ hi)

/-- Whatever stands on a course has come from what stands before it. -/
theorem reaches_of_course {course : ℕ → Resolved} {i j : ℕ} (hij : i ≤ j)
    (hcourse : ∀ k < j, components.Enters (course k) (course (k + 1))) :
    Relation.ReflTransGen components.Enters (course i) (course j) := by
  induction j, hij using Nat.le_induction with
  | base => exact .refl
  | succ j hij ih =>
    exact (ih fun k hk => hcourse k (Nat.lt_succ_of_lt hk)).tail (hcourse j (Nat.lt_succ_self j))

/-! ### What stays within the document -/

/-- The items of a resolved schema are among the parts of a document, and its chain holds names of
components in ascending order. -/
structure Within (components : Components) (schema : Schema) (resolved : Resolved) : Prop where
  items_mem : ∀ items, resolved.schema.items = some items → items ∈ components.parts schema
  ascending : resolved.chain.Pairwise (· < ·)
  subset : resolved.chain ⊆ Entries.keys components.schemas

variable {schema : Schema}

theorem Within.resolve {part : Schema} {chain : RefChain}
    (hpart : part ∈ components.parts schema) (hchain : chain.Pairwise (· < ·))
    (hkeys : chain ⊆ Entries.keys components.schemas) :
    components.Within schema (components.resolve part chain) where
  items_mem _ h := items_resolve_mem_parts hpart h
  ascending := pairwise_chain_resolve part hchain
  subset := chain_resolve_subset_keys part hkeys

theorem Within.enters {outer inner : Resolved} (h : components.Within schema outer)
    (henter : components.Enters outer inner) : components.Within schema inner := by
  obtain ⟨-, items, hitems, rfl⟩ := enters_iff.mp henter
  exact .resolve (h.items_mem items hitems) h.ascending h.subset

theorem within_resolve (components : Components) (schema : Schema) :
    components.Within schema (components.resolve schema []) :=
  .resolve (components.self_mem_parts schema) .nil (List.nil_subset _)

theorem within_resolveNamed (components : Components) (name : String) :
    components.Within (components.resolveNamed name).schema (components.resolveNamed name) := by
  refine ⟨fun items h => ?_, ?_, ?_⟩
  · exact skeleton_subset_parts (components.self_mem_parts _) (Schema.items_mem_skeleton h)
  · unfold resolveNamed
    split
    · exact pairwise_chain_resolve _ (List.pairwise_singleton _ _)
    · exact .nil
  · unfold resolveNamed
    split
    · rename_i hlookup
      refine chain_resolve_subset_keys _ (List.cons_subset.mpr ⟨?_, List.nil_subset _⟩)
      exact Entries.mem_keys_of_lookup hlookup
    · exact List.nil_subset _

theorem Within.reaches {outer inner : Resolved} (h : components.Within schema outer)
    (hreach : Relation.ReflTransGen components.Enters outer inner) :
    components.Within schema inner :=
  keeps_of_reflTransGen (components.Within schema)
    (fun _ _ henter hwithin => hwithin.enters henter) hreach h

theorem Within.length_chain_le {resolved : Resolved} (h : components.Within schema resolved) :
    resolved.chain.length ≤ components.schemas.length := by
  simpa [Entries.keys] using (List.subperm_of_subset h.ascending.nodup h.subset).length_le

/-- Of two chains of one length, one within the other, the names are the same. -/
theorem Within.chain_eq {outer inner : Resolved} (houter : components.Within schema outer)
    (hinner : components.Within schema inner) (hsubset : outer.chain ⊆ inner.chain)
    (hlength : outer.chain.length = inner.chain.length) : outer.chain = inner.chain := by
  have hperm := (List.subperm_of_subset houter.ascending.nodup hsubset).perm_of_length_le
    hlength.ge
  exact hperm.eq_of_pairwise' houter.ascending hinner.ascending

/-- The chain only grows on the way. -/
theorem chain_subset_of_reaches {outer inner : Resolved}
    (h : Relation.ReflTransGen components.Enters outer inner) : outer.chain ⊆ inner.chain := by
  induction h with
  | refl => exact List.Subset.refl _
  | tail _ henter ih =>
    obtain ⟨-, items, -, rfl⟩ := enters_iff.mp henter
    exact List.Subset.trans ih (subset_chain_resolve items _)

/-! ### Long courses -/

/-- The items that a course may meet, with the lengths of the chains that it may meet them with. -/
def encounters (components : Components) (schema : Schema) : Finset (Option Schema × ℕ) :=
  ((components.parts schema).map some).toFinset ×ˢ Finset.range (components.schemas.length + 1)

theorem card_encounters_lt (components : Components) (schema : Schema) :
    (components.encounters schema).card < components.unwrapBound schema := by
  have hparts : ((components.parts schema).map some).toFinset.card ≤
      Schema.sizeOfProperties components.schemas + schema.size :=
    (List.toFinset_card_le _).trans
      ((List.length_map _).trans_le (components.length_parts_le schema))
  rw [encounters, Finset.card_product, Finset.card_range]
  calc _ ≤ (Schema.sizeOfProperties components.schemas + schema.size) *
        (components.schemas.length + 1) := Nat.mul_le_mul_right _ hparts
    _ ≤ (Schema.sizeOfProperties components.schemas + schema.size + 1) *
        (components.schemas.length + 1) := Nat.mul_le_mul_right _ (Nat.le_succ _)
    _ < components.unwrapBound schema := Nat.lt_succ_self _

theorem Within.mem_encounters {outer inner : Resolved} (h : components.Within schema outer)
    (henter : components.Enters outer inner) :
    (outer.schema.items, outer.chain.length) ∈ components.encounters schema := by
  obtain ⟨-, items, hitems, -⟩ := enters_iff.mp henter
  refine Finset.mem_product.mpr ⟨?_, Finset.mem_range.mpr ?_⟩
  · rw [List.mem_toFinset, hitems]
    exact List.mem_map_of_mem (h.items_mem items hitems)
  · exact Nat.lt_succ_of_le h.length_chain_le

/-- On a course that is long enough, the same items stand twice, with as long a chain. -/
theorem exists_lt_items_eq {course : ℕ → Resolved}
    (hcourse : ∀ i < components.unwrapBound schema, components.Enters (course i) (course (i + 1)))
    (hstart : components.Within schema (course 0)) :
    ∃ i j, i < j ∧ j < components.unwrapBound schema ∧
      (course i).schema.items = (course j).schema.items ∧
      (course i).chain.length = (course j).chain.length := by
  have hmaps : ∀ i ∈ Finset.range (components.unwrapBound schema),
      ((course i).schema.items, (course i).chain.length) ∈ components.encounters schema := by
    intro i hi
    have hi := Finset.mem_range.mp hi
    have hwithin : components.Within schema (course i) := hstart.reaches
      (reaches_of_course (Nat.zero_le i) fun k hk => hcourse k (hk.trans hi))
    exact hwithin.mem_encounters (hcourse i hi)
  have hcard : (components.encounters schema).card <
      (Finset.range (components.unwrapBound schema)).card := by
    rw [Finset.card_range]
    exact components.card_encounters_lt schema
  obtain ⟨i, hi, j, hj, hne, heq⟩ := Finset.exists_ne_map_eq_of_card_lt_of_maps_to hcard hmaps
  obtain ⟨hitems, hlength⟩ := Prod.mk.inj heq
  rw [Finset.mem_range] at hi hj
  rcases hne.lt_or_gt with hlt | hlt
  · exact ⟨i, j, hlt, hj, hitems, hlength⟩
  · exact ⟨j, i, hlt, hi, hitems.symm, hlength.symm⟩

/-- A course that meets the same items with the same chain again goes round from there on. -/
theorem circular_of_course {course : ℕ → Resolved}
    (hcourse : ∀ i < components.unwrapBound schema, components.Enters (course i) (course (i + 1)))
    (hstart : components.Within schema (course 0)) : components.Circular (course 0) := by
  obtain ⟨i, j, hlt, hj, hitems, hlength⟩ := exists_lt_items_eq hcourse hstart
  have hreach : ∀ {k l : ℕ}, k ≤ l → l ≤ components.unwrapBound schema →
      Relation.ReflTransGen components.Enters (course k) (course l) := fun hkl hl =>
    reaches_of_course hkl fun m hm => hcourse m (hm.trans_le hl)
  have hwithini : components.Within schema (course i) :=
    hstart.reaches (hreach (Nat.zero_le i) (by omega))
  have hwithinj : components.Within schema (course j) :=
    hstart.reaches (hreach (Nat.zero_le j) (by omega))
  have hchain : (course i).chain = (course j).chain :=
    hwithini.chain_eq hwithinj (chain_subset_of_reaches (hreach hlt.le hj.le)) hlength
  have hback : course (i + 1) = course (j + 1) :=
    (hcourse i (hlt.trans hj)).inner_eq (hcourse j hj) hitems hchain
  refine ⟨course (i + 1), hreach (Nat.zero_le _) (by omega), ?_⟩
  nth_rewrite 2 [hback]
  exact Relation.TransGen.tail' (hreach (by omega) hj.le) (hcourse j hj)

/-- Going into items has no end exactly if a list is reached that leads back to itself. -/
theorem unwrapArrays_eq_none_iff {resolved : Resolved} (h : components.Within schema resolved) :
    components.unwrapArrays (components.unwrapBound schema) resolved = none ↔
      components.Circular resolved := by
  constructor
  · intro hnone
    obtain ⟨course, rfl, hcourse⟩ := exists_course_of_unwrapArrays_eq_none hnone
    exact circular_of_course hcourse h
  · intro hcircular
    exact hcircular.unwrapArrays_eq_none _

theorem unwrapArrays_eq_some_iff {resolved final : Resolved}
    (h : components.Within schema resolved) :
    components.unwrapArrays (components.unwrapBound schema) resolved = some final ↔
      Relation.ReflTransGen components.Enters resolved final ∧
        components.enterItems? final = none := by
  refine ⟨reaches_of_unwrapArrays_eq_some, fun ⟨hreach, hend⟩ => ?_⟩
  obtain ⟨steps, hsteps⟩ := exists_unwrapArrays_eq_some_of_reaches hreach hend
  cases hfound : components.unwrapArrays (components.unwrapBound schema) resolved with
  | none =>
    have hnone := ((unwrapArrays_eq_none_iff h).mp hfound).unwrapArrays_eq_none steps
    rw [hnone] at hsteps
    cases hsteps
  | some found =>
    have hfinal := unwrapArrays_eq_some_of_le
      (le_max_left steps (components.unwrapBound schema)) hsteps
    rwa [unwrapArrays_eq_some_of_le (le_max_right steps _) hfound] at hfinal

/-- The fields are those of what is left when there are no more items to go into. -/
theorem fieldsOf?_eq_some_iff {resolved : Resolved} (h : components.Within schema resolved)
    {fields : List Field} :
    components.fieldsOf? schema resolved = some fields ↔ ∃ final,
      (Relation.ReflTransGen components.Enters resolved final ∧
        components.enterItems? final = none) ∧ components.objectFields final = fields := by
  simp only [fieldsOf?, Option.map_eq_some_iff, unwrapArrays_eq_some_iff h]

theorem fieldsOf?_eq_none_iff {resolved : Resolved} (h : components.Within schema resolved) :
    components.fieldsOf? schema resolved = none ↔ components.Circular resolved := by
  rw [fieldsOf?, Option.map_eq_none_iff, unwrapArrays_eq_none_iff h]

/-- Beyond the bound, more steps make no difference. -/
theorem unwrapArrays_eq_of_le {resolved : Resolved} (h : components.Within schema resolved)
    {steps : ℕ} (hle : components.unwrapBound schema ≤ steps) :
    components.unwrapArrays steps resolved =
      components.unwrapArrays (components.unwrapBound schema) resolved := by
  cases hfound : components.unwrapArrays (components.unwrapBound schema) resolved with
  | none => exact ((unwrapArrays_eq_none_iff h).mp hfound).unwrapArrays_eq_none steps
  | some final => exact unwrapArrays_eq_some_of_le hle hfound

/-- Two schemas have the same fields if these are the same after any number of steps, whatever the
bounds on the numbers of steps are. -/
theorem fieldsOf?_congr {components' : Components} {schema' : Schema}
    {resolved resolved' : Resolved} (h : components.Within schema resolved)
    (h' : components'.Within schema' resolved')
    (hsteps : ∀ steps, (components.unwrapArrays steps resolved).map components.objectFields =
      (components'.unwrapArrays steps resolved').map components'.objectFields) :
    components.fieldsOf? schema resolved = components'.fieldsOf? schema' resolved' := by
  have hle := le_max_left (components.unwrapBound schema) (components'.unwrapBound schema')
  have hle' := le_max_right (components.unwrapBound schema) (components'.unwrapBound schema')
  rw [fieldsOf?, fieldsOf?, ← unwrapArrays_eq_of_le h hle, ← unwrapArrays_eq_of_le h' hle', hsteps]

/-- Of a schema that is no list, no items are gone into. -/
theorem fieldsOf?_of_isArray_eq_false {resolved : Resolved}
    (h : resolved.schema.isArray = false) :
    components.fieldsOf? schema resolved = some (components.objectFields resolved) := by
  have hend : components.enterItems? resolved = none := by simp [enterItems?, h]
  rw [fieldsOf?, unwrapBound, unwrapArrays_succ, hend]
  rfl

theorem fields?_eq_none_iff {schema : Schema} :
    components.fields? schema = none ↔ components.Circular (components.resolve schema []) :=
  fieldsOf?_eq_none_iff (within_resolve components schema)

theorem namedFields?_eq_none_iff {name : String} :
    components.namedFields? name = none ↔ components.Circular (components.resolveNamed name) :=
  fieldsOf?_eq_none_iff (within_resolveNamed components name)

/-! ### Where a course goes round -/

theorem fresh_le_of_subset {chain chain' : RefChain} (h : chain ⊆ chain') :
    components.fresh chain' ≤ components.fresh chain :=
  (List.monotone_filter_right _ fun name hname => by
    have hname : name ∉ chain' := by simpa using hname
    simpa using fun hmem => hname (h hmem)).length_le

/-- Unless the items hold an `allOf` in place, a step adds a component to the chain or goes to a
smaller schema. -/
theorem Enters.lex {outer inner : Resolved} (h : components.Enters outer inner) :
    (∃ items, outer.schema.items = some items ∧ items.IsComposed) ∨
      Prod.Lex (· < ·) (· < ·) (components.fresh inner.chain, inner.schema.size)
        (components.fresh outer.chain, outer.schema.size) := by
  obtain ⟨-, items, hitems, rfl⟩ := enters_iff.mp h
  have hsmaller : components.resolve items outer.chain = ⟨items, outer.chain⟩ →
      Prod.Lex (· < ·) (· < ·)
        (components.fresh (components.resolve items outer.chain).chain,
          (components.resolve items outer.chain).schema.size)
        (components.fresh outer.chain, outer.schema.size) := fun heq => by
    rw [heq]
    exact .right _ (Schema.size_items_lt hitems)
  cases href : items.reference with
  | none =>
    by_cases hallOf : items.allOf = []
    · exact .inr (hsmaller (resolve_of_allOf_eq_nil href hallOf))
    · exact .inl ⟨items, hitems, href, hallOf⟩
  | some target =>
    refine .inr ?_
    cases hfollow : components.follow? outer.chain target with
    | none => exact hsmaller (resolve_of_follow?_eq_none href hfollow)
    | some found =>
      obtain ⟨name, definition⟩ := found
      obtain ⟨-, hfresh, hlookup⟩ := follow?_eq_some hfollow
      rw [resolve_of_follow?_eq_some href hfollow]
      refine .left _ _ ?_
      calc components.fresh (components.resolve definition _).chain
          ≤ components.fresh (Ascending.insert name outer.chain) :=
            fresh_le_of_subset (subset_chain_resolve definition _)
        _ < components.fresh outer.chain :=
            fresh_insert_lt (Entries.mem_keys_of_lookup hlookup) hfresh

/-- On a course that goes round, there are items that hold an `allOf` in place. -/
theorem Circular.exists_composed_items {resolved : Resolved} (h : components.Circular resolved) :
    ∃ list items, Relation.ReflTransGen components.Enters resolved list ∧
      list.schema.items = some items ∧ items.IsComposed := by
  let measure (resolved : Resolved) : ℕ × ℕ :=
    (components.fresh resolved.chain, resolved.schema.size)
  have hwf : WellFounded (InvImage (Prod.Lex (· < ·) (· < ·)) measure) :=
    InvImage.wf measure (WellFounded.prod_lex Nat.lt_wfRel.wf Nat.lt_wfRel.wf)
  induction resolved using hwf.induction with
  | h resolved ih =>
    obtain ⟨inner, henter, hinner⟩ := h.exists_enters
    rcases henter.lex with ⟨items, hitems, hcomposed⟩ | hsmaller
    · exact ⟨resolved, items, .refl, hitems, hcomposed⟩
    · obtain ⟨list, items, hreach, hitems, hcomposed⟩ := ih inner hsmaller hinner
      exact ⟨list, items, .head henter hreach, hitems, hcomposed⟩

end Components

end CrudUi
