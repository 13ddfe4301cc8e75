import CrudUi.Entries
import CrudUi.Proofs.Ascending.Members
import CrudUi.Walk.Payload
import Mathlib.Data.List.Forall2
import Mathlib.Data.List.Nodup

/-!
# Tables in another order

Two tables that hold each name once differ in the order of their entries if the entries of one
stand at some place of the other, with values that are related.  Tables in another order are those
with related values under each name (`Entries.reordered_iff`); so are, then, the tables that are
cut down to some names or merged.

## Main definitions

* `Entries.Aligned` : the entries of a table stand in the same order, with related values.
* `Entries.Reordered` : the entries of a table stand in another order, with related values.
-/

namespace CrudUi

/-! ### Related options and lists -/

theorem rel_bind {α α' β β' : Type} {related : α → α' → Prop} {result : β → β' → Prop}
    {value : Option α} {value' : Option α'} {next : α → Option β} {next' : α' → Option β'}
    (h : Option.Rel related value value')
    (hnext : ∀ a a', related a a' → Option.Rel result (next a) (next' a')) :
    Option.Rel result (value.bind next) (value'.bind next') := by
  cases h with
  | none => exact .none
  | some hvalue => exact hnext _ _ hvalue

theorem rel_mono {α β : Type} {related related' : α → β → Prop} {value : Option α}
    {value' : Option β} (hmono : ∀ a b, related a b → related' a b)
    (h : Option.Rel related value value') : Option.Rel related' value value' := by
  cases h with
  | none => exact .none
  | some hvalue => exact .some (hmono _ _ hvalue)

theorem rel_map {α α' β β' : Type} {related : α → α' → Prop} {result : β → β' → Prop}
    {value : Option α} {value' : Option α'} {f : α → β} {f' : α' → β'}
    (h : Option.Rel related value value') (hf : ∀ a a', related a a' → result (f a) (f' a')) :
    Option.Rel result (value.map f) (value'.map f') := by
  cases h with
  | none => exact .none
  | some hvalue => exact .some (hf _ _ hvalue)

theorem map_eq_of_rel {α α' β : Type} {related : α → α' → Prop} {value : Option α}
    {value' : Option α'} {f : α → β} {f' : α' → β} (h : Option.Rel related value value')
    (hf : ∀ a a', related a a' → f a = f' a') : value.map f = value'.map f' := by
  cases h with
  | none => rfl
  | some hvalue => exact congrArg some (hf _ _ hvalue)

theorem bind_eq_of_rel {α α' β : Type} {related : α → α' → Prop} {value : Option α}
    {value' : Option α'} {next : α → Option β} {next' : α' → Option β}
    (h : Option.Rel related value value') (hnext : ∀ a a', related a a' → next a = next' a') :
    value.bind next = value'.bind next' := by
  cases h with
  | none => rfl
  | some hvalue => exact hnext _ _ hvalue

theorem forall₂_toList {α β : Type} {related : α → β → Prop} {value : Option α}
    {value' : Option β} (h : Option.Rel related value value') :
    List.Forall₂ related value.toList value'.toList := by
  cases h with
  | none => exact .nil
  | some hvalue => exact .cons hvalue .nil

theorem isSome_eq_of_rel {α β : Type} {related : α → β → Prop} {value : Option α}
    {value' : Option β} (h : Option.Rel related value value') : value.isSome = value'.isSome := by
  cases h <;> rfl

theorem isEmpty_eq_of_forall₂ {α β : Type} {related : α → β → Prop} {values : List α}
    {values' : List β} (h : List.Forall₂ related values values') :
    values.isEmpty = values'.isEmpty := by
  cases h <;> rfl

theorem rel_or {α β : Type} {related : α → β → Prop} {first second : Option α}
    {first' second' : Option β} (h : Option.Rel related first first')
    (hsecond : Option.Rel related second second') :
    Option.Rel related (first.or second) (first'.or second') := by
  cases h with
  | none => exact hsecond
  | some hvalue => exact .some hvalue

/-! ### Tables in another order -/

namespace Entries

variable {α : Type} {related : α → α → Prop} {entries entries' : Entries α}

/-- Two tables hold related values under the same names, in the same order. -/
abbrev Aligned (related : α → α → Prop) : Entries α → Entries α → Prop :=
  List.Forall₂ fun entry entry' => entry'.1 = entry.1 ∧ related entry.2 entry'.2

/-- Each entry of a table stands somewhere in the other one, with a related value, and nothing else
stands there.  The names of both are different from each other. -/
inductive Reordered (related : α → α → Prop) : Entries α → Entries α → Prop
  | nil : Reordered related [] []
  | cons {name : String} {value value' : α} {rest before after : Entries α}
      (hfree : name ∉ keys rest) (hvalue : related value value')
      (hrest : Reordered related rest (before ++ after)) :
      Reordered related ((name, value) :: rest) (before ++ (name, value') :: after)

theorem Reordered.mono {related' : α → α → Prop} (hmono : ∀ a b, related a b → related' a b)
    (h : Reordered related entries entries') : Reordered related' entries entries' := by
  induction h with
  | nil => exact .nil
  | cons hfree hvalue _ ih => exact .cons hfree (hmono _ _ hvalue) ih

/-! ### Values by name -/

theorem keys_append (front back : Entries α) : keys (front ++ back) = keys front ++ keys back :=
  List.map_append

theorem keys_middle_perm (name : String) (value : α) (before after : Entries α) :
    (keys (before ++ (name, value) :: after)).Perm (name :: keys (before ++ after)) :=
  List.perm_middle.map Prod.fst

theorem Reordered.keys_perm (h : Reordered related entries entries') :
    (keys entries).Perm (keys entries') := by
  induction h with
  | nil => exact .nil
  | @cons name _ _ _ _ _ _ _ _ ih => exact (ih.cons name).trans (keys_middle_perm ..).symm

theorem Reordered.nodup_keys (h : Reordered related entries entries') : (keys entries).Nodup := by
  induction h with
  | nil => exact List.nodup_nil
  | cons hfree _ _ ih => exact List.nodup_cons.mpr ⟨hfree, ih⟩

theorem Reordered.nodup_keys' (h : Reordered related entries entries') : (keys entries').Nodup :=
  h.keys_perm.nodup_iff.mp h.nodup_keys

theorem Reordered.lookup (h : Reordered related entries entries') (name : String) :
    Option.Rel related (lookup name entries) (lookup name entries') := by
  induction h with
  | nil => exact .none
  | @cons other value value' rest before after hfree hvalue hrest ih =>
    have hbefore : other ∉ keys before := fun hmem => by
      refine hfree (hrest.keys_perm.mem_iff.mpr ?_)
      rw [keys_append]
      exact List.mem_append_left _ hmem
    rw [lookup_append] at ih ⊢
    by_cases hname : other = name
    · subst hname
      simpa [Entries.lookup, lookup_eq_none_iff.mpr hbefore] using hvalue
    · simpa [Entries.lookup, hname] using ih

/-- Tables in another order are those that hold each name once, and related values under it. -/
theorem reordered_iff : Reordered related entries entries' ↔
    (keys entries).Nodup ∧ (keys entries').Nodup ∧
      ∀ name, Option.Rel related (lookup name entries) (lookup name entries') := by
  refine ⟨fun h => ⟨h.nodup_keys, h.nodup_keys', h.lookup⟩, ?_⟩
  rintro ⟨h, h', hlookup⟩
  induction entries generalizing entries' with
  | nil =>
    cases entries' with
    | nil => exact .nil
    | cons entry rest =>
      have hnone := hlookup entry.1
      simp [Entries.lookup] at hnone
  | cons entry rest ih =>
    obtain ⟨name, value⟩ := entry
    obtain ⟨hfree, hrest⟩ := List.nodup_cons.mp h
    have hfound := hlookup name
    rw [Entries.lookup, if_pos rfl] at hfound
    obtain ⟨value', hvalue', hvalue⟩ : ∃ value', Entries.lookup name entries' = some value' ∧
        related value value' := by
      cases hlookup' : Entries.lookup name entries' with
      | none => simp [hlookup'] at hfound
      | some value' => exact ⟨value', rfl, by simpa [hlookup'] using hfound⟩
    obtain ⟨before, after, rfl⟩ := List.append_of_mem (mem_of_lookup hvalue')
    obtain ⟨hfree', hrest'⟩ := List.nodup_cons.mp ((keys_middle_perm ..).nodup_iff.mp h')
    refine .cons hfree hvalue (ih hrest hrest' fun other => ?_)
    by_cases hother : name = other
    · subst hother
      rw [lookup_eq_none_iff.mpr hfree, lookup_eq_none_iff.mpr hfree']
      exact .none
    · simpa [lookup_append, Entries.lookup, hother] using hlookup other

theorem keys_eq_of_aligned (h : Aligned related entries entries') :
    keys entries' = keys entries := by
  induction h with
  | nil => rfl
  | cons hentry _ ih => exact congrArg₂ List.cons hentry.1 ih

theorem rel_lookup_of_aligned (h : Aligned related entries entries') (name : String) :
    Option.Rel related (lookup name entries) (lookup name entries') := by
  induction h with
  | nil => exact .none
  | cons hentry _ ih =>
    rw [lookup, lookup, hentry.1]
    split
    · exact .some hentry.2
    · exact ih

theorem lookup_eq_of_perm (hnodup : (keys entries).Nodup) (hperm : entries.Perm entries')
    (name : String) : lookup name entries = lookup name entries' := by
  have hnodup' : (keys entries').Nodup := (hperm.map Prod.fst).nodup_iff.mp hnodup
  refine Option.ext fun value => ⟨fun h => ?_, fun h => ?_⟩
  · exact lookup_of_mem hnodup' (hperm.mem_iff.mp (mem_of_lookup h))
  · exact lookup_of_mem hnodup (hperm.mem_iff.mpr (mem_of_lookup h))

/-- The entries are permuted first, and their values replaced by related ones second. -/
theorem Reordered.of_perm {middle : Entries α} (hnodup : (keys entries).Nodup)
    (hperm : entries.Perm middle) (h : Aligned related middle entries') :
    Reordered related entries entries' := by
  have hmiddle : (keys middle).Nodup := (hperm.map Prod.fst).nodup_iff.mp hnodup
  refine reordered_iff.mpr ⟨hnodup, (keys_eq_of_aligned h).symm ▸ hmiddle, fun name => ?_⟩
  rw [lookup_eq_of_perm hnodup hperm]
  exact rel_lookup_of_aligned h name

theorem Reordered.isEmpty_eq (h : Reordered related entries entries') :
    entries.isEmpty = entries'.isEmpty := by
  cases h <;> simp

/-! ### Tables made of others -/

theorem Reordered.filter (h : Reordered related entries entries') (keep : String → Bool) :
    Reordered related (entries.filter (keep ·.1)) (entries'.filter (keep ·.1)) := by
  induction h with
  | nil => exact .nil
  | @cons name value value' rest before after hfree hvalue hrest ih =>
    rw [List.filter_append] at ih ⊢
    rw [List.filter_cons, List.filter_cons]
    cases keep name with
    | true => exact .cons (fun hmem => hfree ((List.filter_sublist.map _).mem hmem)) hvalue ih
    | false => exact ih

/-- Writing entries in another order over entries in another order. -/
theorem Reordered.merge {new new' : Entries α} (h : Reordered related entries entries')
    (hnew : Reordered related new new') :
    Reordered related (merge entries new) (merge entries' new') := by
  refine reordered_iff.mpr ⟨nodup_keys_merge new h.nodup_keys, nodup_keys_merge new' h.nodup_keys',
    fun name => ?_⟩
  rw [lookup_merge hnew.nodup_keys, lookup_merge hnew.nodup_keys']
  exact rel_or (hnew.lookup name) (h.lookup name)

/-- The least name is the same wherever it stands. -/
theorem Reordered.least? (h : Reordered related entries entries') :
    Option.Rel related (least? entries) (least? entries') := by
  rw [Entries.least?, Entries.least?,
    Ascending.least?_congr fun name => h.keys_perm.mem_iff (a := name)]
  cases Ascending.least? (keys entries') with
  | none => exact .none
  | some name => exact h.lookup name

end Entries

end CrudUi
