import CrudUi.Proofs.Decode.Records
import CrudUi.Proofs.Json.Names
import CrudUi.Proofs.Places

/-!
# Places that are read

A place in a JSON value is mirrored by a place in what the value is read as if the reading puts
there what it makes of the part, and makes the same of everything else whatever the part is
(`Json.Mirrors`).  The fields of records, the values of tables, and what is given in place of a
reference are mirrored, and so are the places in what stands at a mirrored place
(`Json.Mirrors.comp`).

## Main definitions

* `Json.member`, `Json.element`, `Json.recordField` : places in values.
* `Json.Mirrors` : the reading of a value agrees with the reading of a part.
-/

namespace CrudUi

namespace Json

/-! ### Places in values -/

/-- The members of an object. -/
def members : Place Json (Entries Json) where
  get?
    | .object members => some members
    | .null | .bool _ | .number _ | .string _ | .array _ => none
  put members
    | .object _ => .object members
    | .null => .null
    | .bool value => .bool value
    | .number value => .number value
    | .string text => .string text
    | .array items => .array items
  put_get? {whole part} h := by cases whole <;> cases h; rfl
  get?_put _ whole := by cases whole <;> rfl
  put_put _ _ whole := by cases whole <;> rfl

/-- The items of a list. -/
def elements : Place Json (List Json) where
  get?
    | .array items => some items
    | .null | .bool _ | .number _ | .string _ | .object _ => none
  put items
    | .array _ => .array items
    | .null => .null
    | .bool value => .bool value
    | .number value => .number value
    | .string text => .string text
    | .object members => .object members
  put_get? {whole part} h := by cases whole <;> cases h; rfl
  get?_put _ whole := by cases whole <;> rfl
  put_put _ _ whole := by cases whole <;> rfl

/-- The member of a name. -/
def member (name : String) : Place Json Json :=
  members.comp (.entry name)

/-- The item at a position. -/
def element (position : ℕ) : Place Json Json :=
  elements.comp (.item position)

/-- The field of a name, in an object or in a list of the fields of a record. -/
def recordField (shape : Shape) (name : String) : Place Json Json where
  get?
    | .object members => (Place.entry name).get? members
    | .array items => (Place.item (shape.names.idxOf name)).get? items
    | .null | .bool _ | .number _ | .string _ => none
  put part
    | .object members => .object ((Place.entry name).put part members)
    | .array items => .array ((Place.item (shape.names.idxOf name)).put part items)
    | .null => .null
    | .bool value => .bool value
    | .number value => .number value
    | .string text => .string text
  put_get? {whole part} h := by
    cases whole with
    | null | bool | number | string => rfl
    | array => exact congrArg Json.array ((Place.item _).put_get? h)
    | object => exact congrArg Json.object ((Place.entry name).put_get? h)
  get?_put part whole := by
    cases whole with
    | null | bool | number | string => rfl
    | array => exact (Place.item _).get?_put part _
    | object => exact (Place.entry name).get?_put part _
  put_put part part' whole := by
    cases whole with
    | null | bool | number | string => rfl
    | array => exact congrArg Json.array ((Place.item _).put_put part part' _)
    | object => exact congrArg Json.object ((Place.entry name).put_put part part' _)

section Parts

variable {value old : Json} {name : String} {position : ℕ}

theorem member_get?_eq_some_iff : (member name).get? value = some old ↔
    ∃ members, value = .object members ∧ Entries.lookup name members = some old := by
  cases value with
  | object members => simp [member, Place.comp, Json.members, Place.entry]
  | null | bool | number | string | array => simp [member, Place.comp, Json.members]

theorem element_get?_eq_some_iff : (element position).get? value = some old ↔
    ∃ items, value = .array items ∧ items[position]? = some old := by
  cases value with
  | array items => simp [element, Place.comp, elements, Place.item]
  | null | bool | number | string | object => simp [element, Place.comp, elements]

theorem put_member {members : Entries Json} (h : Entries.lookup name members = some old)
    (new : Json) :
    (member name).put new (.object members) = .object (Entries.insert name new members) := by
  rw [← Place.put_entry h]
  rfl

theorem HasDistinctNames.member (h : value.HasDistinctNames)
    (hold : (member name).get? value = some old) : old.HasDistinctNames := by
  obtain ⟨members, rfl, hold⟩ := member_get?_eq_some_iff.mp hold
  cases h with
  | object hnames h => exact h _ (Entries.mem_of_lookup hold)

theorem HasDistinctNames.element (h : value.HasDistinctNames)
    (hold : (element position).get? value = some old) : old.HasDistinctNames := by
  obtain ⟨items, rfl, hold⟩ := element_get?_eq_some_iff.mp hold
  cases h with
  | array h => exact h _ (List.mem_of_getElem? hold)

theorem HasDistinctNames.recordField {shape : Shape} (h : value.HasDistinctNames)
    (hold : (recordField shape name).get? value = some old) : old.HasDistinctNames := by
  cases value with
  | null | bool | number | string => cases hold
  | array items =>
    cases h with
    | array h => exact h _ (List.mem_of_getElem? hold)
  | object members =>
    cases h with
    | object hnames h => exact h _ (Entries.mem_of_lookup hold)

end Parts

/-! ### Mirrored places -/

variable {σ β γ : Type}

/-- A place in a value is mirrored by a place in what the value is read as: what stands there is
read by itself, the result stands at the mirrored place, and anything but a null that can be read
may be put there instead.  A null stands there only where this is allowed. -/
def Mirrors (nullable : Prop) (read : Json → Decoded σ) (inJson : Place Json Json)
    (readPart : Json → Decoded β) (inResult : Place σ β) : Prop :=
  ∀ ⦃value old : Json⦄ ⦃whole : σ⦄, value.HasDistinctNames → read value = .ok whole →
    inJson.get? value = some old → (old = .null → nullable) →
      old.HasDistinctNames ∧ ∃ part, readPart old = .ok part ∧ inResult.get? whole = some part ∧
        ∀ new part', new ≠ .null → readPart new = .ok part' →
          read (inJson.put new value) = .ok (inResult.put part' whole)

namespace Mirrors

variable {nullable nullable' : Prop} {read : Json → Decoded σ} {readMiddle : Json → Decoded β}
  {readPart : Json → Decoded γ} {outerJson innerJson : Place Json Json} {outer : Place σ β}
  {inner : Place β γ}

theorem comp (houter : Mirrors nullable read outerJson readMiddle outer)
    (hinner : Mirrors nullable' readMiddle innerJson readPart inner)
    (hnull : innerJson.get? .null = none) :
    Mirrors nullable' read (outerJson.comp innerJson) readPart (outer.comp inner) := by
  intro value old whole hvalue hread hold hnullable
  obtain ⟨middle, hmiddle, hold⟩ := Option.bind_eq_some_iff.mp hold
  -- Something stands inside what is in the middle, so that is no null, before and after.
  have hne : middle ≠ .null := fun h => Option.some_ne_none old (hold ▸ h ▸ hnull)
  obtain ⟨hdistinct, part, hpart, hget, hput⟩ := houter hvalue hread hmiddle (absurd · hne)
  obtain ⟨hdistinct, inside, hinside, hinsideGet, hinsidePut⟩ :=
    hinner hdistinct hpart hold hnullable
  refine ⟨hdistinct, inside, hinside, (Place.get?_comp hget).trans hinsideGet,
    fun new inside' hnew hinside' => ?_⟩
  have hne' : innerJson.put new middle ≠ .null := fun h => by
    have hfound := innerJson.get?_put new middle
    rw [h, hnull, hold] at hfound
    cases hfound
  rw [Place.put_comp hmiddle, Place.put_comp hget]
  exact hput _ _ hne' (hinsidePut new inside' hnew hinside')

theorem mono (h : Mirrors nullable read outerJson readMiddle outer)
    (hnullable : nullable' → nullable) : Mirrors nullable' read outerJson readMiddle outer :=
  fun _ _ _ hvalue hread hold hnull => h hvalue hread hold fun heq => hnullable (hnull heq)

/-- A place that is read as an optional value is mirrored by the value. -/
theorem optional {outer : Place σ (Option β)}
    (h : Mirrors nullable read outerJson (readOptional readMiddle) outer) :
    Mirrors False read outerJson readMiddle (outer.comp .optional) := by
  have hoptional {value : Json} (hvalue : value ≠ .null) :
      value.readOptional readMiddle = some <$> readMiddle value := by
    cases value with
    | null => exact absurd rfl hvalue
    | bool | number | string | array | object => rfl
  intro value old whole hvalue hread hold hnull
  obtain ⟨hdistinct, part, hpart, hget, hput⟩ := h hvalue hread hold (False.elim <| hnull ·)
  rw [hoptional hnull] at hpart
  cases hmiddle : readMiddle old with
  | error error => simp [hmiddle] at hpart
  | ok middle =>
    obtain rfl : some middle = part := by simpa [hmiddle] using hpart
    refine ⟨hdistinct, middle, rfl, (Place.get?_comp hget).trans rfl,
      fun new middle' hnew hmiddle' => ?_⟩
    rw [Place.put_comp hget]
    refine hput new _ hnew ?_
    rw [hoptional hnew, hmiddle']
    rfl

end Mirrors

/-! ### Fields of records -/

section Fields

variable {shape : Shape} {name : String} {set : σ → String → Json → Decoded σ}
  {readPart : Json → Decoded β} {place : Place σ β}

/-- A field that is not stored any more can as well be stored at the end. -/
theorem fillFields_put (hothers : ∀ acc key value part, key ∈ shape.names → key ≠ name →
      set (place.put part acc) key value = place.put part <$> set acc key value)
    {seen : List String} (hseen : name ∈ seen) (part : β) (members : List (String × Json))
    (acc : σ) :
    source.fillFields shape set (members.map fun member => (.ok member.1, member.2))
        (place.put part acc) seen =
      (fun filled => (place.put part filled.1, filled.2)) <$>
        source.fillFields shape set (members.map fun member => (.ok member.1, member.2)) acc
          seen := by
  induction members generalizing acc seen with
  | nil => rfl
  | cons member rest ih =>
    obtain ⟨key, value⟩ := member
    by_cases hkey : key ∈ shape.names
    · rw [List.map_cons, Source.fillFields_cons_of_mem hkey, Source.fillFields_cons_of_mem hkey]
      by_cases hmem : key ∈ seen
      · rw [if_pos hmem, if_pos hmem]
        rfl
      · rw [if_neg hmem, if_neg hmem,
          hothers acc key value part hkey fun h => hmem (h ▸ hseen)]
        cases set acc key value with
        | error error => rfl
        | ok acc' => exact ih (List.mem_cons_of_mem _ hseen) acc'
    · rw [List.map_cons, Source.fillFields_cons_of_skip hkey rfl,
        Source.fillFields_cons_of_skip hkey rfl, ih hseen]

variable (hset : ∀ acc value, set acc name value = (place.put · acc) <$> readPart value)
  (hothers : ∀ acc key value part, key ∈ shape.names → key ≠ name →
    set (place.put part acc) key value = place.put part <$> set acc key value)
  (htotal : ∀ whole, (place.get? whole).isSome) (hname : name ∈ shape.names)

include hset hothers htotal hname in
theorem fillFields_insert {members : List (String × Json)} {old : Json} {acc whole : σ}
    {seen filled : List String} (hold : Entries.lookup name members = some old)
    (hfill : source.fillFields shape set (members.map fun member => (.ok member.1, member.2)) acc
      seen = .ok (whole, filled)) :
    ∃ part, readPart old = .ok part ∧ place.get? whole = some part ∧
      ∀ new part', readPart new = .ok part' → source.fillFields shape set
        ((Entries.insert name new members).map fun member => (.ok member.1, member.2)) acc seen =
          .ok (place.put part' whole, filled) := by
  induction members generalizing acc seen with
  | nil => cases hold
  | cons member rest ih =>
    obtain ⟨key, value⟩ := member
    have hinsert (new : Json) : Entries.insert name new ((key, value) :: rest) =
        if key = name then (name, new) :: rest else (key, value) :: Entries.insert name new rest :=
      rfl
    simp only [hinsert]
    rw [Entries.lookup] at hold
    split at hold
    · -- Here the field is stored; what follows is stored in the same way without it.
      rename_i hkey
      subst hkey
      obtain rfl := Option.some.inj hold
      rw [List.map_cons, Source.fillFields_cons_of_mem hname] at hfill
      by_cases hmem : key ∈ seen
      · rw [if_pos hmem] at hfill
        cases hfill
      · rw [if_neg hmem, hset] at hfill
        obtain ⟨acc', hacc', hfill⟩ := bind_eq_ok_iff.mp hfill
        obtain ⟨part, hpart, rfl⟩ := map_eq_ok_iff.mp hacc'
        rw [fillFields_put hothers List.mem_cons_self] at hfill
        obtain ⟨⟨before, filled'⟩, hbefore, heq⟩ := map_eq_ok_iff.mp hfill
        obtain ⟨rfl, rfl⟩ := Prod.mk.inj heq
        obtain ⟨there, hthere⟩ := Option.isSome_iff_exists.mp (htotal before)
        refine ⟨part, hpart, by rw [place.get?_put, hthere]; rfl, fun new part' hpart' => ?_⟩
        rw [if_pos rfl, List.map_cons, Source.fillFields_cons_of_mem hname, if_neg hmem, hset,
          hpart', place.put_put]
        refine bind_eq_ok_iff.mpr ⟨_, rfl, ?_⟩
        rw [fillFields_put hothers List.mem_cons_self, hbefore]
        rfl
    · rename_i hkey
      simp only [if_neg hkey]
      by_cases hfield : key ∈ shape.names
      · rw [List.map_cons, Source.fillFields_cons_of_mem hfield] at hfill
        by_cases hmem : key ∈ seen
        · rw [if_pos hmem] at hfill
          cases hfill
        · rw [if_neg hmem] at hfill
          obtain ⟨acc', hacc', hfill⟩ := bind_eq_ok_iff.mp hfill
          obtain ⟨part, hpart, hget, hput⟩ := ih hold hfill
          refine ⟨part, hpart, hget, fun new part' hpart' => ?_⟩
          rw [List.map_cons, Source.fillFields_cons_of_mem hfield, if_neg hmem]
          exact bind_eq_ok_iff.mpr ⟨acc', hacc', hput new part' hpart'⟩
      · rw [List.map_cons, Source.fillFields_cons_of_skip hfield rfl] at hfill
        obtain ⟨part, hpart, hget, hput⟩ := ih hold hfill
        refine ⟨part, hpart, hget, fun new part' hpart' => ?_⟩
        rw [List.map_cons, Source.fillFields_cons_of_skip hfield rfl]
        exact hput new part' hpart'

theorem lookup_zip {fields : List (String × Presence)} (hname : name ∈ fields.map Prod.fst)
    (items : List Json) :
    Entries.lookup name ((fields.zip items).map fun entry => (entry.1.1, entry.2)) =
      items[(fields.map Prod.fst).idxOf name]? := by
  induction fields generalizing items with
  | nil => cases hname
  | cons field rest ih =>
    cases items with
    | nil => rfl
    | cons item items =>
      rw [List.zip_cons_cons, List.map_cons, List.map_cons, Entries.lookup]
      by_cases hfield : field.1 = name
      · rw [if_pos hfield, hfield, List.idxOf_cons_self]
        rfl
      · have hrest : name ∈ rest.map Prod.fst :=
          (List.mem_cons.mp hname).resolve_left (Ne.symm hfield)
        rw [if_neg hfield, List.idxOf_cons_ne _ hfield, ih hrest]
        rfl

theorem insert_zip {fields : List (String × Presence)} (hname : name ∈ fields.map Prod.fst)
    {items : List Json} (hlt : (fields.map Prod.fst).idxOf name < items.length) (new : Json) :
    Entries.insert name new ((fields.zip items).map fun entry => (entry.1.1, entry.2)) =
      (fields.zip (items.set ((fields.map Prod.fst).idxOf name) new)).map fun entry =>
        (entry.1.1, entry.2) := by
  induction fields generalizing items with
  | nil => cases hname
  | cons field rest ih =>
    cases items with
    | nil => cases hlt
    | cons item items =>
      rw [List.zip_cons_cons, List.map_cons, Entries.insert]
      by_cases hfield : field.1 = name
      · rw [if_pos hfield, List.map_cons, hfield, List.idxOf_cons_self, ← hfield]
        rfl
      · have hrest : name ∈ rest.map Prod.fst :=
          (List.mem_cons.mp hname).resolve_left (Ne.symm hfield)
        rw [List.map_cons, List.idxOf_cons_ne _ hfield] at hlt ⊢
        rw [if_neg hfield, ih hrest (Nat.lt_of_succ_lt_succ hlt)]
        rfl

include hset hothers htotal hname in
/-- A field of a record is mirrored by the place where it is stored. -/
theorem mirrors_recordField {blank : σ} :
    Mirrors True (source.readRecord shape blank set) (recordField shape name) readPart place := by
  intro value old whole hvalue hread hold _
  refine ⟨hvalue.recordField hold, ?_⟩
  -- An object and a list fill the fields from members; only the checks behind them differ.
  cases value with
  | null | bool | number | string => cases hold
  | object members =>
    have hlookup : Entries.lookup name members = some old := hold
    obtain ⟨seen, hfill, hmissing⟩ := readRecord_object_eq_ok_iff.mp hread
    obtain ⟨part, hpart, hget, hput⟩ :=
      fillFields_insert hset hothers htotal hname hlookup hfill
    refine ⟨part, hpart, hget, fun new part' _ hpart' => ?_⟩
    have hnew : (recordField shape name).put new (.object members) =
        .object (Entries.insert name new members) :=
      congrArg Json.object (Place.put_entry hlookup new)
    rw [hnew, readRecord_object_eq_ok_iff]
    exact ⟨seen, hput new part' hpart', hmissing⟩
  | array items =>
    have hitem : items[shape.names.idxOf name]? = some old := hold
    obtain ⟨hlt, -⟩ := List.getElem?_eq_some_iff.mp hitem
    obtain ⟨seen, hfill, hlength, hmissing⟩ := readRecord_array_eq_ok_iff.mp hread
    obtain ⟨part, hpart, hget, hput⟩ := fillFields_insert hset hothers htotal hname
      ((lookup_zip hname items).trans hitem) hfill
    refine ⟨part, hpart, hget, fun new part' _ hpart' => ?_⟩
    have hnew : (recordField shape name).put new (.array items) =
        .array (items.set (shape.names.idxOf name) new) := rfl
    have hlisted : Entries.insert name new (listedFields shape items) =
        listedFields shape (items.set (shape.names.idxOf name) new) := insert_zip hname hlt new
    rw [hnew, readRecord_array_eq_ok_iff, ← hlisted, List.length_set]
    exact ⟨seen, hput new part' hpart', hlength, hmissing⟩

end Fields

/-! ### Values of tables -/

section Tables

variable {read : Json → Decoded σ}

theorem readsEntry_insert {name : String} {members : Entries Json} {table : Entries σ} {old : Json}
    (hold : Entries.lookup name members = some old)
    (h : List.Forall₂ (ReadsEntry read) members table) :
    ∃ part, read old = .ok part ∧ Entries.lookup name table = some part ∧
      ∀ new part', read new = .ok part' → List.Forall₂ (ReadsEntry read)
        (Entries.insert name new members) (Entries.insert name part' table) := by
  induction h with
  | nil => cases hold
  | @cons member entry members table hentry hrest ih =>
    obtain ⟨key, value⟩ := member
    obtain ⟨_, part⟩ := entry
    obtain ⟨rfl, hpart⟩ := hentry
    rw [Entries.lookup] at hold
    split at hold
    · rename_i hkey
      subst hkey
      obtain rfl := Option.some.inj hold
      refine ⟨part, hpart, if_pos rfl, fun new part' hpart' => ?_⟩
      rw [Entries.insert, Entries.insert, if_pos rfl, if_pos rfl]
      exact .cons ⟨rfl, hpart'⟩ hrest
    · rename_i hkey
      obtain ⟨found, hfound, hlookup, hput⟩ := ih hold
      refine ⟨found, hfound, (if_neg hkey).trans hlookup, fun new part' hpart' => ?_⟩
      rw [Entries.insert, Entries.insert, if_neg hkey, if_neg hkey]
      exact .cons ⟨rfl, hpart⟩ (hput new part' hpart')

/-- A value of a table is mirrored by the value under the same name. -/
theorem mirrors_member (name : String) :
    Mirrors True (source.readTable read) (member name) read (Place.entry name) := by
  intro value old whole hvalue hread hold _
  refine ⟨hvalue.member hold, ?_⟩
  obtain ⟨members, rfl, hlookup⟩ := member_get?_eq_some_iff.mp hold
  cases hvalue with
  | object hnames _ =>
    have hentries := (readTable_object_eq_ok_iff hnames).mp hread
    obtain ⟨part, hpart, hfound, hput⟩ := readsEntry_insert hlookup hentries
    refine ⟨part, hpart, hfound, fun new part' _ hpart' => ?_⟩
    rw [put_member hlookup, Place.put_entry hfound]
    exact (readTable_object_eq_ok_iff (Entries.nodup_keys_insert name new hnames)).mpr
      (hput new part' hpart')

end Tables

end Json

end CrudUi
