import CrudUi.Decode
import CrudUi.Proofs.Computations

/-!
# Reading records and tables from values

Of the members of an object a record stores those that are its fields, one after another, and passes
over the others; a field that comes twice is an error.  So an object whose members are fields of a
record, in their order, is read by storing them (`Json.readRecord_object`), and an object that holds
no name twice is read as a table member by member (`Json.readTable_object_eq_ok_iff`).

## Main definitions

* `Json.fill` : members stored one after another.
* `Json.listedFields` : the fields of a record that is given as a list.
* `Json.ReadsEntry` : a member that is read as an entry of a table.
-/

namespace CrudUi

namespace Shape

variable {shape : Shape}

/-- The names of the fields. -/
def names (shape : Shape) : List String :=
  shape.fields.map Prod.fst

theorem any_fields_iff {name : String} :
    shape.fields.any (·.1 = name) = true ↔ name ∈ shape.names := by
  simp [names]

theorem missing?_none_eq_none_iff {present : List String} :
    shape.missing? none present = none ↔
      ∀ field ∈ shape.fields, field.2 = .required → field.1 ∈ present := by
  simp [missing?]

end Shape

/-! ### The members of a record -/

namespace Source

variable {ν α : Type} {source : Source (Except DecodeError) ν} {shape : Shape} {name : String}
  {node : ν}

/-- A field is stored, if it is not there already. -/
theorem fillFields_cons_of_mem (hfield : name ∈ shape.names)
    (set : α → String → ν → Except DecodeError α) (rest : List (Except DecodeError String × ν))
    (acc : α) (seen : List String) :
    source.fillFields shape set ((.ok name, node) :: rest) acc seen =
      if name ∈ seen then .error (.duplicateField name)
      else set acc name node >>= fun acc =>
        source.fillFields shape set rest acc (name :: seen) := by
  rw [fillFields]
  simp only [bind, Except.bind, Shape.any_fields_iff.mpr hfield, if_true]
  split <;> rfl

/-- A member that is no field of the record is passed over. -/
theorem fillFields_cons_of_skip (hfield : name ∉ shape.names) (hskip : source.skip node = .ok ())
    (set : α → String → ν → Except DecodeError α) (rest : List (Except DecodeError String × ν))
    (acc : α) (seen : List String) :
    source.fillFields shape set ((.ok name, node) :: rest) acc seen =
      source.fillFields shape set rest acc seen := by
  rw [← Shape.any_fields_iff, Bool.not_eq_true] at hfield
  rw [fillFields]
  simp [bind, Except.bind, hfield, hskip]

/-- What holds of a record to be filled and is kept when a field is stored holds of the record that
is filled. -/
theorem fillFields_induction {set : α → String → ν → Except DecodeError α} {property : α → Prop}
    (hset : ∀ acc name node acc', property acc → set acc name node = .ok acc' → property acc')
    {entries : List (Except DecodeError String × ν)} {acc result : α} {seen filled : List String}
    (hacc : property acc)
    (h : source.fillFields shape set entries acc seen = .ok (result, filled)) :
    property result := by
  induction entries generalizing acc seen with
  | nil => exact (Prod.mk.inj (pure_eq_ok_iff.mp h)).1 ▸ hacc
  | cons entry rest ih =>
    rw [fillFields] at h
    obtain ⟨name, -, h⟩ := bind_eq_ok_iff.mp h
    split at h
    · split at h
      · cases h
      · obtain ⟨acc', hacc', h⟩ := bind_eq_ok_iff.mp h
        exact ih (hset _ _ _ _ hacc hacc') h
    · obtain ⟨-, -, h⟩ := bind_eq_ok_iff.mp h
      exact ih hacc h

theorem readRecord_induction {set : α → String → ν → Except DecodeError α} {property : α → Prop}
    (hset : ∀ acc name node acc', property acc → set acc name node = .ok acc' → property acc')
    {blank result : α} (hblank : property blank)
    (h : source.readRecord shape blank set node = .ok result) : property result := by
  obtain ⟨contents, -, h⟩ := bind_eq_ok_iff.mp h
  obtain ⟨⟨filled, seen⟩, hfilled, h⟩ := bind_eq_ok_iff.mp h
  obtain ⟨-, -, h⟩ := bind_eq_ok_iff.mp h
  split at h
  · cases h
  · exact pure_eq_ok_iff.mp h ▸ fillFields_induction hset hblank hfilled

end Source

namespace Json

variable {α : Type} {shape : Shape} {blank acc acc' result : α}
  {set : α → String → Json → Decoded α} {members : List (String × Json)}

/-! ### Records -/

/-- Stores members one after another. -/
def fill (set : α → String → Json → Decoded α) (members : List (String × Json)) (acc : α) :
    Decoded α :=
  members.foldlM (fun acc member => set acc member.1 member.2) acc

theorem fill_cons {name : String} {value : Json} (hset : set acc name value = .ok acc')
    (hfill : fill set members acc' = .ok result) :
    fill set ((name, value) :: members) acc = .ok result :=
  bind_eq_ok_iff.mpr ⟨acc', hset, hfill⟩

theorem fill_append {front : List (String × Json)} (hfront : fill set front acc = .ok acc')
    (hfill : fill set members acc' = .ok result) :
    fill set (front ++ members) acc = .ok result := by
  rw [fill, List.foldlM_append]
  exact bind_eq_ok_iff.mpr ⟨acc', hfront, hfill⟩

/-- Members that are fields of a record, each there once, are stored one after another. -/
theorem fillFields_eq_ok_of_fill {seen : List String}
    (hfields : ∀ name ∈ Entries.keys members, name ∈ shape.names)
    (hnodup : (Entries.keys members ++ seen).Nodup) (hfill : fill set members acc = .ok result) :
    source.fillFields shape set (members.map fun member => (.ok member.1, member.2)) acc seen =
      .ok (result, (Entries.keys members).reverse ++ seen) := by
  induction members generalizing acc seen with
  | nil =>
    obtain rfl : acc = result := pure_eq_ok_iff.mp hfill
    rfl
  | cons member rest ih =>
    obtain ⟨name, value⟩ := member
    obtain ⟨hfield, hfields⟩ := List.forall_mem_cons.mp hfields
    obtain ⟨next, hset, hrest⟩ := bind_eq_ok_iff.mp hfill
    have hnew : name ∉ seen := fun hmem =>
      (List.nodup_cons.mp hnodup).1 (List.mem_append_right _ hmem)
    have hlater : (Entries.keys rest ++ name :: seen).Nodup :=
      List.perm_middle.nodup_iff.mpr hnodup
    rw [List.map_cons, Source.fillFields_cons_of_mem hfield, if_neg hnew]
    refine bind_eq_ok_iff.mpr ⟨next, hset, ?_⟩
    rw [ih hfields hlater hrest]
    simp [Entries.keys]

/-- The fields of a record that is given as a list, by their names. -/
def listedFields (shape : Shape) (items : List Json) : List (String × Json) :=
  (shape.fields.zip items).map fun entry => (entry.1.1, entry.2)

theorem mem_names_of_mem_listedFields {items : List Json} {member : String × Json}
    (h : member ∈ listedFields shape items) : member.1 ∈ shape.names := by
  obtain ⟨⟨field, item⟩, hmem, rfl⟩ := List.mem_map.mp h
  exact List.mem_map_of_mem (List.of_mem_zip hmem).1

theorem readRecord_object_eq (members : List (String × Json)) :
    source.readRecord shape blank set (.object members) =
      source.fillFields shape set (members.map fun member => (.ok member.1, member.2)) blank [] >>=
        fun filled => match shape.missing? none filled.2 with
          | some error => throw error
          | none => pure filled.1 :=
  rfl

theorem readRecord_array_eq (items : List Json) :
    source.readRecord shape blank set (.array items) =
      source.fillFields shape set
        ((listedFields shape items).map fun member => (.ok member.1, member.2)) blank [] >>=
          fun filled => (if shape.fields.length < items.length then
              .error (.invalidLength items.length "fewer elements in array") else .ok ()) >>=
            fun _ => match shape.missing? (some items.length) filled.2 with
              | some error => throw error
              | none => pure filled.1 := by
  rw [listedFields, List.map_map]
  rfl

theorem finish_eq_ok_iff {length : Option ℕ} {seen : List String} {filled : α} :
    (match shape.missing? length seen with
      | some error => throw error
      | none => pure filled : Decoded α) = .ok result ↔
        shape.missing? length seen = none ∧ filled = result := by
  cases shape.missing? length seen with
  | some error => simp [throw, throwThe, MonadExceptOf.throw]
  | none => simp [pure_eq_ok_iff]

theorem readRecord_object_eq_ok_iff :
    source.readRecord shape blank set (.object members) = .ok result ↔
      ∃ seen, source.fillFields shape set (members.map fun member => (.ok member.1, member.2))
        blank [] = .ok (result, seen) ∧ shape.missing? none seen = none := by
  rw [readRecord_object_eq, bind_eq_ok_iff]
  simp only [finish_eq_ok_iff]
  constructor
  · rintro ⟨⟨filled, seen⟩, hfill, hmissing, rfl⟩
    exact ⟨seen, hfill, hmissing⟩
  · rintro ⟨seen, hfill, hmissing⟩
    exact ⟨(result, seen), hfill, hmissing, rfl⟩

theorem readRecord_array_eq_ok_iff {items : List Json} :
    source.readRecord shape blank set (.array items) = .ok result ↔
      ∃ seen, source.fillFields shape set
        ((listedFields shape items).map fun member => (.ok member.1, member.2)) blank [] =
          .ok (result, seen) ∧ items.length ≤ shape.fields.length ∧
            shape.missing? (some items.length) seen = none := by
  rw [readRecord_array_eq, bind_eq_ok_iff]
  simp only [bind_eq_ok_iff, finish_eq_ok_iff]
  constructor
  · rintro ⟨⟨filled, seen⟩, hfill, ⟨⟩, hlength, hmissing, rfl⟩
    split at hlength
    · cases hlength
    · exact ⟨seen, hfill, Nat.le_of_not_lt ‹_›, hmissing⟩
  · rintro ⟨seen, hfill, hlength, hmissing⟩
    exact ⟨(result, seen), hfill, (), if_neg (Nat.not_lt_of_le hlength), hmissing, rfl⟩

/-- An object with the members of a record, in the order of the fields, is read as the record. -/
theorem readRecord_object (hshape : shape.names.Nodup)
    (hfields : (Entries.keys members).Sublist shape.names)
    (hrequired : ∀ field ∈ shape.fields, field.2 = .required → field.1 ∈ Entries.keys members)
    (hfill : fill set members blank = .ok result) :
    source.readRecord shape blank set (.object members) = .ok result := by
  have hfilled := fillFields_eq_ok_of_fill (fun _ hname => hfields.subset hname)
    (by simpa using hshape.sublist hfields : (Entries.keys members ++ []).Nodup) hfill
  have hmissing : shape.missing? none ((Entries.keys members).reverse ++ []) = none := by
    rw [Shape.missing?_none_eq_none_iff]
    simpa using hrequired
  exact readRecord_object_eq_ok_iff.mpr ⟨_, hfilled, hmissing⟩

/-! ### Tables -/

section Tables

variable {read : Json → Decoded α} {table : Entries α}

/-- A member is read as the entry of the same name. -/
def ReadsEntry (read : Json → Decoded α) (member : String × Json) (entry : String × α) : Prop :=
  entry.1 = member.1 ∧ read member.2 = .ok entry.2

theorem readEntries_eq_ok_iff {old : Entries α}
    (hnodup : (Entries.keys old ++ Entries.keys members).Nodup) :
    Source.readEntries read (members.map fun member => (.ok member.1, member.2)) old =
        .ok table ↔
      ∃ new, List.Forall₂ (ReadsEntry read) members new ∧ table = old ++ new := by
  induction members generalizing old with
  | nil =>
    simp only [List.forall₂_nil_left_iff, exists_eq_left, List.append_nil]
    exact pure_eq_ok_iff.trans eq_comm
  | cons member rest ih =>
    obtain ⟨name, value⟩ := member
    have hfree : name ∉ Entries.keys old := fun hmem =>
      (List.nodup_append.mp hnodup).2.2 _ hmem _ List.mem_cons_self rfl
    have hlater (item : α) :
        (Entries.keys (old ++ [(name, item)]) ++ Entries.keys rest).Nodup := by
      simpa [Entries.keys] using hnodup
    have hstep : Source.readEntries read
        (((name, value) :: rest).map fun member => (.ok member.1, member.2)) old =
        read value >>= fun item => Source.readEntries read
          (rest.map fun member => (.ok member.1, member.2)) (old.insert name item) := rfl
    rw [hstep, bind_eq_ok_iff]
    simp only [Entries.insert_of_notMem _ hfree, ih (hlater _), List.forall₂_cons_left_iff]
    constructor
    · rintro ⟨item, hitem, new, hnew, rfl⟩
      exact ⟨(name, item) :: new, ⟨(name, item), new, ⟨rfl, hitem⟩, hnew, rfl⟩, by simp⟩
    · rintro ⟨_, ⟨⟨other, item⟩, new, ⟨hname, hitem⟩, hnew, rfl⟩, rfl⟩
      obtain rfl : other = name := hname
      exact ⟨item, hitem, new, hnew, by simp⟩

/-- An object that holds no name twice is read member by member. -/
theorem readTable_object_eq_ok_iff (hnodup : (Entries.keys members).Nodup) :
    source.readTable read (.object members) = .ok table ↔
      List.Forall₂ (ReadsEntry read) members table := by
  have hcontents : source.readTable read (.object members) = Source.readEntries read
      (members.map fun member => (.ok member.1, member.2)) [] >>= pure := rfl
  have hnew : (Entries.keys ([] : Entries α) ++ Entries.keys members).Nodup := hnodup
  rw [hcontents, bind_pure, readEntries_eq_ok_iff hnew]
  simp

end Tables

end Json

end CrudUi
