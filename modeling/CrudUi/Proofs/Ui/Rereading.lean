import CrudUi.Proofs.Decode.Records
import CrudUi.Proofs.Entries.Values
import CrudUi.Proofs.Ui.Texts
import CrudUi.Ui.Reading

/-!
# UI schemas are read again

What is written for a field, an endpoint, a view or an entity is read as what was written, member
by member: a member that is left out leaves the blank record as it is, and a missing primary key is
read from its `null`.  The values that are written are not nested deeply and hold no name twice, so
a text gives them back, and the text of a UI schema is read as the UI schema exactly where its
version is a number of 32 bits and its entities are in the order of their names
(`UiSchema.ofText_render_eq_ok_iff`).

## Main definitions

* `UiSchema.ofText` : reads a UI schema from a JSON text.
* `UiSchema.WellFormed` : what a UI schema that is read can hold.
-/

namespace CrudUi

/-! ### Members and lists -/

section Members

variable {α β : Type} {name : String} {value : Option β} {write : β → Json}

theorem keys_optionalMember_sublist (name : String) (value : Option Json) :
    (Entries.keys (optionalMember name value)).Sublist [name] := by
  cases value with
  | none => exact List.nil_sublist _
  | some value => exact List.Sublist.refl _

/-- A member that is left out leaves what is there, and one that is not is stored. -/
theorem Json.fill_optionalMember {set : α → String → Json → Decoded α} {acc : α}
    (store : Option β → α) (hnone : store none = acc)
    (hsome : ∀ value, set acc name (write value) = .ok (store (some value))) :
    fill set (optionalMember name (value.map write)) acc = .ok (store value) := by
  cases value with
  | none => exact congrArg Except.ok hnone.symm
  | some value => exact fill_cons (hsome value) rfl

theorem Json.readList_map {read : Json → Decoded α} {write : α → Json} {items : List α}
    (h : ∀ item ∈ items, read (write item) = .ok item) :
    Json.readList read (.array (items.map write)) = .ok items := by
  rw [readList, mapM_eq_ok_iff, List.forall₂_map_left_iff, List.forall₂_same]
  exact h

theorem Json.readList_ofStrings (texts : List String) :
    Json.readList Json.readString (.ofStrings texts) = .ok texts :=
  readList_map fun _ _ => rfl

theorem Json.readOptional_of_isNull_eq_false {read : Json → Decoded α} {json : Json} {item : α}
    (hjson : json.isNull = false) (hread : read json = .ok item) :
    json.readOptional read = .ok (some item) := by
  simp [readOptional, Source.readOptional, source, hjson, hread, bind, Except.bind, pure,
    Except.pure]

theorem Json.readOptional_ofString? (text : Option String) :
    Json.readOptional Json.readString (.ofString? text) = .ok text := by
  cases text <;> rfl

end Members

/-! ### Records -/

theorem FieldType.ofJson_name (type : FieldType) : ofJson (.string type.name) = .ok type := by
  rw [ofJson]
  simp only [ofName?_name]

theorem Field.keys_toJson_sublist (field : Field) :
    ∃ members, field.toJson = .object members ∧ (Entries.keys members).Sublist shape.names := by
  refine ⟨_, rfl, ?_⟩
  simp only [Entries.keys, List.map_append]
  exact (((((List.Sublist.refl ["name", "label", "type"]).append
    (keys_optionalMember_sublist "format" _)).append (.refl ["required"])).append
    (keys_optionalMember_sublist "readOnly" _)).append
    (keys_optionalMember_sublist "writeOnly" _)).append (keys_optionalMember_sublist "enum" _)

theorem Field.ofJson_toJson (field : Field) : ofJson field.toJson = .ok field := by
  obtain ⟨members, hmembers, hsublist⟩ := field.keys_toJson_sublist
  cases hmembers
  refine Json.readRecord_object (by decide) hsublist (by simp [shape, Entries.keys]) ?_
  -- The members are stored from the first to the last; here they are taken from the last on.
  refine Json.fill_append ?_ (Json.fill_optionalMember
    (fun enumValues => { field with enumValues }) rfl fun values => ?_)
  · refine Json.fill_append ?_ (Json.fill_optionalMember
      (fun writeOnly => { field with writeOnly, enumValues := none }) rfl fun _ => rfl)
    refine Json.fill_append ?_ (Json.fill_optionalMember
      (fun readOnly => { field with readOnly, writeOnly := none, enumValues := none })
      rfl fun _ => rfl)
    refine Json.fill_append (Json.fill_append ?_ (Json.fill_optionalMember
      (fun format => ⟨field.name, field.label, field.type, format, false, none, none, none⟩)
      rfl fun _ => rfl)) (Json.fill_cons rfl rfl)
    refine Json.fill_cons rfl (Json.fill_cons rfl (Json.fill_cons ?_ rfl))
    exact bind_eq_ok_iff.mpr ⟨_, FieldType.ofJson_name _, rfl⟩
  · exact bind_eq_ok_iff.mpr
      ⟨_, Json.readOptional_of_isNull_eq_false rfl (Json.readList_ofStrings values), rfl⟩

theorem Endpoint.keys_toJson_sublist (endpoint : Endpoint) :
    ∃ members, endpoint.toJson = .object members ∧
      (Entries.keys members).Sublist shape.names := by
  refine ⟨_, rfl, ?_⟩
  simp only [Entries.keys, List.map_append]
  exact (List.Sublist.refl ["method", "path"]).append (keys_optionalMember_sublist _ _)

theorem Endpoint.ofJson_toJson (endpoint : Endpoint) : ofJson endpoint.toJson = .ok endpoint := by
  obtain ⟨members, hmembers, hsublist⟩ := endpoint.keys_toJson_sublist
  cases hmembers
  refine Json.readRecord_object (by decide) hsublist (by simp [shape, Entries.keys]) ?_
  exact Json.fill_append (Json.fill_cons rfl (Json.fill_cons rfl rfl))
    (Json.fill_optionalMember (fun operationId => { endpoint with operationId }) rfl fun _ => rfl)

/-! ### Endpoints by their actions -/

namespace Endpoints

/-- Puts operations behind their actions. -/
def setAll (listed : List (Action × Endpoint)) (endpoints : Endpoints) : Endpoints :=
  listed.foldl (fun endpoints entry => endpoints.set entry.1 entry.2) endpoints

theorem ofEntries_map (listed : List (Action × Endpoint)) (endpoints : Endpoints) :
    ofEntries (listed.map fun entry => (entry.1.name, entry.2.toJson)) endpoints =
      .ok (endpoints.setAll listed) := by
  induction listed generalizing endpoints with
  | nil => rfl
  | cons entry rest ih =>
    rw [List.map_cons, ofEntries, Action.ofName?_name]
    exact bind_eq_ok_iff.mpr ⟨_, entry.2.ofJson_toJson, ih _⟩

theorem get?_setAll_filterMap (endpoints others : Endpoints) (actions : List Action)
    (action : Action) :
    (others.setAll (actions.filterMap fun action =>
        (endpoints.get? action).map (action, ·))).get? action =
      if action ∈ actions then (endpoints.get? action).or (others.get? action)
      else others.get? action := by
  induction actions generalizing others with
  | nil => rfl
  | cons first rest ih =>
    cases hfirst : endpoints.get? first with
    | none =>
      rw [List.filterMap_cons_none (by rw [hfirst]; rfl), ih]
      grind
    | some endpoint =>
      rw [List.filterMap_cons_some (by rw [hfirst]; rfl), setAll, List.foldl_cons]
      rw [← setAll, ih, get?_set]
      grind

theorem setAll_toList (endpoints : Endpoints) : setAll endpoints.toList {} = endpoints := by
  refine ext_get? fun action => ?_
  rw [toList, get?_setAll_filterMap, if_pos action.mem_all]
  cases action <;> exact Option.or_none

theorem ofJson_toJson (endpoints : Endpoints) : ofJson endpoints.toJson = .ok endpoints := by
  rw [toJson, ofJson, ofEntries_map, setAll_toList]

end Endpoints

/-! ### Views and entities -/

theorem Views.namesOfJson_object (kind member : String) (names : List String) :
    namesOfJson kind member (.object [(member, .ofStrings names)]) = .ok names := by
  refine Json.readRecord_object (List.pairwise_singleton _ member) (.refl _)
    (by simp [Entries.keys]) (Json.fill_cons ?_ rfl)
  rw [if_pos rfl, Json.readList_ofStrings]

theorem Views.ofJson_toJson (views : Views) : ofJson views.toJson = .ok views := by
  have hcolumns := namesOfJson_object "ListView" "columns" views.columns
  have hdetail := namesOfJson_object "FieldsView" "fields" views.detail
  have hform := namesOfJson_object "FieldsView" "fields" views.form
  refine Json.readRecord_object (by decide) (.refl _) (by simp [shape, Entries.keys]) ?_
  exact Json.fill_cons (bind_eq_ok_iff.mpr ⟨_, hcolumns, rfl⟩)
    (Json.fill_cons (bind_eq_ok_iff.mpr ⟨_, hdetail, rfl⟩)
      (Json.fill_cons (bind_eq_ok_iff.mpr ⟨_, hform, rfl⟩) rfl))

theorem Entity.ofJson_toJson (entity : Entity) : ofJson entity.toJson = .ok entity := by
  have hkey := Json.readOptional_ofString? entity.primaryKey
  have hfields := Json.readList_map fun field (_ : field ∈ entity.fields) => field.ofJson_toJson
  refine Json.readRecord_object (by decide) (.refl _) (by simp [shape, Entries.keys]) ?_
  refine Json.fill_cons rfl (Json.fill_cons rfl (Json.fill_cons rfl ?_))
  exact Json.fill_cons (bind_eq_ok_iff.mpr ⟨_, hkey, rfl⟩)
    (Json.fill_cons (bind_eq_ok_iff.mpr ⟨_, hfields, rfl⟩)
      (Json.fill_cons (bind_eq_ok_iff.mpr ⟨_, entity.endpoints.ofJson_toJson, rfl⟩)
        (Json.fill_cons (bind_eq_ok_iff.mpr ⟨_, entity.views.ofJson_toJson, rfl⟩) rfl)))

/-! ### UI schemas -/

namespace UiSchema

/-- What a UI schema that is read can hold: the version is a number of 32 bits, and the entities are
in the order of their names. -/
structure WellFormed (ui : UiSchema) : Prop where
  version_lt : ui.version < Nat.pow 2 32
  pairwise_entities : (Entries.keys ui.entities).Pairwise (· < ·)

theorem WellFormed.nodup_keys {ui : UiSchema} (h : ui.WellFormed) :
    (Entries.keys ui.entities).Nodup := by
  refine h.pairwise_entities.imp fun hlt heq => ?_
  subst heq
  exact String.lt_irrefl _ hlt

theorem readWord_ofNat {n : ℕ} (h : n < Nat.pow 2 32) :
    (Json.ofNat n).readWord = .ok n := by
  rw [Json.ofNat, Json.readWord, if_pos ⟨Int.natCast_nonneg n, by exact_mod_cast h⟩,
    Int.toNat_natCast]

theorem ofJson_toJson {ui : UiSchema} (h : ui.WellFormed) : ofJson ui.toJson = .ok ui := by
  have hversion := readWord_ofNat h.version_lt
  have htable : Json.source.readTable Entity.ofJson
      (.object (ui.entities.mapValues Entity.toJson)) = .ok ui.entities := by
    rw [Json.readTable_object_eq_ok_iff (by rw [Entries.keys_mapValues]; exact h.nodup_keys),
      Entries.mapValues, List.forall₂_map_left_iff, List.forall₂_same]
    exact fun entry _ => ⟨rfl, entry.2.ofJson_toJson⟩
  have hentities := Ascending.Table.ofList_of_pairwise h.pairwise_entities
  refine Json.readRecord_object (by decide) (.refl _) (by simp [shape, Entries.keys]) ?_
  refine Json.fill_cons (bind_eq_ok_iff.mpr ⟨_, hversion, rfl⟩)
    (Json.fill_cons (bind_eq_ok_iff.mpr ⟨_, htable, rfl⟩) ?_)
  rw [hentities]
  rfl

theorem lt_of_readWord {value : Json} {n : ℕ} (h : value.readWord = .ok n) : n < Nat.pow 2 32 := by
  unfold Json.readWord at h
  split at h
  · split at h
    · rename_i hbounds
      obtain rfl := Except.ok.inj h
      exact (Int.toNat_lt hbounds.1).mpr hbounds.2
    · cases h
  · cases h

theorem wellFormed_of_ofJson {value : Json} {ui : UiSchema} (h : ofJson value = .ok ui) :
    ui.WellFormed := by
  refine Source.readRecord_induction (fun ui name value ui' hui hset => ?_)
    ⟨by decide, List.Pairwise.nil⟩ h
  split at hset
  · obtain ⟨version, hversion, hset⟩ := bind_eq_ok_iff.mp hset
    obtain rfl := pure_eq_ok_iff.mp hset
    exact ⟨lt_of_readWord hversion, hui.pairwise_entities⟩
  · obtain ⟨entities, -, hset⟩ := bind_eq_ok_iff.mp hset
    obtain rfl := pure_eq_ok_iff.mp hset
    exact ⟨hui.version_lt, Ascending.Table.pairwise_keys_ofList entities⟩
  · exact pure_eq_ok_iff.mp hset ▸ hui

end UiSchema

/-! ### Values that a text keeps -/

theorem Json.isKept_ofStrings (depth : ℕ) (texts : List String) :
    (Json.ofStrings texts).IsKept (depth + 1) := by
  refine .array fun item hitem => ?_
  obtain ⟨text, -, rfl⟩ := List.mem_map.mp hitem
  exact .string depth text

theorem Json.isKept_ofString? (depth : ℕ) (text : Option String) :
    (Json.ofString? text).IsKept depth := by
  cases text with
  | none => exact .null depth
  | some text => exact .string depth text

theorem isKept_of_mem_optionalMember {α : Type} {depth : ℕ} {name : String} {value : Option α}
    {write : α → Json} (h : ∀ value, (write value).IsKept depth) :
    ∀ entry ∈ optionalMember name (value.map write), entry.2.IsKept depth := by
  cases value with
  | none => exact fun _ hmem => absurd hmem List.not_mem_nil
  | some value => exact List.forall_mem_singleton.mpr (h value)

theorem Field.isKept_toJson (depth : ℕ) (field : Field) : field.toJson.IsKept (depth + 2) := by
  obtain ⟨members, hmembers, hsublist⟩ := field.keys_toJson_sublist
  cases hmembers
  refine .object ((by decide : shape.names.Nodup).sublist hsublist) ?_
  simp only [List.forall_mem_append, List.forall_mem_cons]
  refine ⟨⟨⟨⟨⟨⟨.string _ _, .string _ _, .string _ _, by simp⟩, ?_⟩, .bool _ _, by simp⟩, ?_⟩, ?_⟩,
    ?_⟩
  · exact isKept_of_mem_optionalMember (.string _)
  · exact isKept_of_mem_optionalMember (.bool _)
  · exact isKept_of_mem_optionalMember (.bool _)
  · exact isKept_of_mem_optionalMember (Json.isKept_ofStrings depth)

theorem Endpoint.isKept_toJson (depth : ℕ) (endpoint : Endpoint) :
    endpoint.toJson.IsKept (depth + 1) := by
  obtain ⟨members, hmembers, hsublist⟩ := endpoint.keys_toJson_sublist
  cases hmembers
  refine .object ((by decide : shape.names.Nodup).sublist hsublist) ?_
  simp only [List.forall_mem_append, List.forall_mem_cons]
  exact ⟨⟨.string _ _, .string _ _, by simp⟩, isKept_of_mem_optionalMember (.string _)⟩

theorem Endpoints.actions_toList_sublist (endpoints : Endpoints) :
    (endpoints.toList.map Prod.fst).Sublist Action.all := by
  have h (actions : List Action) : ((actions.filterMap fun action =>
      (endpoints.get? action).map (action, ·)).map Prod.fst).Sublist actions := by
    induction actions with
    | nil => exact .refl _
    | cons action rest ih =>
      cases haction : endpoints.get? action with
      | none =>
        rw [List.filterMap_cons_none (by rw [haction]; rfl)]
        exact ih.cons action
      | some endpoint =>
        rw [List.filterMap_cons_some (by rw [haction]; rfl)]
        exact ih.cons_cons action
  exact h Action.all

theorem Endpoints.isKept_toJson (depth : ℕ) (endpoints : Endpoints) :
    endpoints.toJson.IsKept (depth + 2) := by
  refine .object ?_ fun entry hentry => ?_
  · have hnames := endpoints.actions_toList_sublist.map Action.name
    rw [List.map_map] at hnames
    rw [Entries.keys, List.map_map]
    exact (by decide : (Action.all.map Action.name).Nodup).sublist hnames
  · obtain ⟨⟨action, endpoint⟩, -, rfl⟩ := List.mem_map.mp hentry
    exact endpoint.isKept_toJson depth

theorem Views.isKept_toJson (depth : ℕ) (views : Views) : views.toJson.IsKept (depth + 3) := by
  have hview (name : String) (texts : List String) :
      (Json.object [(name, .ofStrings texts)]).IsKept (depth + 2) :=
    .object (List.pairwise_singleton _ name)
      (List.forall_mem_singleton.mpr (Json.isKept_ofStrings depth texts))
  rw [Views.toJson]
  refine .object (by decide : shape.names.Nodup) ?_
  simp only [List.forall_mem_cons]
  exact ⟨hview _ _, hview _ _, hview _ _, by simp⟩

theorem Entity.isKept_toJson (depth : ℕ) (entity : Entity) : entity.toJson.IsKept (depth + 4) := by
  have hfields : (Json.array (entity.fields.map Field.toJson)).IsKept (depth + 3) := by
    refine .array fun item hitem => ?_
    obtain ⟨field, -, rfl⟩ := List.mem_map.mp hitem
    exact field.isKept_toJson depth
  rw [Entity.toJson]
  refine .object (by decide : shape.names.Nodup) ?_
  simp only [List.forall_mem_cons]
  exact ⟨.string _ _, .string _ _, .string _ _, Json.isKept_ofString? _ _, hfields,
    entity.endpoints.isKept_toJson (depth + 1), entity.views.isKept_toJson depth, by simp⟩

namespace UiSchema

theorem isKept_toJson (depth : ℕ) {ui : UiSchema} (h : ui.WellFormed) :
    ui.toJson.IsKept (depth + 6) := by
  have hentities : (Json.object (ui.entities.mapValues Entity.toJson)).IsKept (depth + 5) := by
    refine .object ?_ fun entry hentry => ?_
    · rw [Entries.keys_mapValues]
      exact h.nodup_keys
    · obtain ⟨⟨name, entity⟩, -, rfl⟩ := List.mem_map.mp hentry
      exact entity.isKept_toJson depth
  rw [toJson]
  refine .object (by decide : shape.names.Nodup) ?_
  simp only [List.forall_mem_cons]
  exact ⟨.number _ _, hentities, by simp⟩

/-! ### Texts -/

/-- Reads a UI schema from a JSON text. -/
def ofText (text : String) : Decoded UiSchema := do
  ofJson (← (Json.parse text).mapError .text)

/-- The text of a UI schema is read as the UI schema, whatever its entities are. -/
theorem ofText_render_eq_ok_iff (ui : UiSchema) :
    ofText (OutputFormat.json.render ui) = .ok ui ↔ ui.WellFormed := by
  constructor
  · intro h
    obtain ⟨value, -, hvalue⟩ := bind_eq_ok_iff.mp h
    exact wellFormed_of_ofJson hvalue
  · intro h
    have hversion : ui.version ≤ Json.Numeral.maxWord :=
      Nat.le_trans (Nat.le_of_lt h.version_lt) (by decide)
    have hparse : Json.parse (OutputFormat.json.render ui) = .ok ui.toJson :=
      Json.parse_indented (hasNaturals_toJson hversion) (isKept_toJson 121 h)
    refine bind_eq_ok_iff.mpr ⟨ui.toJson, ?_, ofJson_toJson h⟩
    rw [hparse]
    rfl

end UiSchema

end CrudUi
