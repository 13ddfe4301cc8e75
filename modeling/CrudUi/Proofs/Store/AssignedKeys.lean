import CrudUi.Proofs.Store.Creation

/-!
# Validity of assigned keys

A record without a key is given a number and then checked with it.  A key may be a text whatever the
kind of its field, so of all that is demanded of a key a number can fail one thing only: to be one of
the texts that the field allows.  If a record is valid with some text as its key, it is therefore
created without a key exactly if no texts are listed, or the number drawn is one of them; otherwise
it is refused for this reason alone (`Store.create_keyless`).

## Main definitions

* `Field.AllowsText` : a text is one of the choices of a field, where these are listed.
-/

namespace CrudUi

/-- A text is one of the allowed texts of a field, if it has any listed. -/
def Field.AllowsText (field : Field) (text : String) : Prop :=
  ∀ allowed, field.enumValues = some allowed → text ∈ allowed

namespace Entity

variable {entity : Entity} {field : Field} {input : Record} {name text : String}

/-! ### A key that is a text -/

theorem valueProblem?_text_eq_none_iff (hkey : entity.isKey field = true) :
    entity.valueProblem? field (.string text) = none ↔ field.AllowsText text := by
  rw [valueProblem?_eq_none_iff (.inr ⟨hkey, rfl⟩)]
  refine forall_congr' fun allowed => ⟨fun h hallowed => h text hallowed rfl, ?_⟩
  rintro h _ hallowed ⟨⟩
  exact h hallowed

theorem valueProblem?_text_of_notMem (hkey : entity.isKey field = true) {allowed : List String}
    (hallowed : field.enumValues = some allowed) (hmem : text ∉ allowed) :
    entity.valueProblem? field (.string text) = some (.notAllowed field.name allowed) := by
  have htext : (Json.string text).isString = true := rfl
  simp [valueProblem?, hkey, htext, hallowed, hmem]

theorem fieldProblem?_insert_of_ne (hne : name ≠ field.name) (value : Json) :
    entity.fieldProblem? (Entries.insert name value input) field =
      entity.fieldProblem? input field := by
  simp [fieldProblem?, Record.value?, Entries.lookup_insert, hne]

/-- Of the fields of a record that is given a key, the key alone may have a new problem. -/
theorem problems_insert_key (h : entity.Unambiguous) (hfield : field ∈ entity.fields)
    (hothers : ∀ other ∈ entity.fields, field.name ≠ other.name →
      entity.fieldProblem? input other = none) (text : String) :
    entity.problems (Entries.insert field.name (.string text) input) =
      (entity.valueProblem? field (.string text)).toList := by
  -- The fields are split at the key; the names on both sides are not its own.
  obtain ⟨front, back, hsplit⟩ := List.append_of_mem hfield
  have hnames := h.nodup_names
  rw [hsplit, List.map_append, List.map_cons, List.nodup_middle, List.nodup_cons,
    ← List.map_append, List.mem_map, not_exists] at hnames
  have hnone : ∀ other ∈ front ++ back,
      entity.fieldProblem? (Entries.insert field.name (.string text) input) other = none := by
    intro other hother
    have hne : field.name ≠ other.name := fun heq => hnames.1 other ⟨hother, heq.symm⟩
    have hmem : other ∈ entity.fields := by
      rw [hsplit]
      exact List.mem_append.mpr ((List.mem_append.mp hother).imp_right (List.mem_cons_of_mem _))
    rw [fieldProblem?_insert_of_ne hne]
    exact hothers other hmem hne
  have hkey : entity.fieldProblem? (Entries.insert field.name (.string text) input) field =
      entity.valueProblem? field (.string text) :=
    fieldProblem?_of_value? (by simp [Entries.lookup_insert]) rfl
  rw [problems, hsplit, List.filterMap_append, List.filterMap_cons, hkey,
    List.filterMap_eq_nil_iff.mpr fun other hother => hnone other (List.mem_append_left _ hother),
    List.filterMap_eq_nil_iff.mpr fun other hother => hnone other (List.mem_append_right _ hother)]
  cases entity.valueProblem? field (.string text) <;> rfl

end Entity

namespace Store

variable {store : Store} {input : Record}

/-- A number that is drawn is free, so it is for validation alone to refuse the record. -/
theorem create_of_draws (h : store.entity.Draws (.create input)) :
    (store.create input).1 =
      (store.entity.validate (store.entity.withKey input (toString store.freeNumber))).map
        fun _ => store.entity.withKey input (toString store.freeNumber) := by
  have hid : store.entity.rowId (store.entity.withKey input (toString store.freeNumber))
      store.rows.length = toString store.freeNumber :=
    Entity.rowId_eq_of_key? (by rw [Entity.key?_withKey h.1, h.2, Option.getD_none]) _
  cases hvalid :
      store.entity.validate (store.entity.withKey input (toString store.freeNumber)) with
  | ok =>
    have hfree := hid.symm ▸ store.freeNumber_notMem_ids
    exact congrArg Prod.fst (create_eq_ok_iff.mpr ⟨rfl, hvalid, hfree, rfl⟩)
  | error error =>
    have hcheck : store.checkNew (store.assignKey input).1 = .error error := by
      rw [assignKey_eq_withKey, checkNew, hvalid]
      rfl
    rw [create_eq, hcheck]
    rfl

/-- If a record is valid with some text as its key, it is created without a key exactly if the key
field allows the number that is drawn, which then is the key.  Otherwise it is refused because the
number is not one of the allowed texts, and for no other reason. -/
theorem create_keyless {document : Document} {ui : UiSchema}
    (hcompile : document.compile = .ok ui) {id : String} {store : Store}
    (hentity : (id, store.entity) ∈ ui.entities) {name : String}
    (hname : store.entity.primaryKey = some name) {input : Record}
    (hinput : store.entity.key? input = none) {key : String}
    (hvalid : store.entity.validate (Entries.insert name (.string key) input) = .ok ()) :
    ∃ field ∈ store.entity.fields, field.name = name ∧
      (field.AllowsText (toString store.freeNumber) →
        (store.create input).1 =
          .ok (Entries.insert name (.string (toString store.freeNumber)) input)) ∧
      ∀ allowed, field.enumValues = some allowed → toString store.freeNumber ∉ allowed →
        (store.create input).1 =
          .error (.invalid store.entity.id [.notAllowed name allowed]) := by
  have h := Document.unambiguous_of_mem_entities hcompile hentity
  obtain ⟨field, hfield, rfl, hkey⟩ := h.exists_isKey hname
  -- The text that is known to be valid shows that all but the key is.
  have hothers : ∀ other ∈ store.entity.fields, field.name ≠ other.name →
      store.entity.fieldProblem? input other = none := by
    intro other hother hne
    rw [← Entity.fieldProblem?_insert_of_ne hne]
    exact Entity.validate_eq_ok_iff.mp hvalid other hother
  have hproblems := Entity.problems_insert_key h hfield hothers (toString store.freeNumber)
  have hdraws : store.entity.Draws (.create input) := ⟨Option.isSome_of_eq_some hname, hinput⟩
  have hcreate := create_of_draws hdraws
  rw [Entity.withKey_of_key?_eq_none hname hinput] at hcreate
  refine ⟨field, hfield, rfl, fun hallows => ?_, fun allowed hallowed hmem => ?_⟩
  · rw [(Entity.valueProblem?_text_eq_none_iff hkey).mpr hallows] at hproblems
    rw [hcreate, Entity.validate, hproblems]
    rfl
  · rw [Entity.valueProblem?_text_of_notMem hkey hallowed hmem] at hproblems
    rw [hcreate, Entity.validate, hproblems]
    rfl

theorem create_keyless_metalBadge :
    (badges metalKey).compile = .ok { entities := [("Badge", badge metalKey)] } ∧
      (badge metalKey).primaryKey = some "id" ∧
      (badge metalKey).key? [("holder", .string "Ann")] = none ∧
      (badge metalKey).validate (Entries.insert "id" (.string "silver")
        [("holder", .string "Ann")]) = .ok () ∧
      ∃ field ∈ (badge metalKey).fields, field.name = "id" ∧
        (field.AllowsText "2" → ((seeded (badge metalKey) 1).create [("holder", .string "Ann")]).1 =
          .ok (Entries.insert "id" (.string "2") [("holder", .string "Ann")])) ∧
        ∀ allowed, field.enumValues = some allowed → "2" ∉ allowed →
          ((seeded (badge metalKey) 1).create [("holder", .string "Ann")]).1 =
            .error (.invalid "Badge" [.notAllowed "id" allowed]) := by
  have hname : (badge metalKey).primaryKey = some "id" := by decide
  have hinput : (badge metalKey).key? [("holder", .string "Ann")] = none := by decide
  have hvalid : (badge metalKey).validate (Entries.insert "id" (.string "silver")
      [("holder", .string "Ann")]) = .ok () := by decide
  have hnumber : toString (seeded (badge metalKey) 1).freeNumber = "2" := by decide
  refine ⟨compile_metalBadges, hname, hinput, hvalid, ?_⟩
  have hentity : ("Badge", (seeded (badge metalKey) 1).entity) ∈ [("Badge", badge metalKey)] :=
    List.mem_singleton_self _
  have hcreate := create_keyless compile_metalBadges hentity hname hinput hvalid
  rwa [hnumber] at hcreate

/-- A badge that is valid with a free text as its key is refused without it. -/
theorem refused_keyless_metalBadge :
    (badges metalKey).compile = .ok { entities := [("Badge", badge metalKey)] } ∧
      (badge metalKey).primaryKey = some "id" ∧
      Entries.lookup "id" [("holder", Json.string "Ann")] = none ∧
      "silver" ∉ (seeded (badge metalKey) 1).ids ∧
      (badge metalKey).validate (Entries.insert "id" (.string "silver")
        [("holder", .string "Ann")]) = .ok () ∧
      ((seeded (badge metalKey) 1).create [("holder", .string "Ann")]).1 =
        .error (.invalid "Badge" [.notAllowed "id" ["gold", "silver"]]) := by
  refine ⟨compile_metalBadges, ?_, rfl, ?_, ?_, ?_⟩
  · decide
  · decide
  · decide
  · decide

end Store

end CrudUi
