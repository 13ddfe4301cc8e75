import CrudUi.Proofs.Calendar
import CrudUi.Proofs.Compile.WellFormed
import CrudUi.Proofs.Store.Removal
import CrudUi.Proofs.Store.Samples

/-!
# The ids of sample rows

A sample row is addressed by the sample of its key, if that is a text, and else by its number.  Both
are different for different rows, and so are dates, by which rows may be addressed as well, and
numbers, which stand in where dates reach back no further.  Only a key that is shown and has its
samples from a list of allowed texts comes round again, with the length of the list
(`Entity.Unambiguous.sampleId_eq_iff`).  So the sample rows have ids of their own as long as such a
list does not end, and each of them is read back under its id (`Store.nodup_ids_seeded_iff`).

## Main definitions

* `Field.RunsThrough`, `Entity.KeysRunThrough` : samples, and keys of sample rows, that are given
  texts in turn.
* `Entity.Unambiguous` : the names and the choices of the fields are distinct, and the key is a
  field.
* `Entity.sampleId` : the id of a sample row.
-/

namespace CrudUi

/-! ### Sample dates -/

theorem eq_ofDay_of_sampleDate? {seed : Nat} {date : Date} (h : sampleDate? seed = some date) :
    date = Date.ofDay (sampleEpoch - seed) := by
  simp only [sampleDate?] at h
  split at h
  · cases h
  · exact (Option.some.inj h).symm

/-- Each day is the date of one sample at most. -/
theorem sampleDate?_inj {seed seed' : Nat} {date : Date} (h : sampleDate? seed = some date)
    (h' : sampleDate? seed' = some date) : seed = seed' := by
  have hdays := Date.ofDay_injective
    ((eq_ofDay_of_sampleDate? h).symm.trans (eq_ofDay_of_sampleDate? h'))
  omega

/-- Dates, and numbers where dates are out of reach, are different for different samples. -/
theorem dateKey_injective {write : Date → String} (hwrite : Function.Injective write)
    (hdash : ∀ date, '-' ∈ (write date).toList) :
    Function.Injective fun seed =>
      ((sampleDate? seed).map write).getD (toString (seed + 1)) := by
  have hnumber (date : Date) (n : Nat) : write date ≠ toString n := fun heq =>
    absurd (isDigit_of_mem_toString (heq ▸ hdash date)) (by decide)
  intro seed seed' h
  dsimp only at h
  cases hdate : sampleDate? seed with
  | some date =>
    cases hdate' : sampleDate? seed' with
    | some date' =>
      rw [hdate, hdate'] at h
      obtain rfl : date = date' := hwrite h
      exact sampleDate?_inj hdate hdate'
    | none =>
      rw [hdate, hdate'] at h
      exact absurd h (hnumber date _)
  | none =>
    cases hdate' : sampleDate? seed' with
    | some date' =>
      rw [hdate, hdate'] at h
      exact absurd h.symm (hnumber date' _)
    | none =>
      rw [hdate, hdate'] at h
      exact Nat.succ_injective (toString_nat_injective h)

namespace Field

variable {field : Field} {allowed : List String}

/-- The text that the sample of a key field makes an id: the sample itself, if it is a text, else
the number of the row. -/
def keyText (field : Field) (seed : Nat) : String :=
  (field.sample seed).string?.getD (toString (seed + 1))

/-- The samples of a field are given texts, one after another and then from the start again. -/
structure RunsThrough (field : Field) (allowed : List String) : Prop where
  type_eq : field.type = .string
  enumValues_eq : field.enumValues = some allowed
  ne_nil : allowed ≠ []

theorem RunsThrough.getElem?_eq (h : field.RunsThrough allowed) (seed : Nat) :
    allowed[seed % allowed.length]? = some (field.keyText seed) := by
  have hlt : seed % allowed.length < allowed.length :=
    Nat.mod_lt _ (List.length_pos_iff.mpr h.ne_nil)
  rw [List.getElem?_eq_getElem hlt, Option.some.injEq]
  simp [keyText, sample, h.type_eq, h.enumValues_eq, hlt, Json.string?]

theorem string?_sampleText (field : Field) (seed : Nat) :
    (field.sampleText seed).string? = match field.format with
      | some "date-time" => (sampleDate? seed).map Date.midnightText
      | some "date" => (sampleDate? seed).map Date.text
      | some "email" => some ("user" ++ toString (seed + 1) ++ "@demo.local")
      | _ => some (field.name ++ "-" ++ toString (seed + 1)) := by
  unfold sampleText
  generalize field.format = format
  split
  · cases sampleDate? seed <;> rfl
  · cases sampleDate? seed <;> rfl
  · rfl
  · simp only [Json.string?]

/-- Whatever the format of a text is, its samples are different, where no texts are given. -/
theorem sampleTextKey_injective (field : Field) :
    Function.Injective fun seed =>
      (field.sampleText seed).string?.getD (toString (seed + 1)) := by
  intro seed seed' h
  simp only [string?_sampleText] at h
  split at h
  · exact dateKey_injective Date.midnightText_injective Date.dash_mem_midnightText h
  · exact dateKey_injective Date.text_injective Date.dash_mem_text h
  · have hnumber := (String.append_right_inj _).mp ((String.append_left_inj _).mp h)
    exact Nat.succ_injective (toString_nat_injective hnumber)
  · exact Nat.succ_injective (toString_nat_injective ((String.append_right_inj _).mp h))

theorem keyText_injective (h : ∀ allowed, ¬ field.RunsThrough allowed) :
    Function.Injective field.keyText := by
  by_cases htype : field.type = .string
  · have hallowed : field.enumValues.getD [] = [] := by
      cases hvalues : field.enumValues with
      | none => rfl
      | some allowed => exact by_contra fun hne => h allowed ⟨htype, hvalues, hne⟩
    intro seed seed' heq
    simp only [keyText, sample_of_getD_eq_nil htype hallowed] at heq
    exact field.sampleTextKey_injective heq
  · have hnumber (seed : Nat) : field.keyText seed = toString (seed + 1) := by
      rw [keyText]
      cases hsample : field.sample seed with
      | string text => exact absurd (type_eq_string_of_sample hsample) htype
      | null | bool | number | array | object => rfl
    intro seed seed' heq
    rw [hnumber, hnumber] at heq
    exact Nat.succ_injective (toString_nat_injective heq)

/-- Given texts come round again with their number, and before that each comes once. -/
theorem RunsThrough.keyText_eq_iff (h : field.RunsThrough allowed) (hnodup : allowed.Nodup)
    {seed seed' : Nat} : field.keyText seed = field.keyText seed' ↔
      seed % allowed.length = seed' % allowed.length := by
  rw [← Option.some.injEq (field.keyText seed), ← h.getElem?_eq, ← h.getElem?_eq]
  exact List.getElem?_inj (Nat.mod_lt _ (List.length_pos_iff.mpr h.ne_nil)) hnodup

end Field

/-! ### Ids of sample rows -/

namespace Entity

variable {entity : Entity} {field : Field} {seed seed' : Nat}

/-- The names of the fields are distinct, and so are the choices of each field; and the key is a
field. -/
structure Unambiguous (entity : Entity) : Prop where
  nodup_names : (entity.fields.map Field.name).Nodup
  nodup_allowed : ∀ field ∈ entity.fields, ∀ allowed, field.enumValues = some allowed →
    allowed.Nodup
  primaryKey_mem : ∀ key, entity.primaryKey = some key → key ∈ entity.fields.map Field.name

/-- The keys of the sample rows are given texts, one after another and then from the start again. -/
def KeysRunThrough (entity : Entity) (allowed : List String) : Prop :=
  ∃ field ∈ entity.fields, entity.isKey field = true ∧ field.isWriteOnly = false ∧
    field.RunsThrough allowed

theorem KeysRunThrough.length_pos {allowed : List String} (h : entity.KeysRunThrough allowed) :
    0 < allowed.length := by
  obtain ⟨field, -, -, -, hruns⟩ := h
  exact List.length_pos_iff.mpr hruns.ne_nil

/-- The id of a sample row. -/
def sampleId (entity : Entity) (seed : Nat) : String :=
  entity.rowId (entity.sample seed) seed

theorem sampleId_of_primaryKey_eq_none (h : entity.primaryKey = none) (seed : Nat) :
    entity.sampleId seed = entity.placeId seed :=
  rowId_of_primaryKey_eq_none h _ _

theorem sampleId_of_isKey (hnodup : (entity.fields.map Field.name).Nodup)
    (hfield : field ∈ entity.fields) (hkey : entity.isKey field = true) (seed : Nat) :
    entity.sampleId seed =
      if field.isWriteOnly then toString (seed + 1) else field.keyText seed := by
  have hsample := lookup_sample_of_isKey hkey seed
  have hid : entity.key? (entity.sample seed) = some (entity.sampleKey field seed) := by
    rw [key?_eq (isKey_iff.mp hkey), hsample]
    rfl
  rw [sampleId, rowId_eq_of_key? hid, sampleKey, lookup_shown hnodup hfield]
  split <;> rfl

namespace Unambiguous

theorem exists_isKey (h : entity.Unambiguous) {name : String}
    (hname : entity.primaryKey = some name) :
    ∃ field ∈ entity.fields, field.name = name ∧ entity.isKey field = true := by
  obtain ⟨field, hfield, rfl⟩ := List.mem_map.mp (h.primaryKey_mem name hname)
  exact ⟨field, hfield, rfl, isKey_iff.mpr hname⟩

theorem eq_of_isKey (h : entity.Unambiguous) {field' : Field} (hfield : field ∈ entity.fields)
    (hkey : entity.isKey field = true) (hfield' : field' ∈ entity.fields)
    (hkey' : entity.isKey field' = true) : field = field' := by
  refine List.inj_on_of_nodup_map h.nodup_names hfield hfield' (Option.some.inj ?_)
  rw [← isKey_iff.mp hkey, isKey_iff.mp hkey']

theorem eq_of_keysRunThrough (h : entity.Unambiguous) {allowed allowed' : List String}
    (hruns : entity.KeysRunThrough allowed) (hruns' : entity.KeysRunThrough allowed') :
    allowed = allowed' := by
  obtain ⟨field, hfield, hkey, -, hruns⟩ := hruns
  obtain ⟨field', hfield', hkey', -, hruns'⟩ := hruns'
  obtain rfl := h.eq_of_isKey hfield hkey hfield' hkey'
  exact Option.some.inj (hruns.enumValues_eq.symm.trans hruns'.enumValues_eq)

theorem getElem?_eq (h : entity.Unambiguous) {allowed : List String}
    (hruns : entity.KeysRunThrough allowed) (seed : Nat) :
    allowed[seed % allowed.length]? = some (entity.sampleId seed) := by
  obtain ⟨field, hfield, hkey, hwrite, hruns⟩ := hruns
  rw [sampleId_of_isKey h.nodup_names hfield hkey, hwrite]
  exact hruns.getElem?_eq seed

/-- Two sample rows have one id only if their keys run through given texts and are the same of
these. -/
theorem sampleId_eq_iff (h : entity.Unambiguous) :
    entity.sampleId seed = entity.sampleId seed' ↔ seed = seed' ∨
      ∃ allowed, entity.KeysRunThrough allowed ∧
        seed % allowed.length = seed' % allowed.length := by
  refine ⟨fun heq => ?_, ?_⟩
  · cases hprimary : entity.primaryKey with
    | none =>
      rw [sampleId_of_primaryKey_eq_none hprimary, sampleId_of_primaryKey_eq_none hprimary] at heq
      exact .inl (entity.placeId_injective heq)
    | some name =>
      obtain ⟨field, hfield, -, hkey⟩ := h.exists_isKey hprimary
      rw [sampleId_of_isKey h.nodup_names hfield hkey,
        sampleId_of_isKey h.nodup_names hfield hkey] at heq
      by_cases hwrite : field.isWriteOnly = true
      · rw [if_pos hwrite, if_pos hwrite] at heq
        exact .inl (Nat.succ_injective (toString_nat_injective heq))
      rw [if_neg hwrite, if_neg hwrite] at heq
      by_cases hruns : ∃ allowed, field.RunsThrough allowed
      · obtain ⟨allowed, hruns⟩ := hruns
        have hnodup := h.nodup_allowed field hfield allowed hruns.enumValues_eq
        exact .inr ⟨allowed, ⟨field, hfield, hkey, by simpa using hwrite, hruns⟩,
          (hruns.keyText_eq_iff hnodup).mp heq⟩
      · exact .inl (Field.keyText_injective (not_exists.mp hruns) heq)
  · rintro (rfl | ⟨allowed, ⟨field, hfield, hkey, hwrite, hruns⟩, hmod⟩)
    · rfl
    · have hnodup := h.nodup_allowed field hfield allowed hruns.enumValues_eq
      rw [sampleId_of_isKey h.nodup_names hfield hkey,
        sampleId_of_isKey h.nodup_names hfield hkey, hwrite]
      exact (hruns.keyText_eq_iff hnodup).mpr hmod

end Unambiguous

end Entity

theorem Document.unambiguous_of_mem_entities {document : Document} {ui : UiSchema}
    (h : document.compile = .ok ui) {id : String} {entity : Entity}
    (hentity : (id, entity) ∈ ui.entities) : entity.Unambiguous := by
  obtain ⟨draft, fields, -, hfields, rfl⟩ := exists_draft_of_mem_entities h hentity
  refine ⟨(Draft.pairwise_names_fields? hfields).nodup, fun field hfield allowed hallowed => ?_,
    fun _ => mem_names_of_inferPrimaryKey⟩
  obtain ⟨object, -, hobject⟩ := Draft.exists_shows_of_fields? hfields (List.ne_nil_of_mem hfield)
  obtain ⟨-, property, -, hproperty⟩ := Components.mem_objectFields_iff.mp (hobject ▸ hfield)
  rw [hproperty] at hallowed
  obtain ⟨values, -, rfl⟩ := Option.map_eq_some_iff.mp hallowed
  exact (Field.isChoice_enumTexts values).1.nodup

namespace Store

variable {entity : Entity} {count index seed : Nat} {allowed : List String}

theorem getElem?_rows_seeded {row : Record} :
    (seeded entity count).rows[index]? = some row ↔ index < count ∧ row = entity.sample index := by
  rw [List.getElem?_eq_some_iff]
  simp [seeded, eq_comm]

theorem ids_seeded (entity : Entity) (count : Nat) :
    (seeded entity count).ids = (List.range count).map entity.sampleId := by
  apply List.ext_getElem <;> simp [ids, seeded, Entity.sampleId]

/-- Reading the id of a sample row gives the first sample row with the id. -/
theorem read_sampleId (hseed : seed < count)
    (hfirst : ∀ earlier < seed, entity.sampleId earlier ≠ entity.sampleId seed) :
    (seeded entity count).read (entity.sampleId seed) = .ok (entity.sample seed) := by
  have hrow := getElem?_rows_seeded.mpr ⟨hseed, (rfl : _ = entity.sample seed)⟩
  refine read_eq (position?_eq_some_iff.mpr ⟨?_, fun earlier hearlier => ?_⟩) hrow
  · simp [ids_seeded, hseed]
  · simpa [ids_seeded, hearlier.trans hseed] using hfirst earlier hearlier

section Unambiguous

variable (h : entity.Unambiguous)

include h

theorem nodup_ids_seeded_iff_of_unambiguous :
    (seeded entity count).ids.Nodup ↔
      ∀ allowed, entity.KeysRunThrough allowed → count ≤ allowed.length := by
  rw [ids_seeded]
  constructor
  · intro hnodup allowed hruns
    by_contra! hlt
    -- The first row and the one behind the first round share a key.
    have hsame : entity.sampleId 0 = entity.sampleId allowed.length :=
      h.sampleId_eq_iff.mpr (.inr ⟨allowed, hruns, by simp⟩)
    have hzero := List.inj_on_of_nodup_map hnodup (List.mem_range.mpr (Nat.zero_lt_of_lt hlt))
      (List.mem_range.mpr hlt) hsame
    exact hruns.length_pos.ne hzero
  · intro hlong
    refine List.nodup_range.map_on fun seed hseed seed' hseed' hsame => ?_
    rcases h.sampleId_eq_iff.mp hsame with heq | ⟨allowed, hruns, hmod⟩
    · exact heq
    · have hle := hlong allowed hruns
      rwa [Nat.mod_eq_of_lt ((List.mem_range.mp hseed).trans_le hle),
        Nat.mod_eq_of_lt ((List.mem_range.mp hseed').trans_le hle)] at hmod

/-- A row of the first round is read back. -/
theorem read_sampleId_of_lt (hseed : seed < count)
    (hround : ∀ allowed, entity.KeysRunThrough allowed → seed < allowed.length) :
    (seeded entity count).read (entity.sampleId seed) = .ok (entity.sample seed) := by
  refine read_sampleId hseed fun earlier hearlier hsame => ?_
  rcases h.sampleId_eq_iff.mp hsame with heq | ⟨allowed, hruns, hmod⟩
  · exact hearlier.ne heq
  · rw [Nat.mod_eq_of_lt (hearlier.trans (hround allowed hruns)),
      Nat.mod_eq_of_lt (hround allowed hruns)] at hmod
    exact hearlier.ne hmod

theorem read_sampleId_of_keysRunThrough (hruns : entity.KeysRunThrough allowed)
    (hseed : seed < count) :
    (seeded entity count).read (entity.sampleId seed) =
      .ok (entity.sample (seed % allowed.length)) := by
  have hsame : entity.sampleId seed = entity.sampleId (seed % allowed.length) :=
    h.sampleId_eq_iff.mpr (.inr ⟨allowed, hruns, (Nat.mod_mod _ _).symm⟩)
  rw [hsame]
  refine read_sampleId_of_lt h ((Nat.mod_le _ _).trans_lt hseed) fun other hother => ?_
  rw [h.eq_of_keysRunThrough hother hruns]
  exact Nat.mod_lt _ hruns.length_pos

end Unambiguous

/-- The sample rows of a compiled entity have distinct ids exactly if there are no more of them than
texts that their keys run through, where the keys run through given texts.  Each row that no such
text has come round to again is read back under its id, and each other row has the id of the row
with its text from the first round, which is read in its place. -/
theorem nodup_ids_seeded_iff {document : Document} {ui : UiSchema}
    (hcompile : document.compile = .ok ui) {id : String} {entity : Entity}
    (hentity : (id, entity) ∈ ui.entities) (count : Nat) :
    ((seeded entity count).ids.Nodup ↔
      ∀ allowed, entity.KeysRunThrough allowed → count ≤ allowed.length) ∧
    ∀ index row, (seeded entity count).rows[index]? = some row →
      ((∀ allowed, entity.KeysRunThrough allowed → index < allowed.length) →
        (seeded entity count).read (entity.rowId row index) = .ok row) ∧
      ∀ allowed, entity.KeysRunThrough allowed →
        allowed[index % allowed.length]? = some (entity.rowId row index) ∧
        ∃ first, (seeded entity count).rows[index % allowed.length]? = some first ∧
          (seeded entity count).read (entity.rowId row index) = .ok first := by
  have h := Document.unambiguous_of_mem_entities hcompile hentity
  refine ⟨nodup_ids_seeded_iff_of_unambiguous h, fun index row hrow => ?_⟩
  obtain ⟨hindex, rfl⟩ := getElem?_rows_seeded.mp hrow
  refine ⟨read_sampleId_of_lt h hindex, fun allowed hruns => ⟨h.getElem?_eq hruns index, _,
    getElem?_rows_seeded.mpr ⟨(Nat.mod_le _ _).trans_lt hindex, rfl⟩,
    read_sampleId_of_keysRunThrough h hruns hindex⟩⟩

/-! ### Badges -/

/-- A badge bears the name of its holder, and a key. -/
def badgeSchema (key : Schema) : Schema where
  type := some (.single "object")
  properties := [("holder", { type := some (.single "string") }), ("id", key)]

/-- A document whose one operation lists badges. -/
def badges (key : Schema) : Document where
  openapi := some (.string "3.0.0")
  paths := [("/badges", { get := some { responses := [("200", .inline { content :=
    [("application/json", { schema := some (.ofReference "#/components/schemas/Badge") })] })] } })]
  components := { schemas := [("Badge", badgeSchema key)] }

/-- What the operation says about badges. -/
def badgeDraft : Draft where
  id := "Badge"
  resourcePath := "/badges"
  endpoints := { list := some ⟨"GET", "/badges", none⟩ }
  schemaName := some "Badge"
  candidates := [.ofReference "#/components/schemas/Badge"]

/-- The entity of badges. -/
def badge (key : Schema) : Entity :=
  badgeDraft.entity [.ofProperty "holder" { type := some (.single "string") } false,
    .ofProperty "id" key false]

theorem namedFields?_badge {key : Schema} (hplain : key.IsPlain) :
    (badges key).components.namedFields? "Badge" = some (badge key).fields := by
  have hbadge : (badgeSchema key).IsPlain := ⟨rfl, rfl⟩
  have hproperties : ∀ entry ∈ (badgeSchema key).properties, entry.2.IsPlain :=
    List.forall_mem_cons.mpr ⟨by decide, List.forall_mem_singleton.mpr hplain⟩
  have hnames : Ascending.ofList ["holder", "id"] = ["holder", "id"] := by decide
  rw [Components.namedFields?_of_isPlain rfl hbadge rfl,
    Components.objectFields_of_forall_isPlain hproperties]
  simp only [badgeSchema, Entries.keys, List.map_cons, List.map_nil, hnames]
  rfl

theorem compile_badges {key : Schema} (hplain : key.IsPlain)
    (hdrafts : (badges key).drafts = [("Badge", badgeDraft)]) :
    (badges key).compile = .ok { entities := [("Badge", badge key)] } := by
  have hversion : (badges key).checkVersion = .ok () :=
    Document.checkVersion_eq_ok_iff.mpr ⟨"3.0.0", rfl, by decide⟩
  exact Document.compile_of_drafts_eq_singleton hversion hdrafts rfl (namedFields?_badge hplain)
    (List.cons_ne_nil _ _)

/-- A key that is one of two texts. -/
def metalKey : Schema where
  type := some (.single "string")
  enumValues := some [.string "gold", .string "silver"]

theorem compile_metalBadges :
    (badges metalKey).compile = .ok { entities := [("Badge", badge metalKey)] } :=
  compile_badges (by decide) (by decide +kernel)

theorem keysRunThrough_metalBadge : (badge metalKey).KeysRunThrough ["gold", "silver"] :=
  ⟨.ofProperty "id" metalKey false, by simp [badge, Draft.entity], by decide, rfl,
    rfl, by decide, by decide⟩

theorem nodup_ids_seeded_metalBadge :
    (badges metalKey).compile = .ok { entities := [("Badge", badge metalKey)] } ∧
      ((seeded (badge metalKey) 3).ids.Nodup ↔
        ∀ allowed, (badge metalKey).KeysRunThrough allowed → 3 ≤ allowed.length) ∧
      (badge metalKey).KeysRunThrough ["gold", "silver"] ∧
      ∃ first, (seeded (badge metalKey) 3).rows[0]? = some first ∧
        (seeded (badge metalKey) 3).read "gold" = .ok first := by
  obtain ⟨hnodup, hrows⟩ := nodup_ids_seeded_iff compile_metalBadges (List.mem_singleton_self _) 3
  refine ⟨compile_metalBadges, hnodup, keysRunThrough_metalBadge, ?_⟩
  obtain ⟨-, hread⟩ := (hrows 2 _ rfl).2 _ keysRunThrough_metalBadge
  exact hread

/-- The third badge has the key of the first, and reading it gives the first. -/
theorem shared_key_metalBadge :
    (badges metalKey).compile = .ok { entities := [("Badge", badge metalKey)] } ∧
      ¬ (seeded (badge metalKey) 3).ids.Nodup ∧
      ∃ row, (seeded (badge metalKey) 3).rows[2]? = some row ∧
        (badge metalKey).rowId row 2 = "gold" ∧
        (seeded (badge metalKey) 3).read "gold" ≠ .ok row := by
  refine ⟨compile_metalBadges, ?_, _, rfl, ?_, ?_⟩
  · decide
  · decide
  · decide

end Store

end CrudUi
