import CrudUi.Calendar
import CrudUi.Json
import CrudUi.Ui.Entity

/-!
# Sample rows

The `seed`-th sample row of an entity follows from its fields alone.  Dates count back from
2024-01-01, a day for each seed; lists, objects and unknown values are `null`; fields that are
never shown are left out.
-/

namespace CrudUi

/-- The day of the sample with seed 0: 2024-01-01. -/
def sampleEpoch : Int := 19723

/-- The first year that sample dates reach back to. -/
def firstSampleYear : Int := -262143

/-- The date of a sample; none too far in the past. -/
def sampleDate? (seed : Nat) : Option Date :=
  let date := Date.ofDay (sampleEpoch - seed)
  if date.year < firstSampleYear then none else some date

/-- A text, or `null` where there is none. -/
private def textOrNull : Option String → Json
  | some text => .string text
  | none => .null

/-- One and a half times a number, as a binary64 number. -/
def oneAndHalf (n : Nat) : Number :=
  match (Double.ofNat? n).bind fun value => (Double.ofRatio false 3 2).bind value.mul? with
  | some value => .float value
  | none => .int n

namespace Field

/-- The sample text of a field, by its format. -/
def sampleText (field : Field) (seed : Nat) : Json :=
  match field.format with
  | some "date-time" => textOrNull ((sampleDate? seed).map Date.midnightText)
  | some "date" => textOrNull ((sampleDate? seed).map Date.text)
  | some "email" => .string ("user" ++ toString (seed + 1) ++ "@demo.local")
  | _ => .string (field.name ++ "-" ++ toString (seed + 1))

/-- The sample value of a field: its allowed texts in turn, if it has any. -/
def sample (field : Field) (seed : Nat) : Json :=
  match field.type with
  | .boolean => .bool (seed % 2 = 0)
  | .integer => .ofNat (7 * (seed + 1))
  | .number => .number (oneAndHalf (seed + 1))
  | .string =>
    let allowed := field.enumValues.getD []
    match allowed[seed % allowed.length]? with
    | some text => .string text
    | none => field.sampleText seed
  | .array | .object | .unknown => .null

end Field

namespace Entity

/-- The text that a record holds under the primary key. -/
def key? (entity : Entity) (record : Record) : Option String := do
  (← record.lookup (← entity.primaryKey)).string?

/-- Gives a record a primary key, if the entity has one and the record holds no text under it. -/
def withKey (entity : Entity) (record : Record) (key : String) : Record :=
  match entity.primaryKey with
  | some name =>
    if (entity.key? record).isSome then record else Entries.insert name (.string key) record
  | none => record

/-- The sample row for a seed. -/
def sample (entity : Entity) (seed : Nat) : Record :=
  entity.withKey
    (.ofList ((entity.fields.filter (!·.isWriteOnly)).map fun field =>
      (field.name, field.sample seed)))
    (toString (seed + 1))

/-- The id of a row: the text under the primary key, else the name of the entity and the place
of the row. -/
def rowId (entity : Entity) (record : Record) (index : Nat) : String :=
  (entity.key? record).getD (entity.id ++ ":" ++ toString index)

end Entity

end CrudUi
