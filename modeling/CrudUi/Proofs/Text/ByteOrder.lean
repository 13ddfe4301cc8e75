import Mathlib.Data.List.Basic
import Mathlib.Data.String.Basic
import Mathlib.Data.UInt

/-!
# The order of texts is that of their bytes

Texts are compared by their characters, and it makes no difference to compare the bytes of UTF-8
instead: of two characters, the greater one has a greater byte at the first place where their bytes
differ (`Text.lt_iff_bytes_lt`).
-/

namespace CrudUi.Text

/-- The bytes of a text. -/
def bytes (text : String) : List UInt8 :=
  text.toUTF8.data.toList

theorem bytes_eq (text : String) : bytes text = text.toList.flatMap String.utf8EncodeChar := by
  rw [bytes, String.toUTF8, ← String.ofList_toList (s := text), String.toByteArray_ofList,
    List.utf8Encode, List.data_toByteArray, String.toList_ofList]

theorem ofNat_lt_ofNat_iff {a b : ℕ} (ha : a < 256) (hb : b < 256) :
    UInt8.ofNat a < UInt8.ofNat b ↔ a < b := by
  rw [UInt8.lt_iff_toNat_lt, UInt8.toNat_ofNat_of_lt' ha, UInt8.toNat_ofNat_of_lt' hb]

theorem ofNat_eq_ofNat_iff {a b : ℕ} (ha : a < 256) (hb : b < 256) :
    UInt8.ofNat a = UInt8.ofNat b ↔ a = b := by
  rw [← UInt8.toNat_inj, UInt8.toNat_ofNat_of_lt' ha, UInt8.toNat_ofNat_of_lt' hb]

/-- The bytes of the lesser character come first, whatever follows them. -/
theorem utf8EncodeChar_append_lt {c d : Char} (h : c < d) (rest rest' : List UInt8) :
    String.utf8EncodeChar c ++ rest < String.utf8EncodeChar d ++ rest' := by
  have hlt : c.val.toNat < d.val.toNat := h
  have hbound : d.val.toNat < 1114112 := by
    rcases d.valid with hlow | ⟨-, hhigh⟩
    · exact hlow.trans (by decide)
    · exact hhigh
  -- Codes are compared by their digits to base 64, the first one that differs.
  have hdigits : ∀ {a b : ℕ}, a < b → a / 64 < b / 64 ∨ a / 64 = b / 64 ∧ a % 64 < b % 64 := by
    omega
  have h₁ := hdigits hlt
  have h₂ := @hdigits (c.val.toNat / 64) (d.val.toNat / 64)
  have h₃ := @hdigits (c.val.toNat / 64 / 64) (d.val.toNat / 64 / 64)
  simp only [String.utf8EncodeChar]
  rw [show 4096 = 64 * 64 from rfl, show 262144 = 64 * 64 * 64 from rfl]
  simp only [← Nat.div_div_eq_div_mul]
  generalize c.val.toNat = code at *
  generalize d.val.toNat = code' at *
  split_ifs <;>
    simp (disch := omega) only [List.cons_append, List.nil_append, List.cons_lt_cons_iff,
      ofNat_lt_ofNat_iff, ofNat_eq_ofNat_iff] <;>
    omega

theorem flatMap_utf8EncodeChar_lt {text text' : List Char} (h : text < text') :
    text.flatMap String.utf8EncodeChar < text'.flatMap String.utf8EncodeChar := by
  induction text generalizing text' with
  | nil =>
    cases text' with
    | nil => exact absurd h (List.lt_irrefl _)
    | cons d rest' =>
      obtain ⟨byte, others, hbytes⟩ := List.exists_cons_of_ne_nil
        (String.utf8EncodeChar_ne_nil (c := d))
      rw [List.flatMap_nil, List.flatMap_cons, hbytes]
      exact List.nil_lt_cons _ _
  | cons c rest ih =>
    cases text' with
    | nil => exact absurd h (List.not_lt_nil _)
    | cons d rest' =>
      rw [List.flatMap_cons, List.flatMap_cons]
      rcases List.cons_lt_cons_iff.mp h with hlt | ⟨rfl, hlt⟩
      · exact utf8EncodeChar_append_lt hlt _ _
      · exact List.append_left_lt (ih hlt)

/-- The lesser text has the lesser bytes. -/
theorem lt_iff_bytes_lt {text text' : String} : text < text' ↔ bytes text < bytes text' := by
  have hbytes : ∀ {text text' : String}, text < text' → bytes text < bytes text' := fun h => by
    rw [bytes_eq, bytes_eq]
    exact flatMap_utf8EncodeChar_lt (String.lt_iff_toList_lt.mp h)
  refine ⟨hbytes, fun h => ?_⟩
  rcases lt_trichotomy text text' with hlt | rfl | hgt
  · exact hlt
  · exact absurd h (List.lt_irrefl _)
  · exact absurd (hbytes hgt) (List.lt_asymm h)

end CrudUi.Text
