import CrudUi.Proofs.Text.Utf8
import CrudUi.Text.Percent

/-!
# Percent escapes and the bytes they stand for

A text with percent escapes is read from its front: an escape gives one byte, and a character that
starts no escape gives its own bytes.  `Percent.encode` writes an escape for every byte that is not
an unreserved character, so its texts hold nothing but unreserved characters and escapes.
-/

namespace CrudUi.Text

/-! ### Hexadecimal digits -/

/-- The upper case digit of a number below 16. -/
def hexChar (n : ℕ) : Char :=
  if n < 10 then Char.ofNat ('0'.toNat + n) else Char.ofNat ('A'.toNat + (n - 10))

theorem hexDigit?_hexChar {n : ℕ} (h : n < 16) : hexDigit? (hexChar n) = some n := by
  have hall : ∀ n < 16, hexDigit? (hexChar n) = some n := by decide
  exact hall n h

namespace Percent

/-! ### Reading -/

section Reading

variable {c high low : Char} {h l : ℕ} {rest : List Char}

/-- Whether a text starts with a percent escape. -/
def startsEscape : List Char → Bool
  | '%' :: high :: low :: _ => (hexDigit? high).isSome && (hexDigit? low).isSome
  | _ => false

theorem bytes_escape (hhigh : hexDigit? high = some h) (hlow : hexDigit? low = some l) :
    bytes ('%' :: high :: low :: rest) = UInt8.ofNat (16 * h + l) :: bytes rest := by
  simp [bytes, bytesExcept, hhigh, hlow]

/-- A character that starts no escape stands for its own bytes. -/
theorem bytes_cons (hstart : startsEscape (c :: rest) = false) :
    bytes (c :: rest) = String.utf8EncodeChar c ++ bytes rest := by
  by_cases hc : c = '%'
  · subst hc
    match rest, hstart with
    | [], _ => rfl
    | [high], _ => rfl
    | high :: low :: rest, hstart =>
      rw [bytes, bytesExcept]
      cases hhigh : hexDigit? high with
      | none => rfl
      | some h => cases hlow : hexDigit? low with
        | none => rfl
        | some l => simp [startsEscape, hhigh, hlow] at hstart
  · rw [bytes, bytesExcept]
    rintro high low rest rfl
    exact absurd rfl hc

end Reading

/-! ### Writing -/

/-- Whether a character may stand for itself everywhere: an ASCII letter or digit, or one of
`-`, `.`, `_` and `~`. -/
def isUnreserved (c : Char) : Bool :=
  c.isAlphanum || c = '-' || c = '.' || c = '_' || c = '~'

theorem toNat_lt_of_isUnreserved {c : Char} (h : isUnreserved c) : c.toNat < 0x80 := by
  unfold isUnreserved Char.isAlphanum Char.isAlpha Char.isUpper Char.isLower Char.isDigit at h
  simp only [Bool.or_eq_true, Bool.and_eq_true, decide_eq_true_eq, UInt32.le_iff_toNat_le] at h
  rcases h with (((((h | h) | h) | rfl) | rfl) | rfl) | rfl
  · exact h.2.trans_lt (by decide)
  · exact h.2.trans_lt (by decide)
  · exact h.2.trans_lt (by decide)
  all_goals decide

/-- Writes a byte: as an unreserved character, else as an escape. -/
def encodeByte (b : UInt8) : List Char :=
  if isUnreserved (Char.ofNat b.toNat) then [Char.ofNat b.toNat]
  else ['%', hexChar (b.toNat / 16), hexChar (b.toNat % 16)]

/-- Writes the bytes of a text. -/
def encode (text : List Char) : List Char :=
  (Utf8.encode text).flatMap encodeByte

end Percent

end CrudUi.Text
