import CrudUi.Text.Utf8
import Mathlib.Data.List.Basic
import Mathlib.Data.UInt

/-!
# Reading what was written as UTF-8

Reading the bytes of a text gives the text back (`Utf8.decodeLossy_encode`).  Of any bytes, those
below 0x80 are read as the characters below U+0080, one for one and whatever stands around them
(`Utf8.countP_isAscii_decodeLossy`), so texts that differ in the number of such bytes are read
differently.
-/

namespace CrudUi.Text.Utf8

theorem toNat_ofNat {n : ℕ} (h : n.isValidChar) : (Char.ofNat n).toNat = n := by
  rw [Char.ofNat, dif_pos h]
  rfl

theorem toNat_ofNat_toNat (b : UInt8) : (Char.ofNat b.toNat).toNat = b.toNat := by
  have hbound : b.toNat < 256 := b.toNat_lt
  exact toNat_ofNat (.inl (by omega))

/-- A character below U+0080 has one byte. -/
theorem utf8EncodeChar_of_lt {c : Char} (h : c.toNat < 0x80) :
    String.utf8EncodeChar c = [UInt8.ofNat c.toNat] :=
  if_pos (Nat.le_of_lt_succ h)

/-- The bytes of every other character are 0x80 or more. -/
theorem le_toNat_of_mem_utf8EncodeChar {c : Char} (h : 0x80 ≤ c.toNat) {b : UInt8}
    (hb : b ∈ String.utf8EncodeChar c) : 0x80 ≤ b.toNat := by
  have hcode : c.toNat = c.val.toNat := rfl
  have hbyte {n : ℕ} (hn : 0x80 ≤ n ∧ n < 256) : 0x80 ≤ (UInt8.ofNat n).toNat :=
    hn.1.trans_eq (UInt8.toNat_ofNat_of_lt' hn.2).symm
  simp only [String.utf8EncodeChar] at hb
  split_ifs at hb
  · omega
  all_goals
    simp only [List.mem_cons, List.not_mem_nil, or_false] at hb
    rcases hb with rfl | rfl | rfl | rfl <;> exact hbyte (by omega)

/-! ### Sequences that are well formed -/

section Sequences

variable {a b c d : UInt8} (rest : List UInt8)

theorem continues_iff : continues b = true ↔ 0x80 ≤ b.toNat ∧ b.toNat ≤ 0xBF := by
  simp [continues, UInt8.le_iff_toNat_le]

theorem secondOfThree_iff :
    secondOfThree a b = true ↔ (0x80 ≤ b.toNat ∧ b.toNat ≤ 0xBF) ∧
      (a.toNat = 0xE0 → 0xA0 ≤ b.toNat) ∧ (a.toNat = 0xED → b.toNat ≤ 0x9F) := by
  simp only [secondOfThree, ← UInt8.toNat_inj, UInt8.reduceToNat]
  split_ifs <;> simp only [Bool.and_eq_true, decide_eq_true_eq, UInt8.le_iff_toNat_le,
    UInt8.reduceToNat, continues_iff] <;> omega

theorem secondOfFour_iff :
    secondOfFour a b = true ↔ (0x80 ≤ b.toNat ∧ b.toNat ≤ 0xBF) ∧
      (a.toNat = 0xF0 → 0x90 ≤ b.toNat) ∧ (a.toNat = 0xF4 → b.toNat ≤ 0x8F) := by
  simp only [secondOfFour, ← UInt8.toNat_inj, UInt8.reduceToNat]
  split_ifs <;> simp only [Bool.and_eq_true, decide_eq_true_eq, UInt8.le_iff_toNat_le,
    UInt8.reduceToNat, continues_iff] <;> omega

theorem decodeLossy_one (ha : a.toNat < 0x80) :
    decodeLossy (a :: rest) = Char.ofNat a.toNat :: decodeLossy rest := by
  have hone : a < 0x80 := ha
  rw [decodeLossy.eq_def]
  simp only [hone, if_true]

theorem decodeLossy_two (ha : 0xC2 ≤ a.toNat ∧ a.toNat < 0xE0)
    (hb : 0x80 ≤ b.toNat ∧ b.toNat ≤ 0xBF) :
    decodeLossy (a :: b :: rest) =
      Char.ofNat (a.toNat % 32 * 64 + b.toNat % 64) :: decodeLossy rest := by
  rw [decodeLossy.eq_def]
  simp only [UInt8.lt_iff_toNat_lt, UInt8.reduceToNat, Bool.or_eq_true, decide_eq_true_eq]
  rw [if_neg (by omega), if_neg (by omega), if_pos ha.2, if_pos (continues_iff.mpr hb), low]

theorem decodeLossy_three (ha : 0xE0 ≤ a.toNat ∧ a.toNat < 0xF0)
    (hb : (0x80 ≤ b.toNat ∧ b.toNat ≤ 0xBF) ∧
      (a.toNat = 0xE0 → 0xA0 ≤ b.toNat) ∧ (a.toNat = 0xED → b.toNat ≤ 0x9F))
    (hc : 0x80 ≤ c.toNat ∧ c.toNat ≤ 0xBF) :
    decodeLossy (a :: b :: c :: rest) =
      Char.ofNat (a.toNat % 16 * 4096 + b.toNat % 64 * 64 + c.toNat % 64) ::
        decodeLossy rest := by
  rw [decodeLossy.eq_def]
  simp only [UInt8.lt_iff_toNat_lt, UInt8.reduceToNat, Bool.or_eq_true, decide_eq_true_eq]
  rw [if_neg (by omega), if_neg (by omega), if_neg (by omega), if_pos ha.2,
    if_pos (secondOfThree_iff.mpr hb), if_pos (continues_iff.mpr hc), low, low]

theorem decodeLossy_four (ha : 0xF0 ≤ a.toNat ∧ a.toNat ≤ 0xF4)
    (hb : (0x80 ≤ b.toNat ∧ b.toNat ≤ 0xBF) ∧
      (a.toNat = 0xF0 → 0x90 ≤ b.toNat) ∧ (a.toNat = 0xF4 → b.toNat ≤ 0x8F))
    (hc : 0x80 ≤ c.toNat ∧ c.toNat ≤ 0xBF) (hd : 0x80 ≤ d.toNat ∧ d.toNat ≤ 0xBF) :
    decodeLossy (a :: b :: c :: d :: rest) =
      Char.ofNat (a.toNat % 8 * 262144 + b.toNat % 64 * 4096 + c.toNat % 64 * 64 + d.toNat % 64) ::
        decodeLossy rest := by
  rw [decodeLossy.eq_def]
  simp only [UInt8.lt_iff_toNat_lt, UInt8.reduceToNat, Bool.or_eq_true, decide_eq_true_eq]
  rw [if_neg (by omega), if_neg (by omega), if_neg (by omega), if_neg (by omega),
    if_pos (secondOfFour_iff.mpr hb), if_pos (continues_iff.mpr hc),
    if_pos (continues_iff.mpr hd), low, low, low]

/-- The bytes of a character are read as the character. -/
theorem decodeLossy_utf8EncodeChar_append (c : Char) :
    decodeLossy (String.utf8EncodeChar c ++ rest) = c :: decodeLossy rest := by
  have hvalid : c.val.toNat < 0xD800 ∨ 0xDFFF < c.val.toNat ∧ c.val.toNat < 0x110000 := c.valid
  have hchar {n : ℕ} (h : n = c.val.toNat) : Char.ofNat n = c := by
    rw [h]
    exact Char.ofNat_toNat c
  have hbyte {n : ℕ} (h : n < 256) : (UInt8.ofNat n).toNat = n := UInt8.toNat_ofNat_of_lt' h
  simp only [String.utf8EncodeChar]
  generalize c.val.toNat = code at *
  -- One case for each length of the sequence.
  split_ifs <;> simp only [List.cons_append, List.nil_append]
  · rw [decodeLossy_one] <;> rw [hbyte (by omega)]
    · rw [hchar rfl]
    · omega
  · rw [decodeLossy_two] <;> simp only [hbyte (show code / 64 % 32 + 192 < 256 by omega),
      hbyte (show code % 64 + 128 < 256 by omega)]
    · rw [hchar (by omega)]
    · omega
    · omega
  · rw [decodeLossy_three] <;> simp only [hbyte (show code / 4096 % 16 + 224 < 256 by omega),
      hbyte (show code / 64 % 64 + 128 < 256 by omega),
      hbyte (show code % 64 + 128 < 256 by omega)]
    · rw [hchar (by omega)]
    · omega
    · omega
    · omega
  · rw [decodeLossy_four] <;> simp only [hbyte (show code / 262144 % 8 + 240 < 256 by omega),
      hbyte (show code / 4096 % 64 + 128 < 256 by omega),
      hbyte (show code / 64 % 64 + 128 < 256 by omega),
      hbyte (show code % 64 + 128 < 256 by omega)]
    · rw [hchar (by omega)]
    · omega
    · omega
    · omega
    · omega

end Sequences

/-- The bytes of a text are read as the text. -/
theorem decodeLossy_encode (text : List Char) : decodeLossy (encode text) = text := by
  induction text with
  | nil => rw [encode, List.flatMap_nil, decodeLossy]
  | cons c rest ih =>
    rw [encode, List.flatMap_cons, decodeLossy_utf8EncodeChar_append]
    exact congrArg (c :: ·) ih

/-! ### Bytes below 0x80 -/

/-- Whether a character is read from one byte. -/
def isAscii (c : Char) : Bool :=
  c.toNat < 0x80

/-- Whether a byte is read as a character by itself. -/
def isAsciiByte (b : UInt8) : Bool :=
  b.toNat < 0x80

theorem isAscii_replacement : isAscii replacement = false := by decide

theorem isAscii_ofNat {n : ℕ} (h : 0x80 ≤ n) (hvalid : n.isValidChar) :
    isAscii (Char.ofNat n) = false := by
  simpa [isAscii, toNat_ofNat hvalid] using h

theorem isAsciiByte_of_not_lt {a : UInt8} (h : ¬ a < 0x80) : isAsciiByte a = false := by
  simpa [isAsciiByte, UInt8.lt_iff_toNat_lt] using h

theorem isAsciiByte_of_continues {b : UInt8} (h : continues b = true) : isAsciiByte b = false := by
  simpa [isAsciiByte] using (continues_iff.mp h).1

theorem isAsciiByte_of_secondOfThree {a b : UInt8} (h : secondOfThree a b = true) :
    isAsciiByte b = false := by
  simpa [isAsciiByte] using (secondOfThree_iff.mp h).1.1

theorem isAsciiByte_of_secondOfFour {a b : UInt8} (h : secondOfFour a b = true) :
    isAsciiByte b = false := by
  simpa [isAsciiByte] using (secondOfFour_iff.mp h).1.1

/-- There are as many characters below U+0080 as there are bytes below 0x80. -/
theorem countP_isAscii_decodeLossy (bytes : List UInt8) :
    (decodeLossy bytes).countP isAscii = bytes.countP isAsciiByte := by
  fun_induction decodeLossy bytes
  case case2 a rest ha ih =>
    rw [List.countP_cons, List.countP_cons, ih, isAscii, isAsciiByte, toNat_ofNat_toNat]
  case case5 a ha hlead b rest htwo hb ih =>
    have hchar : isAscii (Char.ofNat (a.toNat % 32 * 64 + low b)) = false := by
      simp only [UInt8.lt_iff_toNat_lt, UInt8.reduceToNat, Bool.or_eq_true, decide_eq_true_eq]
        at ha hlead htwo
      exact isAscii_ofNat (by omega) (.inl (by unfold low; omega))
    simp [ih, hchar, isAsciiByte_of_not_lt ha, isAsciiByte_of_continues hb]
  case case8 a ha hlead b htwo hthree hb c rest hc ih =>
    have hchar : isAscii (Char.ofNat (a.toNat % 16 * 4096 + low b * 64 + low c)) = false := by
      have hsecond := secondOfThree_iff.mp hb
      simp only [UInt8.lt_iff_toNat_lt, UInt8.reduceToNat] at htwo hthree
      exact isAscii_ofNat (by unfold low; omega) (by unfold low Nat.isValidChar; omega)
    simp [ih, hchar, isAsciiByte_of_not_lt ha, isAsciiByte_of_continues hc,
      isAsciiByte_of_secondOfThree hb]
  case case13 a ha hlead b htwo hthree hb c hc d rest hd ih =>
    have hchar : isAscii (Char.ofNat
        (a.toNat % 8 * 262144 + low b * 4096 + low c * 64 + low d)) = false := by
      have hsecond := secondOfFour_iff.mp hb
      simp only [UInt8.lt_iff_toNat_lt, UInt8.reduceToNat, Bool.or_eq_true, decide_eq_true_eq]
        at hlead hthree
      exact isAscii_ofNat (by unfold low; omega) (by unfold low Nat.isValidChar; omega)
    simp [ih, hchar, isAsciiByte_of_not_lt ha, isAsciiByte_of_continues hc,
      isAsciiByte_of_continues hd, isAsciiByte_of_secondOfFour hb]
  -- In the other cases bytes from 0x80 on are read as U+FFFD.
  all_goals
    grind [isAscii_replacement, isAsciiByte_of_not_lt, isAsciiByte_of_continues,
      isAsciiByte_of_secondOfThree, isAsciiByte_of_secondOfFour]

end CrudUi.Text.Utf8
