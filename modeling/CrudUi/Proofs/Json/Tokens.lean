import CrudUi.Json.Printing
import CrudUi.Json.Token
import Mathlib.Data.List.Basic
import Mathlib.Data.Nat.Init

/-!
# Written values as tokens

The text of a value over several lines is cut into the tokens of the value again
(`Json.Token.ofText_indented`).  Strings may hold any characters.  The numbers of a value are
assumed to be naturals of 64 bits, which is all that UI schemas have.

## Main definitions

* `Json.HasNaturals` : the values whose numbers are such naturals.
* `Json.tokens` : the tokens of a value.
-/

namespace CrudUi.Json

/-- Every number of a value is a natural of 64 bits. -/
inductive HasNaturals : Json → Prop
  | null : HasNaturals .null
  | bool (value : Bool) : HasNaturals (.bool value)
  | number {n : ℕ} (h : n ≤ Numeral.maxWord) : HasNaturals (.ofNat n)
  | string (text : String) : HasNaturals (.string text)
  | array {items : List Json} (h : ∀ item ∈ items, HasNaturals item) : HasNaturals (.array items)
  | object {entries : List (String × Json)} (h : ∀ entry ∈ entries, HasNaturals entry.2) :
    HasNaturals (.object entries)

/-! ### Strings -/

namespace Token

theorem scanString_shortEscape {c escaped : Char} (h : shortEscape? c = some escaped)
    (text rest : List Char) :
    scanString text none ('\x5c' :: c :: rest) = scanString (escaped :: text) none rest := by
  have hc : c ≠ 'u' := by
    rintro rfl
    cases h
  rw [scanString.eq_6 _ _ _ _ (fun _ _ _ _ _ hu _ => hc hu) hc, h]

theorem unit?_of_lt {n : ℕ} (h : n < 0x20) :
    unit? '0' '0' (Nat.digitChar (n / 16)) (Nat.digitChar (n % 16)) = some n := by
  decide +revert

theorem scanString_controlCharacter {c : Char} (h : c.toNat < 0x20) (text rest : List Char) :
    scanString text none ('\x5c' :: 'u' :: '0' :: '0' :: Nat.digitChar (c.toNat / 16) ::
        Nat.digitChar (c.toNat % 16) :: rest) = scanString (c :: text) none rest := by
  have htrail : isTrail c.toNat = false := by simp only [isTrail, decide_eq_false_iff_not]; omega
  have hlead : isLead c.toNat = false := by simp only [isLead, decide_eq_false_iff_not]; omega
  rw [scanString.eq_4, unit?_of_lt h]
  simp [htrail, hlead]

theorem scanString_plain {c : Char} (hquote : c ≠ '\x22') (hbackslash : c ≠ '\x5c')
    (h : 0x20 ≤ c.toNat) (text rest : List Char) :
    scanString text none (c :: rest) = scanString (c :: text) none rest := by
  rw [scanString.eq_8 _ _ _ _ hquote (fun _ _ _ _ _ hc _ => hbackslash hc)
    (fun _ hc _ => hbackslash hc) (fun _ _ hc _ => hbackslash hc) (fun hc _ => hbackslash hc),
    if_neg (Nat.not_lt.mpr h)]

/-- A character is read from its escaped form. -/
theorem scanString_escapedChar (c : Char) (text rest : List Char) :
    scanString text none (escapedChar c ++ rest) = scanString (c :: text) none rest := by
  unfold escapedChar
  split
  case h_8 hquote hbackslash _ _ _ _ _ =>
    split
    next hcontrol => exact scanString_controlCharacter hcontrol text rest
    next hplain => exact scanString_plain hquote hbackslash (Nat.not_lt.mp hplain) text rest
  all_goals exact scanString_shortEscape (by decide) text rest

theorem scanString_flatMap_escapedChar (chars text rest : List Char) :
    scanString text none (chars.flatMap escapedChar ++ '\x22' :: rest) =
      ⟨.string (.ok (String.ofList (text.reverse ++ chars))), rest⟩ := by
  induction chars generalizing text with
  | nil => rw [List.flatMap_nil, List.nil_append, scanString.eq_3, List.append_nil]
  | cons c chars ih =>
    rw [List.flatMap_cons, List.append_assoc, scanString_escapedChar, ih, List.reverse_cons,
      List.append_assoc, List.singleton_append]

/-! ### Numerals -/

/-- A numeral goes no further than to a comma or the end of a line. -/
def EndsNumeral (rest : List Char) : Prop :=
  ∀ c ∈ rest.head?, c = ',' ∨ c = '\n'

/-- The values of decimal digits. -/
def digitValues (digits : List Char) : List ℕ :=
  digits.map fun c => c.toNat - '0'.toNat

theorem digits_append {digits rest : List Char} (hdigits : ∀ c ∈ digits, c.isDigit)
    (hrest : EndsNumeral rest) : Token.digits (digits ++ rest) = (digitValues digits, rest) := by
  have hend : ∀ c ∈ rest.head?, c.isDigit = false := fun c hc => by
    rcases hrest c hc with rfl | rfl <;> rfl
  have htake : rest.takeWhile Char.isDigit = [] ∧ rest.dropWhile Char.isDigit = rest := by
    cases rest with
    | nil => exact ⟨rfl, rfl⟩
    | cons c rest => simp [hend c rfl]
  rw [Token.digits, List.takeWhile_append_of_pos hdigits, List.dropWhile_append_of_pos hdigits,
    htake.1, htake.2, List.append_nil]
  rfl

theorem foldl_digitValues (n : ℕ) :
    (digitValues (Nat.toDigits 10 n)).foldl (fun word digit => 10 * word + digit) 0 = n := by
  rw [digitValues, List.foldl_map]
  exact Nat.ofDigitChars_toDigits (by decide) (by decide)

/-- The text of a natural starts with a zero only if there is nothing behind it. -/
theorem toDigits_eq_zero_cons {n : ℕ} {rest : List Char} (h : Nat.toDigits 10 n = '0' :: rest) :
    rest = [] := by
  induction n using Nat.strong_induction_on generalizing rest with
  | _ n ih =>
  rw [Nat.toDigits_eq_if (by decide)] at h
  split at h
  · exact (List.cons.inj h).2.symm
  · rename_i hlarge
    obtain ⟨hnil, -⟩ | ⟨higher, hhigher, -⟩ := List.append_eq_cons_iff.mp h
    · exact absurd hnil Nat.toDigits_ne_nil
    · -- The higher digits are those of a smaller natural, which is then zero.
      obtain rfl := ih (n / 10) (by omega) hhigher
      have hzero := foldl_digitValues (n / 10)
      rw [hhigher] at hzero
      have : n / 10 = 0 := hzero.symm
      omega

theorem takeDigits_of_le {word : ℕ} {digits : List ℕ}
    (h : digits.foldl (fun word digit => 10 * word + digit) word ≤ Numeral.maxWord) :
    Numeral.takeDigits word digits =
      (digits.foldl (fun word digit => 10 * word + digit) word, digits.length) := by
  have hle (digits : List ℕ) (word : ℕ) :
      word ≤ digits.foldl (fun word digit => 10 * word + digit) word := by
    induction digits generalizing word with
    | nil => exact Nat.le_refl _
    | cons digit rest ih => exact Nat.le_trans (by omega : word ≤ 10 * word + digit) (ih _)
  induction digits generalizing word with
  | nil => rfl
  | cons digit rest ih =>
    rw [Numeral.takeDigits, if_pos (Nat.le_trans (hle rest _) h), ih h]
    rfl

theorem value_natural {n : ℕ} (h : n ≤ Numeral.maxWord) :
    Numeral.value ⟨false, digitValues (Nat.toDigits 10 n), none, none⟩ = .ok (.int n) := by
  have htake : Numeral.takeDigits 0 (digitValues (Nat.toDigits 10 n)) =
      (n, (digitValues (Nat.toDigits 10 n)).length) := by
    rw [takeDigits_of_le (by rwa [foldl_digitValues n]), foldl_digitValues]
  simp [Numeral.value, htake, pure, Except.pure]

theorem scanFraction_of_ends (numeral : Numeral) {rest : List Char} (hrest : EndsNumeral rest) :
    scanFraction numeral rest = ⟨.number numeral.value, rest⟩ := by
  cases rest with
  | nil => rfl
  | cons c rest => rcases hrest c rfl with rfl | rfl <;> rfl

theorem scanNumeral_natural {n : ℕ} (h : n ≤ Numeral.maxWord) {rest : List Char}
    (hrest : EndsNumeral rest) :
    scanNumeral false (Nat.toDigits 10 n ++ rest) = ⟨.number (.ok (.int n)), rest⟩ := by
  have hisDigit : ∀ c ∈ Nat.toDigits 10 n, c.isDigit := fun c hc =>
    Nat.isDigit_of_mem_toDigits (by decide) (by decide) hc
  rw [scanNumeral, digits_append hisDigit hrest]
  split
  next hnil => exact absurd (List.map_eq_nil_iff.mp (Prod.mk.inj hnil).1) Nat.toDigits_ne_nil
  next second others _ hzero =>
    -- A zero in front of other digits is not written.
    obtain ⟨c, digits, hdigits, hc, hothers⟩ := List.map_eq_cons_iff.mp (Prod.mk.inj hzero).1
    have hisDigit := Char.isDigit_iff_toNat.mp (hisDigit c (by simp [hdigits]))
    obtain rfl : c = '0' :=
      Char.toNat_inj.mp (Nat.le_antisymm (Nat.sub_eq_zero_iff_le.mp hc) hisDigit.1)
    rw [toDigits_eq_zero_cons hdigits] at hothers
    cases hothers
  next heq =>
    obtain ⟨rfl, rfl⟩ := Prod.mk.inj heq
    rw [scanFraction_of_ends _ hrest, value_natural h]

/-! ### Tokens -/

theorem ofChars_cons {c : Char} {cs rest : List Char} {token : Token} (hblank : isBlank c = false)
    (hscan : scan c cs = ⟨token, rest⟩) : ofChars (c :: cs) = token :: ofChars rest := by
  rw [ofChars, hblank, hscan]
  rfl

theorem ofChars_blanks {blanks : List Char} (h : ∀ c ∈ blanks, isBlank c) (rest : List Char) :
    ofChars (blanks ++ rest) = ofChars rest := by
  induction blanks with
  | nil => rfl
  | cons c blanks ih =>
    obtain ⟨hc, hblanks⟩ := List.forall_mem_cons.mp h
    rw [List.cons_append, ofChars, if_pos hc, ih hblanks]

theorem ofChars_newline (depth : ℕ) (rest : List Char) :
    ofChars ((newline depth).toList ++ rest) = ofChars rest := by
  rw [newline, String.toList_ofList]
  refine ofChars_blanks (fun c hc => ?_) rest
  rcases List.mem_cons.mp hc with rfl | hc
  · rfl
  · rw [List.eq_of_mem_replicate hc]
    rfl

theorem ofChars_stringText (text : String) (rest : List Char) :
    ofChars ((stringText text).toList ++ rest) = .string (.ok text) :: ofChars rest := by
  have htext : (stringText text).toList ++ rest =
      '\x22' :: (text.toList.flatMap escapedChar ++ '\x22' :: rest) := by
    rw [stringText, String.toList_ofList]
    simp
  have hscan := scanString_flatMap_escapedChar text.toList [] rest
  rw [List.reverse_nil, List.nil_append, String.ofList_toList] at hscan
  rw [htext]
  exact ofChars_cons rfl hscan

theorem scan_of_isDigit {c : Char} (h : c.isDigit) (cs : List Char) :
    scan c cs = scanNumeral false (c :: cs) := by
  unfold scan
  split
  case h_12 => rw [if_pos h]
  all_goals exact absurd h (by decide)

theorem isBlank_of_isDigit {c : Char} (h : c.isDigit) : isBlank c = false := by
  refine Bool.eq_false_iff.mpr fun hblank => ?_
  simp only [isBlank, Bool.or_eq_true, decide_eq_true_eq] at hblank
  rcases hblank with ((rfl | rfl) | rfl) | rfl <;> exact absurd h (by decide)

theorem ofChars_natural {n : ℕ} (h : n ≤ Numeral.maxWord) {rest : List Char}
    (hrest : EndsNumeral rest) :
    ofChars ((Number.text (.int n)).toList ++ rest) = .number (.ok (.int n)) :: ofChars rest := by
  have htext : (Number.text (.int n)).toList = Nat.toDigits 10 n := by
    rw [← String.toList_ofList (l := Nat.toDigits 10 n), ← Nat.toString_eq_ofList_toDigits]
    rfl
  have hscan := scanNumeral_natural h hrest
  obtain ⟨c, digits, hdigits⟩ := List.exists_cons_of_ne_nil (Nat.toDigits_ne_nil (n := n) (b := 10))
  have hisDigit : c.isDigit :=
    Nat.isDigit_of_mem_toDigits (b := 10) (by decide) (by decide) (hdigits ▸ List.mem_cons_self)
  rw [htext, hdigits, List.cons_append]
  rw [hdigits, List.cons_append] at hscan
  exact ofChars_cons (isBlank_of_isDigit hisDigit) ((scan_of_isDigit hisDigit _).trans hscan)

/-! ### Words and marks -/

theorem ofChars_null (rest : List Char) :
    ofChars ("null".toList ++ rest) = .null :: ofChars rest := by
  have hscan : scan 'n' ('u' :: 'l' :: 'l' :: rest) = ⟨.null, rest⟩ := rfl
  exact ofChars_cons rfl hscan

theorem ofChars_true (rest : List Char) :
    ofChars ("true".toList ++ rest) = .bool true :: ofChars rest := by
  have hscan : scan 't' ('r' :: 'u' :: 'e' :: rest) = ⟨.bool true, rest⟩ := rfl
  exact ofChars_cons rfl hscan

theorem ofChars_false (rest : List Char) :
    ofChars ("false".toList ++ rest) = .bool false :: ofChars rest := by
  have hscan : scan 'f' ('a' :: 'l' :: 's' :: 'e' :: rest) = ⟨.bool false, rest⟩ := rfl
  exact ofChars_cons rfl hscan

theorem ofChars_openBracket (rest : List Char) :
    ofChars ("[".toList ++ rest) = .openBracket :: ofChars rest :=
  ofChars_cons (c := '[') rfl rfl

theorem ofChars_closeBracket (rest : List Char) :
    ofChars ("]".toList ++ rest) = .closeBracket :: ofChars rest :=
  ofChars_cons (c := ']') rfl rfl

theorem ofChars_openBrace (rest : List Char) :
    ofChars ("\x7b".toList ++ rest) = .openBrace :: ofChars rest :=
  ofChars_cons (c := '\x7b') rfl rfl

theorem ofChars_closeBrace (rest : List Char) :
    ofChars ("\x7d".toList ++ rest) = .closeBrace :: ofChars rest :=
  ofChars_cons (c := '\x7d') rfl rfl

theorem ofChars_comma (rest : List Char) :
    ofChars (",".toList ++ rest) = .comma :: ofChars rest :=
  ofChars_cons (c := ',') rfl rfl

theorem ofChars_colon (rest : List Char) :
    ofChars (": ".toList ++ rest) = .colon :: ofChars rest := by
  have hblank : ofChars ([' '] ++ rest) = ofChars rest :=
    ofChars_blanks (List.forall_mem_singleton.mpr rfl) rest
  rw [← hblank]
  exact ofChars_cons (c := ':') rfl rfl

theorem endsNumeral_comma (rest : List Char) : EndsNumeral (",".toList ++ rest) := by
  simp [EndsNumeral]

theorem endsNumeral_newline (depth : ℕ) (rest : List Char) :
    EndsNumeral ((newline depth).toList ++ rest) := by
  simp [EndsNumeral, newline]

end Token

/-! ### Values as tokens -/

mutual

/-- The tokens of a value. -/
def tokens : Json → List Token
  | .null => [.null]
  | .bool value => [.bool value]
  | .number value => [.number (.ok value)]
  | .string text => [.string (.ok text)]
  | .array items => .openBracket :: (itemTokens items ++ [.closeBracket])
  | .object entries => .openBrace :: (entryTokens entries ++ [.closeBrace])

/-- The tokens of items, with commas between them. -/
def itemTokens : List Json → List Token
  | [] => []
  | [item] => item.tokens
  | item :: rest => item.tokens ++ .comma :: itemTokens rest

/-- The tokens of members, with commas between them. -/
def entryTokens : List (String × Json) → List Token
  | [] => []
  | [(key, value)] => .string (.ok key) :: .colon :: value.tokens
  | (key, value) :: rest =>
    .string (.ok key) :: .colon :: (value.tokens ++ .comma :: entryTokens rest)

end

/-- The text of a value is cut into the tokens of the value, at every depth. -/
def Rereads (value : Json) : Prop :=
  ∀ (depth : ℕ) (rest : List Char), Token.EndsNumeral rest →
    Token.ofChars ((value.indentedAt depth).toList ++ rest) = value.tokens ++ Token.ofChars rest

section Containers

open Token

theorem ofChars_indentedItems {items : List Json} (h : ∀ item ∈ items, item.Rereads) (depth : ℕ)
    {rest : List Char} (hrest : EndsNumeral rest) :
    ofChars ((indentedItems depth items).toList ++ rest) = itemTokens items ++ ofChars rest := by
  induction items with
  | nil => rfl
  | cons item others ih =>
    obtain ⟨hitem, hothers⟩ := List.forall_mem_cons.mp h
    cases others with
    | nil =>
      rw [indentedItems, itemTokens, String.toList_append, List.append_assoc, ofChars_newline,
        hitem depth rest hrest]
    | cons other others =>
      have htext : indentedItems depth (item :: other :: others) =
        newline depth ++ item.indentedAt depth ++ "," ++
          indentedItems depth (other :: others) := rfl
      have htokens : itemTokens (item :: other :: others) =
        item.tokens ++ .comma :: itemTokens (other :: others) := rfl
      rw [htext, htokens]
      simp only [String.toList_append, List.append_assoc, List.cons_append]
      rw [ofChars_newline, hitem depth _ (endsNumeral_comma _), ofChars_comma, ih hothers]

theorem ofChars_indentedEntries {entries : List (String × Json)}
    (h : ∀ entry ∈ entries, entry.2.Rereads) (depth : ℕ) {rest : List Char}
    (hrest : EndsNumeral rest) :
    ofChars ((indentedEntries depth entries).toList ++ rest) =
      entryTokens entries ++ ofChars rest := by
  induction entries with
  | nil => rfl
  | cons entry others ih =>
    obtain ⟨key, value⟩ := entry
    obtain ⟨hvalue, hothers⟩ := List.forall_mem_cons.mp h
    cases others with
    | nil =>
      rw [indentedEntries, entryTokens]
      simp only [String.toList_append, List.append_assoc, List.cons_append]
      rw [ofChars_newline, ofChars_stringText, ofChars_colon, hvalue depth rest hrest]
    | cons other others =>
      have htext : indentedEntries depth ((key, value) :: other :: others) =
        newline depth ++ stringText key ++ ": " ++ value.indentedAt depth ++ "," ++
          indentedEntries depth (other :: others) := rfl
      have htokens : entryTokens ((key, value) :: other :: others) =
        .string (.ok key) :: .colon ::
          (value.tokens ++ .comma :: entryTokens (other :: others)) := rfl
      rw [htext, htokens]
      simp only [String.toList_append, List.append_assoc, List.cons_append]
      rw [ofChars_newline, ofChars_stringText, ofChars_colon, hvalue depth _ (endsNumeral_comma _),
        ofChars_comma, ih hothers]

theorem rereads_array {items : List Json} (h : ∀ item ∈ items, item.Rereads) :
    (array items).Rereads := by
  intro depth rest _
  cases items with
  | nil =>
    have htext : indentedAt depth (array []) = "[" ++ "]" := rfl
    rw [htext, String.toList_append, List.append_assoc, ofChars_openBracket, ofChars_closeBracket]
    rfl
  | cons item others =>
    rw [indentedAt, tokens]
    simp only [String.toList_append, List.append_assoc, List.cons_append]
    rw [ofChars_openBracket, ofChars_indentedItems h _ (endsNumeral_newline _ _), ofChars_newline,
      ofChars_closeBracket]
    rfl

theorem rereads_object {entries : List (String × Json)} (h : ∀ entry ∈ entries, entry.2.Rereads) :
    (object entries).Rereads := by
  intro depth rest _
  cases entries with
  | nil =>
    have htext : indentedAt depth (object []) = "\x7b" ++ "\x7d" := rfl
    rw [htext, String.toList_append, List.append_assoc, ofChars_openBrace, ofChars_closeBrace]
    rfl
  | cons entry others =>
    rw [indentedAt, tokens]
    simp only [String.toList_append, List.append_assoc, List.cons_append]
    rw [ofChars_openBrace, ofChars_indentedEntries h _ (endsNumeral_newline _ _), ofChars_newline,
      ofChars_closeBrace]
    rfl

end Containers

theorem HasNaturals.rereads {value : Json} (h : value.HasNaturals) : value.Rereads := by
  induction h with
  | null => exact fun _ rest _ => Token.ofChars_null rest
  | bool value =>
    cases value
    · exact fun _ rest _ => Token.ofChars_false rest
    · exact fun _ rest _ => Token.ofChars_true rest
  | number hn => exact fun _ _ hrest => Token.ofChars_natural hn hrest
  | string text => exact fun _ rest _ => Token.ofChars_stringText text rest
  | array _ ih => exact rereads_array ih
  | object _ ih => exact rereads_object ih

theorem Token.ofText_indented {value : Json} (h : value.HasNaturals) :
    Token.ofText value.indented = value.tokens := by
  have htext := h.rereads 0 [] (by simp [Token.EndsNumeral])
  rw [List.append_nil, Token.ofChars, List.append_nil] at htext
  exact htext

end CrudUi.Json
