import CrudUi.Proofs.OpenApi.References

/-!
# References that differ in their percent escapes

An unreserved character of a reference may be written as a percent escape, and the reference stays
the same identifier (`Reference.Respelled`).  It names the same component as long as the escapes of
the reference are left whole (`Reference.KeepsEscapes`), and only then: `~1` and `~0` are looked for
before percent escapes are read, so they are not seen in `%7E1` or `~%31`
(`Reference.schemaName?_eq_iff_of_respelled`).

## Main definitions

* `Reference.Spells` : the ways to write a character.
* `Reference.Respelled` : some characters of a text are written as percent escapes.
* `Reference.KeepsEscapes` : so are some characters that do not belong to an escape.
-/

namespace CrudUi.Reference

open Text (hexDigit?)
open Text.Percent (isUnreserved)
open Text.Utf8 (isAsciiByte)

variable {c : Char} {piece rest spelled segment : List Char}

/-- The ways to write a character: as it is or, if it is unreserved, as a percent escape. -/
inductive Spells (c : Char) : List Char → Prop
  | plain : Spells c [c]
  | escape {high low : Char} {h l : ℕ} (hc : isUnreserved c) (hhigh : hexDigit? high = some h)
      (hlow : hexDigit? low = some l) (hcode : 16 * h + l = c.toNat) : Spells c ['%', high, low]

/-- Some unreserved characters of the first text are percent escapes in the second. -/
inductive Respelled : List Char → List Char → Prop
  | nil : Respelled [] []
  | cons {c : Char} {piece rest spelled : List Char} (hpiece : Spells c piece)
      (hrest : Respelled rest spelled) : Respelled (c :: rest) (piece ++ spelled)

/-- The same, where every `~0`, `~1` and percent escape of the first text stands in the second. -/
inductive KeepsEscapes : List Char → List Char → Prop
  | nil : KeepsEscapes [] []
  | tilde {digit : Char} {rest spelled : List Char} (hdigit : digit = '0' ∨ digit = '1')
      (hrest : KeepsEscapes rest spelled) :
      KeepsEscapes ('~' :: digit :: rest) ('~' :: digit :: spelled)
  | percent {high low : Char} {rest spelled : List Char} (hhigh : (hexDigit? high).isSome)
      (hlow : (hexDigit? low).isSome) (hrest : KeepsEscapes rest spelled) :
      KeepsEscapes ('%' :: high :: low :: rest) ('%' :: high :: low :: spelled)
  | cons {c : Char} {piece rest spelled : List Char} (hstart : startsEscape (c :: rest) = false)
      (hpiece : Spells c piece) (hrest : KeepsEscapes rest spelled) :
      KeepsEscapes (c :: rest) (piece ++ spelled)

/-! ### Pieces -/

theorem Spells.eq_plain (h : Spells c piece) (hc : isUnreserved c = false) : piece = [c] := by
  cases h with
  | plain => rfl
  | escape hunreserved => simp [hunreserved] at hc

/-- What is not written as it is starts with a percent sign. -/
theorem Spells.cons_percent_of_ne (h : Spells c piece) (hne : piece ≠ [c]) :
    ∃ more, piece = '%' :: more := by
  cases h with
  | plain => exact absurd rfl hne
  | escape => exact ⟨_, rfl⟩

/-- A character that is written outside an escape stands for its own bytes, however it is
written. -/
theorem Spells.segmentBytes_append (h : Spells c piece) (spelled : List Char)
    (hplain : piece = [c] → startsEscape (c :: spelled) = false) :
    segmentBytes (piece ++ spelled) = String.utf8EncodeChar c ++ segmentBytes spelled := by
  cases h with
  | plain => exact segmentBytes_cons (hplain rfl)
  | escape hc hhigh hlow hcode =>
    rw [List.cons_append, List.cons_append, List.cons_append, List.nil_append,
      segmentBytes_escape hhigh hlow, hcode,
      Text.Utf8.utf8EncodeChar_of_lt (Text.Percent.toNat_lt_of_isUnreserved hc)]
    rfl

/-- A character that is there after the respelling, and is no percent sign, was there before. -/
theorem Respelled.exists_of_cons (h : Respelled rest (c :: spelled)) (hc : c ≠ '%') :
    ∃ rest', rest = c :: rest' ∧ Respelled rest' spelled := by
  generalize htext : c :: spelled = text at h
  cases h with
  | nil => simp at htext
  | cons hpiece hrest =>
    cases hpiece with
    | plain =>
      obtain ⟨rfl, rfl⟩ := List.cons.inj htext
      exact ⟨_, rfl, hrest⟩
    | escape => exact absurd (List.cons.inj htext).1 hc

/-- A segment that starts with an escape starts with `~0` or `~1`, or with a percent escape. -/
theorem startsEscape_iff :
    startsEscape segment = true ↔
      (∃ digit rest, (digit = '0' ∨ digit = '1') ∧ segment = '~' :: digit :: rest) ∨
        ∃ high low rest, ((hexDigit? high).isSome ∧ (hexDigit? low).isSome) ∧
          segment = '%' :: high :: low :: rest := by
  rw [startsEscape, Bool.or_eq_true]
  refine or_congr ?_ ?_
  · fun_cases startsTilde segment with
    | case1 digit rest => simp
    | case2 segment hother => simpa using ⟨hother '0', hother '1'⟩
  · fun_cases Text.Percent.startsEscape segment with
    | case1 high low rest => simp
    | case2 segment hother => simpa using fun high low _ _ rest => hother high low rest

theorem ne_of_isSome_hexDigit? (h : (hexDigit? c).isSome) : c ≠ '%' ∧ c ≠ '~' := by
  constructor <;> rintro rfl <;> exact absurd h (by decide)

/-- Behind a character that is left as it is, a respelling makes no escape. -/
theorem Respelled.startsEscape_eq_false (h : Respelled rest spelled)
    (hstart : startsEscape (c :: rest) = false) : startsEscape (c :: spelled) = false := by
  by_contra hspelled
  rw [Bool.not_eq_false, startsEscape_iff] at hspelled
  refine Bool.eq_false_iff.mp hstart (startsEscape_iff.mpr ?_)
  rcases hspelled with ⟨digit, more, hdigit, heq⟩ | ⟨high, low, more, ⟨hhigh, hlow⟩, heq⟩
  · obtain ⟨rfl, rfl⟩ := List.cons.inj heq
    have hne : digit ≠ '%' := by rcases hdigit with rfl | rfl <;> decide
    obtain ⟨rest, rfl, -⟩ := h.exists_of_cons hne
    exact .inl ⟨digit, rest, hdigit, rfl⟩
  · obtain ⟨rfl, rfl⟩ := List.cons.inj heq
    obtain ⟨rest, rfl, hrest⟩ := h.exists_of_cons (ne_of_isSome_hexDigit? hhigh).1
    obtain ⟨rest, rfl, -⟩ := hrest.exists_of_cons (ne_of_isSome_hexDigit? hlow).1
    exact .inr ⟨high, low, rest, ⟨hhigh, hlow⟩, rfl⟩

/-! ### Bytes of a respelled segment -/

theorem KeepsEscapes.respelled (h : KeepsEscapes segment spelled) : Respelled segment spelled := by
  induction h with
  | nil => exact .nil
  | tilde hdigit _ ih => exact .cons .plain (.cons .plain ih)
  | percent hhigh hlow _ ih => exact .cons .plain (.cons .plain (.cons .plain ih))
  | cons hstart hpiece _ ih => exact .cons hpiece ih

/-- Where escapes are left whole, a respelled segment stands for the same bytes. -/
theorem KeepsEscapes.segmentBytes_eq (h : KeepsEscapes segment spelled) :
    segmentBytes spelled = segmentBytes segment := by
  induction h with
  | nil => rfl
  | tilde hdigit _ ih =>
    rcases hdigit with rfl | rfl
    · rw [segmentBytes_tilde, segmentBytes_tilde, ih]
    · rw [segmentBytes_slash, segmentBytes_slash, ih]
  | percent hhigh hlow _ ih =>
    obtain ⟨h, hhigh⟩ := Option.isSome_iff_exists.mp hhigh
    obtain ⟨l, hlow⟩ := Option.isSome_iff_exists.mp hlow
    rw [segmentBytes_escape hhigh hlow, segmentBytes_escape hhigh hlow, ih]
  | cons hstart hpiece hrest ih =>
    rw [segmentBytes_cons hstart,
      hpiece.segmentBytes_append _ fun _ => hrest.respelled.startsEscape_eq_false hstart, ih]

/-- The number of bytes below 0x80 that a segment stands for. -/
def asciiCount (segment : List Char) : ℕ :=
  (segmentBytes segment).countP isAsciiByte

theorem asciiCount_of_eq_append (h : c.toNat < 0x80)
    (hbytes : segmentBytes segment = String.utf8EncodeChar c ++ segmentBytes rest) :
    asciiCount segment = asciiCount rest + 1 := by
  have hbyte : isAsciiByte (UInt8.ofNat c.toNat) = true := by
    rw [isAsciiByte, UInt8.toNat_ofNat_of_lt' (h.trans (by decide))]
    simpa using h
  rw [asciiCount, hbytes, Text.Utf8.utf8EncodeChar_of_lt h, List.singleton_append,
    List.countP_cons_of_pos hbyte, asciiCount]

theorem asciiCount_le (h : KeepsEscapes segment spelled ∨ asciiCount segment < asciiCount spelled) :
    asciiCount segment ≤ asciiCount spelled := by
  rcases h with h | h
  · rw [asciiCount, asciiCount, h.segmentBytes_eq]
  · exact h.le

/-- A `~0` or `~1` is left whole, or the tilde and the digit stand for themselves. -/
theorem keepsEscapes_or_lt_tilde {digit : Char} {piece' : List Char}
    (hdigit : digit = '0' ∨ digit = '1') (hpiece : Spells '~' piece)
    (hpiece' : Spells digit piece')
    (hrest : KeepsEscapes rest spelled ∨ asciiCount rest < asciiCount spelled) :
    KeepsEscapes ('~' :: digit :: rest) (piece ++ (piece' ++ spelled)) ∨
      asciiCount ('~' :: digit :: rest) < asciiCount (piece ++ (piece' ++ spelled)) := by
  have hescape (rest : List Char) : asciiCount ('~' :: digit :: rest) = asciiCount rest + 1 := by
    rcases hdigit with rfl | rfl
    · exact asciiCount_of_eq_append (by decide) segmentBytes_tilde
    · exact asciiCount_of_eq_append (by decide) segmentBytes_slash
  by_cases hwhole : piece = ['~'] ∧ piece' = [digit]
  · obtain ⟨rfl, rfl⟩ := hwhole
    refine hrest.imp (.tilde hdigit) fun hlt => ?_
    rw [hescape, List.singleton_append, List.singleton_append, hescape]
    exact Nat.succ_lt_succ hlt
  · right
    have htilde := hpiece.segmentBytes_append (piece' ++ spelled) fun hplain => by
      obtain ⟨more, rfl⟩ := hpiece'.cons_percent_of_ne fun hplain' => hwhole ⟨hplain, hplain'⟩
      simp [startsEscape, startsTilde, Text.Percent.startsEscape]
    have hown := hpiece'.segmentBytes_append spelled fun _ =>
      Reference.startsEscape_eq_false (by rcases hdigit with rfl | rfl <;> decide)
        (by rcases hdigit with rfl | rfl <;> decide)
    have hdigitBound : digit.toNat < 0x80 := by rcases hdigit with rfl | rfl <;> decide
    rw [hescape, asciiCount_of_eq_append (by decide) htilde,
      asciiCount_of_eq_append hdigitBound hown]
    have hle := asciiCount_le hrest
    omega

theorem toNat_lt_of_isSome_hexDigit? (h : (hexDigit? c).isSome) : c.toNat < 0x80 := by
  rw [hexDigit?] at h
  split_ifs at h with hdigit hlower hupper
  · exact (Char.isDigit_iff_toNat.mp hdigit).2.trans_lt (by decide)
  · exact lt_of_le_of_lt (show c.toNat ≤ 'f'.toNat from hlower.2) (by decide)
  · exact lt_of_le_of_lt (show c.toNat ≤ 'F'.toNat from hupper.2) (by decide)
  · simp at h

/-- A percent sign starts no escape once one of the two digits behind it is respelled. -/
theorem startsEscape_percent_of_not_whole {high low : Char} {piece' : List Char}
    (hpiece : Spells high piece) (hpiece' : Spells low piece')
    (hwhole : ¬(piece = [high] ∧ piece' = [low])) (rest : List Char) :
    startsEscape ('%' :: (piece ++ (piece' ++ rest))) = false := by
  refine Bool.eq_false_iff.mpr fun hstart => ?_
  rcases startsEscape_iff.mp hstart with ⟨_, _, _, heq⟩ | ⟨x, y, more, ⟨hx, hy⟩, heq⟩
  · simp at heq
  by_cases hfirst : piece = [high]
  · obtain ⟨more', rfl⟩ := hpiece'.cons_percent_of_ne fun hsecond => hwhole ⟨hfirst, hsecond⟩
    rw [hfirst] at heq
    simp only [List.cons_append, List.nil_append, List.cons.injEq] at heq
    exact (ne_of_isSome_hexDigit? hy).1 heq.2.2.1.symm
  · obtain ⟨more', rfl⟩ := hpiece.cons_percent_of_ne hfirst
    simp only [List.cons_append, List.cons.injEq] at heq
    exact (ne_of_isSome_hexDigit? hx).1 heq.2.1.symm

/-- A percent escape is left whole, or its three characters stand for themselves. -/
theorem keepsEscapes_or_lt_percent {high low : Char} {piece' : List Char}
    (hhigh : (hexDigit? high).isSome) (hlow : (hexDigit? low).isSome) (hpiece : Spells high piece)
    (hpiece' : Spells low piece')
    (hrest : KeepsEscapes rest spelled ∨ asciiCount rest < asciiCount spelled) :
    KeepsEscapes ('%' :: high :: low :: rest) ('%' :: (piece ++ (piece' ++ spelled))) ∨
      asciiCount ('%' :: high :: low :: rest) <
        asciiCount ('%' :: (piece ++ (piece' ++ spelled))) := by
  obtain ⟨h, hhigh'⟩ := Option.isSome_iff_exists.mp hhigh
  obtain ⟨l, hlow'⟩ := Option.isSome_iff_exists.mp hlow
  have hescape (rest : List Char) : asciiCount ('%' :: high :: low :: rest) =
      (if isAsciiByte (UInt8.ofNat (16 * h + l)) then 1 else 0) + asciiCount rest := by
    rw [asciiCount, segmentBytes_escape hhigh' hlow', List.countP_cons, asciiCount, Nat.add_comm]
  have hle := asciiCount_le hrest
  by_cases hwhole : piece = [high] ∧ piece' = [low]
  · obtain ⟨rfl, rfl⟩ := hwhole
    refine hrest.imp (.percent hhigh hlow) fun hlt => ?_
    rw [hescape, List.singleton_append, List.singleton_append, hescape]
    omega
  · right
    have hpercent : segmentBytes ('%' :: (piece ++ (piece' ++ spelled))) =
        String.utf8EncodeChar '%' ++ segmentBytes (piece ++ (piece' ++ spelled)) :=
      segmentBytes_cons (startsEscape_percent_of_not_whole hpiece hpiece' hwhole spelled)
    have hplain {c : Char} (hc : (hexDigit? c).isSome) (text : List Char) :
        startsEscape (c :: text) = false :=
      Reference.startsEscape_eq_false (ne_of_isSome_hexDigit? hc).2 (ne_of_isSome_hexDigit? hc).1
    have hownHigh := hpiece.segmentBytes_append (piece' ++ spelled) fun _ =>
      hplain hhigh _
    have hownLow := hpiece'.segmentBytes_append spelled fun _ => hplain hlow _
    rw [hescape, asciiCount_of_eq_append (by decide) hpercent,
      asciiCount_of_eq_append (toNat_lt_of_isSome_hexDigit? hhigh) hownHigh,
      asciiCount_of_eq_append (toNat_lt_of_isSome_hexDigit? hlow) hownLow]
    split <;> omega

/-- A character outside an escape stands for its own bytes before and after. -/
theorem keepsEscapes_or_lt_cons (hstart : startsEscape (c :: rest) = false)
    (hpiece : Spells c piece) (hrespelled : Respelled rest spelled)
    (hrest : KeepsEscapes rest spelled ∨ asciiCount rest < asciiCount spelled) :
    KeepsEscapes (c :: rest) (piece ++ spelled) ∨
      asciiCount (c :: rest) < asciiCount (piece ++ spelled) := by
  refine hrest.imp (.cons hstart hpiece) fun hlt => ?_
  rw [asciiCount, asciiCount, segmentBytes_cons hstart,
    hpiece.segmentBytes_append _ fun _ => hrespelled.startsEscape_eq_false hstart,
    List.countP_append, List.countP_append]
  exact Nat.add_lt_add_left hlt _

/-- An escape that is not left whole gives more bytes below 0x80. -/
theorem Respelled.keepsEscapes_or_lt (h : Respelled segment spelled) :
    KeepsEscapes segment spelled ∨ asciiCount segment < asciiCount spelled := by
  induction hlength : segment.length using Nat.strong_induction_on generalizing segment spelled with
  | _ length ih =>
  subst hlength
  cases h with
  | nil => exact .inl .nil
  | @cons c piece rest spelled hpiece hrest =>
    by_cases hstart : startsEscape (c :: rest) = true
    · rcases startsEscape_iff.mp hstart with
        ⟨digit, rest, hdigit, heq⟩ | ⟨high, low, rest, ⟨hhigh, hlow⟩, heq⟩
      · obtain ⟨rfl, rfl⟩ := List.cons.inj heq
        cases hrest with
        | cons hpiece' hrest =>
          exact keepsEscapes_or_lt_tilde hdigit hpiece hpiece'
            (ih _ (by simp only [List.length_cons]; omega) hrest rfl)
      · obtain ⟨rfl, rfl⟩ := List.cons.inj heq
        obtain rfl := hpiece.eq_plain (by decide)
        cases hrest with
        | cons hpiece hrest => cases hrest with
          | cons hpiece' hrest =>
            rw [List.singleton_append]
            exact keepsEscapes_or_lt_percent hhigh hlow hpiece hpiece'
              (ih _ (by simp only [List.length_cons]; omega) hrest rfl)
    · exact keepsEscapes_or_lt_cons (Bool.not_eq_true _ ▸ hstart) hpiece hrest
        (ih _ (by simp) hrest rfl)

/-! ### Names -/

theorem Spells.slash_mem_iff (h : Spells c piece) : '/' ∈ piece ↔ c = '/' := by
  cases h with
  | plain => simp [eq_comm]
  | @escape high low h l hc hhigh hlow =>
    have hne {c : Char} {n : ℕ} (hdigit : hexDigit? c = some n) : '/' ≠ c := by
      rintro rfl
      exact absurd hdigit (by simp [show hexDigit? '/' = none from rfl])
    have hslash : c ≠ '/' := by
      rintro rfl
      exact absurd hc (by decide)
    simp [hne hhigh, hne hlow, hslash]

theorem Respelled.slash_mem_iff (h : Respelled segment spelled) :
    '/' ∈ spelled ↔ '/' ∈ segment := by
  induction h with
  | nil => rfl
  | cons hpiece _ ih =>
    rw [List.mem_append, List.mem_cons, hpiece.slash_mem_iff, ih, eq_comm]

theorem toSchema_eq (segment : String) :
    toSchema segment = "#/components/" ++ "schemas" ++ "/" ++ segment := rfl

/-- A reference that is respelled names the same schema exactly if its escapes are left whole, or if
it goes on behind the name, when both references name nothing. -/
theorem schemaName?_eq_iff_of_respelled {segment spelled : String}
    (h : Respelled segment.toList spelled.toList) :
    schemaName? (toSchema segment) = schemaName? (toSchema spelled) ↔
      '/' ∈ segment.toList ∨ KeepsEscapes segment.toList spelled.toList := by
  have hgroup : '/' ∉ "schemas".toList := by decide
  rw [schemaName?, schemaName?, toSchema_eq, toSchema_eq]
  by_cases hslash : '/' ∈ segment.toList
  · rw [componentName?_of_slash_mem hgroup hslash,
      componentName?_of_slash_mem hgroup (h.slash_mem_iff.mpr hslash)]
    exact iff_of_true rfl (.inl hslash)
  · rw [componentName?_of_slash_notMem hgroup hslash,
      componentName?_of_slash_notMem hgroup (mt h.slash_mem_iff.mp hslash), or_iff_right hslash]
    constructor
    · intro hnames
      refine h.keepsEscapes_or_lt.resolve_right fun hlt => ?_
      have hsegments : decodeSegment segment.toList = decodeSegment spelled.toList := by
        split at hnames <;> split at hnames <;> simp_all [String.ofList_inj]
      have hcount := congrArg (List.countP Text.Utf8.isAscii) hsegments
      rw [decodeSegment_eq, decodeSegment_eq, Text.Utf8.countP_isAscii_decodeLossy,
        Text.Utf8.countP_isAscii_decodeLossy] at hcount
      exact hlt.ne hcount
    · intro hkeeps
      rw [decodeSegment_eq, decodeSegment_eq, hkeeps.segmentBytes_eq]

theorem Respelled.refl : (segment : List Char) → Respelled segment segment
  | [] => .nil
  | _ :: rest => .cons .plain (.refl rest)

/-- A letter is written as a percent escape, and the escape of the slash is left whole. -/
theorem schemaName?_of_encoded_letter :
    Respelled "Team~1Lead".toList "Tea%6D~1Lead".toList ∧
      schemaName? (toSchema "Team~1Lead") = schemaName? (toSchema "Tea%6D~1Lead") := by
  have hletter : Spells 'm' ['%', '6', 'D'] :=
    .escape (h := 6) (l := 13) (by decide) (by decide) (by decide) (by decide)
  have hrespelled : Respelled "Team~1Lead".toList "Tea%6D~1Lead".toList :=
    .cons .plain (.cons .plain (.cons .plain (.cons hletter (.refl _))))
  have hkeeps : KeepsEscapes "Team~1Lead".toList "Tea%6D~1Lead".toList :=
    .cons (by decide) .plain (.cons (by decide) .plain (.cons (by decide) .plain
      (.cons (by decide) hletter (.tilde (.inr rfl) (.cons (by decide) .plain
        (.cons (by decide) .plain (.cons (by decide) .plain (.cons (by decide) .plain .nil))))))))
  exact ⟨hrespelled, (schemaName?_eq_iff_of_respelled hrespelled).mpr (.inr hkeeps)⟩

/-- The tilde of an escape is written as a percent escape, and the escape is not seen. -/
theorem schemaName?_of_encoded_tilde :
    Respelled "Team~1Lead".toList "Team%7E1Lead".toList ∧
      schemaName? (toSchema "Team~1Lead") = some "Team/Lead" ∧
      schemaName? (toSchema "Team%7E1Lead") = some "Team~1Lead" := by
  have htilde : Spells '~' ['%', '7', 'E'] :=
    .escape (h := 7) (l := 14) (by decide) (by decide) (by decide) (by decide)
  exact ⟨.cons .plain (.cons .plain (.cons .plain (.cons .plain (.cons htilde (.refl _))))),
    by decide +kernel, by decide +kernel⟩

end CrudUi.Reference
