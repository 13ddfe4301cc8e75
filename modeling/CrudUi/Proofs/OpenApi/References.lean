import CrudUi.OpenApi.Reference
import CrudUi.Proofs.Text.Percent

/-!
# The names in references

The segment of a reference is read from its front: `~0`, `~1` and percent escapes stand for one byte
each, and every other character for its own bytes (`Reference.segmentBytes`).
-/

namespace CrudUi.Reference

open Text (hexDigit?)

variable {c high low : Char} {rest more segment : List Char}

/-! ### Tildes -/

/-- A segment with `~1` and `~0` replaced. -/
def unescape (segment : List Char) : List Char :=
  unescapeTilde '0' '~' (unescapeTilde '1' '/' segment)

/-- Whether a segment starts with `~0` or `~1`. -/
def startsTilde : List Char → Bool
  | '~' :: digit :: _ => digit = '0' || digit = '1'
  | _ => false

theorem unescapeTilde_cons {digit replacement : Char} (h : c ≠ '~' ∨ rest.head? ≠ some digit) :
    unescapeTilde digit replacement (c :: rest) = c :: unescapeTilde digit replacement rest := by
  by_cases hc : c = '~'
  · subst hc
    cases rest with
    | nil => rfl
    | cons d rest =>
      have hd : d ≠ digit := by simpa using h
      rw [unescapeTilde, if_neg hd]
  · rw [unescapeTilde]
    rintro d rest rfl
    exact absurd rfl hc

theorem unescape_slash : unescape ('~' :: '1' :: rest) = '/' :: unescape rest := by
  rw [unescape, unescapeTilde, if_pos rfl, unescapeTilde_cons (.inl (by decide)), unescape]

theorem unescape_tilde : unescape ('~' :: '0' :: rest) = '~' :: unescape rest := by
  have hdigit : unescapeTilde '1' '/' ('0' :: rest) = '0' :: unescapeTilde '1' '/' rest :=
    unescapeTilde_cons (.inl (by decide))
  rw [unescape, unescapeTilde_cons (.inr (by simp)), hdigit, unescapeTilde, if_pos rfl, unescape]

/-- A replaced `~1` is no digit, so it makes no new `~0`. -/
theorem head?_unescapeTilde_slash_ne (h : rest.head? ≠ some '0') :
    (unescapeTilde '1' '/' rest).head? ≠ some '0' := by
  fun_cases unescapeTilde '1' '/' rest <;> simp_all

theorem unescape_cons (h : startsTilde (c :: rest) = false) :
    unescape (c :: rest) = c :: unescape rest := by
  by_cases hc : c = '~'
  · have hhead : rest.head? ≠ some '0' ∧ rest.head? ≠ some '1' := by
      subst hc
      cases rest with
      | nil => simp
      | cons d rest => simpa [startsTilde] using h
    rw [unescape, unescapeTilde_cons (.inr hhead.2),
      unescapeTilde_cons (.inr (head?_unescapeTilde_slash_ne hhead.1)), unescape]
  · rw [unescape, unescapeTilde_cons (.inl hc), unescapeTilde_cons (.inl hc), unescape]

/-- The three ways in which a segment may start. -/
theorem startsTilde_cases (segment : List Char) :
    (∃ rest, segment = '~' :: '0' :: rest) ∨ (∃ rest, segment = '~' :: '1' :: rest) ∨
      startsTilde segment = false := by
  fun_cases startsTilde segment with
  | case1 digit rest =>
    by_cases hzero : digit = '0'
    · exact .inl ⟨rest, by rw [hzero]⟩
    by_cases hone : digit = '1'
    · exact .inr (.inl ⟨rest, by rw [hone]⟩)
    · simp [hzero, hone]
  | case2 => simp

/-- A character other than a slash or a tilde is not the outcome of a replacement. -/
theorem eq_cons_of_unescape_eq_cons (h : unescape segment = c :: more) (hslash : c ≠ '/')
    (htilde : c ≠ '~') : ∃ rest, segment = c :: rest ∧ unescape rest = more := by
  rcases startsTilde_cases segment with ⟨rest, rfl⟩ | ⟨rest, rfl⟩ | hstart
  · rw [unescape_tilde] at h
    exact absurd (List.cons.inj h).1.symm htilde
  · rw [unescape_slash] at h
    exact absurd (List.cons.inj h).1.symm hslash
  · cases segment with
    | nil => simp [unescape, unescapeTilde] at h
    | cons d rest =>
      rw [unescape_cons hstart] at h
      obtain ⟨rfl, hrest⟩ := List.cons.inj h
      exact ⟨rest, rfl, hrest⟩

/-- Replacing `~1` and `~0` makes no percent escape. -/
theorem startsEscape_unescape (h : Text.Percent.startsEscape (c :: rest) = false) :
    Text.Percent.startsEscape (c :: unescape rest) = false := by
  by_contra hstart
  rw [Bool.not_eq_false, Text.Percent.startsEscape.eq_def] at hstart
  split at hstart
  case h_2 => exact absurd hstart (by simp)
  case h_1 high low more heq =>
    obtain ⟨rfl, hrest⟩ := List.cons.inj heq
    obtain ⟨hhigh, hlow⟩ := Bool.and_eq_true_iff.mp hstart
    have hne {c : Char} (hc : (hexDigit? c).isSome) : c ≠ '/' ∧ c ≠ '~' := by
      constructor <;> rintro rfl <;> exact absurd hc (by decide)
    obtain ⟨rest, rfl, hmore⟩ := eq_cons_of_unescape_eq_cons hrest (hne hhigh).1 (hne hhigh).2
    obtain ⟨rest, rfl, -⟩ := eq_cons_of_unescape_eq_cons hmore (hne hlow).1 (hne hlow).2
    simp [Text.Percent.startsEscape, hhigh, hlow] at h

/-! ### Bytes of a segment -/

/-- The bytes that a segment stands for. -/
def segmentBytes (segment : List Char) : List UInt8 :=
  Text.Percent.bytes (unescape segment)

theorem decodeSegment_eq (segment : List Char) :
    decodeSegment segment = Text.Utf8.decodeLossy (segmentBytes segment) := rfl

/-- Whether a segment starts with an escape of either kind. -/
def startsEscape (segment : List Char) : Bool :=
  startsTilde segment || Text.Percent.startsEscape segment

theorem startsEscape_eq_false (htilde : c ≠ '~') (hpercent : c ≠ '%') :
    startsEscape (c :: rest) = false := by
  simp [startsEscape, startsTilde, Text.Percent.startsEscape, htilde, hpercent]

theorem segmentBytes_slash :
    segmentBytes ('~' :: '1' :: rest) = String.utf8EncodeChar '/' ++ segmentBytes rest := by
  rw [segmentBytes, unescape_slash, Text.Percent.bytes_cons (by simp [Text.Percent.startsEscape]),
    segmentBytes]

theorem segmentBytes_tilde :
    segmentBytes ('~' :: '0' :: rest) = String.utf8EncodeChar '~' ++ segmentBytes rest := by
  rw [segmentBytes, unescape_tilde, Text.Percent.bytes_cons (by simp [Text.Percent.startsEscape]),
    segmentBytes]

theorem segmentBytes_escape {h l : ℕ} (hhigh : hexDigit? high = some h)
    (hlow : hexDigit? low = some l) :
    segmentBytes ('%' :: high :: low :: rest) = UInt8.ofNat (16 * h + l) :: segmentBytes rest := by
  have hne {c : Char} {n : ℕ} (hc : hexDigit? c = some n) : c ≠ '~' := by
    rintro rfl
    exact absurd hc (by simp [show hexDigit? '~' = none from rfl])
  have hstart {c : Char} (hc : c ≠ '~') (rest : List Char) : startsTilde (c :: rest) = false := by
    rw [startsTilde]
    rintro digit rest ⟨rfl, -⟩
    exact hc rfl
  rw [segmentBytes, unescape_cons (hstart (by decide) _), unescape_cons (hstart (hne hhigh) _),
    unescape_cons (hstart (hne hlow) _), Text.Percent.bytes_escape hhigh hlow, segmentBytes]

/-- A character that starts no escape stands for its own bytes. -/
theorem segmentBytes_cons (h : startsEscape (c :: rest) = false) :
    segmentBytes (c :: rest) = String.utf8EncodeChar c ++ segmentBytes rest := by
  obtain ⟨htilde, hpercent⟩ := Bool.or_eq_false_iff.mp h
  rw [segmentBytes, unescape_cons htilde,
    Text.Percent.bytes_cons (startsEscape_unescape hpercent), segmentBytes]

/-! ### References that are written with escapes -/

/-- A name with `~0` for a tilde and `~1` for a slash. -/
def escapeTilde (name : List Char) : List Char :=
  name.flatMap fun c => if c = '~' then ['~', '0'] else if c = '/' then ['~', '1'] else [c]

/-- The segment for a name: its tildes and slashes are replaced, and all bytes that are not
unreserved characters then become percent escapes. -/
def encodeSegment (name : List Char) : List Char :=
  Text.Percent.encode (escapeTilde name)

/-- The reference to the component of a name in a section. -/
def toComponent (group name : String) : String :=
  "#/components/" ++ group ++ "/" ++ String.ofList (encodeSegment name.toList)

theorem encodeSegment_cons (c : Char) (name : List Char) :
    encodeSegment (c :: name) = encodeSegment [c] ++ encodeSegment name := by
  simp [encodeSegment, escapeTilde, Text.Percent.encode, Text.Utf8.encode]

theorem encodeSegment_singleton (htilde : c ≠ '~') (hslash : c ≠ '/') :
    encodeSegment [c] = (String.utf8EncodeChar c).flatMap Text.Percent.encodeByte := by
  simp [encodeSegment, escapeTilde, Text.Percent.encode, Text.Utf8.encode, htilde, hslash]

/-- A byte that is no tilde is read from what is written for it. -/
theorem segmentBytes_encodeByte_append {b : UInt8} (hb : Char.ofNat b.toNat ≠ '~')
    (rest : List Char) :
    segmentBytes (Text.Percent.encodeByte b ++ rest) = b :: segmentBytes rest := by
  rw [Text.Percent.encodeByte]
  split
  next hunreserved =>
    have hbound := Text.Percent.toNat_lt_of_isUnreserved hunreserved
    have hpercent : Char.ofNat b.toNat ≠ '%' := by
      intro heq
      rw [heq] at hunreserved
      exact absurd hunreserved (by decide)
    rw [List.singleton_append, segmentBytes_cons (startsEscape_eq_false hb hpercent),
      Text.Utf8.utf8EncodeChar_of_lt hbound, Text.Utf8.toNat_ofNat_toNat, UInt8.ofNat_toNat,
      List.singleton_append]
  next =>
    have hbound : b.toNat < 256 := b.toNat_lt
    have hhigh := Text.hexDigit?_hexChar (n := b.toNat / 16) (by omega)
    have hlow := Text.hexDigit?_hexChar (n := b.toNat % 16) (by omega)
    rw [List.cons_append, List.cons_append, List.cons_append, segmentBytes_escape hhigh hlow,
      Nat.div_add_mod, UInt8.ofNat_toNat, List.nil_append]

theorem segmentBytes_flatMap_encodeByte_append {bytes : List UInt8}
    (hbytes : ∀ b ∈ bytes, Char.ofNat b.toNat ≠ '~') (rest : List Char) :
    segmentBytes (bytes.flatMap Text.Percent.encodeByte ++ rest) = bytes ++ segmentBytes rest := by
  induction bytes with
  | nil => rfl
  | cons b bytes ih =>
    obtain ⟨hb, hbytes⟩ := List.forall_mem_cons.mp hbytes
    rw [List.flatMap_cons, List.append_assoc, segmentBytes_encodeByte_append hb, ih hbytes,
      List.cons_append]

/-- Only a tilde has the byte of a tilde. -/
theorem ofNat_ne_tilde_of_mem_utf8EncodeChar (hc : c ≠ '~') :
    ∀ b ∈ String.utf8EncodeChar c, Char.ofNat b.toNat ≠ '~' := by
  intro b hb heq
  have hcode : b.toNat = 0x7E := by
    rw [← Text.Utf8.toNat_ofNat_toNat, heq]
    rfl
  by_cases hlt : c.toNat < 0x80
  · rw [Text.Utf8.utf8EncodeChar_of_lt hlt, List.mem_singleton] at hb
    rw [hb, UInt8.toNat_ofNat_of_lt' (hlt.trans (by decide))] at hcode
    refine hc (Char.toNat_inj.mp ?_)
    rw [hcode]
    rfl
  · have hge := Text.Utf8.le_toNat_of_mem_utf8EncodeChar (not_lt.mp hlt) hb
    omega

/-- The segment for a name stands for the bytes of the name. -/
theorem segmentBytes_encodeSegment (name : List Char) :
    segmentBytes (encodeSegment name) = Text.Utf8.encode name := by
  induction name with
  | nil => rfl
  | cons c name ih =>
    have hencode : Text.Utf8.encode (c :: name) =
        String.utf8EncodeChar c ++ Text.Utf8.encode name := rfl
    rw [encodeSegment_cons, hencode, ← ih]
    by_cases htilde : c = '~'
    · rw [htilde, show encodeSegment ['~'] = ['~', '0'] by decide]
      exact segmentBytes_tilde
    by_cases hslash : c = '/'
    · rw [hslash, show encodeSegment ['/'] = ['~', '1'] by decide]
      exact segmentBytes_slash
    · rw [encodeSegment_singleton htilde hslash]
      exact segmentBytes_flatMap_encodeByte_append (ofNat_ne_tilde_of_mem_utf8EncodeChar htilde) _

/-- Nothing that is written is a slash. -/
theorem slash_notMem_encodeSegment (name : List Char) : '/' ∉ encodeSegment name := by
  intro h
  obtain ⟨b, -, hb⟩ := List.mem_flatMap.mp h
  have hbound : b.toNat < 256 := b.toNat_lt
  have hhex {n : ℕ} (hn : n < 16) : '/' ≠ Text.hexChar n := by
    intro heq
    have := Text.hexDigit?_hexChar hn
    rw [← heq] at this
    exact absurd this (by simp [show hexDigit? '/' = none from rfl])
  rw [Text.Percent.encodeByte] at hb
  split at hb
  next hunreserved =>
    rw [← List.mem_singleton.mp hb] at hunreserved
    exact absurd hunreserved (by decide)
  next =>
    simp [hhex (show b.toNat / 16 < 16 by omega), hhex (show b.toNat % 16 < 16 by omega)] at hb

/-! ### Names -/

/-- The parts of a reference with one segment behind the section. -/
theorem splitOn_pointer {group segment : List Char} (hgroup : '/' ∉ group) :
    Text.splitOn (· = '/') ("components/".toList ++ group ++ '/' :: segment) =
      "components".toList :: group :: Text.splitOn (· = '/') segment := by
  have hroot : "components/".toList = "components".toList ++ ['/'] := by decide
  rw [hroot, List.append_assoc, List.append_assoc, List.singleton_append,
    Text.splitOn_append_cons (by decide), Text.splitOn_append_cons hgroup]

theorem toList_reference (group segment : String) :
    ("#/components/" ++ group ++ "/" ++ segment).toList =
      '#' :: '/' :: ("components/".toList ++ group.toList ++ '/' :: segment.toList) := by
  simp [String.toList_append]

/-- A segment without slashes names what its bytes are read as. -/
theorem componentName?_of_slash_notMem {group segment : String} (hgroup : '/' ∉ group.toList)
    (hsegment : '/' ∉ segment.toList) :
    componentName? group ("#/components/" ++ group ++ "/" ++ segment) =
      if decodeSegment segment.toList = [] then none
      else some (String.ofList (decodeSegment segment.toList)) := by
  rw [componentName?, toList_reference]
  simp only [splitOn_pointer hgroup, Text.splitOn_of_notMem hsegment, and_self, if_true,
    List.isEmpty_iff]

/-- A reference that goes on behind the name of a component names nothing. -/
theorem componentName?_of_slash_mem {group segment : String} (hgroup : '/' ∉ group.toList)
    (hsegment : '/' ∈ segment.toList) :
    componentName? group ("#/components/" ++ group ++ "/" ++ segment) = none := by
  obtain ⟨name, behind, hsplit, hname⟩ := List.eq_append_cons_of_mem hsegment
  obtain ⟨next, more, hbehind⟩ := List.exists_cons_of_ne_nil
    (Text.splitOn_ne_nil (· = '/') behind)
  have hparts : Text.splitOn (· = '/') segment.toList = name :: next :: more := by
    rw [hsplit, Text.splitOn_append_cons hname, hbehind]
  rw [componentName?, toList_reference]
  simp only [splitOn_pointer hgroup, hparts]

/-- The reference that is written for a component names it, and no reference that is written for
another component does. -/
theorem componentName?_toComponent {group name : String} (hgroup : '/' ∉ group.toList)
    (hname : name ≠ "") :
    componentName? group (toComponent group name) = some name ∧
      ∀ other, componentName? group (toComponent group other) = some name → other = name := by
  have hread (name : String) : componentName? group (toComponent group name) =
      if name.toList = [] then none else some name := by
    have hslash := slash_notMem_encodeSegment name.toList
    rw [← String.toList_ofList (l := encodeSegment name.toList)] at hslash
    rw [toComponent, componentName?_of_slash_notMem hgroup hslash, String.toList_ofList,
      decodeSegment_eq, segmentBytes_encodeSegment, Text.Utf8.decodeLossy_encode,
      String.ofList_toList]
  have hne : name.toList ≠ [] := by simpa using hname
  refine ⟨by rw [hread, if_neg hne], fun other h => ?_⟩
  rw [hread] at h
  split at h
  next => simp at h
  next => exact Option.some.inj h

theorem componentName?_toComponent_awkward :
    '/' ∉ "schemas".toList ∧ "~1/%7E é" ≠ "" ∧
      toComponent "schemas" "~1/%7E é" = "#/components/schemas/~01~1%257E%20%C3%A9" ∧
      componentName? "schemas" (toComponent "schemas" "~1/%7E é") = some "~1/%7E é" :=
  ⟨by decide, by decide, by decide,
    (componentName?_toComponent (by decide) (by decide)).1⟩

end CrudUi.Reference
