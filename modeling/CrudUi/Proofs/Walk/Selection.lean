import CrudUi.Proofs.Entries.Reordering
import CrudUi.Proofs.Text.ByteOrder
import Mathlib.Data.Prod.Lex

/-!
# The response and the media type that come first

Responses and payloads are looked for class by class: in the first class that has any names, the
least one is taken.  All names together are then ordered by their class and, within a class, by
their bytes, and what is found is the value of the name that comes first
(`Entries.firstOf?_eq_some_iff`).  So of the success codes `200` comes before the others, and of the
media types `application/json` before the other kinds of JSON, and these before the rest.

## Main definitions

* `Entries.IsFirst` : the name comes first of those that fit.
* `Entries.firstOf?` : the value of the least name of the first class that has any.
* `IsSuccess`, `IsJsonKind` : what a code for success and a kind of JSON look like.
* `codeRank`, `mediaRank` : the classes of success codes and of media types.
-/

namespace CrudUi

namespace Entries

variable {α : Type} {entries entries' : Entries α} {name : String} {value : α}

/-! ### Names that come first -/

/-- Names by rank: their ranks are compared first and their bytes second. -/
def place (rank : String → ℕ) (name : String) : ℕ ×ₗ List UInt8 :=
  toLex (rank name, Text.bytes name)

/-- The name comes first of those that fit. -/
def IsFirst (rank : String → ℕ) (fits : String → Prop) (entries : Entries α) (name : String) :
    Prop :=
  (name ∈ keys entries ∧ fits name) ∧
    ∀ other ∈ keys entries, fits other → place rank name ≤ place rank other

theorem place_le_iff {rank : String → ℕ} {name other : String} :
    place rank name ≤ place rank other ↔
      rank name < rank other ∨ rank name = rank other ∧ name ≤ other := by
  rw [place, place, Prod.Lex.toLex_le_toLex, ← not_lt (a := other), ← List.not_lt,
    Text.lt_iff_bytes_lt]

/-- Ranks may all be shifted alike, and names that are not there may have any. -/
theorem isFirst_congr {rank rank' : String → ℕ} {fits fits' : String → Prop} (shift : ℕ)
    (hfits : ∀ name ∈ keys entries, fits name ↔ fits' name)
    (hrank : ∀ name ∈ keys entries, fits name → rank name = rank' name + shift) :
    IsFirst rank fits entries name ↔ IsFirst rank' fits' entries name := by
  rw [IsFirst, IsFirst, ← and_congr_right (hfits name)]
  refine and_congr_right fun ⟨hname, hfit⟩ => forall₂_congr fun other hother => ?_
  rw [← hfits other hother]
  refine forall_congr' fun hfit' => ?_
  rw [place_le_iff, place_le_iff, hrank name hname hfit, hrank other hother hfit',
    Nat.add_lt_add_iff_right, Nat.add_right_cancel_iff]

/-! ### Searching class by class -/

/-- The value of the least name of the first class that has any. -/
def firstOf? (classes : List (String → Bool)) (entries : Entries α) : Option α :=
  classes.findSome? fun kind => least? (entries.filter fun entry => kind entry.1)

/-- The number of the first class that a name belongs to. -/
def rankIn (classes : List (String → Bool)) (name : String) : ℕ :=
  classes.findIdx (· name)

/-- The name belongs to one of the classes. -/
def Belongs (classes : List (String → Bool)) (name : String) : Prop :=
  ∃ kind ∈ classes, kind name = true

theorem keys_filter (keep : String → Bool) (entries : Entries α) :
    keys (entries.filter fun entry => keep entry.1) = (keys entries).filter keep :=
  List.filter_map.symm

theorem lookup_filter {keep : String → Bool} (hkeep : keep name = true) (entries : Entries α) :
    lookup name (entries.filter fun entry => keep entry.1) = lookup name entries := by
  induction entries with
  | nil => rfl
  | cons entry rest ih => grind [lookup]

theorem least?_filter_eq_some_iff (keep : String → Bool) :
    least? (entries.filter fun entry => keep entry.1) = some value ↔
      ∃ name, (name ∈ keys entries ∧ keep name = true) ∧
        (∀ other ∈ keys entries, keep other = true → name ≤ other) ∧
        lookup name entries = some value := by
  rw [least?, Option.bind_eq_bind, Option.bind_eq_some_iff, keys_filter]
  simp only [Ascending.least?_eq_some_iff, List.mem_filter, and_imp, and_assoc]
  refine exists_congr fun name => and_congr_right fun _ => and_congr_right fun hkeep => ?_
  rw [lookup_filter hkeep]

theorem least?_filter_eq_none_iff {keep : String → Bool} :
    least? (entries.filter fun entry => keep entry.1) = none ↔
      ∀ name ∈ keys entries, keep name = false := by
  have hnames : (keys entries).filter keep = [] ↔ ∀ name ∈ keys entries, keep name = false := by
    simp [List.filter_eq_nil_iff]
  rw [← hnames, ← keys_filter, ← Ascending.least?_eq_none_iff, least?]
  cases hleast : Ascending.least? (keys (entries.filter fun entry => keep entry.1)) with
  | none => simp
  | some name =>
    have hmem := (Ascending.least?_eq_some_iff.mp hleast).1
    exact iff_of_false (fun h => lookup_eq_none_iff.mp h hmem) (Option.some_ne_none name)

theorem firstOf?_cons (kind : String → Bool) (classes : List (String → Bool)) :
    firstOf? (kind :: classes) entries =
      (least? (entries.filter fun entry => kind entry.1)).or (firstOf? classes entries) := by
  rw [firstOf?, List.findSome?_cons]
  cases least? (entries.filter fun entry => kind entry.1) <;> rfl

theorem rankIn_cons (kind : String → Bool) (classes : List (String → Bool)) :
    rankIn (kind :: classes) name = if kind name then 0 else rankIn classes name + 1 := by
  rw [rankIn, List.findIdx_cons, cond_eq_ite, rankIn]

/-- Where a class has names, the least of them comes before all others. -/
theorem isFirst_cons_iff {kind : String → Bool} {classes : List (String → Bool)}
    (h : ∃ name ∈ keys entries, kind name = true) :
    IsFirst (rankIn (kind :: classes)) (Belongs (kind :: classes)) entries name ↔
      (name ∈ keys entries ∧ kind name = true) ∧
        ∀ other ∈ keys entries, kind other = true → name ≤ other := by
  constructor
  · rintro ⟨⟨hname, -⟩, hfirst⟩
    obtain ⟨witness, hwitness, hkind⟩ := h
    have hnamed : kind name = true := by
      by_contra hnot
      have hle := place_le_iff.mp (hfirst witness hwitness ⟨kind, List.mem_cons_self, hkind⟩)
      simp [rankIn_cons, hkind, hnot] at hle
    refine ⟨⟨hname, hnamed⟩, fun other hother hkind' => ?_⟩
    have hle := place_le_iff.mp (hfirst other hother ⟨kind, List.mem_cons_self, hkind'⟩)
    simpa [rankIn_cons, hnamed, hkind'] using hle
  · rintro ⟨⟨hname, hnamed⟩, hleast⟩
    refine ⟨⟨hname, kind, List.mem_cons_self, hnamed⟩, fun other hother _ => place_le_iff.mpr ?_⟩
    by_cases hkind : kind other = true
    · exact .inr ⟨by simp [rankIn_cons, hnamed, hkind], hleast other hother hkind⟩
    · exact .inl (by simp [rankIn_cons, hnamed, hkind])

/-- What is found class by class is the value of the name that comes first, by class and bytes. -/
theorem firstOf?_eq_some_iff (classes : List (String → Bool)) :
    firstOf? classes entries = some value ↔
      ∃ name, IsFirst (rankIn classes) (Belongs classes) entries name ∧
        lookup name entries = some value := by
  induction classes with
  | nil => simp [firstOf?, IsFirst, Belongs]
  | cons kind classes ih =>
    rw [firstOf?_cons]
    by_cases hany : ∃ name ∈ keys entries, kind name = true
    · cases hfound : least? (entries.filter fun entry => kind entry.1) with
      | none =>
        obtain ⟨name, hname, hkind⟩ := hany
        simp [least?_filter_eq_none_iff.mp hfound name hname] at hkind
      | some found =>
        rw [Option.some_or, ← hfound, least?_filter_eq_some_iff]
        exact exists_congr fun name => by rw [isFirst_cons_iff hany, ← and_assoc]
    · have hnone : ∀ name ∈ keys entries, kind name = false := by simpa using hany
      rw [least?_filter_eq_none_iff.mpr hnone, Option.none_or, ih]
      refine exists_congr fun name => and_congr_left fun _ => (isFirst_congr 1 ?_ ?_).symm
      · intro name hname
        simp [Belongs, hnone name hname]
      · intro name hname _
        simp [rankIn_cons, hnone name hname]

theorem firstOf?_eq_none_iff (classes : List (String → Bool)) :
    firstOf? classes entries = none ↔ ∀ name ∈ keys entries, ¬ Belongs classes name := by
  induction classes with
  | nil => simp [firstOf?, Belongs]
  | cons kind classes ih =>
    rw [firstOf?_cons, Option.or_eq_none_iff, ih, least?_filter_eq_none_iff]
    simp [Belongs, forall_and]

theorem least?_filter_eq (key : String) (entries : Entries α) :
    least? (entries.filter fun entry => entry.1 = key) = lookup key entries := by
  refine Option.ext fun value => ?_
  rw [least?_filter_eq_some_iff fun name => decide (name = key)]
  simp only [decide_eq_true_eq]
  constructor
  · rintro ⟨name, ⟨-, rfl⟩, -, hvalue⟩
    exact hvalue
  · exact fun hvalue => ⟨key, ⟨mem_keys_of_lookup hvalue, rfl⟩, fun other _ h => h.ge, hvalue⟩

/-- What comes first does not depend on the order of the entries. -/
theorem firstOf?_eq_of_perm (classes : List (String → Bool)) (hnodup : (keys entries).Nodup)
    (hperm : entries.Perm entries') : firstOf? classes entries' = firstOf? classes entries := by
  have hmem : ∀ name, name ∈ keys entries' ↔ name ∈ keys entries := fun name =>
    (hperm.map Prod.fst).symm.mem_iff
  refine Option.ext fun value => ?_
  simp only [firstOf?_eq_some_iff, IsFirst, hmem, lookup_eq_of_perm hnodup hperm]

end Entries

/-! ### Success codes -/

/-- A code for one kind of success: a 2 and two digits. -/
def IsConcreteSuccess (code : String) : Prop :=
  ∃ tens ones : Char, tens.isDigit = true ∧ ones.isDigit = true ∧ code.toList = ['2', tens, ones]

/-- A code for any success. -/
def IsSuccessRange (code : String) : Prop :=
  code = "2XX" ∨ code = "2xx"

/-- A code for success. -/
def IsSuccess (code : String) : Prop :=
  IsConcreteSuccess code ∨ IsSuccessRange code

/-- The class of a success code. -/
def codeRank (code : String) : ℕ :=
  if code = "200" then 0 else 1

theorem isSuccessCode_iff {code : String} : isSuccessCode code = true ↔ IsSuccess code := by
  unfold isSuccessCode IsSuccess
  split
  next tens ones hcode =>
    have hrange : IsSuccessRange code ↔ tens = 'X' ∧ ones = 'X' ∨ tens = 'x' ∧ ones = 'x' := by
      simp [IsSuccessRange, ← String.toList_inj, hcode]
    simp [hrange, IsConcreteSuccess, hcode, or_assoc]
  next hother =>
    refine iff_of_false Bool.false_ne_true ?_
    rintro (⟨tens, ones, -, -, hcode⟩ | rfl | rfl)
    · exact hother tens ones hcode
    · exact hother 'X' 'X' rfl
    · exact hother 'x' 'x' rfl

/-- Digits come before letters. -/
theorem IsConcreteSuccess.lt {code range : String} (h : IsConcreteSuccess code)
    (hrange : IsSuccessRange range) : code < range := by
  obtain ⟨tens, ones, htens, -, hcode⟩ := h
  have hless : ∀ letter, '9' < letter → code.toList < ['2', letter, letter] := by
    intro letter hletter
    have htens : tens < letter := lt_of_le_of_lt (Char.isDigit_iff_toNat.mp htens).2 hletter
    rw [hcode]
    exact List.cons_lt_cons_iff.mpr (.inr ⟨rfl, List.cons_lt_cons_iff.mpr (.inl htens)⟩)
  rcases hrange with rfl | rfl
  · exact String.lt_iff_toList_lt.mpr (hless 'X' (by decide))
  · exact String.lt_iff_toList_lt.mpr (hless 'x' (by decide))

section Responses

variable {responses : Entries (RefOr Response)} {code : String} {response : RefOr Response}

/-- The classes in which responses are looked for. -/
def successClasses : List (String → Bool) :=
  [(· = "200"), isSuccessCode]

theorem successResponse?_eq_firstOf? (responses : Entries (RefOr Response)) :
    successResponse? responses = responses.firstOf? successClasses := by
  rw [successResponse?_eq, successClasses, Entries.firstOf?_cons, Entries.firstOf?_cons,
    Entries.least?_filter_eq]
  simp [Entries.firstOf?]

theorem belongs_successClasses_iff : Entries.Belongs successClasses code ↔ IsSuccess code := by
  have hok : IsSuccess "200" := .inl ⟨'0', '0', rfl, rfl, rfl⟩
  by_cases hcode : code = "200" <;>
    simp [Entries.Belongs, successClasses, isSuccessCode_iff, hcode, hok]

theorem rankIn_successClasses (h : IsSuccess code) :
    Entries.rankIn successClasses code = codeRank code := by
  by_cases hcode : code = "200" <;>
    simp [codeRank, successClasses, Entries.rankIn_cons, hcode, isSuccessCode_iff.mpr h]

theorem successResponse?_eq_some_iff :
    successResponse? responses = some response ↔
      ∃ code, responses.IsFirst codeRank IsSuccess code ∧
        responses.lookup code = some response := by
  rw [successResponse?_eq_firstOf?, Entries.firstOf?_eq_some_iff]
  refine exists_congr fun code => and_congr_left fun _ => Entries.isFirst_congr 0 ?_ ?_
  · exact fun _ _ => belongs_successClasses_iff
  · exact fun _ _ h => rankIn_successClasses (belongs_successClasses_iff.mp h)

/-- A range comes first only where nothing more definite is there. -/
theorem not_isConcreteSuccess_of_isFirst (hfirst : responses.IsFirst codeRank IsSuccess code)
    (hrange : IsSuccessRange code) {other : String} (hother : other ∈ responses.keys) :
    ¬ IsConcreteSuccess other := by
  intro hconcrete
  have hlt := hconcrete.lt hrange
  have hne : code ≠ "200" := by
    rintro rfl
    rcases hrange with h | h <;> simp at h
  rcases Entries.place_le_iff.mp (hfirst.2 other hother (.inl hconcrete)) with hrank | ⟨-, hle⟩
  · simp only [codeRank, if_neg hne] at hrank
    split at hrank <;> omega
  · exact absurd hlt (not_lt.mpr hle)

end Responses

/-! ### Media types -/

section Media

variable {content : Entries MediaType} {mediaType : String} {media : MediaType}

/-- A media type for a kind of JSON. -/
def IsJsonKind (mediaType : String) : Prop :=
  ∃ kind, mediaType.toList = "application/".toList ++ kind ++ "+json".toList

theorem isJsonKind_iff : isJsonKind mediaType = true ↔ IsJsonKind mediaType := by
  rw [isJsonKind, Bool.and_eq_true_iff, List.isPrefixOf_iff_prefix, List.isSuffixOf_iff_suffix]
  constructor
  · rintro ⟨⟨rest, hrest⟩, ⟨front, hfront⟩⟩
    rcases List.append_eq_append_iff.mp (hrest.trans hfront.symm) with
      ⟨kind, rfl, -⟩ | ⟨shared, hshared, hsuffix⟩
    · exact ⟨kind, hfront.symm⟩
    · -- the suffix begins with a sign that the prefix does not have
      cases shared with
      | nil => exact ⟨[], by rw [← hfront, hshared, List.append_nil, List.append_nil]⟩
      | cons first shared =>
        obtain rfl : '+' = first := (List.cons.inj hsuffix).1
        have hplus : '+' ∈ "application/".toList := hshared ▸ by simp
        simp at hplus
  · rintro ⟨kind, hkind⟩
    rw [hkind]
    exact ⟨List.append_assoc _ _ _ ▸ List.prefix_append _ _, List.suffix_append _ _⟩

instance : DecidablePred IsJsonKind := fun _ => decidable_of_iff _ isJsonKind_iff

/-- The class of a media type. -/
def mediaRank (mediaType : String) : ℕ :=
  if mediaType = "application/json" then 0 else if IsJsonKind mediaType then 1 else 2

/-- The classes in which payloads are looked for. -/
def mediaClasses : List (String → Bool) :=
  [(· = "application/json"), isJsonKind, fun _ => true]

theorem jsonMedia?_eq_firstOf? (content : Entries MediaType) :
    jsonMedia? content = content.firstOf? mediaClasses := by
  rw [jsonMedia?_eq, mediaClasses, Entries.firstOf?_cons, Entries.firstOf?_cons,
    Entries.firstOf?_cons, Entries.least?_filter_eq, List.filter_eq_self.mpr fun _ _ => rfl]
  simp [Entries.firstOf?]

theorem belongs_mediaClasses : Entries.Belongs mediaClasses mediaType := by
  simp [Entries.Belongs, mediaClasses]

theorem rankIn_mediaClasses (mediaType : String) :
    Entries.rankIn mediaClasses mediaType = mediaRank mediaType := by
  by_cases hjson : mediaType = "application/json" <;>
    by_cases hkind : isJsonKind mediaType = true <;>
      simp [mediaRank, mediaClasses, Entries.rankIn_cons, ← isJsonKind_iff, hjson, hkind]

theorem jsonMedia?_eq_some_iff :
    jsonMedia? content = some media ↔
      ∃ mediaType, content.IsFirst mediaRank (fun _ => True) mediaType ∧
        content.lookup mediaType = some media := by
  rw [jsonMedia?_eq_firstOf?, Entries.firstOf?_eq_some_iff]
  refine exists_congr fun mediaType => and_congr_left fun _ => Entries.isFirst_congr 0 ?_ ?_
  · exact fun _ _ => iff_of_true belongs_mediaClasses trivial
  · exact fun mediaType _ _ => rankIn_mediaClasses mediaType

end Media

/-! ### Both selections -/

/-- The response for success is that of the first success code, `200` before the others and these by
their bytes; there is one exactly if there is a success code, and that of a range only where there
is no other.  The payload is that of the first media type, `application/json` before other kinds of
JSON, these before the rest, and each class by its bytes; there is one unless there are no media
types.  The order of the entries makes no difference. -/
theorem selected_is_first (responses : Entries (RefOr Response)) (content : Entries MediaType) :
    (∀ response, successResponse? responses = some response ↔
      ∃ code, responses.IsFirst codeRank IsSuccess code ∧ responses.lookup code = some response) ∧
    (successResponse? responses = none ↔ ∀ code ∈ responses.keys, ¬ IsSuccess code) ∧
    (∀ code, responses.IsFirst codeRank IsSuccess code → IsSuccessRange code →
      ∀ other ∈ responses.keys, ¬ IsConcreteSuccess other) ∧
    (responses.keys.Nodup → ∀ responses', responses.Perm responses' →
      successResponse? responses' = successResponse? responses) ∧
    (∀ media, jsonMedia? content = some media ↔
      ∃ mediaType, content.IsFirst mediaRank (fun _ => True) mediaType ∧
        content.lookup mediaType = some media) ∧
    (jsonMedia? content = none ↔ content = []) ∧
    (content.keys.Nodup → ∀ content', content.Perm content' →
      jsonMedia? content' = jsonMedia? content) := by
  refine ⟨fun _ => successResponse?_eq_some_iff, ?_, fun code hfirst hrange other hother =>
    not_isConcreteSuccess_of_isFirst hfirst hrange hother, ?_, fun _ => jsonMedia?_eq_some_iff, ?_,
    ?_⟩
  · simp only [successResponse?_eq_firstOf?, Entries.firstOf?_eq_none_iff,
      belongs_successClasses_iff]
  · intro hnodup responses' hperm
    rw [successResponse?_eq_firstOf?, successResponse?_eq_firstOf?,
      Entries.firstOf?_eq_of_perm _ hnodup hperm]
  · simp only [jsonMedia?_eq_firstOf?, Entries.firstOf?_eq_none_iff, belongs_mediaClasses,
      not_true, imp_false, ← List.eq_nil_iff_forall_not_mem, Entries.keys, List.map_eq_nil_iff]
  · intro hnodup content' hperm
    rw [jsonMedia?_eq_firstOf?, jsonMedia?_eq_firstOf?,
      Entries.firstOf?_eq_of_perm _ hnodup hperm]

/-- Answers for a failure and for any success, twice. -/
def orderResponses : Entries (RefOr Response) :=
  [("404", .reference "#/components/responses/Missing"),
    ("2xx", .reference "#/components/responses/Other"),
    ("2XX", .reference "#/components/responses/Order")]

/-- A payload in several forms. -/
def orderContent : Entries MediaType :=
  [("application/cbor", {}), ("application/vnd.order+json", { schema := some {} }),
    ("application/json5", {})]

theorem selected_is_first_order :
    orderResponses.keys.Nodup ∧ orderContent.keys.Nodup ∧
      orderResponses.IsFirst codeRank IsSuccess "2XX" ∧ IsSuccessRange "2XX" ∧
      (∀ other ∈ orderResponses.keys, ¬ IsConcreteSuccess other) ∧
      successResponse? orderResponses.reverse =
        some (.reference "#/components/responses/Order") ∧
      jsonMedia? orderContent.reverse = some { schema := some {} } := by
  obtain ⟨hselected, -, hrange, hperm, -, -, hmedia⟩ :=
    selected_is_first orderResponses orderContent
  have hnodup : orderResponses.keys.Nodup := by decide
  have hnodup' : orderContent.keys.Nodup := by decide
  have hfound : successResponse? orderResponses =
      some (.reference "#/components/responses/Order") := by decide
  obtain ⟨code, hfirst, hcode⟩ := (hselected _).mp hfound
  obtain rfl : code = "2XX" := by
    have hmem := Entries.mem_of_lookup hcode
    simpa [orderResponses] using hmem
  refine ⟨hnodup, hnodup', hfirst, .inl rfl, hrange _ hfirst (.inl rfl), ?_, ?_⟩
  · rw [hperm hnodup _ orderResponses.reverse_perm.symm, hfound]
  · rw [hmedia hnodup' _ orderContent.reverse_perm.symm]
    rfl

end CrudUi
