import CrudUi.Json.Node
import CrudUi.Proofs.Json.Tokens

/-!
# Written values are read again

A value stands in its own tokens as it is (`Json.read_tokens`), so the text that is written for a
value gives the value back as a `Node` with nothing behind it (`Json.Node.ofText_indented`), and the
text can be passed over.

A value that is not nested too deeply and holds no name twice is read from its text as it was
(`Json.parse_indented`).

## Main definitions

* `Json.node` : a value as it stands in its text.
* `Json.IsKept` : a value that a reading keeps as it is.
-/

namespace CrudUi.Json

mutual

/-- A value as it stands in its text. -/
def node : Json → Node
  | .null => .null
  | .bool value => .bool value
  | .number value => .number (.ok value)
  | .string text => .string (.ok text)
  | .array items => .array (itemNodes items) none
  | .object entries => .object (entryNodes entries) none

/-- Items as they stand in their text. -/
def itemNodes : List Json → List Node
  | [] => []
  | item :: rest => item.node :: itemNodes rest

/-- Members as they stand in their text. -/
def entryNodes : List (String × Json) → List (Except TextError String × Node)
  | [] => []
  | (key, value) :: rest => (.ok key, value.node) :: entryNodes rest

end

namespace Node

/-- Whether a value may come next. -/
def Mode.takesValue : Mode → Bool
  | .start | .firstItem | .nextItem | .memberValue => true
  | .afterItem | .firstMember | .nextMember | .colon | .afterMember => false

/-- Puts a node that is complete into the innermost container and reads on. -/
def place (node : Node) (frames : List Frame) (rest : List Token) : Node × Bool :=
  match frames with
  | [] => (node, !rest.isEmpty)
  | .array items :: outer => read .afterItem (.array (node :: items) :: outer) rest
  | .member members key :: outer =>
    read .afterMember (.object ((key, node) :: members) :: outer) rest
  | .object _ :: _ => (node, false)

end Node

open Node

/-! ### Steps of the reading -/

section Steps

variable {mode : Mode} (frames outer : List Frame) (rest : List Token) (items : List Node)
  (members : List (Except TextError String × Node))

theorem read_null (h : mode.takesValue) :
    Node.read mode frames (.null :: rest) = place .null frames rest := by
  cases mode <;> first | rfl | cases h

theorem read_bool (h : mode.takesValue) (value : Bool) :
    Node.read mode frames (.bool value :: rest) = place (.bool value) frames rest := by
  cases mode <;> first | rfl | cases h

theorem read_number (h : mode.takesValue) (value : Except TextError Number) :
    Node.read mode frames (.number value :: rest) = place (.number value) frames rest := by
  cases mode <;> first | rfl | cases h

theorem read_string (h : mode.takesValue) (text : Except TextError String) :
    Node.read mode frames (.string text :: rest) = place (.string text) frames rest := by
  cases mode <;> first | rfl | cases h

theorem read_openBracket (h : mode.takesValue) :
    Node.read mode frames (.openBracket :: rest) =
      Node.read .firstItem (.array [] :: frames) rest := by
  cases mode <;> first | rfl | cases h

theorem read_openBrace (h : mode.takesValue) :
    Node.read mode frames (.openBrace :: rest) =
      Node.read .firstMember (.object [] :: frames) rest := by
  cases mode <;> first | rfl | cases h

theorem read_comma_item :
    Node.read .afterItem frames (.comma :: rest) = Node.read .nextItem frames rest := rfl

theorem read_closeBracket :
    Node.read .afterItem (.array items :: outer) (.closeBracket :: rest) =
      place (.array items.reverse none) outer rest := rfl

theorem read_comma_member :
    Node.read .afterMember frames (.comma :: rest) = Node.read .nextMember frames rest := rfl

theorem read_closeBrace :
    Node.read .afterMember (.object members :: outer) (.closeBrace :: rest) =
      place (.object members.reverse none) outer rest := rfl

/-- The name of a member and the colon behind it. -/
theorem read_key (h : mode = .firstMember ∨ mode = .nextMember) (key : Except TextError String) :
    Node.read mode (.object members :: outer) (.string key :: .colon :: rest) =
      Node.read .memberValue (.member members key :: outer) rest := by
  rcases h with rfl | rfl <;> rfl

end Steps

/-! ### Values in their tokens -/

/-- A value is read from its tokens, wherever a value may stand. -/
def StandsInTokens (value : Json) : Prop :=
  ∀ (mode : Mode) (frames : List Frame) (rest : List Token), mode.takesValue →
    Node.read mode frames (value.tokens ++ rest) = place value.node frames rest

theorem read_itemTokens {item : Json} {others : List Json}
    (h : ∀ other ∈ item :: others, other.StandsInTokens) {mode : Mode} (hmode : mode.takesValue)
    (done : List Node) (outer : List Frame) (rest : List Token) :
    Node.read mode (.array done :: outer) (itemTokens (item :: others) ++ .closeBracket :: rest) =
      place (.array (done.reverse ++ itemNodes (item :: others)) none) outer rest := by
  have hitem := h item List.mem_cons_self mode (.array done :: outer)
  induction others generalizing item mode done with
  | nil =>
    rw [itemTokens, hitem _ hmode, place, read_closeBracket, List.reverse_cons]
    rfl
  | cons other others ih =>
    have htokens : itemTokens (item :: other :: others) ++ .closeBracket :: rest =
        item.tokens ++ (.comma :: (itemTokens (other :: others) ++ .closeBracket :: rest)) := by
      simp [itemTokens]
    have hothers := List.forall_mem_of_forall_mem_cons h
    rw [htokens, hitem _ hmode, place, read_comma_item,
      ih hothers rfl _ (hothers other List.mem_cons_self _ _), List.reverse_cons, List.append_assoc]
    rfl

theorem standsInTokens_array {items : List Json} (h : ∀ item ∈ items, item.StandsInTokens) :
    (array items).StandsInTokens := by
  intro mode frames rest hmode
  rw [tokens, List.cons_append, List.append_assoc, List.singleton_append,
    read_openBracket _ _ hmode]
  cases items with
  | nil => rfl
  | cons item others => exact read_itemTokens h rfl [] frames rest

theorem read_entryTokens {key : String} {value : Json} {others : List (String × Json)}
    (h : ∀ other ∈ (key, value) :: others, other.2.StandsInTokens) {mode : Mode}
    (hmode : mode = .firstMember ∨ mode = .nextMember)
    (done : List (Except TextError String × Node)) (outer : List Frame) (rest : List Token) :
    Node.read mode (.object done :: outer)
        (entryTokens ((key, value) :: others) ++ .closeBrace :: rest) =
      place (.object (done.reverse ++ entryNodes ((key, value) :: others)) none) outer rest := by
  have hvalue := h _ List.mem_cons_self .memberValue (.member done (.ok key) :: outer)
  induction others generalizing key value mode done with
  | nil =>
    rw [entryTokens, List.cons_append, List.cons_append, read_key _ _ _ hmode, hvalue _ rfl, place,
      read_closeBrace, List.reverse_cons]
    rfl
  | cons other others ih =>
    have htokens : entryTokens ((key, value) :: other :: others) ++ .closeBrace :: rest =
        .string (.ok key) :: .colon ::
          (value.tokens ++ (.comma :: (entryTokens (other :: others) ++ .closeBrace :: rest))) := by
      simp [entryTokens]
    have hothers := List.forall_mem_of_forall_mem_cons h
    rw [htokens, read_key _ _ _ hmode, hvalue _ rfl, place, read_comma_member,
      ih hothers (.inr rfl) _ (hothers other List.mem_cons_self _ _), List.reverse_cons,
      List.append_assoc]
    rfl

theorem standsInTokens_object {entries : List (String × Json)}
    (h : ∀ entry ∈ entries, entry.2.StandsInTokens) : (object entries).StandsInTokens := by
  intro mode frames rest hmode
  rw [tokens, List.cons_append, List.append_assoc, List.singleton_append, read_openBrace _ _ hmode]
  cases entries with
  | nil => rfl
  | cons entry others => exact read_entryTokens h (.inl rfl) [] frames rest

mutual

theorem read_tokens : (value : Json) → value.StandsInTokens
  | .null => fun _ frames rest hmode => read_null frames rest hmode
  | .bool value => fun _ frames rest hmode => read_bool frames rest hmode value
  | .number value => fun _ frames rest hmode => read_number frames rest hmode (.ok value)
  | .string text => fun _ frames rest hmode => read_string frames rest hmode (.ok text)
  | .array items => standsInTokens_array (read_tokens_items items)
  | .object entries => standsInTokens_object (read_tokens_entries entries)

theorem read_tokens_items : (items : List Json) → ∀ item ∈ items, item.StandsInTokens
  | [] => fun _ hmem => absurd hmem List.not_mem_nil
  | item :: rest => List.forall_mem_cons.mpr ⟨read_tokens item, read_tokens_items rest⟩

theorem read_tokens_entries :
    (entries : List (String × Json)) → ∀ entry ∈ entries, entry.2.StandsInTokens
  | [] => fun _ hmem => absurd hmem List.not_mem_nil
  | (_, value) :: rest => List.forall_mem_cons.mpr ⟨read_tokens value, read_tokens_entries rest⟩

end

/-- The text of a value is read as the value, and nothing follows it. -/
theorem Node.ofText_indented {value : Json} (h : value.HasNaturals) :
    Node.ofText value.indented = (value.node, false) := by
  have hread := read_tokens value .start [] [] rfl
  rwa [List.append_nil, ← Token.ofText_indented h] at hread

/-! ### Passing over a value -/

mutual

theorem skip_node : (value : Json) → value.node.skip = .ok ()
  | .null | .bool _ | .number _ | .string _ => rfl
  | .array items => by
    rw [node, Node.skip, skip_itemNodes items]
    rfl
  | .object entries => by
    rw [node, Node.skip, skip_entryNodes entries]
    rfl

theorem skip_itemNodes : (items : List Json) → Node.skipItems (itemNodes items) = .ok ()
  | [] => rfl
  | item :: rest => by
    rw [itemNodes, Node.skipItems, skip_node item]
    exact skip_itemNodes rest

theorem skip_entryNodes :
    (entries : List (String × Json)) → Node.skipMembers (entryNodes entries) = .ok ()
  | [] => rfl
  | (key, value) :: rest => by
    rw [entryNodes, Node.skipMembers, skip_node value]
    exact skip_entryNodes rest

end

/-! ### Keeping a value -/

/-- A value has at most a number of levels of containers, and no object in it holds a name twice. -/
inductive IsKept : ℕ → Json → Prop
  | null (depth : ℕ) : IsKept depth .null
  | bool (depth : ℕ) (value : Bool) : IsKept depth (.bool value)
  | number (depth : ℕ) (value : Number) : IsKept depth (.number value)
  | string (depth : ℕ) (text : String) : IsKept depth (.string text)
  | array {depth : ℕ} {items : List Json} (h : ∀ item ∈ items, IsKept depth item) :
    IsKept (depth + 1) (.array items)
  | object {depth : ℕ} {entries : List (String × Json)} (hnames : (Entries.keys entries).Nodup)
    (h : ∀ entry ∈ entries, IsKept depth entry.2) : IsKept (depth + 1) (.object entries)

theorem keepItems_itemNodes {depth : ℕ} {items : List Json}
    (h : ∀ item ∈ items, item.node.keep depth = .ok item) :
    Node.keepItems depth (itemNodes items) = .ok items := by
  induction items with
  | nil => rfl
  | cons item rest ih =>
    obtain ⟨hitem, hrest⟩ := List.forall_mem_cons.mp h
    rw [itemNodes, Node.keepItems, hitem, ih hrest]
    rfl

theorem keepMembers_entryNodes {depth : ℕ} {entries : List (String × Json)}
    (h : ∀ entry ∈ entries, entry.2.node.keep depth = .ok entry.2) :
    Node.keepMembers depth (entryNodes entries) = .ok entries := by
  induction entries with
  | nil => rfl
  | cons entry rest ih =>
    obtain ⟨hentry, hrest⟩ := List.forall_mem_cons.mp h
    rw [entryNodes, Node.keepMembers, hentry, ih hrest]
    rfl

theorem IsKept.keep_node {depth : ℕ} {value : Json} (h : value.IsKept depth) :
    value.node.keep depth = .ok value := by
  induction h with
  | null | bool | number | string => rfl
  | array h ih =>
    rw [node, Node.keep, keepItems_itemNodes ih]
    rfl
  | object hnames h ih =>
    rw [node, Node.keep, keepMembers_entryNodes ih]
    simp [bind, Except.bind, pure, Except.pure, Node.check, Entries.ofList_of_nodup hnames]

/-- A value is read from the text that is written for it. -/
theorem parse_indented {value : Json} (hnaturals : value.HasNaturals)
    (hkept : value.IsKept maxDepth) : parse value.indented = .ok value := by
  rw [parse, Node.ofText_indented hnaturals]
  simp [hkept.keep_node, bind, Except.bind, pure, Except.pure]

end CrudUi.Json
