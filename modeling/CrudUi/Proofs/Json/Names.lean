import CrudUi.Json.Node
import CrudUi.Proofs.Computations

/-!
# Names in objects

An object that is read from a text holds each name once, with the last value that was written under
it, and so does every object inside (`Json.hasDistinctNames_of_parse`).

## Main definitions

* `Json.HasDistinctNames` : no object in a value holds a name twice.
-/

namespace CrudUi.Json

/-- No object in a value holds a name twice. -/
inductive HasDistinctNames : Json → Prop
  | null : HasDistinctNames .null
  | bool (value : Bool) : HasDistinctNames (.bool value)
  | number (value : Number) : HasDistinctNames (.number value)
  | string (text : String) : HasDistinctNames (.string text)
  | array {items : List Json} (h : ∀ item ∈ items, item.HasDistinctNames) :
    HasDistinctNames (.array items)
  | object {members : List (String × Json)} (hnames : (Entries.keys members).Nodup)
    (h : ∀ member ∈ members, member.2.HasDistinctNames) : HasDistinctNames (.object members)

theorem hasDistinctNames_ofList {members : List (String × Json)}
    (h : ∀ member ∈ members, member.2.HasDistinctNames) :
    (object (Entries.ofList members)).HasDistinctNames := by
  refine .object (Entries.nodup_keys_ofList members) fun member hmember => ?_
  rcases Entries.mem_of_mem_merge hmember with hmember | hmember
  · cases hmember
  · exact h member hmember

mutual

theorem hasDistinctNames_of_keep : (node : Node) → ∀ {depth : ℕ} {value : Json},
    node.keep depth = .ok value → value.HasDistinctNames
  | .null, _, _, h => Except.ok.inj h ▸ .null
  | .bool value, _, _, h => Except.ok.inj h ▸ .bool value
  | .number value, _, _, h => by
    obtain ⟨number, -, h⟩ := bind_eq_ok_iff.mp h
    exact pure_eq_ok_iff.mp h ▸ .number number
  | .string value, _, _, h => by
    obtain ⟨text, -, h⟩ := bind_eq_ok_iff.mp h
    exact pure_eq_ok_iff.mp h ▸ .string text
  | .broken fault, _, _, h => nomatch h
  | .array items fault, 0, _, h => nomatch h
  | .array items fault, depth + 1, _, h => by
    obtain ⟨kept, hkept, h⟩ := bind_eq_ok_iff.mp h
    obtain ⟨-, -, h⟩ := bind_eq_ok_iff.mp h
    exact pure_eq_ok_iff.mp h ▸ .array (hasDistinctNames_of_keepItems items hkept)
  | .object members fault, 0, _, h => nomatch h
  | .object members fault, depth + 1, _, h => by
    obtain ⟨kept, hkept, h⟩ := bind_eq_ok_iff.mp h
    obtain ⟨-, -, h⟩ := bind_eq_ok_iff.mp h
    exact pure_eq_ok_iff.mp h ▸
      hasDistinctNames_ofList (hasDistinctNames_of_keepMembers members hkept)

theorem hasDistinctNames_of_keepItems : (nodes : List Node) → ∀ {depth : ℕ} {items : List Json},
    Node.keepItems depth nodes = .ok items → ∀ item ∈ items, item.HasDistinctNames
  | [], _, _, h => fun _ hmem => absurd (Except.ok.inj h ▸ hmem) List.not_mem_nil
  | node :: rest, _, _, h => by
    obtain ⟨item, hitem, h⟩ := bind_eq_ok_iff.mp h
    obtain ⟨items, hitems, h⟩ := bind_eq_ok_iff.mp h
    obtain rfl := pure_eq_ok_iff.mp h
    exact List.forall_mem_cons.mpr
      ⟨hasDistinctNames_of_keep node hitem, hasDistinctNames_of_keepItems rest hitems⟩

theorem hasDistinctNames_of_keepMembers :
    (nodes : List (Except TextError String × Node)) → ∀ {depth : ℕ}
      {members : List (String × Json)}, Node.keepMembers depth nodes = .ok members →
        ∀ member ∈ members, member.2.HasDistinctNames
  | [], _, _, h => fun _ hmem => absurd (Except.ok.inj h ▸ hmem) List.not_mem_nil
  | (name, node) :: rest, _, _, h => by
    obtain ⟨key, -, h⟩ := bind_eq_ok_iff.mp h
    obtain ⟨value, hvalue, h⟩ := bind_eq_ok_iff.mp h
    obtain ⟨members, hmembers, h⟩ := bind_eq_ok_iff.mp h
    obtain rfl := pure_eq_ok_iff.mp h
    exact List.forall_mem_cons.mpr
      ⟨hasDistinctNames_of_keep node hvalue, hasDistinctNames_of_keepMembers rest hmembers⟩

end

theorem hasDistinctNames_of_parse {text : String} {value : Json} (h : parse text = .ok value) :
    value.HasDistinctNames := by
  obtain ⟨kept, hkept, h⟩ := bind_eq_ok_iff.mp h
  split at h
  · cases h
  · exact pure_eq_ok_iff.mp h ▸ hasDistinctNames_of_keep _ hkept

end CrudUi.Json
