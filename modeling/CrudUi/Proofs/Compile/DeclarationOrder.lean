import CrudUi.Proofs.Compile.Entities
import CrudUi.Proofs.Inference.Reordering
import CrudUi.Proofs.Walk.Reordering

/-!
# The order of declarations does not matter

Reordered documents are compiled to the same UI schema, or fail with the same error
(`Document.compile_of_reordered`): the walk gathers the same drafts but for what stands in their
payloads, and the payloads have the same fields.
-/

namespace CrudUi

/-! ### Drafts -/

theorem Draft.Reordered.build_eq {components components' : Components} {draft draft' : Draft}
    (h : draft.Reordered draft') (hcomponents : components.Reordered components') :
    draft.build components = draft'.build components' :=
  .symm <| build_congr h.id_eq h.resourcePath_eq h.endpoints_eq h.schemaName_eq
    (fun name _ => (hcomponents.namedFields?_eq name).symm)
    (h.candidates.imp fun _ _ hschema => (hcomponents.fields?_eq hschema).symm)

/-! ### Documents -/

namespace Document

/-- The order of properties, required names, allowed values, responses, payloads and components
makes no difference to what a document is compiled to. -/
theorem compile_of_reordered {document document' : Document} (h : document.Reordered document') :
    document.compile = document'.compile := by
  have hversion : document.checkVersion = document'.checkVersion := by
    rw [checkVersion, checkVersion, h.version?_eq]
  have hentry : ∀ entry entry' : String × Draft,
      entry'.1 = entry.1 ∧ entry.2.Reordered entry'.2 →
      (do return (entry.1, ← entry.2.build document.components) :
        Except (NoResult CompileError) (String × Entity)) =
        do return (entry'.1, ← entry'.2.build document'.components) := by
    rintro entry entry' ⟨hid, hdraft⟩
    rw [hid, hdraft.build_eq h.components]
  rw [compile, compile, hversion, mapM_eq_of_forall₂ h.drafts hentry]

/-! ### Tickets -/

/-- A ticket, with properties that stand in a given order and others that are required. -/
def ticketSchema (properties : Entries Schema) (required : List String) : Schema where
  type := some (.single "object")
  properties := properties
  required := required

/-- The state of a ticket, with the allowed values in a given order. -/
def stateSchema (values : List String) : Schema :=
  { enumValues := some (values.map .string) }

/-- The components of a document on tickets. -/
def ticketSchemas (ticket : Schema) : Entries Schema :=
  [("Ticket", ticket), ("Error", {})]

/-- The payloads of one component. -/
def payloadsOf (name : String) : Entries MediaType :=
  [("application/json", { schema := some (.ofReference (Reference.toSchema name)) }),
    ("text/plain", {})]

/-- The responses to a request for a ticket. -/
def ticketResponses (ticket error : Entries MediaType) : Entries (RefOr Response) :=
  [("200", .inline { content := ticket }), ("404", .inline { content := error })]

/-- A document that offers tickets under one path. -/
def ticketDocument (responses : Entries (RefOr Response)) (schemas : Entries Schema) :
    Document where
  openapi := some (.string "3.0.0")
  paths := [("/tickets/{ticketId}", { get := some { responses } })]
  components := { schemas }

/-- Tickets in one order of declarations. -/
def tickets : Document :=
  ticketDocument (ticketResponses (payloadsOf "Ticket") (payloadsOf "Error"))
    (ticketSchemas (ticketSchema [("state", stateSchema ["open", "closed"]), ("title", {})]
      ["state", "title"]))

/-- Tickets in another order of declarations. -/
def ticketsReversed : Document :=
  ticketDocument
    (ticketResponses (payloadsOf "Ticket").reverse (payloadsOf "Error").reverse).reverse
    (ticketSchemas (ticketSchema [("title", {}), ("state", stateSchema ["closed", "open"])]
      ["title", "state"])).reverse

theorem reordered_stateSchema {values values' : List String} (h : values.Perm values') :
    (stateSchema values).Reordered (stateSchema values') :=
  Schema.reordered_iff.mpr
    { Schema.reordered_empty.parts with enumValues := .some (h.map Json.string) }

theorem reordered_ticketSchema {properties properties' : Entries Schema}
    {required required' : List String}
    (hproperties : Entries.Reordered Schema.Reordered properties properties')
    (hrequired : required.Perm required') :
    (ticketSchema properties required).Reordered (ticketSchema properties' required') :=
  Schema.reordered_iff.mpr
    { Schema.reordered_empty.parts with
      type_eq := rfl
      properties := hproperties
      required := hrequired }

theorem reordered_payloadsOf (name : String) :
    Entries.Reordered MediaType.Reordered (payloadsOf name) (payloadsOf name).reverse :=
  .of_perm (by simp [payloadsOf, Entries.keys]) (List.reverse_perm _).symm
    (.cons ⟨rfl, .none⟩ (.cons ⟨rfl, .some (Schema.reordered_ofReference _)⟩ .nil))

theorem reordered_ticketResponses :
    Entries.Reordered (RefOr.Reordered Response.Reordered)
      (ticketResponses (payloadsOf "Ticket") (payloadsOf "Error"))
      (ticketResponses (payloadsOf "Ticket").reverse (payloadsOf "Error").reverse).reverse :=
  .of_perm (by decide) (List.reverse_perm _).symm
    (.cons ⟨rfl, .inline ⟨rfl, reordered_payloadsOf "Error"⟩⟩
      (.cons ⟨rfl, .inline ⟨rfl, reordered_payloadsOf "Ticket"⟩⟩ .nil))

theorem reordered_ticketSchemas {ticket ticket' : Schema} (h : ticket.Reordered ticket') :
    Entries.Reordered Schema.Reordered (ticketSchemas ticket) (ticketSchemas ticket').reverse :=
  .of_perm (by simp [ticketSchemas, Entries.keys]) (List.reverse_perm _).symm
    (.cons ⟨rfl, Schema.reordered_empty⟩ (.cons ⟨rfl, h⟩ .nil))

theorem reordered_tickets : tickets.Reordered ticketsReversed := by
  have hproperties : Entries.Reordered Schema.Reordered
      [("state", stateSchema ["open", "closed"]), ("title", {})]
      [("title", {}), ("state", stateSchema ["closed", "open"])] :=
    .of_perm (by decide) (.swap _ _ _)
      (.cons ⟨rfl, Schema.reordered_empty⟩
        (.cons ⟨rfl, reordered_stateSchema (.swap _ _ _)⟩ .nil))
  refine ⟨rfl, .cons ⟨rfl, fun method => ?_⟩ .nil, ?_⟩
  · cases method with
    | get => exact .some ⟨rfl, rfl, .none, reordered_ticketResponses⟩
    | _ => exact .none
  · exact ⟨reordered_ticketSchemas (reordered_ticketSchema hproperties (.swap _ _ _)), .nil, .nil⟩

/-- Everything that has no order is reversed, and the UI schema is the same. -/
theorem compile_tickets_reversed :
    tickets ≠ ticketsReversed ∧ tickets.Reordered ticketsReversed ∧
      tickets.compile = ticketsReversed.compile :=
  ⟨by decide, reordered_tickets, compile_of_reordered reordered_tickets⟩

end Document

end CrudUi
