import DataGateway.Record.Attachment
import DataGateway.Record.Connection
import DataGateway.Record.Event
import DataGateway.Record.EventDocument
import DataGateway.Record.Query

/-!
# Payloads

A payload is a body together with the data type that says which of the thirteen records the body is.
Everything a payload does is done by the record of its type: `DataType.record` finds it.
-/

namespace DataGateway

/-- The record that a data type announces. -/
abbrev DataType.Body : DataType → Type
  | connection => Connection
  | connectionAck => ConnectionAck
  | event => Event
  | eventAck => EventAck
  | attachmentRequest => AttachmentRequest
  | attachmentRequestAck => AttachmentRequestAck
  | attachmentResponse => AttachmentResponse
  | attachmentResponseAck => AttachmentResponseAck
  | eventDocument => EventDocument
  | eventDocumentAck => EventDocumentAck
  | queryRequest => QueryRequest
  | queryRequestAck => QueryRequestAck
  | nextQueryPage => NextQueryPage

/-- How the body of a data type stands on the wire. -/
def DataType.record : (type : DataType) → Record type.Body
  | connection => Connection.record
  | connectionAck => ConnectionAck.record
  | event => Event.record
  | eventAck => EventAck.record
  | attachmentRequest => AttachmentRequest.record
  | attachmentRequestAck => AttachmentRequestAck.record
  | attachmentResponse => AttachmentResponse.record
  | attachmentResponseAck => AttachmentResponseAck.record
  | eventDocument => EventDocument.record
  | eventDocumentAck => EventDocumentAck.record
  | queryRequest => QueryRequest.record
  | queryRequestAck => QueryRequestAck.record
  | nextQueryPage => NextQueryPage.record

/-- A body and its type. -/
structure Payload where
  type : DataType
  body : type.Body

namespace Payload

/-- Whether two bodies of one type mean the same. -/
def sameBody : (type : DataType) → type.Body → type.Body → Bool
  | .connection, (a : Connection), b => a == b
  | .connectionAck, (a : ConnectionAck), b => a == b
  | .event, (a : Event), b => a == b
  | .eventAck, (a : EventAck), b => a == b
  | .attachmentRequest, (a : AttachmentRequest), b => a == b
  | .attachmentRequestAck, (a : AttachmentRequestAck), b => a == b
  | .attachmentResponse, (a : AttachmentResponse), b => a == b
  | .attachmentResponseAck, (a : AttachmentResponseAck), b => a == b
  | .eventDocument, (a : EventDocument), b => a == b
  | .eventDocumentAck, (a : EventDocumentAck), b => a == b
  | .queryRequest, (a : QueryRequest), b => a == b
  | .queryRequestAck, (a : QueryRequestAck), b => a == b
  | .nextQueryPage, (a : NextQueryPage), b => a == b

instance : BEq Payload where
  beq a b := if h : a.type = b.type then sameBody b.type (h ▸ a.body) b.body else false

/-- The body, if the payload is of this type. -/
def body? (type : DataType) (p : Payload) : Option type.Body :=
  if h : p.type = type then some (h ▸ p.body) else none

theorem body?_mk (type : DataType) (body : type.Body) : body? type ⟨type, body⟩ = some body := by
  simp [body?]

theorem body?_eq_some {type : DataType} {p : Payload} {body : type.Body} :
    p.body? type = some body ↔ p = ⟨type, body⟩ := by
  constructor
  · intro h
    obtain ⟨type', body'⟩ := p
    unfold body? at h
    split at h
    · rename_i htype
      cases htype
      cases h
      rfl
    · cases h
  · rintro rfl
    exact body?_mk type body

theorem body?_cases (type : DataType) (p : Payload) :
    p.body? type = none ∨ ∃ body, p = ⟨type, body⟩ := by
  cases h : p.body? type with
  | none => exact .inl rfl
  | some body => exact .inr ⟨body, body?_eq_some.1 h⟩

/-- The content check of the payload's own record. -/
def check (p : Payload) : Except ProtocolError Unit := p.type.record.check p.body

/-- Where a payload stands in a message. -/
def slot : Slot := ⟨"data", "Message"⟩

/-- Puts a payload down as the array of its fields. -/
def write (p : Payload) : Draft := p.type.record.layout.write p.body

/-- Reads a payload of a known type. -/
def read (type : DataType) : Reader Payload :=
  Payload.mk type <$> Reader.required type.record.layout.read slot

/-- A payload on its own as bytes. -/
def encode (p : Payload) : Except ProtocolError Bytes := p.write.result

/-- The payload of a known type that bytes hold on their own. -/
def decode (type : DataType) : Bytes → Except ProtocolError Payload :=
  Reader.outcome do
    let p ← read type
    Reader.finish
    return p

end Payload

end DataGateway
