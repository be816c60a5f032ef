import DataGateway.Record.Ack
import DataGateway.Text.Blank

/-!
# Attachments

An attachment is asked for by a query. The service answers with the attachment itself, or with a
success that lacks its content: then the attachment is pending and is delivered later in a response
of its own, which the client owes an answer that identifies what it received.
-/

namespace DataGateway

/-- What identifies an attachment. -/
structure AttachmentIdentity where
  requestIds : List String
  ownerTable : String
  attachmentId : String
  deriving BEq, DecidableEq

def AttachmentIdentity.record : Record AttachmentIdentity :=
  .plain "AttachmentResponseResultHolder"
    (.required "requestIds" (.list .text) <| .required "ownerTable" .text <|
      .required "attachmentId" .text .done)
    (fun a => (a.requestIds, a.ownerTable, a.attachmentId, ()))
    (fun (requestIds, ownerTable, attachmentId, ()) => ⟨requestIds, ownerTable, attachmentId⟩)

/-- An attachment: what identifies it, what describes it, and its content if it is there. -/
structure Attachment extends AttachmentIdentity where
  ownerIds : Option (List String) := none
  description : Option String := none
  timeToLive : Option Int64 := none
  validUntil : Option Int64 := none
  content : Option Bytes := none
  deriving BEq, DecidableEq

def Attachment.record : Record Attachment :=
  .plain "AttachmentResultHolder"
    (.required "requestIds" (.list .text) <| .required "ownerTable" .text <|
      .required "attachmentId" .text <| .optional "ownerIds" (.list .text) <|
      .optional "meta" .text <| .optional "ttl" .long <| .optional "toValid" .long <|
      .optional "attachment" .binary .done)
    (fun a => (a.requestIds, a.ownerTable, a.attachmentId, a.ownerIds, a.description, a.timeToLive,
      a.validUntil, a.content, ()))
    (fun (requestIds, ownerTable, attachmentId, ownerIds, description, timeToLive, validUntil,
        content, ()) =>
      { requestIds, ownerTable, attachmentId, ownerIds, description, timeToLive, validUntil,
        content })

/-- Asks for an attachment by the select statement that finds it. -/
structure AttachmentRequest where
  request : String
  deriving BEq, DecidableEq

namespace AttachmentRequest

def name : String := "AttachmentRequest"

def check (r : AttachmentRequest) : Except ProtocolError Unit :=
  if Text.allBlank r.request.toList then .error (.invalid name .emptyRequest) else .ok ()

def record : Record AttachmentRequest :=
  .plain name (.required "request" .text .done) (fun r => (r.request, ()))
    (fun (request, ()) => ⟨request⟩) check

end AttachmentRequest

/-- The answer to an attachment request. -/
abbrev AttachmentRequestAck := Ack (Reply Attachment)

/-- The body of the answer; a success without a result means that the attachment follows later. -/
def AttachmentRequestAck.replyRecord : Record (Reply Attachment) :=
  Reply.record "AttachmentRequestAckTypeData" Attachment.record.layout false

namespace AttachmentRequestAck

def record : Record AttachmentRequestAck :=
  Ack.record "AttachmentRequestAck" replyRecord.layout

def result (ack : AttachmentRequestAck) : Option Attachment := ack.body.bind (·.result)

def content (ack : AttachmentRequestAck) : Option Bytes := ack.result.bind (·.content)

/-- Whether the request was carried out and the content has yet to come. -/
def isPending (ack : AttachmentRequestAck) : Bool :=
  ack.isSuccess && ack.body.any fun reply =>
    reply.status.isSuccess && reply.result.all (·.content.isNone)

end AttachmentRequestAck

/-- The answer that a delivered attachment is owed. -/
abbrev AttachmentResponseAck := Ack (Reply AttachmentIdentity)

def AttachmentResponseAck.replyRecord : Record (Reply AttachmentIdentity) :=
  Reply.record "AttachmentResponseAckTypeData" AttachmentIdentity.record.layout

def AttachmentResponseAck.record : Record AttachmentResponseAck :=
  Ack.record "AttachmentResponseAck" replyRecord.layout

/-- Delivers an attachment that was pending. -/
structure AttachmentResponse where
  result : Attachment
  deriving BEq, DecidableEq

namespace AttachmentResponse

def name : String := "AttachmentResponse"

def check (r : AttachmentResponse) : Except ProtocolError Unit :=
  if r.result.content.isNone then .error (.missingField ⟨"attachment", name⟩) else .ok ()

def record : Record AttachmentResponse :=
  .plain name (.required "result" Attachment.record.layout .done) (fun r => (r.result, ()))
    (fun (result, ()) => ⟨result⟩) check

/-- The answer this delivery is owed. -/
def ack (r : AttachmentResponse) : AttachmentResponseAck :=
  .withBody .ok { status := .ok, result := some r.result.toAttachmentIdentity }

end AttachmentResponse

end DataGateway
