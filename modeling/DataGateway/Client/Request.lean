import DataGateway.Client.Correlator
import DataGateway.Client.Duration
import DataGateway.Client.Session

/-!
# Requests

A request sends one message and waits for the reply under the same id. `Stage` says what it waits
for: one answer of a known type, the answer to an attachment request, or the attachment which that
answer announced. A request that fails to send leaves its id as it was.

A reply that is there counts even if the time is over.
-/

namespace DataGateway

/-- A body under the header it came with. -/
structure Answer (β : Type) where
  header : Header
  body : β

/-- What a request ends with. -/
inductive Outcome
  /-- The answer. -/
  | answered (header : Header) (payload : Payload)
  /-- The answer to an attachment request settles it. -/
  | complete (ack : Answer AttachmentRequestAck)
  /-- The attachment came after the answer, and its receipt has been confirmed. -/
  | delivered (ack : Answer AttachmentRequestAck) (response : Answer AttachmentResponse)

/-- The attachment, wherever it came. -/
def Outcome.content : Outcome → Option Bytes
  | answered .. => none
  | complete ack => AttachmentRequestAck.content ack.body
  | delivered _ response => response.body.result.content

/-- What a request waits for. -/
inductive Stage
  | answer (type : DataType)
  | attachment
  | delivery (ack : Answer AttachmentRequestAck)

/-- A request that waits: its message's id, the ticket it holds, and the tick at which it gives up.
-/
structure Request where
  id : String
  ticket : Nat
  deadline : Nat
  stage : Stage

/-- What is asked of the service. -/
inductive Question
  | event (body : Event)
  | eventDocument (body : EventDocument)
  | query (body : QueryRequest)
  | attachment (body : AttachmentRequest)
  /-- The page after the one that carried the context. -/
  | nextPage (context : QueryContext)

namespace Question

/-- A timeout in milliseconds as the wire has it, or the longest that the wire has. -/
def wireMillis (timeout : Duration) : Int64 := Fragmentation.long timeout.millis

/-- The payload that asks. The service learns how long a page may take. -/
def payload (timeout : Duration) : Question → Payload
  | event body => ⟨.event, body⟩
  | eventDocument body => ⟨.eventDocument, body⟩
  | query body => ⟨.queryRequest, body⟩
  | attachment body => ⟨.attachmentRequest, body⟩
  | nextPage context =>
    let body : NextQueryPage := ⟨context, wireMillis timeout⟩
    ⟨.nextQueryPage, body⟩

/-- What the question waits for first. -/
def stage : Question → Stage
  | event _ => .answer .eventAck
  | eventDocument _ => .answer .eventDocumentAck
  | query _ | nextPage _ => .answer .queryRequestAck
  | attachment _ => .attachment

end Question

/-- The seconds that the clock can represent. -/
def clockSeconds : Nat := 0x8000000000000000

/-- How many ticks a timeout lasts. One that the clock cannot represent lasts thirty years. -/
def timeoutTicks (timeout : Duration) : Nat :=
  if timeout.seconds < clockSeconds then timeout.ticks else 30 * 365 * 86400 * 1000

end DataGateway
