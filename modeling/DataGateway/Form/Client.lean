import DataGateway.Client
import DataGateway.Form.Error
import DataGateway.Form.Payload

/-!
# Forms of what clients do

The forms of what calls on a client end with, of what its session publishes, of what its handlers
receive, and of the signals that reach it. A message is a header and a payload.
-/

namespace DataGateway

/-- The fields of a message's form. -/
def messageFields (header : Header) (payload : Payload) : List (String × Form) :=
  [("header", toForm header), ("data", toForm payload)]

/-- The form of a body under the header it came with. -/
def Answer.toForm (type : DataType) (a : Answer type.Body) : Form :=
  .fields (messageFields a.header ⟨type, a.body⟩)

instance : ToForm ConnectionAck := ⟨ConnectionAck.record.layout.toForm⟩

instance : ToForm Outcome where
  toForm o :=
    match o with
    | .answered header payload => .fields (messageFields header payload)
    | .complete ack =>
      .fields [("complete", Answer.toForm .attachmentRequestAck ack),
        ("attachment", toForm o.content)]
    | .delivered ack response =>
      .fields [("delivered", .fields
          [("ack", Answer.toForm .attachmentRequestAck ack),
            ("response", Answer.toForm .attachmentResponse response)]),
        ("attachment", toForm o.content)]

instance : ToForm Ending where
  toForm
    | .connected r => toForm r
    | .closed => .text "closed"
    | .requested r => toForm r

instance : ToForm Notice where
  toForm
    | .loggedIn ack => .fields [("success", toForm ack)]
    | .loginFailed failure => toForm failure
    | .disconnected => .text "disconnected"

instance : ToForm Handled where
  toForm
    | .message handler header payload =>
      .fields (("handler", toForm handler) :: messageFields header payload)
    | .refused e => toForm e
    | .ended => .text "disconnect"

/-- A frame is shown as the message it holds, if it holds a complete one. -/
instance : ToForm Signal where
  toForm
    | .opened => .text "Open"
    | .closed => .text "Close"
    | .failed reason => .fields [("Error", .text reason)]
    | .binary frame =>
      match Inbound.decode frame with
      | .ok (.message m) => .fields [("Message", .fields (messageFields m.header m.payload))]
      | _ => .fields [("Binary", toForm frame)]

instance : OfForm Signal where
  ofForm f := do
    let kind : String ← f.get "event"
    match kind with
    | "Open" => return .opened
    | "Close" => return .closed
    | "Error" => return .failed (← f.get "reason")
    | _ => return .binary (← f.get "hex")

/-- The body of a question is that of its payload, and for a next page the context. -/
instance : OfForm Question where
  ofForm f := do
    let kind : String ← f.get "kind"
    let body := f.field "data"
    match kind with
    | "event" => return .event (← Event.record.layout.ofForm body)
    | "event_document" => return .eventDocument (← EventDocument.record.layout.ofForm body)
    | "query" =>
      return .query (← QueryRequest.record.layout.ofForm (Payload.filled .queryRequest body))
    | "attachment" => return .attachment (← AttachmentRequest.record.layout.ofForm body)
    | "next_page" => return .nextPage (← QueryContext.record.layout.ofForm body)
    | _ => throw "unknown kind of question"

end DataGateway
