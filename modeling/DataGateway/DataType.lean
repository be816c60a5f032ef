/-!
# Data types

A message's header announces the type of the payload that follows it by a tag. Tags 0 to 12 name the
thirteen payloads this library knows; 13 and 14 are set aside by the protocol for payloads it does
not know.
-/

namespace DataGateway

/-- The type of a payload. -/
inductive DataType
  | connection | connectionAck | event | eventAck | attachmentRequest | attachmentRequestAck
  | attachmentResponse | attachmentResponseAck | eventDocument | eventDocumentAck | queryRequest
  | queryRequestAck | nextQueryPage
  deriving DecidableEq, Repr

namespace DataType

/-- All data types, by tag. -/
def all : List DataType :=
  [connection, connectionAck, event, eventAck, attachmentRequest, attachmentRequestAck,
    attachmentResponse, attachmentResponseAck, eventDocument, eventDocumentAck, queryRequest,
    queryRequestAck, nextQueryPage]

/-- The number of a data type on the wire. -/
def tag : DataType → Int64
  | connection => 0
  | connectionAck => 1
  | event => 2
  | eventAck => 3
  | attachmentRequest => 4
  | attachmentRequestAck => 5
  | attachmentResponse => 6
  | attachmentResponseAck => 7
  | eventDocument => 8
  | eventDocumentAck => 9
  | queryRequest => 10
  | queryRequestAck => 11
  | nextQueryPage => 12

/-- The data type with a tag. -/
def ofTag? (tag : Int64) : Option DataType := all.find? (·.tag = tag)

/-- Whether the protocol sets a tag aside for a payload unknown here. -/
def isSetAside (tag : Int64) : Bool := tag == 13 || tag == 14

/-- Whether such a payload answers a request. -/
def isAck : DataType → Bool
  | connectionAck | eventAck | attachmentRequestAck | attachmentResponseAck | eventDocumentAck
  | queryRequestAck => true
  | _ => false

def name : DataType → String
  | connection => "Connection"
  | connectionAck => "ConnectionAck"
  | event => "Event"
  | eventAck => "EventAck"
  | attachmentRequest => "AttachmentRequest"
  | attachmentRequestAck => "AttachmentRequestAck"
  | attachmentResponse => "AttachmentResponse"
  | attachmentResponseAck => "AttachmentResponseAck"
  | eventDocument => "EventDocument"
  | eventDocumentAck => "EventDocumentAck"
  | queryRequest => "QueryRequest"
  | queryRequestAck => "QueryRequestAck"
  | nextQueryPage => "NextQueryPage"

/-- A data type as it stands in messages: its name with the tag in parentheses. -/
def label (t : DataType) : String := t.name ++ "(" ++ toString t.tag.toInt ++ ")"

theorem ofTag?_tag (t : DataType) : ofTag? t.tag = some t := by cases t <;> rfl

theorem tag_of_ofTag? {tag : Int64} {t : DataType} (h : ofTag? tag = some t) : t.tag = tag := by
  simpa using List.find?_some h

end DataType

end DataGateway
