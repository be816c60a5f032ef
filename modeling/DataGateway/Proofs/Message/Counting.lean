import DataGateway.Proofs.Message.RoundTrip
import DataGateway.Proofs.Wire.Counting

/-!
# Announced and written elements

`RecordType` lists the records that are written as arrays of their own: the payloads, the envelopes
and the holders inside them. `elements` are the numbers that their heads announce, as the protocol
has them. `records_eq` holds them against the layouts, for a record and for every record inside it,
and `element_counts` says what follows for the bytes: whatever is encoded is one array, of exactly
as many values as its head and the protocol say, and nothing stands after it.
-/

namespace DataGateway

open MessagePack (Value Spells)

/-- The records that are written as arrays of their own. -/
inductive RecordType
  | payload (type : DataType)
  | fieldDescriptor
  | eventResult
  | eventSubResult
  | eventDocumentResult
  | attachment
  | attachmentIdentity
  | serviceNode
  | queryContext
  | queryPage
  | attachmentReply
  | attachmentIdentityReply
  | queryReply

namespace RecordType

abbrev Body : RecordType → Type
  | payload type => type.Body
  | fieldDescriptor => FieldDescriptor
  | eventResult => EventResult
  | eventSubResult => EventSubResult
  | eventDocumentResult => EventDocumentResult
  | attachment => Attachment
  | attachmentIdentity => AttachmentIdentity
  | serviceNode => ServiceNode
  | queryContext => QueryContext
  | queryPage => QueryPage
  | attachmentReply => Reply Attachment
  | attachmentIdentityReply => Reply AttachmentIdentity
  | queryReply => Reply QueryPage

def record : (type : RecordType) → Record type.Body
  | payload type => type.record
  | fieldDescriptor => FieldDescriptor.record
  | eventResult => EventResult.record
  | eventSubResult => EventSubResult.record
  | eventDocumentResult => EventDocumentResult.record
  | attachment => Attachment.record
  | attachmentIdentity => AttachmentIdentity.record
  | serviceNode => ServiceNode.record
  | queryContext => QueryContext.record
  | queryPage => QueryPage.record
  | attachmentReply => AttachmentRequestAck.replyRecord
  | attachmentIdentityReply => AttachmentResponseAck.replyRecord
  | queryReply => QueryRequestAck.replyRecord

/-- How many elements the protocol gives a record; `count_eq` says that its fields are as many. -/
def elements : RecordType → Nat
  | payload .connection => 6
  | payload .connectionAck => 3
  | payload .event => 3
  | payload .eventAck => 3
  | payload .attachmentRequest => 1
  | payload .attachmentRequestAck => 3
  | payload .attachmentResponse => 1
  | payload .attachmentResponseAck => 3
  | payload .eventDocument => 4
  | payload .eventDocumentAck => 3
  | payload .queryRequest => 5
  | payload .queryRequestAck => 3
  | payload .nextQueryPage => 2
  | fieldDescriptor => 3
  | eventResult => 4
  | eventSubResult => 6
  | eventDocumentResult => 3
  | attachment => 8
  | attachmentIdentity => 3
  | serviceNode => 2
  | queryContext => 9
  | queryPage => 6
  | attachmentReply => 3
  | attachmentIdentityReply => 3
  | queryReply => 3

/-- The record and those that may stand inside it. -/
def nested : RecordType → List RecordType
  | payload .connectionAck => [payload .connectionAck, payload .connection]
  | payload .eventAck => [payload .eventAck, eventResult, fieldDescriptor, eventSubResult]
  | payload .attachmentRequestAck => [payload .attachmentRequestAck, attachmentReply, attachment]
  | payload .attachmentResponse => [payload .attachmentResponse, attachment]
  | payload .attachmentResponseAck =>
    [payload .attachmentResponseAck, attachmentIdentityReply, attachmentIdentity]
  | payload .eventDocument => [payload .eventDocument, fieldDescriptor]
  | payload .eventDocumentAck => [payload .eventDocumentAck, eventDocumentResult]
  | payload .queryRequestAck =>
    [payload .queryRequestAck, queryReply, queryPage, queryContext, serviceNode, fieldDescriptor]
  | payload .nextQueryPage => [payload .nextQueryPage, queryContext, serviceNode]
  | eventResult => [eventResult, fieldDescriptor, eventSubResult]
  | queryContext => [queryContext, serviceNode]
  | queryPage => [queryPage, queryContext, serviceNode, fieldDescriptor]
  | attachmentReply => [attachmentReply, attachment]
  | attachmentIdentityReply => [attachmentIdentityReply, attachmentIdentity]
  | queryReply => [queryReply, queryPage, queryContext, serviceNode, fieldDescriptor]
  | type => [type]

def all : List RecordType :=
  [payload .connection, payload .connectionAck, payload .event, payload .eventAck,
    payload .attachmentRequest, payload .attachmentRequestAck, payload .attachmentResponse,
    payload .attachmentResponseAck, payload .eventDocument, payload .eventDocumentAck,
    payload .queryRequest, payload .queryRequestAck, payload .nextQueryPage, fieldDescriptor,
    eventResult, eventSubResult, eventDocumentResult, attachment, attachmentIdentity, serviceNode,
    queryContext, queryPage, attachmentReply, attachmentIdentityReply, queryReply]

/-- The record that errors call so. -/
def ofName? (name : String) : Option RecordType := all.find? (·.record.name == name)

theorem ofName?_name (type : RecordType) : ofName? type.record.name = some type := by
  cases type with
  | payload type => cases type <;> rfl
  | _ => rfl

/-- The protocol gives the record of this name so many elements. -/
def Announced (name : String) (count : Nat) : Prop := (ofName? name).map elements = some count

/-- Every record has as many fields as the protocol says, and so has every record inside it. -/
theorem records_eq (type : RecordType) : type.record.layout.records
    = type.nested.map fun inner => (inner.record.name, inner.elements) := by
  cases type with
  | payload type => cases type <;> rfl
  | _ => rfl

theorem announced_of_mem_records {type : RecordType} {p : String × Nat}
    (h : p ∈ type.record.layout.records) : Announced p.1 p.2 := by
  rw [records_eq] at h
  obtain ⟨inner, _, rfl⟩ := List.mem_map.1 h
  rw [Announced, ofName?_name, Option.map_some]

theorem count_eq (type : RecordType) : type.record.count = type.elements := by
  cases type with
  | payload type => cases type <;> rfl
  | _ => rfl

/-- The bytes are one array and nothing else. It has as many elements as the protocol gives the
record, one for each field, and every record inside it has as many as it is given. -/
def CountsIn (type : RecordType) (a : type.Body) (bytes : Bytes) : Prop :=
  ∃ items, Spells False [.array items] bytes ∧ items.length = type.elements
    ∧ type.record.row.Written Announced items (type.record.toRow a)

theorem countsIn_of_encode (type : RecordType) {a : type.Body} {bytes : Bytes}
    (hencode : type.record.encode a = .ok bytes)
    (hsized : ∀ v ∈ type.record.layout.dynamics a, v.Sized) : type.CountsIn a bytes := by
  obtain ⟨_, hspells, items, rfl, _, hwritten⟩ :=
    Layout.written _ (fun _ => announced_of_mem_records) a bytes hencode hsized
  exact ⟨items, hspells, (Layout.length_of_written _ hwritten).trans type.count_eq, hwritten⟩

end RecordType

/-- The ten values of a header. -/
theorem Header.counts_of_pack {h : Header} {front : Bytes}
    (hpack : (record.pack h).result = .ok front) : ∃ fields, Spells False fields front
      ∧ fields.length = 10 ∧ record.row.Written RecordType.Announced fields (record.toRow h) := by
  have hsized : ∀ v ∈ record.row.dynamics (record.toRow h), v.Sized := by
    rw [Layout.dynamics_of_isStatic _ rfl]
    simp
  obtain ⟨fields, hspells, hwritten⟩ := Layout.written record.row (fun p hp => nomatch hp)
    (record.toRow h) front hpack hsized
  exact ⟨fields, hspells, Layout.length_of_written _ hwritten, hwritten⟩

namespace Message

/-- Every number of elements that is announced is true: of each record on its own, of the header's
fields, and of the array that a message or a slice is. -/
theorem element_counts :
    (∀ (type : RecordType) (a : type.Body) (bytes : Bytes), type.record.encode a = .ok bytes →
      (∀ v ∈ type.record.layout.dynamics a, v.Sized) → type.CountsIn a bytes)
    ∧ (∀ (h : Header) (front : Bytes), (Header.record.pack h).result = .ok front →
      ∃ fields, Spells False fields front ∧ fields.length = 10
        ∧ Header.record.row.Written RecordType.Announced fields (Header.record.toRow h))
    ∧ (∀ (h : Header) (p : Payload) (bytes : Bytes), encode h p = .ok bytes →
      (∀ v ∈ p.dynamics, v.Sized) → ∃ fields items front back,
        Spells False [.array (fields ++ [.array items])] bytes ∧ fields.length = 10
          ∧ bytes = front ++ back ∧ p.encode = .ok back ∧ Spells False [.array items] back
          ∧ items.length = (RecordType.payload p.type).elements)
    ∧ ∀ (h : Header) (chunk bytes : Bytes), Slice.encode h chunk = .ok bytes →
      ∃ fields, Spells False [.array (fields ++ [.binary chunk])] bytes ∧ fields.length = 10 := by
  refine ⟨fun type a bytes => type.countsIn_of_encode, fun h front => Header.counts_of_pack,
    ?_, ?_⟩
  · intro h p bytes hencode hsized
    obtain ⟨_, _, hdraft⟩ := encode_eq_ok.1 hencode
    obtain ⟨_, front, back, hpack, hwrite, rfl, rfl⟩ := draft_result_eq_ok.1 hdraft
    obtain ⟨fields, hfields, hlength, _⟩ := Header.counts_of_pack hpack
    obtain ⟨items, hitems, hcount, _⟩ :=
      RecordType.countsIn_of_encode (.payload p.type) hwrite hsized
    refine ⟨fields, items, _, back, ?_, hlength, (List.append_assoc ..).symm, hwrite, hitems,
      hcount⟩
    have hframe : fields.length + 1 = elements := by
      rw [hlength]
      rfl
    exact (Inbound.spells_frame_iff hframe).2
      ⟨_, front, back, elements_head, hfields, hitems, rfl⟩
  · intro h chunk bytes hencode
    obtain ⟨fields, hspells, hmatch⟩ := Slice.matches_of_encode hencode
    exact ⟨fields, hspells, Nat.succ.inj (Header.length_of_matches hmatch)⟩

theorem element_counts_sample :
    (∃ bytes, Payload.sample.encode = .ok bytes
      ∧ (RecordType.payload .eventDocument).CountsIn Payload.sample.body bytes)
    ∧ (∃ front, (Header.record.pack .sample).result = .ok front
      ∧ ∃ fields, Spells False fields front ∧ fields.length = 10)
    ∧ (∃ bytes, encode .sample .sample = .ok bytes ∧ ∃ fields items,
      Spells False [.array (fields ++ [.array items])] bytes ∧ fields.length = 10
        ∧ items.length = 4)
    ∧ ∃ bytes, Slice.encode { Header.sample with fragmentation := .slice true false 0 2 } [7]
      = .ok bytes ∧ ∃ fields, Spells False [.array (fields ++ [.binary [7]])] bytes
        ∧ fields.length = 10 := by
  obtain ⟨hrecord, hheader, hmessage, hslice⟩ := element_counts
  have hsized : ∀ v ∈ Payload.sample.dynamics, v.Sized := by decide
  obtain ⟨body, hbody⟩ : ∃ bytes, Payload.sample.encode = .ok bytes := ⟨_, rfl⟩
  obtain ⟨front, hfront⟩ : ∃ front, (Header.record.pack .sample).result = .ok front := ⟨_, rfl⟩
  obtain ⟨frame, hframe⟩ : ∃ frame, encode .sample .sample = .ok frame := ⟨_, rfl⟩
  obtain ⟨slice, hencode⟩ : ∃ frame,
    Slice.encode { Header.sample with fragmentation := .slice true false 0 2 } [7] = .ok frame :=
      ⟨_, rfl⟩
  refine ⟨⟨body, hbody, ?_⟩, ⟨front, hfront, ?_⟩, ⟨frame, hframe, ?_⟩, slice, hencode, ?_⟩
  · exact hrecord (.payload .eventDocument) Payload.sample.body body hbody hsized
  · obtain ⟨fields, hspells, hlength, _⟩ := hheader .sample front hfront
    exact ⟨fields, hspells, hlength⟩
  · obtain ⟨fields, items, _, _, hspells, hlength, _, _, _, hitems⟩ :=
      hmessage .sample .sample frame hframe hsized
    exact ⟨fields, items, hspells, hlength, hitems⟩
  · exact hslice _ [7] slice hencode

end Message

end DataGateway
