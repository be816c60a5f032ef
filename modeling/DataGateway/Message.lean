import DataGateway.Header
import DataGateway.Kept
import DataGateway.Payload

/-!
# Messages

A message is an array of eleven elements: the ten fields of its header and one payload, which is a
record of the type that the header announces, or, under a slice's header, a binary with the slice.
`Inbound.decode` reads either from bytes, and refuses bytes that go on after the message. The other
ways of decoding are narrower: only the header, only the payload, or only a complete message.

A message that was decoded keeps the bytes it was read from, and one that was built here is encoded
when its bytes are first asked for.
-/

namespace DataGateway

/-- A header and the payload it announces. -/
structure Message where
  header : Header
  payload : Payload
  /-- Its bytes, if it was decoded from them or they have been asked for. -/
  kept : Kept := {}
  deriving BEq

/-- A slice of a payload, under its header. -/
structure Slice where
  header : Header
  chunk : Bytes
  deriving BEq, DecidableEq

/-- What arrives: a complete message or a slice of one. -/
inductive Inbound
  | message (m : Message)
  | slice (s : Slice)

namespace Message

def owner : String := "Message"

/-- How many elements a message has: the header's fields and the payload. -/
def elements : Nat := Header.record.count + 1

/-- Whether the header announces the payload and is no slice's header. -/
def checkPair (header : Header) (payload : Payload) : Except ProtocolError Unit :=
  if header.dataType ≠ payload.type then
    .error (.invalid owner (.typeDisagrees header.dataType payload.type))
  else if header.isSlice then .error (.invalid owner .wholeUnderFragmentHeader)
  else .ok ()

/-- Pairs a header with the payload it announces. -/
def new (header : Header) (payload : Payload) : Except ProtocolError Message := do
  checkPair header payload
  return { header, payload }

/-- Everything put down for a message after its checks have passed. -/
def draft (header : Header) (rest : Draft) : Draft :=
  Draft.arrayHead elements ++ (Header.record.pack header ++ rest)

/-- A complete message as bytes. -/
def encode (header : Header) (payload : Payload) : Except ProtocolError Bytes := do
  checkPair header payload
  header.check
  (draft header payload.write).result

/-- The bytes of a message, and the message that has been asked for them. -/
def bytes (m : Message) : Except ProtocolError Bytes × Message :=
  let (bytes, kept) := m.kept.getOrEncode (encode m.header m.payload)
  (bytes, { m with kept })

end Message

namespace Slice

def owner : String := "Fragment"

/-- A slice that ends inside its payload. -/
def new (header : Header) (chunk : Bytes) : Except ProtocolError Slice :=
  match header.fragmentation with
  | .whole _ => .error (.invalid owner .notFragmentHeader)
  | .slice _ _ offset size =>
    if 0 ≤ offset.toInt ∧ offset.toInt + chunk.length ≤ size.toInt then .ok ⟨header, chunk⟩
    else .error (.invalid owner .sliceBeyondFullSize)

/-- A slice as bytes. -/
def encode (header : Header) (chunk : Bytes) : Except ProtocolError Bytes := do
  if !header.isSlice then
    throw (.invalid Message.owner .sliceUnderWholeHeader)
  header.check
  (Message.draft header (Draft.binary chunk)).result

end Slice

namespace Inbound

def header : Inbound → Header
  | message m => m.header
  | slice s => s.header

/-- The header that every message begins with. -/
def readHeader : Reader Header := do
  Reader.sequence Message.owner Message.elements
  let header ← Header.record.unpack
  Reader.ofExcept header.check
  return header

/-- The message or slice that bytes hold. -/
def decode (bytes : Bytes) : Except ProtocolError Inbound :=
  Reader.outcome (do
    let header ← readHeader
    if header.isSlice then
      let chunk ← Reader.required Reader.binary Payload.slot
      Reader.finish
      .slice <$> Reader.ofExcept (Slice.new header chunk)
    else
      let payload ← Payload.read header.dataType
      Reader.finish
      return .message { header, payload, kept := ⟨some bytes⟩ }) bytes

/-- The header of the message or slice that bytes begin with. -/
def decodeHeader : Bytes → Except ProtocolError Header := Reader.outcome readHeader

/-- The payload of the complete message that bytes hold. -/
def decodePayload : Bytes → Except ProtocolError Payload :=
  Reader.outcome do
    let header ← readHeader
    if header.isSlice then
      throw (.invalid Message.owner .partialPayload)
    let payload ← Payload.read header.dataType
    Reader.finish
    return payload

/-- The complete message that bytes hold. -/
def decodeMessage (bytes : Bytes) : Except ProtocolError Message := do
  match ← decode bytes with
  | message m => return m
  | slice _ => throw (.invalid Message.owner .partialPayload)

end Inbound

end DataGateway
