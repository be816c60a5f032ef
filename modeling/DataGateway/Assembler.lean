import DataGateway.Message

/-!
# Reassembly

An assembler collects slices per message id until the last one arrives, and then decodes the
payload. The slices of one message must arrive in order; messages may interleave. A first slice
begins its message anew and is refused while too many other messages are incomplete, and any later
slice must continue what is buffered. A slice that does not drops what is buffered of its message.

Headers may be made by hand, so sizes and offsets are taken modulo `2 ^ 64`, as counts of bytes.
-/

namespace DataGateway

/-- What has arrived of one message: the header of its first slice, the size that header announced,
and the bytes so far. -/
structure Partial where
  header : Header
  size : Nat
  buffer : Bytes

namespace Partial

/-- Whether a slice continues what is buffered of its message. -/
def checkNext (p : Partial) (header : Header) (offset size : Nat) :
    Except ProtocolError Unit :=
  if offset ≠ p.buffer.length then
    .error (.invalid Slice.owner (.offsetNotNext offset p.buffer.length))
  else if size ≠ p.size ∨ header.dataType ≠ p.header.dataType then
    .error (.invalid Slice.owner .disagreesWithFirst)
  else .ok ()

/-- The message whose payload has arrived completely. -/
def complete (p : Partial) : Except ProtocolError Message := do
  if p.buffer.length ≠ p.size then
    throw (.invalid Slice.owner (.lastSliceShort p.buffer.length p.size))
  let payload ← Payload.decode p.header.dataType p.buffer
  Message.new { p.header with fragmentation := .whole none } payload

end Partial

/-- The incomplete messages by id, and how much may be buffered. -/
structure Assembler where
  pending : Dict String Partial := .empty
  maxPayload : Nat := 64 * 1024 * 1024
  maxPending : Nat := 16

namespace Assembler

/-- How many bytes are buffered. -/
def buffered (a : Assembler) : Nat :=
  a.pending.entries.foldr (fun e n => e.2.buffer.length + n) 0

/-- The incomplete messages but the one with an id. -/
def drop (a : Assembler) (id : String) : Assembler := { a with pending := a.pending.erase id }

/-- Drops what is buffered of a message, and says whether anything was. -/
def discard (a : Assembler) (id : String) : Bool × Assembler :=
  ((a.pending.get? id).isSome, a.drop id)

/-- A wire number as a count of bytes. -/
def count (n : Int64) : Nat := n.toUInt64.toNat

/-- Begins a message anew, if there is room for it. -/
def start (a : Assembler) (header : Header) (size : Nat) : Except ProtocolError Unit × Assembler :=
  if a.maxPayload < size then (.error (.tooLarge size a.maxPayload), a)
  else
    let a := a.drop header.messageId
    if a.maxPending ≤ a.pending.size then
      (.error (.invalid Slice.owner (.tooManyIncomplete a.pending.size header.messageId)), a)
    else (.ok (), { a with pending := a.pending.insert header.messageId ⟨header, size, []⟩ })

/-- Adds a slice to the message it continues, and gives the message if the slice is its last. -/
def extend (a : Assembler) (s : Slice) (last : Bool) (offset : Int64) (size : Nat) :
    Except ProtocolError (Option Message) × Assembler :=
  let id := s.header.messageId
  match a.pending.get? id with
  | none => (.error (.invalid Slice.owner (.noFirstSlice offset.toInt id)), a)
  | some p =>
    match p.checkNext s.header (count offset) size with
    | .error e => (.error e, a.drop id)
    | .ok () =>
      let p := { p with buffer := p.buffer ++ s.chunk }
      if last then (some <$> p.complete, a.drop id)
      else if p.size ≤ p.buffer.length then
        (.error (.invalid Slice.owner .completeBeforeLast), a.drop id)
      else (.ok none, { a with pending := a.pending.insert id p })

/-- Takes a slice in, and gives the message that it completes, if it completes one. -/
def push (a : Assembler) (s : Slice) : Except ProtocolError (Option Message) × Assembler :=
  match s.header.fragmentation with
  | .whole _ => (.error (.invalid Slice.owner .notFragmentHeader), a)
  | .slice first last offset size =>
    let size := count size
    if first then
      match a.start s.header size with
      | (.error e, a) => (.error e, a)
      | (.ok (), a) => a.extend s last offset size
    else a.extend s last offset size

end Assembler

end DataGateway
