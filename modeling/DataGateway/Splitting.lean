import DataGateway.Message

/-!
# Splitting

A payload that does not fit the transmission unit is cut into chunks of exactly that many bytes, the
last of which may be shorter, and each chunk travels as a slice under a header that says where it
lies. The chunks are consecutive and together are the payload.
-/

namespace DataGateway

/-- The consecutive chunks of `unit` bytes that make up a byte string. -/
def chunks (unit : Nat) (bytes : Bytes) : List Bytes :=
  if _h : unit = 0 ∨ bytes = [] then []
  else bytes.take unit :: chunks unit (bytes.drop unit)
termination_by bytes.length
decreasing_by
  have : 0 < bytes.length := List.length_pos_iff.2 fun e => _h (.inr e)
  rw [List.length_drop]
  omega

theorem flatten_chunks {unit : Nat} (positive : 0 < unit) (bytes : Bytes) :
    (chunks unit bytes).flatten = bytes := by
  fun_induction chunks unit bytes with
  | case1 bytes h =>
      rcases h with h | h
      · omega
      · simp [h]
  | case2 bytes _ ih => simp [ih]

namespace Slice

/-- A header's copy for the chunk of a payload of `total` bytes that begins at `offset`. -/
def headerAt (header : Header) (total offset : Nat) (chunk : Bytes) : Header :=
  { header with
    fragmentation := .slice (offset = 0) (offset + chunk.length = total)
      (Fragmentation.long offset) (Fragmentation.long total) }

/-- The slices that carry consecutive chunks of a payload of `total` bytes from `offset` on. -/
def encodeFrom (header : Header) (total : Nat) : (offset : Nat) → List Bytes →
    Except ProtocolError (List Bytes)
  | _, [] => return []
  | offset, chunk :: rest => do
    let frame ← encode (headerAt header total offset chunk) chunk
    let frames ← encodeFrom header total (offset + chunk.length) rest
    return frame :: frames

end Slice

/-- The frames of a message: one, or as many slices as its payload has chunks of `unit` bytes. -/
def Message.split (header : Header) (payload : Payload) (unit : Nat) :
    Except ProtocolError (List Bytes) := do
  if unit = 0 then
    throw (.invalid owner .zeroUnit)
  checkPair header payload
  let bytes ← payload.encode
  if bytes.length ≤ unit then
    return [← encode header payload]
  Slice.encodeFrom header bytes.length 0 (chunks unit bytes)

end DataGateway
