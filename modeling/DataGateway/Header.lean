import DataGateway.Record.Code
import DataGateway.Wire.Record

/-!
# Headers

A header says who sends a message, which exchange it belongs to, when it was made, and what payload
follows. A payload too large for one message is cut into slices, each under a header that says where
the slice lies. The wire keeps that in a flag and four loose fields; here only the combinations that
make sense exist, and `Fragmentation.ofFields` is where the wire's fields are held to them: a whole
message has none of the fields but an offset, and a slice has all four, lies inside its payload, and
is the first exactly at offset zero.
-/

namespace DataGateway

/-- How a message's payload travels. -/
inductive Fragmentation
  /-- In one piece; an offset may stand there all the same. -/
  | whole (offset : Option Int64)
  /-- As one slice of a payload of `size` bytes. -/
  | slice (first last : Bool) (offset size : Int64)
  deriving BEq, DecidableEq

namespace Fragmentation

def owner : String := "Header"

/-- The largest payload that slices can announce: what one binary can hold. -/
def maxSize : Int64 := 4294967295

/-- A count of bytes as the wire has it, or the largest that the wire has. -/
def long (n : Nat) : Int64 := if n < 0x8000000000000000 then Int64.ofNat n else Int64.maxValue

def isSlice : Fragmentation → Bool
  | whole _ => false
  | slice .. => true

def offset : Fragmentation → Option Int64
  | whole offset => offset
  | slice _ _ offset _ => some offset

/-- Whether a slice lies inside its payload and is the first exactly at offset zero. -/
def check : Fragmentation → Except ProtocolError Unit
  | whole _ => .ok ()
  | slice first _ offset size =>
    if maxSize < size then
      .error (.invalid owner (.fullSizeBeyondLimit size.toInt maxSize.toInt))
    else if offset < 0 ∨ size ≤ 0 ∨ size ≤ offset then
      .error (.invalid owner (.offsetOutside offset.toInt size.toInt))
    else if first ≠ decide (offset = 0) then
      .error (.invalid owner .firstNotAtZero)
    else .ok ()

/-- The wire's fields: the flag, and the first, last, offset and size fields. -/
abbrev Fields := Bool × Option Bool × Option Bool × Option Int64 × Option Int64

def toFields : Fragmentation → Fields
  | whole offset => (false, none, none, offset, none)
  | slice first last offset size => (true, some first, some last, some offset, some size)

/-- What the wire's fields say, if they make sense together. -/
def ofFields : Fields → Except ProtocolError Fragmentation
  | (false, none, none, offset, none) => .ok (whole offset)
  | (false, _, _, _, _) => .error (.invalid owner .fragmentFieldsOnWhole)
  | (true, some first, some last, some offset, some size) =>
    match check (slice first last offset size) with
    | .ok () => .ok (slice first last offset size)
    | .error e => .error e
  | (true, _, _, _, _) => .error (.invalid owner .fragmentFieldsMissing)

theorem ofFields_toFields {f : Fragmentation} (h : f.check = .ok ()) :
    ofFields f.toFields = .ok f := by
  cases f with
  | whole => rfl
  | slice first last offset size => simp [toFields, ofFields, h]

theorem toFields_of_ofFields {fields : Fields} {f : Fragmentation} (h : ofFields fields = .ok f) :
    f.toFields = fields := by
  unfold ofFields at h
  split at h
  · cases h; rfl
  · cases h
  · split at h <;> cases h
    rfl
  · cases h

end Fragmentation

/-- What stands before every payload. Times are in milliseconds. -/
structure Header where
  userName : String
  messageId : String
  createTime : Int64
  requestTime : Int64
  fragmentation : Fragmentation := .whole none
  dataType : DataType
  deriving BEq, DecidableEq

namespace Header

def name : String := "Header"

def isSlice (h : Header) : Bool := h.fragmentation.isSlice

/-- The header of an answer: the same user and exchange, made `now`, the time this header was made
as the time of the request. -/
def reply (h : Header) (now : Int64) (dataType : DataType) : Header where
  userName := h.userName
  messageId := h.messageId
  createTime := now
  requestTime := h.createTime
  dataType := dataType

def check (h : Header) : Except ProtocolError Unit :=
  if h.messageId = "" then .error (.invalid name .emptyMessageId) else h.fragmentation.check

/-- The wire's fields, any of which may be nil. -/
abbrev Fields :=
  Option String × Option String × Option Int64 × Option Int64 × Option Bool × Option Bool ×
    Option Bool × Option Int64 × Option Int64 × Option DataType × Unit

def toFields (h : Header) : Fields :=
  let (isSlice, first, last, offset, size) := h.fragmentation.toFields
  (some h.userName, some h.messageId, some h.createTime, some h.requestTime, some isSlice, first,
    last, offset, size, some h.dataType, ())

def present {α : Type} (field : String) : Option α → Except ProtocolError α
  | some a => .ok a
  | none => .error (.missingField ⟨field, name⟩)

/-- The header that the fields make, refusing the first that is missing once all are read. -/
def ofFields : Fields → Except ProtocolError Header
  | (userName, messageId, createTime, requestTime, isSlice, first, last, offset, size, dataType,
      ()) => do
    let userName ← present "userName" userName
    let messageId ← present "messageId" messageId
    let createTime ← present "createTime" createTime
    let requestTime ← present "requestTime" requestTime
    let isSlice ← present "isFragmented" isSlice
    let fragmentation ← Fragmentation.ofFields (isSlice, first, last, offset, size)
    let dataType ← present "dataType" dataType
    return { userName, messageId, createTime, requestTime, fragmentation, dataType }

/-- A header is made again from its fields, even without an id. -/
theorem ofFields_toFields_of_sound {h : Header} (sound : h.fragmentation.check = .ok ()) :
    ofFields h.toFields = .ok h := by
  have back := Fragmentation.ofFields_toFields sound
  simp only [toFields, ofFields, present, bind, Except.bind, pure, Except.pure]
  rw [show (h.fragmentation.toFields.1, h.fragmentation.toFields.2.1,
      h.fragmentation.toFields.2.2.1, h.fragmentation.toFields.2.2.2.1,
      h.fragmentation.toFields.2.2.2.2) = h.fragmentation.toFields from rfl, back]

private theorem ofFields_toFields (h : Header) (ok : h.check = .ok ()) :
    ofFields h.toFields = .ok h := by
  apply ofFields_toFields_of_sound
  unfold check at ok
  split at ok
  · cases ok
  · exact ok

private theorem toFields_of_ofFields (fields : Fields) (h : Header)
    (ok : ofFields fields = .ok h) : toFields h = fields := by
  obtain ⟨userName, messageId, createTime, requestTime, isSlice, first, last, offset, size,
    dataType, ⟨⟩⟩ := fields
  cases userName <;> cases messageId <;> cases createTime <;> cases requestTime <;>
    cases isSlice <;> try (simp [ofFields, present, bind, Except.bind] at ok; done)
  rename_i userName messageId createTime requestTime isSlice
  cases read : Fragmentation.ofFields (isSlice, first, last, offset, size) with
  | error e => simp [ofFields, present, bind, Except.bind, read] at ok
  | ok fragmentation =>
      cases dataType with
      | none => simp [ofFields, present, bind, Except.bind, read] at ok
      | some dataType =>
          simp only [ofFields, present, bind, Except.bind, read, pure, Except.pure,
            Except.ok.injEq] at ok
          subst ok
          simp only [toFields, Fragmentation.toFields_of_ofFields read]

/-- Headers on the wire. Every field is read before the first missing one is refused. -/
def record : Record Header where
  name := name
  row :=
    .optional "userName" .text <| .optional "messageId" .text <| .optional "createTime" .long <|
      .optional "requestTime" .long <| .optional "isFragmented" .boolean <|
      .optional "firstFragment" .boolean <| .optional "lastFragment" .boolean <|
      .optional "offset" .long <| .optional "fullDataSize" .long <|
      .optional "dataType" DataType.layout .done
  toRow := toFields
  ofRow := ofFields
  check := check
  ofRow_toRow := ofFields_toFields
  toRow_ofRow := toFields_of_ofFields

end Header

end DataGateway
