import DataGateway.DataType
import DataGateway.MessagePack.Marker
import DataGateway.Status
import DataGateway.Text.Utf8

/-!
# Errors of the protocol

What can go wrong between a message and its bytes, as causes; `ProtocolError.message` words them.
Bytes that are no message fail to decode, well-formed content that contradicts itself fails its
content check (`Violation` lists the rules), and `ProtocolError.kind` tells the two apart.
-/

namespace DataGateway

open MessagePack (Family)

/-- A place on the wire: a field of a record. -/
structure Slot where
  field : String
  owner : String
  deriving DecidableEq, Repr

/-- What makes a MessagePack value malformed. -/
inductive Malformation
  /-- The reserved marker stands where a typed value or an outermost dynamic value is due. -/
  | reservedMarker
  /-- The input ends inside a length or an integer of a typed value. -/
  | cutOperand
  /-- An unsigned integer exceeds the signed 64-bit range. -/
  | beyondLong
  /-- A typed string is not UTF-8. -/
  | notText (fault : Text.Fault)
  /-- The input ends where a value inside a dynamic value is due. -/
  | cutDynamicMarker
  /-- The input ends inside a length, a number or an extension type of a dynamic value. -/
  | cutDynamicOperand
  /-- The input ends inside a string, binary or extension body of a dynamic value. -/
  | cutDynamicBody (due found : Nat)
  /-- A dynamic value nests too deep. -/
  | tooDeep
  deriving DecidableEq, Repr

/-- A rule on the content of a record, a message or a fragment that is broken. -/
inductive Violation
  | emptyMessageId
  | fragmentFieldsOnWhole
  | fragmentFieldsMissing
  | fullSizeBeyondLimit (size limit : Int)
  | offsetOutside (offset size : Int)
  | firstNotAtZero
  | rowWidth (row values descriptors : Nat)
  | subResultWidth (values descriptors : Nat)
  | tooManyHits (rows : Nat) (announced : Int)
  | bodyOnFailure (status : Status)
  | rejectionOnSuccess (status : Status)
  | fragmentationWithoutUnit
  | unitWithoutFragmentation
  | noStatements
  | emptyRequest
  | emptyTableName
  | returningOutside (record : Int) (records : Nat)
  | emptySelect
  | negativeTimeout
  | pageSizeNotPositive (size : Int)
  | typeDisagrees (announced carried : DataType)
  | wholeUnderFragmentHeader
  | sliceUnderWholeHeader
  | zeroUnit
  | partialPayload
  | notFragmentHeader
  | sliceBeyondFullSize
  | tooManyIncomplete (buffered : Nat) (refused : String)
  | noFirstSlice (offset : Int) (id : String)
  | completeBeforeLast
  | lastSliceShort (reached size : Nat)
  | offsetNotNext (offset expected : Nat)
  | disagreesWithFirst
  deriving DecidableEq, Repr

/-- Why a message cannot be read or written. -/
inductive ProtocolError
  | typeMismatch (slot : Slot) (found expected : Family)
  | elementCount (owner : String) (expected found : Nat)
  | unknownDataType (tag : Int64)
  | unsupportedDataType (tag : Int64)
  | unknownStatus (code : Int64)
  | unknownFieldType (name : String)
  | unknownConsistency (name : String)
  | integerOutOfRange (slot : Slot) (value : Int64)
  | malformed (malformation : Malformation)
  | unexpectedEnd
  | trailingBytes (count : Nat)
  | tooLarge (size limit : Nat)
  | missingField (slot : Slot)
  | invalid (owner : String) (violation : Violation)
  | io (text : String)
  deriving DecidableEq, Repr

/-- The three families of protocol errors. -/
inductive ProtocolError.Kind
  /-- The bytes are not a message. -/
  | decode
  /-- The content contradicts itself. -/
  | validation
  /-- Bytes could not be handed on. -/
  | encode
  deriving DecidableEq, Repr

def ProtocolError.Kind.label : Kind → String
  | .decode => "DECODE"
  | .validation => "VALIDATION"
  | .encode => "ENCODE"

def Malformation.message : Malformation → String
  | reservedMarker => "reserved marker byte 0xc1"
  | cutOperand => "failed to read MessagePack data"
  | beyondLong => "out of range integral type conversion attempted"
  | notText ⟨index, some length⟩ =>
    "invalid utf-8 sequence of " ++ toString length ++ " bytes from index " ++ toString index
  | notText ⟨index, none⟩ =>
    "incomplete utf-8 byte sequence from index " ++ toString index
  | cutDynamicMarker => "I/O error while reading marker byte: failed to fill whole buffer"
  | cutDynamicOperand => "I/O error while reading non-marker bytes: failed to fill whole buffer"
  | cutDynamicBody due found =>
    "I/O error while reading non-marker bytes: Expected " ++ toString due ++ " bytes, read "
      ++ toString found ++ " bytes"
  | tooDeep => "depth limit exceeded"

def Violation.message : Violation → String
  | emptyMessageId => "empty messageId"
  | fragmentFieldsOnWhole => "fragment fields set on a non-fragmented message"
  | fragmentFieldsMissing =>
    "fragmented message without firstFragment, lastFragment, offset and fullDataSize"
  | fullSizeBeyondLimit size limit =>
    "fullDataSize " ++ toString size ++ " exceeds " ++ toString limit
  | offsetOutside offset size =>
    "fragment offset " ++ toString offset ++ " outside payload of " ++ toString size ++ " bytes"
  | firstNotAtZero => "firstFragment must be set exactly on the fragment at offset 0"
  | rowWidth row values descriptors =>
    "row " ++ toString row ++ " has " ++ toString values ++ " values for " ++ toString descriptors
      ++ " field descriptors"
  | subResultWidth values descriptors =>
    "sub result has " ++ toString values ++ " values for " ++ toString descriptors
      ++ " field descriptors"
  | tooManyHits rows announced =>
    toString rows ++ " hit rows but numberOfHits is " ++ toString announced
  | bodyOnFailure status => "ackData present with status " ++ status.label
  | rejectionOnSuccess status => "rejection data present with status " ++ status.label
  | fragmentationWithoutUnit =>
    "fragmentation supported without a positive fragmentTransmissionUnit"
  | unitWithoutFragmentation =>
    "fragmentTransmissionUnit set while fragmentation is not supported"
  | noStatements => "no statements"
  | emptyRequest => "empty request"
  | emptyTableName => "empty tableName"
  | returningOutside record records =>
    "returning option for record " ++ toString record ++ " of " ++ toString records
  | emptySelect => "empty selectString"
  | negativeTimeout => "negative timeout"
  | pageSizeNotPositive size => "pageSize must be positive, got " ++ toString size
  | typeDisagrees announced carried =>
    "header announces " ++ announced.label ++ " but payload is " ++ carried.label
  | wholeUnderFragmentHeader => "a complete payload cannot travel under a fragment header"
  | sliceUnderWholeHeader => "payload slice under a non-fragment header"
  | zeroUnit => "zero transmission unit"
  | partialPayload => "fragment carries a partial payload"
  | notFragmentHeader => "header is not a fragment header"
  | sliceBeyondFullSize => "slice extends past fullDataSize"
  | tooManyIncomplete buffered refused =>
    toString buffered ++ " incomplete messages buffered, refusing " ++ refused
  | noFirstSlice offset id =>
    "slice at offset " ++ toString offset ++ " of " ++ id ++ " without a first slice"
  | completeBeforeLast => "payload complete before the last slice"
  | lastSliceShort reached size =>
    "last slice ends at " ++ toString reached ++ " of " ++ toString size ++ " bytes"
  | offsetNotNext offset expected =>
    "slice at offset " ++ toString offset ++ ", expected " ++ toString expected
  | disagreesWithFirst => "slice disagrees with the first slice on payload size or type"

namespace ProtocolError

private def place (slot : Slot) : String := "field '" ++ slot.field ++ "' of " ++ slot.owner

def message : ProtocolError → String
  | typeMismatch slot found expected =>
    place slot ++ ": found " ++ found.label ++ " value, expected " ++ expected.label
  | elementCount owner expected found =>
    owner ++ ": sequence has " ++ toString found ++ " elements, expected " ++ toString expected
  | unknownDataType tag => "unknown data type tag: " ++ toString tag.toInt
  | unsupportedDataType tag => "unsupported data type tag: " ++ toString tag.toInt
  | unknownStatus code => "unknown ack status code: " ++ toString code.toInt
  | unknownFieldType name => "unknown field value type: " ++ name
  | unknownConsistency name => "unknown consistency type: " ++ name
  | integerOutOfRange slot value =>
    place slot ++ ": integer " ++ toString value.toInt ++ " out of range"
  | malformed malformation => "malformed value: " ++ malformation.message
  | unexpectedEnd => "unexpected end of input"
  | trailingBytes count => toString count ++ " trailing bytes after message"
  | tooLarge size limit => "value too large: " ++ toString size ++ " (max " ++ toString limit ++ ")"
  | missingField slot => "missing required " ++ place slot
  | invalid owner violation => "invalid " ++ owner ++ ": " ++ violation.message
  | io text => "I/O error: " ++ text

def kind : ProtocolError → Kind
  | missingField _ | invalid _ _ => .validation
  | io _ => .encode
  | _ => .decode

end ProtocolError

end DataGateway
