import DataGateway.Bytes

/-!
# Markers

A MessagePack value begins with a marker byte. The marker names the value's family and says where
the one number that belongs to the value stands: in the marker itself, or in the next one, two, four
or eight bytes. That number is the value of an integer, the bits of a float, the truth of a boolean,
the length of a string, a binary or an extension body, or the element count of an array or a map.
Exactly one byte, `0xc1`, is reserved and begins no value.
-/

namespace DataGateway.MessagePack

/-- The nine families of MessagePack values. -/
inductive Family
  | nil | boolean | integer | float | string | binary | array | map | extension
  deriving DecidableEq, Repr

/-- A family's name in messages. -/
def Family.label : Family → String
  | .nil => "NIL"
  | .boolean => "BOOLEAN"
  | .integer => "INTEGER"
  | .float => "FLOAT"
  | .string => "STRING"
  | .binary => "BINARY"
  | .array => "ARRAY"
  | .map => "MAP"
  | .extension => "EXTENSION"

/-- Where the number that goes with a marker stands. -/
inductive Operand
  /-- The marker holds it. -/
  | here (n : Int)
  /-- It is the next `width` bytes, unsigned. -/
  | unsigned (width : Nat)
  /-- It is the next `width` bytes in two's complement. -/
  | signed (width : Nat)
  deriving DecidableEq, Repr

/-- How many bytes after the marker the number takes. -/
def Operand.width : Operand → Nat
  | .here _ => 0
  | .unsigned width | .signed width => width

/-- The number, given the bytes after the marker that it takes. -/
def Operand.value (operand : Operand) (bytes : Bytes) : Int :=
  match operand with
  | .here n => n
  | .unsigned _ => ofBigEndian bytes
  | .signed width => (ofBigEndian bytes : Int).bmod (Nat.pow 256 width)

/-- The meaning of a marker byte. -/
structure Marker where
  family : Family
  operand : Operand
  deriving DecidableEq, Repr

/-- Reads a marker byte; the reserved byte means nothing. -/
def Marker.ofByte (b : UInt8) : Option Marker :=
  if b < 0x80 then some ⟨.integer, .here b.toNat⟩
  else if b < 0x90 then some ⟨.map, .here (b - 0x80).toNat⟩
  else if b < 0xa0 then some ⟨.array, .here (b - 0x90).toNat⟩
  else if b < 0xc0 then some ⟨.string, .here (b - 0xa0).toNat⟩
  else if 0xe0 ≤ b then some ⟨.integer, .here (b.toNat - 256)⟩
  else match b with
    | 0xc0 => some ⟨.nil, .here 0⟩
    | 0xc2 => some ⟨.boolean, .here 0⟩
    | 0xc3 => some ⟨.boolean, .here 1⟩
    | 0xc4 => some ⟨.binary, .unsigned 1⟩
    | 0xc5 => some ⟨.binary, .unsigned 2⟩
    | 0xc6 => some ⟨.binary, .unsigned 4⟩
    | 0xc7 => some ⟨.extension, .unsigned 1⟩
    | 0xc8 => some ⟨.extension, .unsigned 2⟩
    | 0xc9 => some ⟨.extension, .unsigned 4⟩
    | 0xca => some ⟨.float, .unsigned 4⟩
    | 0xcb => some ⟨.float, .unsigned 8⟩
    | 0xcc => some ⟨.integer, .unsigned 1⟩
    | 0xcd => some ⟨.integer, .unsigned 2⟩
    | 0xce => some ⟨.integer, .unsigned 4⟩
    | 0xcf => some ⟨.integer, .unsigned 8⟩
    | 0xd0 => some ⟨.integer, .signed 1⟩
    | 0xd1 => some ⟨.integer, .signed 2⟩
    | 0xd2 => some ⟨.integer, .signed 4⟩
    | 0xd3 => some ⟨.integer, .signed 8⟩
    | 0xd4 => some ⟨.extension, .here 1⟩
    | 0xd5 => some ⟨.extension, .here 2⟩
    | 0xd6 => some ⟨.extension, .here 4⟩
    | 0xd7 => some ⟨.extension, .here 8⟩
    | 0xd8 => some ⟨.extension, .here 16⟩
    | 0xd9 => some ⟨.string, .unsigned 1⟩
    | 0xda => some ⟨.string, .unsigned 2⟩
    | 0xdb => some ⟨.string, .unsigned 4⟩
    | 0xdc => some ⟨.array, .unsigned 2⟩
    | 0xdd => some ⟨.array, .unsigned 4⟩
    | 0xde => some ⟨.map, .unsigned 2⟩
    | 0xdf => some ⟨.map, .unsigned 4⟩
    | _ => none

set_option maxRecDepth 100000 in
/-- The reserved byte is the only one that is no marker. -/
theorem Marker.ofByte_eq_none_iff (b : UInt8) : ofByte b = none ↔ b = 0xc1 := by
  have all : ∀ n : Fin 256, ofByte (UInt8.ofNat n) = none ↔ UInt8.ofNat n = 0xc1 := by decide
  simpa using all ⟨b.toNat, b.toNat_lt⟩

end DataGateway.MessagePack
