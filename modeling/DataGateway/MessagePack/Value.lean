import DataGateway.MessagePack.Shortest
import DataGateway.Text.Utf8

/-!
# Dynamic values

Cells of a result row, continuation values of a query and returned column values have no fixed type
on the wire: any MessagePack value may stand there. `Value` is such a value. Floats are kept as
their bits and strings as their octets, so a value read from the wire is kept exactly, even where
its octets are no text. `Value.encode` writes a value in shortest form; octets that are no text are
written as a binary, the only family that can hold them.
-/

namespace DataGateway.MessagePack

/-- An integer that MessagePack can carry. -/
structure Integer where
  val : Int
  lower : -0x8000000000000000 ≤ val
  upper : val < 0x10000000000000000
  deriving DecidableEq

/-- The nearest integer that MessagePack can carry. -/
def Integer.ofInt (n : Int) : Integer :=
  ⟨max (-0x8000000000000000) (min n 0xffffffffffffffff), by omega, by omega⟩

theorem Integer.val_ofInt {n : Int} (lower : -0x8000000000000000 ≤ n)
    (upper : n < 0x10000000000000000) : (ofInt n).val = n := by
  simp only [ofInt]
  omega

/-- Any MessagePack value. -/
inductive Value
  | nil
  | boolean (b : Bool)
  | integer (n : Integer)
  | float32 (bits : UInt32)
  | float64 (bits : UInt64)
  | string (octets : Bytes)
  | binary (bytes : Bytes)
  | array (items : List Value)
  | map (entries : List (Value × Value))
  | extension (type : Int8) (body : Bytes)

namespace Value

/-- The string value of a text. -/
def ofString (s : String) : Value := .string (Text.octets s)

/-- The length that a four-byte header announces for `n`. -/
def announced (n : Nat) : Nat := n % 0x100000000

mutual

/-- A value in shortest form. -/
def encode : Value → Bytes
  | .nil => MessagePack.nil
  | .boolean b => MessagePack.boolean b
  | .integer n => MessagePack.integer n.val
  | .float32 bits => 0xca :: bigEndian 4 bits.toNat
  | .float64 bits => 0xcb :: bigEndian 8 bits.toNat
  | .string octets =>
    (if Text.isText octets then stringHead (announced octets.length)
      else binaryHead (announced octets.length)) ++ octets
  | .binary bytes => binaryHead (announced bytes.length) ++ bytes
  | .array items => arrayHead (announced items.length) ++ encodeItems items
  | .map entries => mapHead (announced entries.length) ++ encodeEntries entries
  | .extension type body =>
    extensionHead (announced body.length) ++ type.toUInt8 :: body

def encodeItems : List Value → Bytes
  | [] => []
  | v :: vs => encode v ++ encodeItems vs

def encodeEntries : List (Value × Value) → Bytes
  | [] => []
  | (k, v) :: es => encode k ++ (encode v ++ encodeEntries es)

end

/-- Whether two 32-bit floats are the same number: a NaN is no number, and the two zeros are one. -/
def sameFloat32 (a b : UInt32) : Bool :=
  let magnitude := fun bits : UInt32 => bits &&& 0x7fffffff
  magnitude a ≤ 0x7f800000 && magnitude b ≤ 0x7f800000
    && (a == b || (magnitude a == 0 && magnitude b == 0))

/-- Whether two 64-bit floats are the same number: a NaN is no number, and the two zeros are one. -/
def sameFloat64 (a b : UInt64) : Bool :=
  let magnitude := fun bits : UInt64 => bits &&& 0x7fffffffffffffff
  magnitude a ≤ 0x7ff0000000000000 && magnitude b ≤ 0x7ff0000000000000
    && (a == b || (magnitude a == 0 && magnitude b == 0))

mutual

/-- Whether two values mean the same; floats are compared as numbers. -/
def same : Value → Value → Bool
  | .nil, .nil => true
  | .boolean a, .boolean b => a == b
  | .integer a, .integer b => a.val == b.val
  | .float32 a, .float32 b => sameFloat32 a b
  | .float64 a, .float64 b => sameFloat64 a b
  | .string a, .string b => a == b
  | .binary a, .binary b => a == b
  | .array as, .array bs => sameItems as bs
  | .map as, .map bs => sameEntries as bs
  | .extension s a, .extension t b => s == t && a == b
  | _, _ => false

def sameItems : List Value → List Value → Bool
  | [], [] => true
  | a :: as, b :: bs => same a b && sameItems as bs
  | _, _ => false

def sameEntries : List (Value × Value) → List (Value × Value) → Bool
  | [], [] => true
  | (k, a) :: as, (l, b) :: bs => same k l && (same a b && sameEntries as bs)
  | _, _ => false

end

instance : BEq Value := ⟨same⟩

end Value

end DataGateway.MessagePack
