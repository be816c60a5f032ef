import DataGateway.Bytes

/-!
# Shortest forms

The encoder's choices where MessagePack leaves one: an integer takes the fewest bytes that hold it,
non-negative ones without a sign, and a length takes the smallest header that can announce it. The
widest headers have four bytes of length, so a length of `2 ^ 32` or more has no header of its own;
whoever writes one checks that first.
-/

namespace DataGateway.MessagePack

/-- The largest length a header can announce. -/
def maxLength : Nat := 0xffffffff

def nil : Bytes := [0xc0]

def boolean (b : Bool) : Bytes := [if b then 0xc3 else 0xc2]

/-- An integer in its shortest form. -/
def integer (n : Int) : Bytes :=
  if 0 ≤ n then
    if n < 0x80 then [UInt8.ofNat n.toNat]
    else if n < 0x100 then 0xcc :: bigEndian 1 n.toNat
    else if n < 0x10000 then 0xcd :: bigEndian 2 n.toNat
    else if n < 0x100000000 then 0xce :: bigEndian 4 n.toNat
    else 0xcf :: bigEndian 8 n.toNat
  else
    if -0x20 ≤ n then [UInt8.ofNat (0x100 + n).toNat]
    else if -0x80 ≤ n then 0xd0 :: bigEndian 1 (0x100 + n).toNat
    else if -0x8000 ≤ n then 0xd1 :: bigEndian 2 (0x10000 + n).toNat
    else if -0x80000000 ≤ n then 0xd2 :: bigEndian 4 (0x100000000 + n).toNat
    else 0xd3 :: bigEndian 8 (0x10000000000000000 + n).toNat

/-- The header of a string of `length` octets. -/
def stringHead (length : Nat) : Bytes :=
  if length < 32 then [UInt8.ofNat (0xa0 + length)]
  else if length < 0x100 then 0xd9 :: bigEndian 1 length
  else if length < 0x10000 then 0xda :: bigEndian 2 length
  else 0xdb :: bigEndian 4 length

/-- The header of a binary of `length` bytes. -/
def binaryHead (length : Nat) : Bytes :=
  if length < 0x100 then 0xc4 :: bigEndian 1 length
  else if length < 0x10000 then 0xc5 :: bigEndian 2 length
  else 0xc6 :: bigEndian 4 length

/-- The header of an array of `length` elements. -/
def arrayHead (length : Nat) : Bytes :=
  if length < 16 then [UInt8.ofNat (0x90 + length)]
  else if length < 0x10000 then 0xdc :: bigEndian 2 length
  else 0xdd :: bigEndian 4 length

/-- The header of a map of `length` entries. -/
def mapHead (length : Nat) : Bytes :=
  if length < 16 then [UInt8.ofNat (0x80 + length)]
  else if length < 0x10000 then 0xde :: bigEndian 2 length
  else 0xdf :: bigEndian 4 length

/-- The header of an extension with a body of `length` bytes, up to its type. -/
def extensionHead (length : Nat) : Bytes :=
  match length with
  | 1 => [0xd4]
  | 2 => [0xd5]
  | 4 => [0xd6]
  | 8 => [0xd7]
  | 16 => [0xd8]
  | length =>
    if length < 0x100 then 0xc7 :: bigEndian 1 length
    else if length < 0x10000 then 0xc8 :: bigEndian 2 length
    else 0xc9 :: bigEndian 4 length

end DataGateway.MessagePack
