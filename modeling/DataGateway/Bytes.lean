/-!
# Byte strings and big-endian words

Everything the gateway exchanges is a list of bytes. Numbers of more than one byte travel most
significant byte first; `bigEndian` lays a number out in a fixed width and `ofBigEndian` reads one
back, so on numbers that fit the width the second undoes the first.
-/

namespace DataGateway

/-- A byte string. -/
abbrev Bytes := List UInt8

/-- The low `width` bytes of `n`, most significant first. -/
def bigEndian : (width n : Nat) → Bytes
  | 0, _ => []
  | width + 1, n => UInt8.ofNat (n / Nat.pow 256 width) :: bigEndian width n

/-- The number that a byte string spells, most significant byte first. -/
def ofBigEndian (bytes : Bytes) : Nat :=
  bytes.foldl (fun n b => n * 256 + b.toNat) 0

@[simp] theorem length_bigEndian (width n : Nat) : (bigEndian width n).length = width := by
  induction width with
  | zero => rfl
  | succ width ih => simp [bigEndian, ih]

private theorem foldl_bigEndian (width n acc : Nat) :
    (bigEndian width n).foldl (fun n b => n * 256 + b.toNat) acc
      = acc * Nat.pow 256 width + n % Nat.pow 256 width := by
  induction width generalizing acc with
  | zero => simp [bigEndian, Nat.mod_one]
  | succ width ih =>
      have power : Nat.pow 256 (width + 1) = Nat.pow 256 width * 256 := rfl
      have digit : n % Nat.pow 256 (width + 1)
          = n / Nat.pow 256 width % 256 * Nat.pow 256 width + n % Nat.pow 256 width := by
        rw [power, Nat.mod_mul, Nat.mul_comm, Nat.add_comm]
      have byte : (UInt8.ofNat (n / Nat.pow 256 width)).toNat = n / Nat.pow 256 width % 256 :=
        UInt8.toNat_ofNat'
      rw [bigEndian, List.foldl_cons, ih, digit, byte, Nat.add_mul, Nat.mul_assoc, Nat.add_assoc,
        power, Nat.mul_comm 256]

/-- Reading a word back gives the number modulo the width's range. -/
theorem ofBigEndian_bigEndian (width n : Nat) :
    ofBigEndian (bigEndian width n) = n % Nat.pow 256 width := by
  simp [ofBigEndian, foldl_bigEndian]

end DataGateway
