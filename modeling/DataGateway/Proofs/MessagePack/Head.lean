import DataGateway.MessagePack.Marker
import DataGateway.MessagePack.Shortest
import Mathlib.Algebra.Order.Ring.Int

/-!
# Heads

The head of a value is its marker with the bytes of the number that goes with it. A reader accepts
every head, whatever form it takes; the encoder writes one of them. Both meet in `Head`: what a
family's number may be is read off the marker table once, and every shortest form is shown to be a
head of the number it was made from.
-/

namespace DataGateway

private theorem foldl_ofBigEndian (bytes : Bytes) (acc : Nat) :
    bytes.foldl (fun n b => n * 256 + b.toNat) acc
      = acc * 256 ^ bytes.length + ofBigEndian bytes := by
  unfold ofBigEndian
  induction bytes generalizing acc with
  | nil => simp
  | cons b bytes ih =>
      rw [List.foldl_cons, List.foldl_cons, ih, ih (0 * 256 + b.toNat), List.length_cons,
        Nat.zero_mul, Nat.zero_add, Nat.add_mul, Nat.pow_succ, Nat.mul_assoc, Nat.mul_comm 256,
        Nat.add_assoc]

/-- The first byte is the most significant one. -/
theorem ofBigEndian_cons (b : UInt8) (bytes : Bytes) :
    ofBigEndian (b :: bytes) = b.toNat * 256 ^ bytes.length + ofBigEndian bytes := by
  rw [ofBigEndian, List.foldl_cons, foldl_ofBigEndian, Nat.zero_mul, Nat.zero_add]

theorem ofBigEndian_lt (bytes : Bytes) : ofBigEndian bytes < 256 ^ bytes.length := by
  induction bytes with
  | nil => simp [ofBigEndian]
  | cons b bytes ih =>
      have hb : b.toNat < 256 := b.toNat_lt
      calc
        _ = b.toNat * 256 ^ bytes.length + ofBigEndian bytes := ofBigEndian_cons b bytes
        _ < b.toNat * 256 ^ bytes.length + 256 ^ bytes.length := Nat.add_lt_add_left ih _
        _ = (b.toNat + 1) * 256 ^ bytes.length := (Nat.succ_mul _ _).symm
        _ ≤ 256 * 256 ^ bytes.length := Nat.mul_le_mul_right _ hb
        _ = 256 ^ (b :: bytes).length := by rw [List.length_cons, Nat.pow_succ, Nat.mul_comm]

namespace MessagePack

/-- Bytes that begin a value of a family: a marker and the bytes of the number that goes with it. -/
def Head (family : Family) (n : Int) (head : Bytes) : Prop :=
  ∃ b marker operand, Marker.ofByte b = some marker ∧ marker.family = family
    ∧ operand.length = marker.operand.width ∧ marker.operand.value operand = n ∧ head = b :: operand

/-! ### What the marker table says -/

/-- How many bytes the number of a value of a family may take. -/
def Family.widest : Family → Nat
  | .integer | .float => 8
  | .string | .binary | .array | .map | .extension => 4
  | .nil | .boolean => 0

/-- What holds of every row of the marker table: a number in the marker is small, and a length is
unsigned and has at most four bytes. -/
private def Marker.Regular (marker : Marker) : Prop :=
  match marker.operand with
  | .here n => -32 ≤ n ∧ n < 128 ∧ (marker.family = .integer ∨ 0 ≤ n)
  | .unsigned width => width ≤ marker.family.widest
  | .signed width => 0 < width ∧ width ≤ 8 ∧ marker.family = .integer

private instance (marker : Marker) : Decidable marker.Regular := by
  unfold Marker.Regular
  cases marker.operand <;> infer_instance

set_option maxRecDepth 100000 in
private theorem Marker.regular_of_ofByte {b : UInt8} {marker : Marker}
    (hb : ofByte b = some marker) : marker.Regular := by
  have hall : ∀ n : Fin 256, ∀ m ∈ ofByte (UInt8.ofNat n), m.Regular := by decide +kernel
  exact hall ⟨b.toNat, b.toNat_lt⟩ marker (by simpa using hb)

set_option maxRecDepth 100000 in
/-- Only one byte is nil. -/
theorem Marker.family_eq_nil_iff {b : UInt8} {marker : Marker} (hb : ofByte b = some marker) :
    marker.family = .nil ↔ b = 0xc0 := by
  have hall : ∀ n : Fin 256, ∀ m ∈ ofByte (UInt8.ofNat n),
      m.family = .nil ↔ UInt8.ofNat n = 0xc0 := by decide +kernel
  simpa using hall ⟨b.toNat, b.toNat_lt⟩ marker (by simpa using hb)

set_option maxRecDepth 100000 in
/-- Only two bytes begin a float, which takes four bytes or eight. -/
theorem Marker.eq_of_family_float {b : UInt8} {marker : Marker} (hb : ofByte b = some marker)
    (hfloat : marker.family = .float) :
    b = 0xca ∧ marker.operand = .unsigned 4 ∨ b = 0xcb ∧ marker.operand = .unsigned 8 := by
  have hall : ∀ n : Fin 256, ∀ m ∈ ofByte (UInt8.ofNat n), m.family = .float →
      UInt8.ofNat n = 0xca ∧ m.operand = .unsigned 4
        ∨ UInt8.ofNat n = 0xcb ∧ m.operand = .unsigned 8 := by decide +kernel
  simpa using hall ⟨b.toNat, b.toNat_lt⟩ marker (by simpa using hb) hfloat

set_option maxRecDepth 100000 in
/-- An array's marker holds the number of elements, or two or four bytes after it do. -/
theorem Marker.operand_of_family_array {b : UInt8} {marker : Marker}
    (hb : ofByte b = some marker) (harray : marker.family = .array) :
    marker.operand = .here ((b.toNat : Int) - 0x90) ∨ marker.operand = .unsigned 2
      ∨ marker.operand = .unsigned 4 := by
  have hall : ∀ n : Fin 256, ∀ m ∈ ofByte (UInt8.ofNat n), m.family = .array →
      m.operand = .here ((n : Int) - 0x90) ∨ m.operand = .unsigned 2
        ∨ m.operand = .unsigned 4 := by decide +kernel
  simpa using hall ⟨b.toNat, b.toNat_lt⟩ marker (by simpa using hb) harray

/-- A number of elements below 256 stands in the marker, or behind a zero. -/
theorem Head.array_cases {n : Int} {head : Bytes} (h : Head .array n head) (hn : n < 256) :
    ∃ b operand, head = b :: operand
      ∧ ((b.toNat : Int) = 0x90 + n ∨ ∃ rest, operand = 0 :: rest) := by
  obtain ⟨b, marker, operand, hb, hfamily, hlength, hvalue, rfl⟩ := h
  refine ⟨b, operand, rfl, ?_⟩
  have hwide : 2 ≤ operand.length → (ofBigEndian operand : Int) = n →
      ∃ rest, operand = 0 :: rest := by
    intro htwo hnumber
    obtain ⟨c, d, rest, rfl⟩ : ∃ c d rest, operand = c :: d :: rest := by
      match operand, htwo with
      | c :: d :: rest, _ => exact ⟨c, d, rest, rfl⟩
    rw [ofBigEndian_cons, List.length_cons, Nat.pow_succ] at hnumber
    have hpow : 0 < 256 ^ rest.length := Nat.pow_pos (by decide)
    have hc : c.toNat = (0 : UInt8).toNat := by
      by_contra hne
      have hmul := Nat.mul_le_mul (Nat.pos_of_ne_zero hne) (Nat.mul_le_mul_right 256 hpow)
      omega
    rw [UInt8.toNat_inj.1 hc]
    exact ⟨_, rfl⟩
  rcases Marker.operand_of_family_array hb hfamily with hmarker | hmarker | hmarker
  · rw [hmarker, Operand.value] at hvalue
    left
    omega
  · rw [hmarker] at hlength hvalue
    exact .inr (hwide (by rw [hlength]; decide) hvalue)
  · rw [hmarker] at hlength hvalue
    exact .inr (hwide (by rw [hlength]; decide) hvalue)

/-- The number that goes with a string, a binary, an extension or a container is a length that four
bytes can announce. -/
theorem Head.length_lt {family : Family} {n : Int} {head : Bytes} (h : Head family n head)
    (hfamily : family.widest = 4) : 0 ≤ n ∧ n < 2 ^ 32 := by
  obtain ⟨b, ⟨_, operand⟩, bytes, hb, rfl, hlength, rfl, rfl⟩ := h
  have hnumber := Marker.regular_of_ofByte hb
  unfold Marker.Regular at hnumber
  cases operand with
  | here n =>
      rcases hnumber with ⟨_, hn, rfl | hpos⟩
      · cases hfamily
      · simp only [Operand.value]
        omega
  | unsigned width =>
      have hlt := ofBigEndian_lt bytes
      have hwidth : bytes.length ≤ 4 := by
        simpa only [hlength, Operand.width, ← hfamily] using hnumber
      have hpow : 256 ^ bytes.length ≤ 256 ^ 4 := Nat.pow_le_pow_right (by decide) hwidth
      simp only [Operand.value]
      omega
  | signed width =>
      obtain ⟨_, _, rfl⟩ := hnumber
      cases hfamily

theorem Head.of_toNat {family : Family} {n : Int} {head : Bytes} (h : Head family n head)
    (hfamily : family.widest = 4) {k : Nat} (hk : k = n.toNat) : Head family k head := by
  obtain rfl : n = k := by
    have := (h.length_lt hfamily).1
    omega
  exact h

/-- The number of an integer is one that MessagePack can carry. -/
theorem Head.integer_bounds {n : Int} {head : Bytes} (h : Head .integer n head) :
    -2 ^ 63 ≤ n ∧ n < 2 ^ 64 := by
  obtain ⟨b, ⟨_, operand⟩, bytes, hb, rfl, hlength, rfl, rfl⟩ := h
  have hnumber := Marker.regular_of_ofByte hb
  unfold Marker.Regular at hnumber
  cases operand with
  | here n =>
      simp only [Operand.value]
      omega
  | unsigned width =>
      have hlt := ofBigEndian_lt bytes
      have hwidth : bytes.length ≤ 8 := by
        simpa only [hlength, Operand.width, Family.widest] using hnumber
      have hpow : 256 ^ bytes.length ≤ 256 ^ 8 := Nat.pow_le_pow_right (by decide) hwidth
      simp only [Operand.value]
      omega
  | signed width =>
      obtain ⟨_, hwidth, _⟩ := hnumber
      have hpow : 256 ^ width ≤ 256 ^ 8 := Nat.pow_le_pow_right (by decide) hwidth
      have hpos : 0 < 256 ^ width := Nat.pow_pos (by decide)
      have hlow := Int.le_bmod (x := (ofBigEndian bytes : Int)) hpos
      have hhigh := Int.bmod_lt (x := (ofBigEndian bytes : Int)) hpos
      simp only [Operand.value, Nat.pow_eq]
      omega

/-! ### Shortest forms are heads -/

private theorem head_of_here {b : UInt8} {family : Family} {n : Int}
    (hb : Marker.ofByte b = some ⟨family, .here n⟩) : Head family n [b] :=
  ⟨b, _, [], hb, rfl, rfl, rfl, rfl⟩

private theorem head_of_unsigned {b : UInt8} {family : Family} {width n : Nat}
    (hb : Marker.ofByte b = some ⟨family, .unsigned width⟩) (hn : n < 256 ^ width) :
    Head family n (b :: bigEndian width n) := by
  refine ⟨b, _, bigEndian width n, hb, rfl, length_bigEndian width n, ?_, rfl⟩
  rw [Operand.value, ofBigEndian_bigEndian, Nat.pow_eq, Nat.mod_eq_of_lt hn]

private theorem head_of_signed {b : UInt8} {width : Nat} {n : Int} {word : Nat}
    (hb : Marker.ofByte b = some ⟨.integer, .signed width⟩) (hword : (word : Int) = 256 ^ width + n)
    (hlow : -(256 ^ width) ≤ 2 * n) (hneg : n < 0) :
    Head .integer n (b :: bigEndian width word) := by
  refine ⟨b, _, bigEndian width word, hb, rfl, length_bigEndian width word, ?_, rfl⟩
  have hlt : word < 256 ^ width := by
    have hcast : ((256 ^ width : Nat) : Int) = 256 ^ width := by simp
    omega
  have hbalanced : n.bmod (256 ^ width) = n := by
    apply Int.bmod_eq_of_le_mul_two
    · simpa using by omega
    · simpa using by omega
  have hshift : ((256 : Int) ^ width + n).bmod (256 ^ width) = n.bmod (256 ^ width) := by
    simpa using Int.add_bmod_left (256 ^ width) n
  rw [Operand.value, ofBigEndian_bigEndian, Nat.pow_eq, Nat.mod_eq_of_lt hlt, hword, hshift,
    hbalanced]

set_option maxRecDepth 100000 in
private theorem ofByte_fixint (k : Fin 128) :
    Marker.ofByte (UInt8.ofNat k) = some ⟨.integer, .here k⟩ := by
  revert k
  decide +kernel

set_option maxRecDepth 100000 in
private theorem ofByte_fixneg (k : Fin 32) :
    Marker.ofByte (UInt8.ofNat (0xe0 + k)) = some ⟨.integer, .here ((k : Int) - 32)⟩ := by
  revert k
  decide +kernel

set_option maxRecDepth 100000 in
private theorem ofByte_fixstr (k : Fin 32) :
    Marker.ofByte (UInt8.ofNat (0xa0 + k)) = some ⟨.string, .here k⟩ := by
  revert k
  decide +kernel

set_option maxRecDepth 100000 in
private theorem ofByte_fixarray (k : Fin 16) :
    Marker.ofByte (UInt8.ofNat (0x90 + k)) = some ⟨.array, .here k⟩ := by
  revert k
  decide +kernel

set_option maxRecDepth 100000 in
private theorem ofByte_fixmap (k : Fin 16) :
    Marker.ofByte (UInt8.ofNat (0x80 + k)) = some ⟨.map, .here k⟩ := by
  revert k
  decide +kernel

theorem nil_head : Head .nil 0 nil := head_of_here rfl

theorem boolean_head (b : Bool) : Head .boolean (if b then 1 else 0) (boolean b) := by
  cases b <;> exact head_of_here rfl

theorem integer_head {n : Int} (hlow : -2 ^ 63 ≤ n) (hhigh : n < 2 ^ 64) :
    Head .integer n (integer n) := by
  unfold integer
  split
  · obtain ⟨k, rfl⟩ := Int.eq_ofNat_of_zero_le ‹0 ≤ n›
    simp only [Int.toNat_natCast]
    split
    · exact head_of_here (ofByte_fixint ⟨k, by omega⟩)
    split
    · exact head_of_unsigned rfl (by omega)
    split
    · exact head_of_unsigned rfl (by omega)
    split
    · exact head_of_unsigned rfl (by omega)
    · exact head_of_unsigned rfl (by omega)
  · split
    · have hbyte := ofByte_fixneg ⟨(n + 32).toNat, by omega⟩
      have hindex : 0xe0 + (n + 32).toNat = (0x100 + n).toNat := by omega
      have hvalue : ((n + 32).toNat : Int) - 32 = n := by omega
      simp only [hindex, hvalue] at hbyte
      exact head_of_here hbyte
    split
    · exact head_of_signed rfl (by omega) (by omega) (by omega)
    split
    · exact head_of_signed rfl (by omega) (by omega) (by omega)
    split
    · exact head_of_signed rfl (by omega) (by omega) (by omega)
    · exact head_of_signed rfl (by omega) (by omega) (by omega)

theorem stringHead_head {length : Nat} (hlength : length < 2 ^ 32) :
    Head .string length (stringHead length) := by
  unfold stringHead
  split
  · exact head_of_here (ofByte_fixstr ⟨length, by omega⟩)
  split
  · exact head_of_unsigned rfl (by omega)
  split
  · exact head_of_unsigned rfl (by omega)
  · exact head_of_unsigned rfl (by omega)

theorem binaryHead_head {length : Nat} (hlength : length < 2 ^ 32) :
    Head .binary length (binaryHead length) := by
  unfold binaryHead
  split
  · exact head_of_unsigned rfl (by omega)
  split
  · exact head_of_unsigned rfl (by omega)
  · exact head_of_unsigned rfl (by omega)

theorem arrayHead_head {length : Nat} (hlength : length < 2 ^ 32) :
    Head .array length (arrayHead length) := by
  unfold arrayHead
  split
  · exact head_of_here (ofByte_fixarray ⟨length, by omega⟩)
  split
  · exact head_of_unsigned rfl (by omega)
  · exact head_of_unsigned rfl (by omega)

theorem mapHead_head {length : Nat} (hlength : length < 2 ^ 32) :
    Head .map length (mapHead length) := by
  unfold mapHead
  split
  · exact head_of_here (ofByte_fixmap ⟨length, by omega⟩)
  split
  · exact head_of_unsigned rfl (by omega)
  · exact head_of_unsigned rfl (by omega)

theorem extensionHead_head {length : Nat} (hlength : length < 2 ^ 32) :
    Head .extension length (extensionHead length) := by
  unfold extensionHead
  split
  · exact head_of_here rfl
  · exact head_of_here rfl
  · exact head_of_here rfl
  · exact head_of_here rfl
  · exact head_of_here rfl
  split
  · exact head_of_unsigned rfl (by omega)
  split
  · exact head_of_unsigned rfl (by omega)
  · exact head_of_unsigned rfl (by omega)

end MessagePack

end DataGateway
