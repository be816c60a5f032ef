import DataGateway.Bytes

/-!
# Digits

Numbers as text, in any radix up to sixteen: `natural?` reads one and takes nothing but digits, so
there is neither a sign nor a separator nor an empty number, and `fixed` writes one in a fixed width
of lower-case digits. Bytes as text are two such digits each, and are read back from them.
-/

namespace DataGateway.Text

/-- What a character counts for as a digit. -/
def digit? (c : Char) : Option Nat :=
  if '0' ≤ c ∧ c ≤ '9' then some (c.toNat - '0'.toNat)
  else if 'a' ≤ c ∧ c ≤ 'f' then some (c.toNat - 'a'.toNat + 10)
  else if 'A' ≤ c ∧ c ≤ 'F' then some (c.toNat - 'A'.toNat + 10)
  else none

/-- The number that digits spell after those that spell `n`. -/
def naturalFrom? (radix n : Nat) : List Char → Option Nat
  | [] => some n
  | c :: cs => do
    let d ← digit? c
    if d < radix then naturalFrom? radix (n * radix + d) cs else none

/-- The number that a text of digits spells. -/
def natural? (radix : Nat) (cs : List Char) : Option Nat :=
  if cs = [] then none else naturalFrom? radix 0 cs

/-- Whether a text has nothing but decimal digits. -/
def allDigits (cs : List Char) : Bool := cs.all fun c => '0' ≤ c && c ≤ '9'

/-- The lower-case digit for a number below sixteen. -/
def digitChar (n : Nat) : Char :=
  Char.ofNat (if n < 10 then '0'.toNat + n else 'a'.toNat + (n - 10))

/-- The lowest `width` digits of a number. -/
def fixed (radix : Nat) : (width n : Nat) → List Char
  | 0, _ => []
  | width + 1, n => fixed radix width (n / radix) ++ [digitChar (n % radix)]

/-- A number without leading zeros, in a radix of at least two. -/
def shortest (radix n : Nat) : List Char :=
  if _h : 2 ≤ radix ∧ radix ≤ n then shortest radix (n / radix) ++ [digitChar (n % radix)]
  else [digitChar n]
termination_by n
decreasing_by exact Nat.div_lt_self (by omega) (by omega)

/-- Bytes as pairs of hexadecimal digits. -/
def hex (bytes : Bytes) : String :=
  String.ofList (bytes.flatMap fun b => [digitChar (b.toNat / 16), digitChar (b.toNat % 16)])

/-- The bytes that pairs of hexadecimal digits stand for, after those in `done`, last first. -/
def unhexFrom? (done : Bytes) : List Char → Option Bytes
  | [] => some done.reverse
  | [_] => none
  | a :: b :: rest => do
    let high ← digit? a
    let low ← digit? b
    unhexFrom? (UInt8.ofNat (16 * high + low) :: done) rest

/-- The bytes that pairs of hexadecimal digits stand for. -/
def unhex? (cs : List Char) : Option Bytes := unhexFrom? [] cs

theorem digit?_digitChar {n : Nat} (h : n < 16) : digit? (digitChar n) = some n := by
  have all : ∀ n : Fin 16, digit? (digitChar n) = some n.val := by decide
  exact all ⟨n, h⟩

private theorem unhexFrom?_hex (done bytes : Bytes) :
    unhexFrom? done (bytes.flatMap fun b => [digitChar (b.toNat / 16), digitChar (b.toNat % 16)])
      = some (done.reverse ++ bytes) := by
  induction bytes generalizing done with
  | nil => simp [unhexFrom?]
  | cons b bytes ih =>
      have high : b.toNat / 16 < 16 := by have := b.toNat_lt; omega
      have low : b.toNat % 16 < 16 := by omega
      have byte : UInt8.ofNat (16 * (b.toNat / 16) + b.toNat % 16) = b := by
        rw [Nat.div_add_mod]
        simp
      simp only [List.flatMap_cons, List.cons_append, List.nil_append, unhexFrom?,
        digit?_digitChar high, digit?_digitChar low, bind, Option.bind, byte, ih]
      simp

/-- Bytes are read back from their digits. -/
theorem unhex?_hex (bytes : Bytes) : unhex? (hex bytes).toList = some bytes := by
  simp [unhex?, hex, unhexFrom?_hex]

end DataGateway.Text
