import DataGateway.ProtocolError

/-!
# Readers

A reader takes what it needs off the front of the bytes still unread and leaves the rest; where it
fails, the bytes it took stay taken. Every typed read looks at the next marker first: a nil is
accepted anywhere and reads as nothing, another family than the expected one is an error that takes
no byte, and only then is the number that goes with the marker read. Whether nothing is acceptable
is for the owner of the field to say (`Reader.required`).
-/

namespace DataGateway

open MessagePack (Family Marker Operand)

/-- A reader of `α`, over the bytes still unread. -/
abbrev Reader (α : Type) := EStateM ProtocolError Bytes α

namespace Reader

/-- The marker of the next value, which stays unread. -/
def peek : Reader Marker := fun rest =>
  match rest with
  | [] => .error .unexpectedEnd rest
  | b :: _ =>
    match Marker.ofByte b with
    | none => .error (.malformed .reservedMarker) rest
    | some marker => .ok marker rest

/-- Takes one byte off, if there is one. -/
def skip : Reader Unit := modify List.tail

/-- Takes `n` bytes off, or fails with `cut`, given how many there are, and takes none. -/
def takeOr (cut : Nat → ProtocolError) (n : Nat) : Reader Bytes := fun rest =>
  let (taken, left) := rest.splitAt n
  let found := taken.length
  if found = n then .ok taken left else .error (cut found) rest

/-- What stands in front is taken off whole. -/
theorem takeOr_append (cut : Nat → ProtocolError) (front rest : Bytes) :
    takeOr cut front.length (front ++ rest) = .ok front rest := by
  simp [takeOr, List.splitAt_eq]

theorem takeOr_eq_error (cut : Nat → ProtocolError) {n : Nat} {rest : Bytes}
    (short : rest.length < n) : takeOr cut n rest = .error (cut rest.length) rest := by
  have found : min n rest.length = rest.length := by omega
  simp [takeOr, List.splitAt_eq, found, Nat.ne_of_lt short]

/-- An outcome that takes no byte. -/
def ofExcept {α : Type} : Except ProtocolError α → Reader α
  | .ok a => pure a
  | .error e => throw e

/-- The number that goes with a marker already taken, or `cut` where the bytes end inside it. -/
def numberOr (cut : ProtocolError) (operand : Operand) : Reader Int :=
  operand.value <$> takeOr (fun _ => cut) operand.width

/-- The number that goes with a marker already taken. -/
def number (operand : Operand) : Reader Int := numberOr (.malformed .cutOperand) operand

/-- The length that goes with a marker already taken. -/
def length (operand : Operand) : Reader Nat := Int.toNat <$> number operand

/-- A value of the expected family, read by `body` from its marker's operand; nil reads as nothing.
-/
def typed {α : Type} (slot : Slot) (expected : Family) (body : Operand → Reader α) :
    Reader (Option α) := do
  let marker ← peek
  if marker.family = .nil then
    skip
    return none
  if marker.family ≠ expected then
    throw (.typeMismatch slot marker.family expected)
  skip
  some <$> body marker.operand

/-- Refuses a nil. -/
def required {α : Type} (read : Slot → Reader (Option α)) (slot : Slot) : Reader α := do
  match ← read slot with
  | some a => return a
  | none => throw (.missingField slot)

/-- Reads `n` times, adding to the items `done` in reverse. -/
def timesOnto {α : Type} (read : Reader α) : Nat → List α → Reader (List α)
  | 0, done => return done.reverse
  | n + 1, done => do
    let a ← read
    timesOnto read n (a :: done)

/-- Reads `n` times. -/
def times {α : Type} (n : Nat) (read : Reader α) : Reader (List α) := timesOnto read n []

private theorem timesOnto_eq {α : Type} (read : Reader α) (n : Nat) (done : List α) :
    timesOnto read n done = (done.reverse ++ ·) <$> timesOnto read n [] := by
  induction n generalizing done with
  | zero => simp [timesOnto]
  | succ n ih =>
      simp only [timesOnto, map_bind]
      congr 1
      funext a
      rw [ih (a :: done), ih [a]]
      simp [Functor.map_map]

@[simp] theorem times_zero {α : Type} (read : Reader α) : times 0 read = pure [] := rfl

theorem times_succ {α : Type} (n : Nat) (read : Reader α) :
    times (n + 1) read = (do let a ← read; let rest ← times n read; pure (a :: rest)) := by
  simp only [times, timesOnto]
  congr 1
  funext a
  rw [timesOnto_eq]
  simp

/-- Fails unless every byte has been taken. -/
def finish : Reader Unit := fun rest =>
  match rest with
  | [] => .ok () rest
  | _ => .error (.trailingBytes rest.length) rest

/-- The outcome of reading a whole byte string from its start, whatever is left. -/
def outcome {α : Type} (read : Reader α) (bytes : Bytes) : Except ProtocolError α :=
  match read.run bytes with
  | .ok a _ => .ok a
  | .error e _ => .error e

/-- The header of an array that must have `count` elements; `owner` names what the array holds. -/
def sequence (owner : String) (count : Nat) : Reader Unit := do
  let marker ← peek
  if marker.family ≠ .array then
    throw (.typeMismatch ⟨"<sequence>", owner⟩ marker.family .array)
  skip
  let found ← length marker.operand
  if found ≠ count then
    throw (.elementCount owner count found)

def boolean (slot : Slot) : Reader (Option Bool) :=
  typed slot .boolean fun operand => (· != 0) <$> number operand

/-- An integer in the signed 64-bit range. -/
def long (slot : Slot) : Reader (Option Int64) :=
  typed slot .integer fun operand => do
    let n ← number operand
    if n < 0x8000000000000000 then return Int64.ofInt n
    throw (.malformed .beyondLong)

/-- An integer in the signed 32-bit range. -/
def int (slot : Slot) : Reader (Option Int32) := do
  match ← long slot with
  | none => return none
  | some n =>
    if -0x80000000 ≤ n.toInt ∧ n.toInt < 0x80000000 then return some n.toInt32
    throw (.integerOutOfRange slot n)

/-- A string, which must be UTF-8. -/
def text (slot : Slot) : Reader (Option String) :=
  typed slot .string fun operand => do
    let octets ← takeOr (fun _ => .unexpectedEnd) (← length operand)
    match Text.ofOctets octets with
    | .ok s => return s
    | .error fault => throw (.malformed (.notText fault))

def binary (slot : Slot) : Reader (Option Bytes) :=
  typed slot .binary fun operand => do
    takeOr (fun _ => .unexpectedEnd) (← length operand)

/-- The element count of an array, whose elements stay unread. -/
def arrayLength (slot : Slot) : Reader (Option Nat) := typed slot .array length

/-- The entry count of a map, whose entries stay unread. -/
def mapLength (slot : Slot) : Reader (Option Nat) := typed slot .map length

end Reader

end DataGateway
