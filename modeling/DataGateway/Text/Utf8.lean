import DataGateway.Bytes

/-!
# Texts as octets

A text crosses the wire as its UTF-8 octets. `octets` lays a text out and `ofOctets` reads it back,
refusing octets that are not UTF-8. A refusal says where the octets stop being UTF-8: `Fault.index`
octets are sound, and the faulty sequence after them is either cut off by the end of the text or has
a longest sound beginning of `length` octets. The table of sound continuations is that of the
well-formed byte sequences of the Unicode standard: which octet a sequence starts with decides how
many follow and which range the next one lies in.
-/

namespace DataGateway.Text

/-- Where octets stop being UTF-8. No length: the text ends inside the sequence. -/
structure Fault where
  index : Nat
  length : Option Nat
  deriving DecidableEq, Repr

/-- The UTF-8 octets of a text. -/
def octets (s : String) : Bytes := s.toUTF8.data.toList

/-- Any octet that may continue a sequence. -/
def continuation : UInt8 × UInt8 := (0x80, 0xbf)

/-- The ranges that the octets after a sequence's first octet must lie in, in order. -/
def continuations (lead : UInt8) : Option (List (UInt8 × UInt8)) :=
  if lead < 0x80 then some []
  else if lead < 0xc2 then none
  else if lead < 0xe0 then some [continuation]
  else if lead = 0xe0 then some [(0xa0, 0xbf), continuation]
  else if lead = 0xed then some [(0x80, 0x9f), continuation]
  else if lead < 0xf0 then some [continuation, continuation]
  else if lead = 0xf0 then some [(0x90, 0xbf), continuation, continuation]
  else if lead < 0xf4 then some [continuation, continuation, continuation]
  else if lead = 0xf4 then some [(0x80, 0x8f), continuation, continuation]
  else none

/-- The first fault of octets that are not UTF-8. The sequence now open began at `start`, the next
octet stands at `position`, and `due` holds the ranges of the octets the open sequence still needs.
-/
def faultFrom (start position : Nat) (due : List (UInt8 × UInt8)) : Bytes → Fault
  | [] => ⟨start, none⟩
  | b :: rest =>
    match due with
    | [] =>
      match continuations b with
      | none => ⟨position, some 1⟩
      | some due => faultFrom position (position + 1) due rest
    | (low, high) :: due =>
      if low ≤ b ∧ b ≤ high then
        faultFrom (if due.isEmpty then position + 1 else start) (position + 1) due rest
      else ⟨start, some (position - start)⟩

/-- The text that octets spell, or where they stop being UTF-8. -/
def ofOctets (bytes : Bytes) : Except Fault String :=
  match String.fromUTF8? ⟨bytes.toArray⟩ with
  | some s => .ok s
  | none => .error (faultFrom 0 0 [] bytes)

/-- Whether octets spell a text. -/
def isText (bytes : Bytes) : Bool := (ofOctets bytes).isOk

theorem ofOctets_octets (s : String) : ofOctets (octets s) = .ok s := by
  have read : String.fromUTF8? s.toByteArray = some s := by
    unfold String.fromUTF8?
    rw [dif_pos s.isValidUTF8]
    rfl
  have whole : (⟨(octets s).toArray⟩ : ByteArray) = s.toByteArray := by
    simp [octets, String.toUTF8]
  simp [ofOctets, whole, read]

theorem octets_of_ofOctets {bytes : Bytes} {s : String} (h : ofOctets bytes = .ok s) :
    octets s = bytes := by
  unfold ofOctets at h
  split at h
  · rename_i t read
    cases h
    unfold String.fromUTF8? at read
    split at read
    · cases read
      simp [octets, String.toUTF8, String.fromUTF8]
    · cases read
  · cases h

end DataGateway.Text
