import DataGateway.MessagePack.Shortest
import DataGateway.ProtocolError

/-!
# Drafts

A draft is what an encoder has put down: the bytes so far, and the fault that stopped it, if one
did. Drafts are appended in order, and nothing is put down after a fault. A draft without a fault
results in its bytes.
-/

namespace DataGateway

/-- Bytes put down, and the fault that stopped there. -/
structure Draft where
  bytes : Bytes
  fault : Option ProtocolError := none
  deriving DecidableEq

namespace Draft

/-- Nothing put down. -/
def empty : Draft := ⟨[], none⟩

/-- A fault before any byte. -/
def refuse (e : ProtocolError) : Draft := ⟨[], some e⟩

/-- A check, which puts nothing down. -/
def check : Except ProtocolError Unit → Draft
  | .ok () => empty
  | .error e => refuse e

/-- One draft after another; a fault in the first leaves the second out. -/
def append (a b : Draft) : Draft :=
  match a.fault with
  | some _ => a
  | none => ⟨a.bytes ++ b.bytes, b.fault⟩

instance : Append Draft := ⟨append⟩

/-- All drafts in order. -/
def concat (drafts : List Draft) : Draft := drafts.foldr (· ++ ·) empty

/-- The bytes of a draft without a fault. -/
def result (d : Draft) : Except ProtocolError Bytes :=
  match d.fault with
  | none => .ok d.bytes
  | some e => .error e

@[simp] theorem empty_append (d : Draft) : empty ++ d = d := by
  show append empty d = d
  simp [append, empty]

@[simp] theorem append_empty (d : Draft) : d ++ empty = d := by
  show append d empty = d
  obtain ⟨bytes, fault⟩ := d
  cases fault <;> simp [append, empty]

theorem append_assoc (a b c : Draft) : a ++ b ++ c = a ++ (b ++ c) := by
  show append (append a b) c = append a (append b c)
  obtain ⟨a, fault⟩ := a
  cases fault with
  | some e => rfl
  | none =>
      obtain ⟨b, fault⟩ := b
      cases fault <;> simp [append]

/-- Drafts result in bytes together exactly when each does, and in those bytes in order. -/
theorem result_append (a b : Draft) :
    (a ++ b).result = (do return (← a.result) ++ (← b.result)) := by
  show (append a b).result = _
  obtain ⟨a, fault⟩ := a
  cases fault with
  | some e => rfl
  | none =>
      obtain ⟨b, fault⟩ := b
      cases fault <;> rfl

/-- What stands behind a length, which must not exceed the largest length a header can announce. -/
def measured (length : Nat) (bytes : Bytes) : Draft :=
  if MessagePack.maxLength < length then refuse (.tooLarge length MessagePack.maxLength)
  else ⟨bytes, none⟩

def nil : Draft := ⟨MessagePack.nil, none⟩

def boolean (b : Bool) : Draft := ⟨MessagePack.boolean b, none⟩

def integer (n : Int) : Draft := ⟨MessagePack.integer n, none⟩

def string (octets : Bytes) : Draft :=
  measured octets.length (MessagePack.stringHead octets.length ++ octets)

def binary (bytes : Bytes) : Draft :=
  measured bytes.length (MessagePack.binaryHead bytes.length ++ bytes)

def arrayHead (length : Nat) : Draft := measured length (MessagePack.arrayHead length)

def mapHead (length : Nat) : Draft := measured length (MessagePack.mapHead length)

end Draft

end DataGateway
