import DataGateway.ProtocolError

/-!
# Kept bytes

The encoded form of a message is made at most once. `Kept` holds it once it is there: asking for the
bytes gives the ones held, and otherwise encodes and holds the outcome if it is no error. What is
held never tells two messages apart, so any two are equal here.
-/

namespace DataGateway

/-- The encoded form, if it has been made. -/
structure Kept where
  bytes : Option Bytes := none

namespace Kept

/-- The bytes held or encoded, and what is held from then on. -/
def getOrEncode (k : Kept) (encode : Except ProtocolError Bytes) :
    Except ProtocolError Bytes × Kept :=
  match k.bytes with
  | some bytes => (.ok bytes, k)
  | none =>
    match encode with
    | .ok bytes => (.ok bytes, ⟨some bytes⟩)
    | .error e => (.error e, k)

/-- Whether asking for the bytes has to encode. -/
def mustEncode (k : Kept) : Bool := k.bytes.isNone

def label (k : Kept) : String :=
  match k.bytes with
  | some bytes => "RawCache(" ++ toString bytes.length ++ " bytes)"
  | none => "RawCache(empty)"

instance : BEq Kept := ⟨fun _ _ => true⟩

end Kept

end DataGateway
