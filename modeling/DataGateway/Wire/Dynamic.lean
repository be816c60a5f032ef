import DataGateway.MessagePack.Value
import DataGateway.Wire.Reader

/-!
# Reading dynamic values

A dynamic value is read within a depth budget. A value takes one unit; then the elements of an array
or map take one more, which they share, the body of a binary takes one more, and the body of a
string or an extension two more. Each unit is taken at the moment it is needed, after the length
of the value has been read, and where none is left the value nests too deep. The reserved marker is
refused where the outermost value begins and stands for nil inside it.
-/

namespace DataGateway.MessagePack.Value

/-- The budget of an outermost value. -/
def depthBudget : Nat := 1024

/-- The marker of a value inside a dynamic value, which is taken. -/
def marker : Reader Marker := fun rest =>
  match rest with
  | [] => .error (.malformed .cutDynamicMarker) rest
  | b :: rest => .ok ((Marker.ofByte b).getD ⟨.nil, .here 0⟩) rest

def number (operand : Operand) : Reader Int :=
  Reader.numberOr (.malformed .cutDynamicOperand) operand

def body (n : Nat) : Reader Bytes :=
  Reader.takeOr (fun found => .malformed (.cutDynamicBody n found)) n

/-- The extension type, one byte in two's complement. -/
def extensionType : Reader Int8 :=
  (Int8.ofInt ·) <$> number (.signed 1)

/-- Fails unless that many `units` of the budget are `left`. -/
def afford (left units : Nat) : Reader Unit := do
  if left < units then throw (.malformed .tooDeep)

/-- A value within a depth budget. -/
def readWithin : (budget : Nat) → Reader Value
  | 0 => throw (.malformed .tooDeep)
  | left + 1 => do
    let marker ← marker
    let n ← number marker.operand
    match marker.family with
    | .nil => return .nil
    | .boolean => return .boolean (n != 0)
    | .integer => return .integer (Integer.ofInt n)
    | .float =>
      return if marker.operand.width = 4 then .float32 (UInt32.ofNat n.toNat)
        else .float64 (UInt64.ofNat n.toNat)
    | .string =>
      afford left 2
      return .string (← body n.toNat)
    | .binary =>
      afford left 1
      return .binary (← body n.toNat)
    | .array =>
      match left with
      | 0 => throw (.malformed .tooDeep)
      | left + 1 => return .array (← Reader.times n.toNat (readWithin left))
    | .map =>
      match left with
      | 0 => throw (.malformed .tooDeep)
      | left + 1 =>
        return .map (← Reader.times n.toNat do
          let key ← readWithin left
          let value ← readWithin left
          return (key, value))
    | .extension =>
      afford left 1
      let type ← extensionType
      afford left 2
      return .extension type (← body n.toNat)

/-- An outermost value. -/
def read : Reader Value := do
  let _ ← Reader.peek
  readWithin depthBudget

end DataGateway.MessagePack.Value
