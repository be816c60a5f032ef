import DataGateway.Form.Basic
import DataGateway.MessagePack.Value

/-!
# Forms of dynamic values

Nil, truth values, texts, arrays and integers of up to 53 bits stand for themselves. Anything else
is a form with one field, whose name says what it is; floats are given by their bits.
-/

namespace DataGateway.MessagePack

/-- Whether an integer is of the range that stands for itself. -/
def isPlainInteger (n : Int) : Bool := n.natAbs < 0x20000000000000

namespace Value

mutual

/-- The form of a value. -/
def toForm : Value → Form
  | .nil => .absent
  | .boolean b => .truth b
  | .integer n =>
    if isPlainInteger n.val then .number n.val
    else .fields [("int", .text (toString n.val))]
  | .float32 bits => .fields [("f32", DataGateway.toForm (bigEndian 4 bits.toNat))]
  | .float64 bits => .fields [("f64", DataGateway.toForm (bigEndian 8 bits.toNat))]
  | .string octets =>
    match Text.ofOctets octets with
    | .ok s => .text s
    | .error _ => .fields [("badstr", DataGateway.toForm octets)]
  | .binary bytes => .fields [("bin", DataGateway.toForm bytes)]
  | .array items => .list (toForms items)
  | .map entries => .fields [("map", .list (toPairs entries))]
  | .extension type body =>
    .fields [("ext", .list [.number type.toInt, DataGateway.toForm body])]

def toForms : List Value → List Form
  | [] => []
  | v :: vs => toForm v :: toForms vs

def toPairs : List (Value × Value) → List Form
  | [] => []
  | (k, v) :: es => .list [toForm k, toForm v] :: toPairs es

end

/-- The value that a field with this name stands for, if its content is no value itself. -/
def ofField (name : String) (content : Form) : Except String Value := do
  match name with
  | "int" => return .integer (Integer.ofInt (← content.integer))
  | "f32" => return .float32 (UInt32.ofNat (ofBigEndian (← content.bytes)))
  | "f64" => return .float64 (UInt64.ofNat (ofBigEndian (← content.bytes)))
  | "str" => return .ofString (← content.joined)
  | "badstr" => return .string (← content.bytes)
  | "bin" => return .binary (← content.bytes)
  | "ext" =>
    let (type, body) : Int × Bytes ← DataGateway.ofForm content
    return .extension (Int8.ofInt type) body
  | _ => throw "value expected"

mutual

/-- The value with a form. -/
def ofForm : Form → Except String Value
  | .absent => .ok .nil
  | .truth b => .ok (.boolean b)
  | .text s => .ok (.ofString s)
  | .number n => .ok (.integer (Integer.ofInt n))
  | .list items => .array <$> ofForms items
  | .fields [(name, content)] =>
    match name, content with
    | "map", .list entries => .map <$> ofPairs entries
    | name, content => ofField name content
  | .fields _ => .error "value expected"

def ofForms : List Form → Except String (List Value)
  | [] => .ok []
  | f :: fs => do return (← ofForm f) :: (← ofForms fs)

def ofPairs : List Form → Except String (List (Value × Value))
  | [] => .ok []
  | .list [k, v] :: fs => do return (← ofForm k, ← ofForm v) :: (← ofPairs fs)
  | _ => .error "pair expected"

end

end Value

instance : ToForm Value := ⟨Value.toForm⟩
instance : OfForm Value := ⟨Value.ofForm⟩

end DataGateway.MessagePack
