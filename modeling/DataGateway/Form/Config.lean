import DataGateway.Client.ConfigFile
import DataGateway.Form.Basic

/-!
# Forms of settings

The form of a configuration has one field for each setting, by its name; what is left out has its
default. A duration is its seconds and nanoseconds, or `max` for the longest.
-/

namespace DataGateway

instance : ToForm Duration := ⟨fun d => toForm (d.seconds, d.subsecond)⟩

instance : OfForm Duration where
  ofForm
    | .text "max" => .ok .max
    | f => do
      let (seconds, nanos) : UInt64 × Nat ← ofForm f
      return .ofNanoseconds (seconds.toNat * 1000000000 + nanos)

namespace Config

def Setting.toForm : Setting → Form
  | text s => .text s
  | absent => .absent
  | truth b => .truth b
  | number n => .number n.toNat

/-- The scalars that a form may stand for. A text may be meant as the digits of a number. -/
def scalars (f : Form) : Except String (List Yaml.Scalar) := do
  match f with
  | .truth b => return [{ text := if b then "true" else "false" }]
  | .number n => return [{ text := toString n }]
  | f =>
    let s ← f.joined
    return [{ text := s, style := .double }, { text := s }]

/-- The configuration with one setting changed. Only a password can be taken away. -/
def set (c : Config) (name : String) (f : Form) : Except String Config := do
  if f.isAbsent then return if name = "password" then { c with password := none } else c
  let scalars ← scalars f
  match (settings.lookup name).bind fun set => scalars.findSome? (set c) with
  | some c => return c
  | none => throw ("no setting " ++ name)

end Config

instance : ToForm Config :=
  ⟨fun c => .fields (c.values.map fun (name, setting) => (name, setting.toForm))⟩

instance : OfForm Config where
  ofForm f := Config.settings.foldlM (fun c (name, _) => c.set name (f.field name)) {}

end DataGateway
