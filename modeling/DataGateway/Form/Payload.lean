import DataGateway.Form.Record
import DataGateway.Payload

/-!
# Forms of payloads

A payload's form is that of its record with one more field, the name of its type. A query may leave
out what has a default.
-/

namespace DataGateway

/-- The form of a payload's body, where what may be left out is filled in. -/
def Payload.filled (type : DataType) (f : Form) : Form :=
  match type with
  | .queryRequest =>
    let q : QueryRequest := { selectString := "" }
    (f.fill "consistencyType" (toForm q.consistency.name)).fill "timeout" (toForm q.timeout)
  | _ => f

/-- The payload of a known type whose body has this form. -/
def Payload.ofBody (type : DataType) (f : Form) : Except String Payload := do
  return ⟨type, ← type.record.layout.ofForm (filled type f)⟩

/-- The data type with a name. -/
def DataType.ofName (name : String) : Except String DataType :=
  match all.find? (·.name = name) with
  | some type => .ok type
  | none => .error "unknown payload type"

instance : ToForm Payload where
  toForm p := (p.type.record.layout.toForm p.body).set "type" (.text p.type.name)

instance : OfForm Payload where
  ofForm f := do Payload.ofBody (← DataType.ofName (← f.get "type")) f

end DataGateway
