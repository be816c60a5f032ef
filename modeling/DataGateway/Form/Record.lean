import DataGateway.Form.Value
import DataGateway.Header

/-!
# Forms of records

A record's form has one field for each of its fields, under the same name. A dictionary is a list of
pairs, and one of two alternatives is a form with one field that says which. Only a header's form is
not that of its row: how its payload travels is one field there.
-/

namespace DataGateway

/-- The form of what a layout describes: for a row, the fields of one. -/
abbrev Grade.Form : Grade → Type
  | .value => DataGateway.Form
  | .row => List (String × DataGateway.Form)

namespace Layout

/-- The form of what a layout describes. -/
def toForm : {g : Grade} → {α : Type} → Layout g α → α → g.Form
  | _, _, boolean => DataGateway.toForm
  | _, _, long => DataGateway.toForm
  | _, _, int => DataGateway.toForm
  | _, _, text => DataGateway.toForm
  | _, _, binary => fun bytes => DataGateway.toForm bytes
  | _, _, dynamic => DataGateway.toForm
  | _, _, list item => fun as => .list (as.map item.toForm)
  | _, _, dict key item => fun d =>
    .list (d.entries.map fun e => .list [key.toForm e.1, item.toForm e.2])
  | _, _, coded base code _ _ _ => fun b => base.toForm (code b)
  | _, _, mapOr left right => fun
    | .inl a => .fields [("rejected", left.toForm a)]
    | .inr b => .fields [("accepted", right.toForm b)]
  | _, _, record _ row toRow _ _ _ _ => fun a => .fields (row.toForm (toRow a))
  | _, _, done => fun _ => []
  | _, _, required name value rest => fun (a, r) => (name, value.toForm a) :: rest.toForm r
  | _, _, optional name value rest => fun (a, r) =>
    (name, DataGateway.toForm (a.map value.toForm)) :: rest.toForm r

/-- A decoded code, or the message that refuses it. -/
def accepted {α : Type} : Except ProtocolError α → Except String α
  | .ok a => .ok a
  | .error e => .error e.message

/-- What a layout describes, from its form. The content of a record is not checked. -/
def ofForm : {g : Grade} → {α : Type} → Layout g α → DataGateway.Form → Except String α
  | _, _, boolean => DataGateway.ofForm
  | _, _, long => DataGateway.ofForm
  | _, _, int => DataGateway.ofForm
  | _, _, text => DataGateway.ofForm
  | _, _, binary => Form.bytes
  | _, _, dynamic => DataGateway.ofForm
  | _, _, list item => fun f => do (← f.items).mapM item.ofForm
  | _, _, @dict _ _ _ _ key item => fun f => do
    let pairs : List (DataGateway.Form × DataGateway.Form) ← DataGateway.ofForm f
    return Dict.ofList (← pairs.mapM fun (k, v) => do return (← key.ofForm k, ← item.ofForm v))
  | _, _, coded base _ meaning _ _ => fun f => do accepted (meaning (← base.ofForm f))
  | _, _, mapOr left right => fun f =>
    if f.has "rejected" then Sum.inl <$> left.ofForm (f.field "rejected")
    else Sum.inr <$> right.ofForm (f.field "accepted")
  | _, _, record _ row _ ofRow _ _ _ => fun f => do accepted (ofRow (← row.ofForm f))
  | _, _, done => fun _ => .ok ()
  | _, _, required name value rest => fun f => do
    return (← value.ofForm (f.field name), ← rest.ofForm f)
  | _, _, optional name value rest => fun f => do
    let a : Option DataGateway.Form ← f.get name
    return (← a.mapM value.ofForm, ← rest.ofForm f)

end Layout

instance : ToForm Fragmentation where
  toForm
    | .whole offset => .fields [("whole", .fields [("offset", toForm offset)])]
    | .slice first last offset size =>
      .fields [("fragment", .fields [("first", toForm first), ("last", toForm last),
        ("offset", toForm offset), ("fullDataSize", toForm size)])]

instance : OfForm Fragmentation where
  ofForm f :=
    if f.has "fragment" then do
      let f := f.field "fragment"
      return .slice (← f.get "first") (← f.get "last") (← f.get "offset") (← f.get "fullDataSize")
    else do return .whole (← (f.field "whole").get "offset")

instance : ToForm DataType := ⟨fun t => toForm t.tag⟩
instance : OfForm DataType := ⟨fun f => do Layout.accepted (DataType.ofTag (← ofForm f))⟩
instance : ToForm Status := ⟨fun s => toForm s.code⟩
instance : OfForm Status := ⟨fun f => do Layout.accepted (Status.ofCode (← ofForm f))⟩

instance : ToForm Header where
  toForm h := .fields [("userName", toForm h.userName), ("messageId", toForm h.messageId),
    ("createTime", toForm h.createTime), ("requestTime", toForm h.requestTime),
    ("fragmentation", toForm h.fragmentation), ("dataType", toForm h.dataType)]

instance : OfForm Header where
  ofForm f := do
    return {
      userName := ← f.get "userName"
      messageId := ← f.get "messageId"
      createTime := ← f.get "createTime"
      requestTime := ← f.get "requestTime"
      fragmentation := ← f.get "fragmentation"
      dataType := ← f.get "dataType" }

end DataGateway
