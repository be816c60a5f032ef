import DataGateway.Record.Ack
import DataGateway.Record.Table

/-!
# Event documents

A document inserts rows into one table. Its returning options name, per row, the columns whose
stored values the service should send back, so each must refer to a row that is there. The service
answers with one result per row.
-/

namespace DataGateway

open MessagePack (Value)

/-- Rows for one table. -/
structure EventDocument where
  tableName : String
  descriptors : List FieldDescriptor
  records : List (List Value) := []
  returning : Option (Dict Int32 (List String)) := none
  deriving BEq

namespace EventDocument

def name : String := "EventDocument"

def withRecord (d : EventDocument) (row : List Value) : EventDocument :=
  { d with records := d.records ++ [row] }

/-- Asks for the stored values of some columns of one row. -/
def withReturning (d : EventDocument) (row : Int32) (columns : List String) : EventDocument :=
  { d with returning := some ((d.returning.getD .empty).insert row columns) }

/-- Refuses the first returning option that refers to no row. -/
def checkReturning (d : EventDocument) : Except ProtocolError Unit :=
  let outside := fun row : Int32 => row.toInt < 0 ∨ d.records.length ≤ row.toInt
  match (d.returning.getD .empty).keys.find? fun row => outside row with
  | some row => .error (.invalid name (.returningOutside row.toInt d.records.length))
  | none => .ok ()

def check (d : EventDocument) : Except ProtocolError Unit := do
  if d.tableName.isEmpty then
    throw (.invalid name .emptyTableName)
  checkRows name d.descriptors d.records
  d.checkReturning

def record : Record EventDocument :=
  .plain name
    (.required "tableName" .text <|
      .required "fieldDescriptors" (.list FieldDescriptor.record.layout) <|
      .required "records" (.list (.list .dynamic)) <|
      .optional "returningOptions" (.dict .int (.list .text)) .done)
    (fun d => (d.tableName, d.descriptors, d.records, d.returning, ()))
    (fun (tableName, descriptors, records, returning, ()) =>
      ⟨tableName, descriptors, records, returning⟩)
    check

end EventDocument

/-- What became of one row of a document. -/
structure EventDocumentResult where
  status : Status
  notification : Option String := none
  returnValues : Option (Dict String Value) := none
  deriving BEq

def EventDocumentResult.record : Record EventDocumentResult :=
  .plain "EventDocumentResultHolder"
    (.required "status" Status.layout <| .optional "notification" .text <|
      .optional "returnValues" (.dict .text .dynamic) .done)
    (fun r => (r.status, r.notification, r.returnValues, ()))
    (fun (status, notification, returnValues, ()) => ⟨status, notification, returnValues⟩)

/-- The answer to a document: one result per row. -/
abbrev EventDocumentAck := Ack (List EventDocumentResult)

def EventDocumentAck.record : Record EventDocumentAck :=
  Ack.record "EventDocumentAck" (.list EventDocumentResult.record.layout)

end DataGateway
