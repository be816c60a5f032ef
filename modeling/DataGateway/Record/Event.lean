import DataGateway.Record.Ack
import DataGateway.Record.Table
import DataGateway.Text.Blank

/-!
# Events

An event is a batch of statements, kept as one text in which semicolons separate them. A statement
is a stretch between semicolons without the blanks around it; stretches that have nothing else are
no statements, and an event must have at least one. The service answers with one result per
statement.
-/

namespace DataGateway

open MessagePack (Value)

/-- A batch of statements, with the binary contents they refer to and the priority of each. -/
structure Event where
  operations : String
  binaryContents : Option (Dict String Bytes) := none
  priorityLevels : Option (List (List (Dict Int32 Bool))) := none
  deriving BEq, DecidableEq

namespace Event

def name : String := "Event"

def separator : Char := ';'

/-- The statements in a text. -/
def statementsOf (cs : List Char) : List (List Char) :=
  ((Text.pieces separator cs).map Text.trim).filter (· ≠ [])

def statements (e : Event) : List String :=
  (statementsOf e.operations.toList).map String.ofList

/-- The event of a list of statements. -/
def ofStatements (statements : List String) : Event where
  operations := String.ofList <|
    [separator].intercalate (statements.map fun s => Text.trim s.toList)

/-- Adds a binary content under the name that statements refer to it by. -/
def withContent (e : Event) (name : String) (content : Bytes) : Event :=
  { e with binaryContents := some ((e.binaryContents.getD .empty).insert name content) }

def check (e : Event) : Except ProtocolError Unit :=
  if e.statements.isEmpty then .error (.invalid name .noStatements) else .ok ()

def record : Record Event :=
  .plain name
    (.required "operations" .text <| .optional "binaryContents" (.dict .text .binary) <|
      .optional "priorityLevels" (.list (.list (.dict .int .boolean))) .done)
    (fun e => (e.operations, e.binaryContents, e.priorityLevels, ()))
    (fun (operations, binaryContents, priorityLevels, ()) =>
      ⟨operations, binaryContents, priorityLevels⟩)
    check

end Event

/-- What became of one record that a statement touched. -/
structure EventSubResult where
  status : Status
  id : Option String := none
  tableName : Option String := none
  created : Option Bool := none
  version : Option Int64 := none
  values : Option (List Value) := none
  deriving BEq

def EventSubResult.record : Record EventSubResult :=
  .plain "EventSubResultHolder"
    (.required "subStatus" Status.layout <| .optional "id" .text <| .optional "tableName" .text <|
      .optional "created" .boolean <| .optional "version" .long <|
      .optional "values" (.list .dynamic) .done)
    (fun r => (r.status, r.id, r.tableName, r.created, r.version, r.values, ()))
    (fun (status, id, tableName, created, version, values, ()) =>
      ⟨status, id, tableName, created, version, values⟩)

/-- What became of one statement. -/
structure EventResult where
  status : Status
  notification : Option String := none
  descriptors : List FieldDescriptor
  subResults : List EventSubResult
  deriving BEq

namespace EventResult

def name : String := "EventResultHolder"

/-- Refuses the first sub-result whose values are not as many as the descriptors. -/
def check (r : EventResult) : Except ProtocolError Unit :=
  let width := r.descriptors.length
  match r.subResults.findSome? fun s => s.values.filter fun values => values.length ≠ width with
  | some values => .error (.invalid name (.subResultWidth values.length width))
  | none => .ok ()

def record : Record EventResult :=
  .plain name
    (.required "status" Status.layout <| .optional "notification" .text <|
      .required "fieldDescriptors" (.list FieldDescriptor.record.layout) <|
      .required "subResults" (.list EventSubResult.record.layout) .done)
    (fun r => (r.status, r.notification, r.descriptors, r.subResults, ()))
    (fun (status, notification, descriptors, subResults, ()) =>
      ⟨status, notification, descriptors, subResults⟩)
    check

end EventResult

/-- The answer to an event: one result per statement. -/
abbrev EventAck := Ack (List EventResult)

namespace EventAck

def record : Record EventAck := Ack.record "EventAck" (.list EventResult.record.layout)

/-- An event carried out without any statement. -/
def done : EventAck := .withBody .ok []

def results (ack : EventAck) : List EventResult := ack.body.getD []

/-- Whether the event and each of its statements was carried out. -/
def allSucceeded (ack : EventAck) : Bool :=
  ack.isSuccess && ack.results.all (·.status.isSuccess)

/-- The statements that were not carried out, with their positions. -/
def failedStatements (ack : EventAck) : List (Nat × EventResult) :=
  (ack.results.zipIdx.filter fun (r, _) => !r.status.isSuccess).map fun (r, index) => (index, r)

def statementCount (ack : EventAck) : Nat := ack.results.length

end EventAck

end DataGateway
