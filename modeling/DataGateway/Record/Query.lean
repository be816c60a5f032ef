import DataGateway.Record.Ack
import DataGateway.Record.Table
import DataGateway.Text.Blank

/-!
# Paged queries

A query is answered by its first page. Each page carries the context from which the service can go
on; while a page says that there are more, sending that context back unchanged asks for the next
one.
-/

namespace DataGateway

open MessagePack (Value)

/-- A query, with the time the service may take for a page in milliseconds. -/
structure QueryRequest where
  selectString : String
  consistency : Consistency := .none
  timeout : Int64 := 60000
  pageSize : Option Int32 := none
  queryType : Option Int32 := none
  deriving BEq, DecidableEq

namespace QueryRequest

def name : String := "QueryRequest"

def check (q : QueryRequest) : Except ProtocolError Unit := do
  if Text.allBlank q.selectString.toList then
    throw (.invalid name .emptySelect)
  if q.timeout < 0 then
    throw (.invalid name .negativeTimeout)
  match q.pageSize with
  | some size => if size ≤ 0 then throw (.invalid name (.pageSizeNotPositive size.toInt))
  | none => return ()

def record : Record QueryRequest :=
  .plain name
    (.required "selectString" .text <| .required "consistencyType" Consistency.layout <|
      .required "timeout" .long <| .optional "pageSize" .int <| .optional "queryType" .int .done)
    (fun q => (q.selectString, q.consistency, q.timeout, q.pageSize, q.queryType, ()))
    (fun (selectString, consistency, timeout, pageSize, queryType, ()) =>
      ⟨selectString, consistency, timeout, pageSize, queryType⟩)
    check

end QueryRequest

/-- The node of the service that answered a query. -/
structure ServiceNode where
  clusterName : String
  nodeName : String
  deriving BEq, DecidableEq

def ServiceNode.record : Record ServiceNode :=
  .plain "GdsHolder"
    (.required "clusterName" .text <| .required "gdsNodeName" .text .done)
    (fun n => (n.clusterName, n.nodeName, ())) (fun (clusterName, nodeName, ()) =>
      ⟨clusterName, nodeName⟩)

/-- From where the service goes on with a query. -/
structure QueryContext where
  scrollId : String
  query : String
  deliveredHits : Int64
  queryStartTime : Int64
  consistency : Consistency
  lastBucketId : Option String := none
  node : ServiceNode
  fieldValues : List Value
  partitionNames : List String
  deriving BEq

def QueryContext.record : Record QueryContext :=
  .plain "QueryContextHolder"
    (.required "scrollId" .text <| .required "query" .text <|
      .required "deliveredNumberOfHits" .long <| .required "queryStartTime" .long <|
      .required "consistencyType" Consistency.layout <| .optional "lastBucketId" .text <|
      .required "gdsHolder" ServiceNode.record.layout <|
      .required "fieldValues" (.list .dynamic) <|
      .required "partitionNames" (.list .text) .done)
    (fun c => (c.scrollId, c.query, c.deliveredHits, c.queryStartTime, c.consistency,
      c.lastBucketId, c.node, c.fieldValues, c.partitionNames, ()))
    (fun (scrollId, query, deliveredHits, queryStartTime, consistency, lastBucketId, node,
        fieldValues, partitionNames, ()) =>
      ⟨scrollId, query, deliveredHits, queryStartTime, consistency, lastBucketId, node, fieldValues,
        partitionNames⟩)

/-- One page of a query's hits. -/
structure QueryPage where
  numberOfHits : Int64
  numberOfFilteredHits : Int64
  morePage : Bool
  context : QueryContext
  descriptors : List FieldDescriptor
  hits : List (List Value)
  deriving BEq

namespace QueryPage

def name : String := "QueryResultHolder"

def check (p : QueryPage) : Except ProtocolError Unit := do
  if p.numberOfHits.toInt < p.hits.length then
    throw (.invalid name (.tooManyHits p.hits.length p.numberOfHits.toInt))
  checkRows name p.descriptors p.hits

def record : Record QueryPage :=
  .plain name
    (.required "numberOfHits" .long <| .required "numberOfFilteredHits" .long <|
      .required "morePage" .boolean <| .required "queryContext" QueryContext.record.layout <|
      .required "fieldDescriptors" (.list FieldDescriptor.record.layout) <|
      .required "hits" (.list (.list .dynamic)) .done)
    (fun p => (p.numberOfHits, p.numberOfFilteredHits, p.morePage, p.context, p.descriptors,
      p.hits, ()))
    (fun (numberOfHits, numberOfFilteredHits, morePage, context, descriptors, hits, ()) =>
      ⟨numberOfHits, numberOfFilteredHits, morePage, context, descriptors, hits⟩)
    check

end QueryPage

/-- The answer to a query: one page. -/
abbrev QueryRequestAck := Ack (Reply QueryPage)

namespace QueryRequestAck

def replyRecord : Record (Reply QueryPage) :=
  Reply.record "QueryRequestAckTypeData" QueryPage.record.layout

def record : Record QueryRequestAck := Ack.record "QueryRequestAck" replyRecord.layout

def page (ack : QueryRequestAck) : Option QueryPage := ack.body.bind (·.result)

/-- Whether another page can be asked for. -/
def hasMorePages (ack : QueryRequestAck) : Bool := ack.isSuccess && ack.page.any (·.morePage)

/-- The context to send back for the next page. -/
def context (ack : QueryRequestAck) : Option QueryContext := ack.page.map (·.context)

end QueryRequestAck

/-- Asks for the page after the one that carried the context. -/
structure NextQueryPage where
  context : QueryContext
  timeout : Int64
  deriving BEq

namespace NextQueryPage

def name : String := "NextQueryPage"

def check (n : NextQueryPage) : Except ProtocolError Unit :=
  if n.timeout < 0 then .error (.invalid name .negativeTimeout) else .ok ()

def record : Record NextQueryPage :=
  .plain name
    (.required "queryContext" QueryContext.record.layout <| .required "timeout" .long .done)
    (fun n => (n.context, n.timeout, ())) (fun (context, timeout, ()) => ⟨context, timeout⟩)
    check

end NextQueryPage

end DataGateway
