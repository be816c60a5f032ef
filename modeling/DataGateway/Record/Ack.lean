import DataGateway.Record.Code
import DataGateway.Wire.Record

/-!
# Answers

Every answer of the service is an `Ack`: a status for the whole request, the body if the request was
carried out, and the service's error text if it was not. The body of an answer that concerns a
single item is a `Reply`, an envelope of the same shape around the item's own result.

A body that goes with success must stand exactly beside a success status; only the answer to a login
has another kind of body, which goes with failure.
-/

namespace DataGateway

/-- An answer with a body of type `β`. -/
structure Ack (β : Type) where
  status : Status
  body : Option β := none
  exception : Option String := none
  deriving BEq, DecidableEq

namespace Ack

variable {β : Type}

/-- An answer with a body. -/
def withBody (status : Status) (body : β) : Ack β := { status, body := some body }

/-- An answer that reports failure, without a body. -/
def failure (status : Status) (exception : String) : Ack β :=
  { status, exception := some exception }

def isSuccess (ack : Ack β) : Bool := ack.status.isSuccess

/-- The content check of the answer named `name`, given which bodies go with success. -/
def check (name : String) (goesWithSuccess : β → Bool) (ack : Ack β) :
    Except ProtocolError Unit :=
  match ack.body, ack.isSuccess with
  | none, true => .error (.missingField ⟨"ackData", name⟩)
  | none, false => .ok ()
  | some body, success =>
    match goesWithSuccess body, success with
    | true, false => .error (.invalid name (.bodyOnFailure ack.status))
    | false, true => .error (.invalid name (.rejectionOnSuccess ack.status))
    | _, _ => .ok ()

/-- The answer named `name`, with a body laid out by `body`. -/
def record (name : String) (body : Layout .value β) (goesWithSuccess : β → Bool := fun _ => true) :
    Record (Ack β) :=
  .plain name
    (.required "globalStatus" Status.layout <| .optional "ackData" body <|
      .optional "globalException" .text .done)
    (fun a => (a.status, a.body, a.exception, ()))
    (fun (status, body, exception, ()) => ⟨status, body, exception⟩)
    (check name goesWithSuccess)

end Ack

/-- The answer about one item: its status, its result and the error text of the node that held it.
-/
structure Reply (ρ : Type) where
  status : Status
  result : Option ρ := none
  remoteException : Option String := none
  deriving BEq, DecidableEq

namespace Reply

variable {ρ : Type}

/-- The content check of the reply named `name`, which needs a result on success or never. -/
def check (name : String) (resultRequired : Bool) (reply : Reply ρ) : Except ProtocolError Unit :=
  if resultRequired && reply.status.isSuccess && reply.result.isNone then
    .error (.missingField ⟨"result", name⟩)
  else .ok ()

/-- The reply named `name`, with a result laid out by `result`. -/
def record (name : String) (result : Layout .value ρ) (resultRequired : Bool := true) :
    Record (Reply ρ) :=
  .plain name
    (.required "status" Status.layout <| .optional "result" result <|
      .optional "remoteException" .text .done)
    (fun r => (r.status, r.result, r.remoteException, ()))
    (fun (status, result, remoteException, ()) => ⟨status, result, remoteException⟩)
    (check name resultRequired)

end Reply

end DataGateway
