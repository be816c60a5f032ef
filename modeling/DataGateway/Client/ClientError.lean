import DataGateway.Client.Config
import DataGateway.Client.Phase

/-!
# Errors of a client

What a call on a client can end with instead of its result, as causes, and why a login did not
succeed. Some errors are misuse of the client and some may go away when the call is made again;
`ClientError.isUsage` and `ClientError.isRetryable` tell which.
-/

namespace DataGateway

/-- Why a login did not succeed. -/
inductive LoginFailure
  /-- The transport reported an error. -/
  | transport (reason : String)
  /-- The service answered with a status other than success. -/
  | rejected (status : Status) (reasons : Dict Int32 String) (exception : Option String)
  /-- The connection closed. -/
  | closed
  /-- No answer came in time. -/
  | timedOut
  deriving DecidableEq

def LoginFailure.message : LoginFailure → String
  | transport reason => "transport error: " ++ reason
  | rejected status _ (some exception) =>
    "login rejected with " ++ status.label ++ ": " ++ exception
  | rejected status _ none => "login rejected with " ++ status.label
  | closed => "connection closed during login"
  | timedOut => "login timed out"

/-- Why a call failed. -/
inductive ClientError
  | protocol (e : ProtocolError)
  | transport (reason : String)
  /-- No reply to a message came in time. -/
  | timeout (id : String)
  | connectionFailed (failure : LoginFailure)
  | notLoggedIn (phase : Phase)
  | connectionClosed
  /-- A message with the same id still waits for its reply. -/
  | duplicateId (id : String)
  /-- A client connects once. -/
  | alreadyUsed
  /-- No handler takes payloads of a type. -/
  | unhandled (type : DataType)
  /-- A reply has another type than the request calls for. -/
  | unexpectedReply (id : String) (type : DataType)
  | config (e : ConfigError)
  deriving DecidableEq

namespace ClientError

def message : ClientError → String
  | protocol e => "protocol error: " ++ e.message
  | transport reason => "transport error: " ++ reason
  | timeout id => "no reply to message " ++ id ++ " before the timeout"
  | connectionFailed failure => "connection failed: " ++ failure.message
  | notLoggedIn phase => "not logged in (state: " ++ phase.label ++ ")"
  | connectionClosed => "connection closed"
  | duplicateId id => "message id already in flight: " ++ id
  | alreadyUsed => "client already used; create a new one to reconnect"
  | unhandled type => "no handler registered for " ++ type.label
  | unexpectedReply id type => "unexpected " ++ type.label ++ " reply to message " ++ id
  | config e => "configuration error: " ++ e.message

def isTimeout : ClientError → Bool
  | timeout _ => true
  | _ => false

/-- Whether the client was misused. -/
def isUsage : ClientError → Bool
  | duplicateId _ | alreadyUsed | unhandled _ => true
  | _ => false

/-- Whether the same call may succeed another time. -/
def isRetryable : ClientError → Bool
  | transport _ | timeout _ | connectionClosed => true
  | connectionFailed (.rejected ..) => false
  | connectionFailed _ => true
  | _ => false

end ClientError

end DataGateway
