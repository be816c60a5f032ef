/-!
# Status codes

Every answer of the service carries a status from a fixed list. Three of them mean that the request
was carried out; only those are followed by a result.
-/

namespace DataGateway

/-- A status in an answer of the service. -/
inductive Status
  | ok | created | accepted | notModified | badRequest | unauthorized | forbidden | notFound
  | notAcceptable | requestTimeout | conflict | preconditionFailed | payloadTooLarge
  | internalServerError | notImplemented | serviceUnavailable
  deriving DecidableEq, Repr

namespace Status

/-- The number of a status on the wire. -/
def code : Status → Int64
  | ok => 200
  | created => 201
  | accepted => 202
  | notModified => 304
  | badRequest => 400
  | unauthorized => 401
  | forbidden => 403
  | notFound => 404
  | notAcceptable => 406
  | requestTimeout => 408
  | conflict => 409
  | preconditionFailed => 412
  | payloadTooLarge => 413
  | internalServerError => 500
  | notImplemented => 501
  | serviceUnavailable => 503

/-- All statuses, by code. -/
def all : List Status :=
  [ok, created, accepted, notModified, badRequest, unauthorized, forbidden, notFound, notAcceptable,
    requestTimeout, conflict, preconditionFailed, payloadTooLarge, internalServerError,
    notImplemented, serviceUnavailable]

/-- The status with a code. -/
def ofCode? (code : Int64) : Option Status := all.find? (·.code = code)

/-- Whether the request was carried out and a result follows. -/
def isSuccess : Status → Bool
  | ok | created | accepted => true
  | _ => false

def name : Status → String
  | ok => "OK"
  | created => "CREATED"
  | accepted => "ACCEPTED"
  | notModified => "NOT_MODIFIED"
  | badRequest => "BAD_REQUEST"
  | unauthorized => "UNAUTHORIZED"
  | forbidden => "FORBIDDEN"
  | notFound => "NOT_FOUND"
  | notAcceptable => "NOT_ACCEPTABLE"
  | requestTimeout => "REQUEST_TIMEOUT"
  | conflict => "CONFLICT"
  | preconditionFailed => "PRECONDITION_FAILED"
  | payloadTooLarge => "PAYLOAD_TOO_LARGE"
  | internalServerError => "INTERNAL_SERVER_ERROR"
  | notImplemented => "NOT_IMPLEMENTED"
  | serviceUnavailable => "SERVICE_UNAVAILABLE"

/-- A status as it stands in messages: its name with the code in parentheses. -/
def label (s : Status) : String := s.name ++ " (" ++ toString s.code.toInt ++ ")"

theorem ofCode?_code (s : Status) : ofCode? s.code = some s := by cases s <;> rfl

theorem code_of_ofCode? {code : Int64} {s : Status} (h : ofCode? code = some s) :
    s.code = code := by
  simpa using List.find?_some h

end Status

end DataGateway
