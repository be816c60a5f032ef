import DataGateway.Assembler
import DataGateway.Client.ClientError
import DataGateway.Splitting

/-!
# Links

A link joins a client to a service within one process. The client's end is a transport: it connects,
sends frames and closes, and it tells the client by signals what happens. The service's end takes
the frames out, puts slices together, and sends frames or signals of its own.

While the transport is attached, signals from either end go to the client, as long as the client
still listens. Closing, from either end, detaches the transport and leaves a last signal. Frames go
to the service as long as it is there.
-/

namespace DataGateway

/-- What a transport tells the client. -/
inductive Signal
  | opened
  | binary (bytes : Bytes)
  | closed
  | failed (reason : String)
  deriving DecidableEq

/-- Why a transport does not do what the client asks. -/
inductive LinkError
  | refused (reason : String)
  | alreadyConnected
  | notConnected
  | serviceGone
  deriving DecidableEq

namespace LinkError

def message : LinkError → String
  | refused reason => reason
  | alreadyConnected => "already connected"
  | notConnected => "not connected"
  | serviceGone => "peer dropped"

/-- The kind of failure, in the words of operating systems. -/
def kind : LinkError → String
  | refused _ => "ConnectionRefused"
  | alreadyConnected => "AlreadyExists"
  | notConnected => "NotConnected"
  | serviceGone => "BrokenPipe"

end LinkError

/-- A link and what is on its way between its ends. -/
structure Link where
  /-- Why connecting fails, if it does. -/
  refusal : Option String := none
  /-- Whether signals go to the client. -/
  attached : Bool := false
  /-- Whether the client takes signals. -/
  listening : Bool := false
  /-- Whether the service is there. -/
  served : Bool := true
  signals : List Signal := []
  frames : List Bytes := []
  /-- What the service has of messages that are incomplete. -/
  assembler : Assembler := {}

namespace Link

/-- Puts a signal on its way if the client still listens, and says whether it does. -/
def raise (l : Link) (signal : Signal) : Bool × Link :=
  if l.listening then (true, { l with signals := l.signals ++ [signal] }) else (false, l)

/-- Puts a signal on its way as either end does it. -/
def emit (l : Link) (signal : Signal) : Bool × Link :=
  if l.attached then l.raise signal else (false, l)

/-- The client listens to a new run of signals. -/
def listen (l : Link) : Link := { l with listening := true, signals := [] }

/-- The client stops listening; signals on their way are lost. -/
def deafen (l : Link) : Link := { l with listening := false, signals := [] }

/-- Takes out the next signal for the client. -/
def next? (l : Link) : Option (Signal × Link) :=
  match l.signals with
  | [] => none
  | signal :: signals => some (signal, { l with signals })

/-- Takes out all signals for the client. -/
def drain (l : Link) : List Signal × Link := (l.signals, { l with signals := [] })

/-! ## The client's end -/

def connect (l : Link) : Except LinkError Link :=
  match l.refusal with
  | some reason => .error (.refused reason)
  | none =>
    if l.attached then .error .alreadyConnected
    else .ok { (l.raise .opened).2 with attached := true }

def send (l : Link) (frame : Bytes) : Except LinkError Link :=
  if !l.attached then .error .notConnected
  else if !l.served then .error .serviceGone
  else .ok { l with frames := l.frames ++ [frame] }

/-- Closes the link, from either end. -/
def close (l : Link) : Link :=
  if l.attached then { (l.raise .closed).2 with attached := false } else l

/-! ## The service's end -/

/-- The service goes away. The client is not told. -/
def abandon (l : Link) : Link := { l with served := false }

/-- The service takes out the next frame. -/
def takeFrame (l : Link) : Option Bytes × Link :=
  match l.frames with
  | [] => (none, l)
  | frame :: frames => (some frame, { l with frames })

/-- The first complete message among frames, with the frames after it; slices of messages that are
not complete yet stay in the assembler. -/
def receiveFrom (a : Assembler) :
    List Bytes → Option (Except ClientError Message) × Assembler × List Bytes
  | [] => (none, a, [])
  | frame :: frames =>
    match Inbound.decode frame with
    | .error e => (some (.error (.protocol e)), a, frames)
    | .ok (.message m) => (some (.ok m), a, frames)
    | .ok (.slice s) =>
      match a.push s with
      | (.error e, a) => (some (.error (.protocol e)), a, frames)
      | (.ok (some m), a) => (some (.ok m), a, frames)
      | (.ok none, a) => receiveFrom a frames

/-- The service takes out the next complete message, or nothing if none has arrived. -/
def receive (l : Link) : Option (Except ClientError Message) × Link :=
  let (message, assembler, frames) := receiveFrom l.assembler l.frames
  (message, { l with assembler, frames })

/-- The service sends a frame. -/
def deliver (l : Link) (frame : Bytes) : Except ClientError Unit × Link :=
  match l.emit (.binary frame) with
  | (true, l) => (.ok (), l)
  | (false, l) => (.error .connectionClosed, l)

/-- The service sends a message in one frame. -/
def deliverMessage (l : Link) (header : Header) (payload : Payload) :
    Except ClientError Unit × Link :=
  match Message.encode header payload with
  | .ok frame => l.deliver frame
  | .error e => (.error (.protocol e), l)

/-- The service answers a message at a time. -/
def reply (l : Link) (request : Header) (payload : Payload) (now : Int64) :
    Except ClientError Unit × Link :=
  l.deliverMessage (request.reply now payload.type) payload

/-- The service takes out the next message, answers it by `answer`, and gives the message. -/
def serve (l : Link) (now : Int64) (answer : Message → Except ClientError Payload) :
    Option (Except ClientError Message) × Link :=
  match l.receive with
  | (some (.ok m), l) =>
    match answer m with
    | .error e => (some (.error e), l)
    | .ok payload =>
      match l.reply m.header payload now with
      | (.ok (), l) => (some (.ok m), l)
      | (.error e, l) => (some (.error e), l)
  | (other, l) => (other, l)

/-- The service accepts the next login, echoing its parameters. -/
def acceptLogin (l : Link) (now : Int64) : Option (Except ClientError Message) × Link :=
  l.serve now fun m =>
    match m.payload.body? .connection with
    | some login => .ok ⟨.connectionAck, ConnectionAck.accepted login⟩
    | none => .error (.unexpectedReply m.header.messageId m.payload.type)

/-- The service rejects the next login. -/
def rejectLogin (l : Link) (now : Int64) (status : Status) (reasons : Dict Int32 String)
    (exception : String) : Option (Except ClientError Message) × Link :=
  l.serve now fun _ => .ok ⟨.connectionAck, ConnectionAck.rejected status reasons exception⟩

end Link

end DataGateway
