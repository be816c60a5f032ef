import DataGateway.Client.Link
import DataGateway.Text.Uuid

/-!
# Sessions

A session leads one connection through its life: it connects the link, logs in, hands what arrives
to its handler, sends, and closes. It connects once. A session changes only when a call on it gets
its turn and when it takes a signal from its link, and each of the two is one step of it.

What a session does that can be seen from outside is noted in its journal, in order: what it
publishes, what it hands over, what it sends, and that it closes the link. The call that connects
waits for the outcome of the login, which `Session.login` holds until that call takes it.

The phase moves to its new value before the link is closed, so the closing signal that comes back
finds the matter settled.
-/

namespace DataGateway

/-- What a session publishes about its connection. -/
inductive Notice
  | loggedIn (ack : ConnectionAck)
  | loginFailed (failure : LoginFailure)
  /-- A connection that was logged in has ended. -/
  | disconnected
  deriving DecidableEq

/-- What a session does that can be seen from outside. -/
inductive Note
  | published (notice : Notice)
  /-- A message is handed to the handler. -/
  | received (header : Header) (payload : Payload)
  /-- The handler is told that the connection has ended. -/
  | ended
  /-- The link takes a frame. -/
  | sent (frame : Bytes)
  /-- The link is closed from this end. -/
  | closed

/-- What the call that connects has to wait for. -/
inductive Login
  | idle
  | awaited
  | settled (outcome : Except LoginFailure ConnectionAck)

/-- One connection of a client. -/
structure Session where
  config : Config
  link : Link := {}
  phase : Phase := .notConnected
  /-- Whether it has been asked to connect. -/
  used : Bool := false
  login : Login := .idle
  assembler : Assembler := {}
  /-- The transmission unit agreed at login; without one, messages travel whole. -/
  unit : Option Nat := none
  /-- How many message ids have been generated. -/
  serial : Nat := 0
  /-- The time that new headers bear, in milliseconds. -/
  time : Int64 := 1600000000000
  journal : List Note := []

namespace Session

def note (s : Session) (n : Note) : Session := { s with journal := s.journal ++ [n] }

def publish (s : Session) (n : Notice) : Session := s.note (.published n)

/-- A message id that has not been generated before. -/
def freshId (s : Session) : String × Session :=
  (Uuid.ofSerial s.serial, { s with serial := s.serial + 1 })

/-- The header of a new message of this session's user. -/
def header (s : Session) (id : String) (type : DataType) : Header where
  userName := s.config.userName
  messageId := id
  createTime := s.time
  requestTime := s.time
  dataType := type

/-- Gives a frame to the link. -/
def transmit (s : Session) (frame : Bytes) : Except ClientError Unit × Session :=
  match s.link.send frame with
  | .ok link => (.ok (), { s with link }.note (.sent frame))
  | .error e => (.error (.transport e.message), s)

/-- Gives frames to the link up to the first that it does not take. -/
def transmitAll (s : Session) : List Bytes → Except ClientError Unit × Session
  | [] => (.ok (), s)
  | frame :: frames =>
    match s.transmit frame with
    | (.ok (), s) => s.transmitAll frames
    | (.error e, s) => (.error e, s)

/-! ## Ends of a login -/

/-- Settles the login for the call that awaits it, if one still does. -/
def settle (s : Session) (outcome : Except LoginFailure ConnectionAck) : Session :=
  match s.login with
  | .awaited => { s with login := .settled outcome }
  | _ => s

/-- Closes the link from this end. -/
def closeLink (s : Session) : Session := { s with link := s.link.close }.note .closed

/-- The login has failed, and the link with it. -/
def failClosed (s : Session) (failure : LoginFailure) : Session :=
  ({ s with phase := .failed }.settle (.error failure)).publish (.loginFailed failure)

/-- The login has failed, and the link is of no use any more. -/
def fail (s : Session) (failure : LoginFailure) : Session :=
  ({ s with phase := .failed }.closeLink.settle (.error failure)).publish (.loginFailed failure)

/-! ## Signals -/

/-- The link is there: the login goes out. -/
def onOpened (s : Session) : Session :=
  if s.phase ≠ .connecting then s
  else
    let (id, s) := { s with phase := .connected }.freshId
    let payload : Payload := ⟨.connection, s.config.connection⟩
    match Message.encode (s.header id .connection) payload with
    | .error e => s.fail (.transport (ClientError.protocol e).message)
    | .ok frame =>
      match s.transmit frame with
      | (.ok (), s) => s
      | (.error e, s) => s.fail (.transport e.message)

/-- The transmission unit that both sides of a login agree on. -/
def agreedUnit (agreed : Connection) : Option Nat :=
  match agreed.transmissionUnit with
  | some unit =>
    if agreed.fragmentationSupported ∧ 0 < unit then some unit.toUInt64.toNat else none
  | none => none

/-- The service has answered the login. -/
def onLoginAck (s : Session) (ack : ConnectionAck) : Session :=
  let s := { s with phase := .loggingIn }
  if !ack.isSuccess then
    s.fail (.rejected ack.status (ack.rejectionReasons.getD .empty) ack.exception)
  else
    let unit := match ack.body with
      | some (.accepted agreed) => agreedUnit agreed
      | _ => s.unit
    ({ s with unit, phase := .loggedIn }.settle (.ok ack)).publish (.loggedIn ack)

/-- A complete message has arrived. Until the login is settled only its answer counts. -/
def onMessage (s : Session) (m : Message) : Session :=
  match s.phase, m.payload.body? .connectionAck with
  | .connected, some ack | .loggingIn, some ack => s.onLoginAck ack
  | .loggedIn, _ => s.note (.received m.header m.payload)
  | _, _ => s

/-- A frame has arrived. What is no message fails a login and is otherwise dropped. -/
def onBinary (s : Session) (frame : Bytes) : Session :=
  match Inbound.decode frame with
  | .error e =>
    if s.phase.isHandshaking then s.fail (.transport ("undecodable login reply: " ++ e.message))
    else s
  | .ok (.message m) => s.onMessage m
  | .ok (.slice slice) =>
    match s.assembler.push slice with
    | (.ok (some m), assembler) => { s with assembler }.onMessage m
    | (_, assembler) => { s with assembler }

/-- The transport reports an error, which ends a login and nothing else. -/
def onFailed (s : Session) (reason : String) : Session :=
  if s.phase.isHandshaking then s.fail (.transport reason) else s

/-- The link has closed: the session no longer listens. -/
def onClosed (s : Session) : Session :=
  let s := { s with link := s.link.deafen }
  if s.phase = .loggedIn then
    ({ s with phase := .disconnected }.note .ended).publish .disconnected
  else if s.phase.isHandshaking then s.failClosed .closed
  else s

/-- Takes a signal. -/
def handle (s : Session) : Signal → Session
  | .opened => s.onOpened
  | .binary frame => s.onBinary frame
  | .failed reason => s.onFailed reason
  | .closed => s.onClosed

/-- The session after it has taken the next signal from its link, if there is one. -/
def next? (s : Session) : Option Session :=
  s.link.next?.map fun (signal, link) => { s with link }.handle signal

/-! ## Calls -/

/-- Connects. On success the call awaits the outcome of the login. -/
def connect (s : Session) : Except ClientError Unit × Session :=
  if s.used then (.error .alreadyUsed, s)
  else
    let s := { s with used := true }
    match s.config.check with
    | .error e => (.error (.config e), s)
    | .ok () =>
      let s := { s with phase := .connecting, login := .awaited, link := s.link.listen }
      match s.link.connect with
      | .ok link => (.ok (), { s with link })
      | .error e =>
        let failure := .transport e.message
        (.error (.connectionFailed failure), { s.fail failure with login := .idle })

/-- The call that connects takes the outcome of the login, if it is settled. -/
def outcome (s : Session) : Option (Except ClientError ConnectionAck × Session) :=
  match s.login with
  | .settled (.ok ack) => some (.ok ack, { s with login := .idle })
  | .settled (.error failure) =>
    some (.error (.connectionFailed failure), { s with login := .idle })
  | _ => none

/-- The call that connects has waited long enough. -/
def expire (s : Session) : ClientError × Session :=
  (.connectionFailed .timedOut, { s.fail .timedOut with login := .idle })

/-- The call that connects is given up; the login goes on without it. -/
def leave (s : Session) : Session := { s with login := .idle }

/-- Closes the session, in whatever phase it is, and stops listening. -/
def close (s : Session) : Session :=
  let after :=
    if s.phase = .loggedIn then
      ({ s with phase := .disconnected }.closeLink.note .ended).publish .disconnected
    else if s.phase.isHandshaking then
      { s with phase := .disconnected }.closeLink.settle (.error .closed)
    else s
  { after with link := after.link.deafen }

/-- Sends a message, in slices if it exceeds the agreed unit. -/
def send (s : Session) (header : Header) (payload : Payload) : Except ClientError Unit × Session :=
  if s.phase ≠ .loggedIn then (.error (.notLoggedIn s.phase), s)
  else
    let frames := match s.unit with
      | some unit => Message.split header payload unit
      | none => (fun frame => [frame]) <$> Message.encode header payload
    match frames with
    | .ok frames => s.transmitAll frames
    | .error e => (.error (.protocol e), s)

/-- Sends a payload under a new header, and gives the header. -/
def sendPayload (s : Session) (payload : Payload) : Except ClientError Header × Session :=
  let (id, s) := s.freshId
  let header := s.header id payload.type
  match s.send header payload with
  | (.ok (), s) => (.ok header, s)
  | (.error e, s) => (.error e, s)

end Session

end DataGateway
