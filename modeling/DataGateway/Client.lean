import DataGateway.Client.Request
import DataGateway.Text.Quoted

/-!
# Clients

A client is a session, the correlator that its messages go to, and the calls that are made on it.
Calls that connect or close have their turns one after another, in the order in which they are made:
a call that connects keeps its turn until its login is settled. Requests wait side by side.

Time passes in ticks of a millisecond, and only when `advance` says so. A client is at rest when no
call can go on and no signal waits; `settle` brings it there by single steps. Signals come first,
then the calls that wait for something, and then the next turn.
-/

namespace DataGateway

/-- A call that has turns with others. -/
inductive Turn
  | connect
  | close
  deriving DecidableEq

/-- What a call ends with. -/
inductive Ending
  | connected (r : Except ClientError ConnectionAck)
  | closed
  | requested (r : Except ClientError Outcome)

/-- A client and the calls on it, which have names. -/
structure Client where
  session : Session
  correlator : Correlator := {}
  /-- The present tick. -/
  now : Nat := 0
  /-- The call that awaits a login, and the tick at which it gives up. -/
  connecting : Option (String × Nat) := none
  /-- The calls that wait for their turn. -/
  queue : List (String × Turn) := []
  /-- The requests that wait. -/
  requests : List (String × Request) := []
  /-- The calls that have ended, in order. -/
  endings : List (String × Ending) := []
  /-- What the session has done. -/
  journal : List Note := []

namespace Client

def ended (c : Client) (name : String) (ending : Ending) : Client :=
  { c with endings := c.endings ++ [(name, ending)] }

/-- What a correlator makes of one of the session's doings. -/
def heed (c : Correlator) : Note → Correlator
  | .received header payload => c.receive header payload
  | .ended => c.disconnect
  | _ => c

/-- A client whose session has come to be `s`, its new doings taken in. -/
def withSession (c : Client) (s : Session) : Client :=
  { c with
    session := { s with journal := [] }
    correlator := s.journal.foldl heed c.correlator
    journal := c.journal ++ s.journal }

/-- A change of the link from outside the client. -/
def onLink {α : Type} (c : Client) (f : Link → α × Link) : α × Client :=
  let (a, link) := f c.session.link
  (a, { c with session := { c.session with link } })

/-! ## Connecting and closing -/

/-- A call's turn begins. -/
def begin (c : Client) (name : String) : Turn → Client
  | .connect =>
    match c.session.connect with
    | (.ok (), s) =>
      { c.withSession s with
        connecting := some (name, c.now + timeoutTicks c.session.config.connectTimeout) }
    | (.error e, s) => (c.withSession s).ended name (.connected (.error e))
  | .close =>
    let c := c.withSession c.session.close
    { c with correlator := c.correlator.clear }.ended name .closed

/-- The next call has its turn, if nobody has. -/
def nextTurn (c : Client) : Option Client :=
  match c.connecting, c.queue with
  | none, (name, turn) :: queue => some ({ c with queue }.begin name turn)
  | _, _ => none

/-- The call that awaits a login ends, if the login is settled or its time is over. -/
def pollLogin (c : Client) : Option Client := do
  let (name, deadline) ← c.connecting
  match c.session.outcome with
  | some (r, s) => some ({ c.withSession s with connecting := none }.ended name (.connected r))
  | none =>
    if deadline ≤ c.now then
      let (e, s) := c.session.expire
      some ({ c.withSession s with connecting := none }.ended name (.connected (.error e)))
    else none

/-! ## Requests -/

/-- Tears a request's ticket up and frees its id. -/
def withdraw (c : Client) (r : Request) : Client :=
  { c with correlator := (c.correlator.tear r.ticket).release r.id }

/-- Frees an id whose ticket is torn. -/
def release (c : Client) (id : String) : Client :=
  { c with correlator := c.correlator.release id }

/-- Throws away the ticket for a second message, if there is one. -/
def tearFollowUp (c : Client) (r : Resolution) : Client :=
  match r.followUp with
  | some ticket => { c with correlator := c.correlator.tear ticket }
  | none => c

/-- Sends a message, and what the session does comes to the client. -/
def send (c : Client) (header : Header) (payload : Payload) : Except ClientError Unit × Client :=
  let (r, s) := c.session.send header payload
  (r, c.withSession s)

/-- Registers a request's id and sends its message. Nothing is sent while the id is registered. -/
def dispatch (c : Client) (id : String) (deadline : Nat) (stage : Stage) (payload : Payload) :
    Except ClientError Request × Client :=
  match c.correlator.register id with
  | .error e => (.error e, c)
  | .ok (ticket, correlator) =>
    let request : Request := { id, ticket, deadline, stage }
    match ({ c with correlator }).send (c.session.header id payload.type) payload with
    | (.ok (), c) => (.ok request, c)
    | (.error e, c) => (.error e, c.withdraw request)

/-- Asks the service, under a given or a generated id, with a given or the configured timeout. -/
def ask (c : Client) (name : String) (question : Question) (id : Option String)
    (timeout : Option Duration) : Client :=
  let timeout := timeout.getD c.session.config.requestTimeout
  let (id, c) := match id with
    | some id => (id, c)
    | none =>
      let (id, session) := c.session.freshId
      (id, { c with session })
  match c.dispatch id (c.now + timeoutTicks timeout) question.stage (question.payload timeout) with
  | (.ok request, c) => { c with requests := c.requests ++ [(name, request)] }
  | (.error e, c) => c.ended name (.requested (.error e))

/-- Confirms the receipt of an attachment that was pending. -/
def confirm (c : Client) (id : String) (ack : Answer AttachmentRequestAck)
    (response : Answer AttachmentResponse) : Except ClientError Outcome × Client :=
  let payload : Payload := ⟨.attachmentResponseAck, response.body.ack⟩
  match c.send (c.session.header id .attachmentResponseAck) payload with
  | (.ok (), c) => (.ok (.delivered ack response), c)
  | (.error e, c) => (.error e, c)

/-- What a request makes of the message it has fetched: it ends or goes on waiting for another. -/
def resolve (c : Client) (r : Request) (res : Resolution) :
    (Except ClientError Outcome ⊕ Request) × Client :=
  let unexpected : Except ClientError Outcome := .error (.unexpectedReply r.id res.payload.type)
  match r.stage with
  | .answer type =>
    let c := match res.followUp with
      | some _ => (c.tearFollowUp res).release r.id
      | none => c
    if res.payload.type = type then (.inl (.ok (.answered res.header res.payload)), c)
    else (.inl unexpected, c)
  | .attachment =>
    match res.payload.body? .attachmentRequestAck with
    | none =>
      (.inl unexpected, (c.tearFollowUp res).release r.id)
    | some body =>
      let ack : Answer AttachmentRequestAck := ⟨res.header, body⟩
      match res.followUp with
      | some ticket => (.inr { r with ticket, stage := .delivery ack }, c)
      | none => (.inl (.ok (.complete ack)), c)
  | .delivery ack =>
    let c := c.tearFollowUp res
    match res.payload.body? .attachmentResponse with
    | none => (.inl unexpected, c)
    | some body =>
      let (r, c) := c.confirm r.id ack ⟨res.header, body⟩
      (.inl r, c)

/-- A request goes on, if its ticket has come to something or its time is over. -/
def pollRequest (c : Client) (r : Request) :
    Option ((Except ClientError Outcome ⊕ Request) × Client) :=
  match c.correlator.standing r.ticket with
  | .ready res => some ({ c with correlator := c.correlator.fetched r.ticket }.resolve r res)
  | .hopeless => some (.inl (.error .connectionClosed), c)
  | .waiting =>
    if r.deadline ≤ c.now then some (.inl (.error (.timeout r.id)), c.withdraw r) else none

/-- The first request that can goes on; those `before` it cannot. -/
def pollFrom (c : Client) (before : List (String × Request)) :
    List (String × Request) → Option Client
  | [] => none
  | (name, r) :: rest =>
    match c.pollRequest r with
    | none => pollFrom c (before ++ [(name, r)]) rest
    | some (.inl ending, c) =>
      some ({ c with requests := before ++ rest }.ended name (.requested ending))
    | some (.inr r, c) => some { c with requests := before ++ (name, r) :: rest }

/-! ## Rest -/

/-- One step of a client that is not at rest. -/
def step? (c : Client) : Option Client :=
  c.session.next?.map c.withSession
    <|> c.pollLogin <|> c.pollFrom [] c.requests <|> c.nextTurn

/-- At most `fuel` steps towards rest. -/
def settleWithin : (fuel : Nat) → Client → Client
  | 0, c => c
  | fuel + 1, c =>
    match c.step? with
    | some c => settleWithin fuel c
    | none => c

/-- The steps that bring a client to rest: a signal is taken once and may lead to a closing signal;
a call that connects has its turn, brings an opening and a closing signal and ends; one that closes
has its turn; and a request goes on twice at most. -/
def settle (c : Client) : Client :=
  let signals := c.session.link.signals.length
  settleWithin (2 * signals + 6 * (c.queue.length + 1) + 2 * c.requests.length) c

/-- Makes a call that waits for its turn. -/
def call (c : Client) (name : String) (turn : Turn) : Client :=
  { c with queue := c.queue ++ [(name, turn)] }

/-- Lets time pass. -/
def advance (c : Client) (ticks : Nat) : Client := { c with now := c.now + ticks }

/-! ## Looks -/

def describeSession (c : Client) : String :=
  "AsyncClient \x7b url: " ++ Text.quoted c.session.config.url ++ ", state: "
    ++ c.session.phase.name ++ " \x7d"

def describe (c : Client) : String :=
  "SyncClient \x7b client: " ++ c.describeSession ++ ", pending: "
    ++ toString c.correlator.pending ++ " \x7d"

end Client

end DataGateway
