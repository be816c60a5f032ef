import DataGateway.Client.Listener
import DataGateway.Dict
import DataGateway.Header

/-!
# Correlation of replies

A request waits for its reply at a counter: it draws a ticket, which is registered under the
message's id until a message with that id arrives. The message is then laid out under the ticket,
for the request to fetch. An answer that announces a pending attachment keeps the id registered,
under a new ticket, which is laid out with the answer. An id has one ticket at a time.

A request that stops waiting tears its ticket up. A torn ticket stays registered, and holds its id,
until it is released or a message takes it; what is laid out under it is thrown away, with the
ticket that it may hold. A ticket that is neither registered nor served will never be served: the
session has ended.

Messages that no ticket waits for go to a listener.
-/

namespace DataGateway

/-- What a message brings to the request that waits for it. -/
structure Resolution where
  header : Header
  payload : Payload
  /-- The ticket for a second message under the same id, if one is announced. -/
  followUp : Option Nat := none

/-- A ticket that an id is registered for. -/
structure Waiter where
  ticket : Nat
  /-- Whether the request has stopped waiting. -/
  torn : Bool := false
  deriving DecidableEq

/-- What has become of a message that no request waits for, or that the session has ended. -/
inductive Handled
  | message (handler : Nat) (header : Header) (payload : Payload)
  | refused (e : ClientError)
  | ended

/-- The tickets that wait and those that are served. -/
structure Correlator where
  waiters : Dict String Waiter := .empty
  served : List (Nat × Resolution) := []
  /-- How many tickets have been drawn. -/
  drawn : Nat := 0
  /-- Where messages go that no ticket waits for. -/
  fallback : Option Listener := none
  /-- What has become of those messages, in order. -/
  log : List Handled := []

namespace Correlator

/-- Registers an id under a new ticket. -/
def register (c : Correlator) (id : String) : Except ClientError (Nat × Correlator) :=
  match c.waiters.get? id with
  | some _ => .error (.duplicateId id)
  | none =>
    .ok (c.drawn, { c with
      waiters := c.waiters.insert id { ticket := c.drawn }
      drawn := c.drawn + 1 })

/-- The waiters with one ticket torn. -/
def tearIn (ticket : Nat) (waiters : Dict String Waiter) : Dict String Waiter :=
  match waiters.entries.find? fun e => e.2.ticket = ticket with
  | some (id, w) => waiters.insert id { w with torn := true }
  | none => waiters

/-- The tickets that go when one is torn: it and those that lie under it. -/
def chain (served : List (Nat × Resolution)) (ticket : Nat) : (fuel : Nat) → List Nat
  | 0 => [ticket]
  | fuel + 1 =>
    match (served.lookup ticket).bind (·.followUp) with
    | some next => ticket :: chain served next fuel
    | none => [ticket]

/-- Tears a ticket up, and what is laid out under it. -/
def tear (c : Correlator) (ticket : Nat) : Correlator :=
  let gone := chain c.served ticket c.served.length
  { c with
    waiters := gone.foldl (fun waiters ticket => tearIn ticket waiters) c.waiters
    served := c.served.filter fun e => !gone.contains e.1 }

/-- Frees an id whose ticket is torn; one registered since is still waited for and stays. -/
def release (c : Correlator) (id : String) : Correlator :=
  match c.waiters.get? id with
  | some { torn := true, .. } => { c with waiters := c.waiters.erase id }
  | _ => c

/-- Ends every wait. -/
def clear (c : Correlator) : Correlator := { c with waiters := .empty }

/-- Whether a second message is to come under the same id. -/
def expectsFollowUp (payload : Payload) : Bool :=
  match payload.body? .attachmentRequestAck with
  | some ack => AttachmentRequestAck.isPending ack
  | none => false

/-- Lays a message out for the waiter, if it still waits. -/
def lay (c : Correlator) (w : Waiter) (r : Resolution) : Correlator :=
  if w.torn then
    match r.followUp with
    | some ticket => c.tear ticket
    | none => c
  else { c with served := c.served ++ [(w.ticket, r)] }

/-- A message that no ticket waits for. -/
def dispatch (c : Correlator) (header : Header) (payload : Payload) : Correlator :=
  match c.fallback with
  | none => c
  | some listener =>
    let handled := match listener.dispatch payload with
      | .ok handler => .message handler header payload
      | .error e => .refused e
    { c with log := c.log ++ [handled] }

/-- Takes a message in. -/
def receive (c : Correlator) (header : Header) (payload : Payload) : Correlator :=
  let id := header.messageId
  match c.waiters.get? id with
  | none => c.dispatch header payload
  | some w =>
    if expectsFollowUp payload then
      let next := { c with
        waiters := c.waiters.insert id { ticket := c.drawn }
        drawn := c.drawn + 1 }
      next.lay w { header, payload, followUp := some c.drawn }
    else { c with waiters := c.waiters.erase id }.lay w { header, payload }

/-- The session has ended, and so has every wait. -/
def disconnect (c : Correlator) : Correlator := { c.clear with log := c.log ++ [.ended] }

/-- What a ticket has come to. -/
inductive Standing
  | waiting
  | ready (r : Resolution)
  | hopeless

/-- What a ticket has come to. -/
def standing (c : Correlator) (ticket : Nat) : Standing :=
  match c.served.lookup ticket with
  | some r => .ready r
  | none => if c.waiters.entries.any (·.2.ticket = ticket) then .waiting else .hopeless

/-- Fetches what is laid out under a ticket. -/
def fetched (c : Correlator) (ticket : Nat) : Correlator :=
  { c with served := c.served.filter (·.1 ≠ ticket) }

/-- How many ids are registered. -/
def pending (c : Correlator) : Nat := c.waiters.size

end Correlator

end DataGateway
