import DataGateway.Record.Ack

/-!
# Logging in

The first message on a connection asks for a login, and the service answers by echoing the accepted
parameters or by listing what it rejects, keyed by position. The password is the first reserved
field. Fragmentation is on exactly when a positive transmission unit is given.
-/

namespace DataGateway

/-- The parameters of a login. -/
structure Connection where
  clusterName : String
  serveOnTheSameConnection : Bool := true
  protocolVersion : Int32
  fragmentationSupported : Bool := false
  transmissionUnit : Option Int64 := none
  reserved : Option (List String) := none
  deriving BEq, DecidableEq

namespace Connection

def name : String := "Connection"

/-- Sets the password and keeps the other reserved fields. -/
def withPassword (c : Connection) (password : String) : Connection :=
  { c with reserved := some (password :: (c.reserved.getD []).tail) }

/-- Turns fragmentation on. -/
def withFragmentation (c : Connection) (unit : Int64) : Connection :=
  { c with fragmentationSupported := true, transmissionUnit := some unit }

def password (c : Connection) : Option String := c.reserved.bind List.head?

def check (c : Connection) : Except ProtocolError Unit :=
  match c.fragmentationSupported, c.transmissionUnit with
  | true, some unit =>
    if 0 < unit then .ok () else .error (.invalid name .fragmentationWithoutUnit)
  | true, none => .error (.invalid name .fragmentationWithoutUnit)
  | false, some _ => .error (.invalid name .unitWithoutFragmentation)
  | false, none => .ok ()

def record : Record Connection :=
  .plain name
    (.required "clusterName" .text <| .required "serveOnTheSameConnection" .boolean <|
      .required "protocolVersionNumber" .int <| .required "fragmentationSupported" .boolean <|
      .optional "fragmentTransmissionUnit" .long <|
      .optional "reservedFields" (.list .text) .done)
    (fun c => (c.clusterName, c.serveOnTheSameConnection, c.protocolVersion,
      c.fragmentationSupported, c.transmissionUnit, c.reserved, ()))
    (fun (clusterName, serve, version, fragmentation, unit, reserved, ()) =>
      ⟨clusterName, serve, version, fragmentation, unit, reserved⟩)
    check

end Connection

/-- What the service makes of a login: the accepted parameters, or the rejected items by position.
-/
inductive LoginVerdict
  | accepted (connection : Connection)
  | rejected (reasons : Dict Int32 String)
  deriving BEq, DecidableEq

namespace LoginVerdict

def toSum : LoginVerdict → Dict Int32 String ⊕ Connection
  | accepted connection => .inr connection
  | rejected reasons => .inl reasons

def ofSum : Dict Int32 String ⊕ Connection → LoginVerdict
  | .inr connection => accepted connection
  | .inl reasons => rejected reasons

private theorem ofSum_toSum (v : LoginVerdict) :
    (Except.ok (ofSum (toSum v)) : Except ProtocolError LoginVerdict) = .ok v := by
  cases v <;> rfl

private theorem toSum_ofSum (s : Dict Int32 String ⊕ Connection) (v : LoginVerdict)
    (h : (Except.ok (ofSum s) : Except ProtocolError LoginVerdict) = .ok v) : toSum v = s := by
  cases h
  cases s <;> rfl

def layout : Layout .value LoginVerdict :=
  .coded (.mapOr (.dict .int .text) Connection.record.layout) toSum (fun s => .ok (ofSum s))
    ofSum_toSum toSum_ofSum

def isAccepted : LoginVerdict → Bool
  | accepted _ => true
  | rejected _ => false

end LoginVerdict

/-- The answer to a login. -/
abbrev ConnectionAck := Ack LoginVerdict

namespace ConnectionAck

def record : Record ConnectionAck :=
  Ack.record "ConnectionAck" LoginVerdict.layout LoginVerdict.isAccepted

/-- A login accepted with these parameters. -/
def accepted (connection : Connection) : ConnectionAck := .withBody .ok (.accepted connection)

/-- A rejected login. -/
def rejected (status : Status) (reasons : Dict Int32 String) (exception : String) : ConnectionAck :=
  { status, body := some (.rejected reasons), exception := some exception }

/-- What was rejected, if anything was. -/
def rejectionReasons (ack : ConnectionAck) : Option (Dict Int32 String) :=
  match ack.body with
  | some (.rejected reasons) => some reasons
  | _ => none

end ConnectionAck

end DataGateway
