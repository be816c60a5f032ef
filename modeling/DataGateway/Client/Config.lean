import DataGateway.Client.Duration
import DataGateway.Record.Connection

/-!
# Configuration

What a client is told before it connects: where the service is, whom to log in as, whether payloads
may be split, and how long to wait. `Config.check` refuses settings that no login can be made of,
and `Config.connection` is the login that the settings describe.
-/

namespace DataGateway

/-- The version of the protocol that a client speaks. -/
def protocolVersion : Int32 := 6

/-- Why there is no usable configuration. -/
inductive ConfigError
  /-- The file cannot be read as text. -/
  | unreadable
  /-- The file does not hold the settings. -/
  | unparsable
  /-- The settings contradict themselves. -/
  | invalid (reason : String)
  deriving DecidableEq, Repr

def ConfigError.message : ConfigError → String
  | unreadable => "failed to read config file"
  | unparsable => "failed to parse config file"
  | invalid reason => "configuration validation failed: " ++ reason

/-- The settings of a client; timeouts are in milliseconds and the transmission unit in bytes. -/
structure Config where
  url : String := "ws://127.0.0.1:8888/gate"
  userName : String := "user"
  password : Option String := none
  clusterName : String := ""
  serveOnTheSameConnection : Bool := true
  fragmentationSupported : Bool := false
  transmissionUnit : UInt64 := 0
  connectMillis : UInt64 := 10000
  requestMillis : UInt64 := 30000
  eventCapacity : UInt64 := 256
  deriving DecidableEq

namespace Config

/-- Whether a login can be made of the settings. -/
def check (c : Config) : Except ConfigError Unit :=
  if c.userName = "" then .error (.invalid "user_name must not be empty")
  else if c.connectMillis = 0 ∨ c.requestMillis = 0 then
    .error (.invalid "timeouts must be positive")
  else if c.fragmentationSupported ∧ c.transmissionUnit = 0 then
    .error (.invalid "fragmentation requires a positive fragment_transmission_unit")
  else if c.eventCapacity = 0 then .error (.invalid "event_channel_capacity must be positive")
  else .ok ()

/-- How long a login may take. -/
def connectTimeout (c : Config) : Duration := .ofMillis c.connectMillis

/-- How long a request may take that says nothing itself. -/
def requestTimeout (c : Config) : Duration := .ofMillis c.requestMillis

/-- Turns fragmentation on. -/
def withFragmentation (c : Config) (unit : UInt64) : Config :=
  { c with fragmentationSupported := true, transmissionUnit := unit }

/-- Sets the connect timeout to the whole milliseconds of a duration, as far as 64 bits go. -/
def withConnectTimeout (c : Config) (timeout : Duration) : Config :=
  { c with connectMillis := UInt64.ofNat timeout.millis }

/-- Sets the request timeout to the whole milliseconds of a duration, as far as 64 bits go. -/
def withRequestTimeout (c : Config) (timeout : Duration) : Config :=
  { c with requestMillis := UInt64.ofNat timeout.millis }

/-- The login that the settings describe. The wire's unit is signed. -/
def connection (c : Config) : Connection :=
  let login : Connection := {
    clusterName := c.clusterName
    protocolVersion := protocolVersion
    serveOnTheSameConnection := c.serveOnTheSameConnection }
  let login :=
    if c.fragmentationSupported then login.withFragmentation c.transmissionUnit.toInt64 else login
  match c.password with
  | some password => login.withPassword password
  | none => login

end Config

end DataGateway
