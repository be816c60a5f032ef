/-!
# Phases of a connection

A client goes through these phases in order. A login is under way in the four phases of the
handshake, and nothing leads out of the two terminal ones.
-/

namespace DataGateway

/-- Where a client stands between its creation and its end. -/
inductive Phase
  | notConnected | initializing | connecting | connected | loggingIn | loggedIn | disconnected
  | failed
  deriving DecidableEq, Repr

namespace Phase

def all : List Phase :=
  [notConnected, initializing, connecting, connected, loggingIn, loggedIn, disconnected, failed]

/-- Whether a login is under way. -/
def isHandshaking : Phase → Bool
  | initializing | connecting | connected | loggingIn => true
  | _ => false

/-- Whether the client is done for good. -/
def isTerminal : Phase → Bool
  | disconnected | failed => true
  | _ => false

def name : Phase → String
  | notConnected => "NotConnected"
  | initializing => "Initializing"
  | connecting => "Connecting"
  | connected => "Connected"
  | loggingIn => "LoggingIn"
  | loggedIn => "LoggedIn"
  | disconnected => "Disconnected"
  | failed => "Failed"

/-- A phase as it stands in messages. -/
def label : Phase → String
  | notConnected => "not connected"
  | initializing => "initializing"
  | connecting => "connecting"
  | connected => "connected"
  | loggingIn => "logging in"
  | loggedIn => "logged in"
  | disconnected => "disconnected"
  | failed => "failed"

end Phase

end DataGateway
