import DataGateway.Client.ClientError
import DataGateway.Payload

/-!
# Listeners

A listener has at most one handler for each type of payload; the one registered last counts.
Handlers are known by their numbers. A payload goes to the handler for its own type, whatever the
header says.
-/

namespace DataGateway

/-- The numbers of the handlers, by the type that each takes. -/
structure Listener where
  handler? : DataType → Option Nat := fun _ => none

namespace Listener

/-- Registers a handler, in place of any earlier one for the type. -/
def register (l : Listener) (type : DataType) (handler : Nat) : Listener :=
  ⟨fun t => if t = type then some handler else l.handler? t⟩

/-- The listener with one handler for each type in a list, numbered from zero. -/
def ofTypes (types : List DataType) : Listener :=
  types.zipIdx.foldl (fun l (type, handler) => l.register type handler) {}

/-- The types with a handler, by tag. -/
def handled (l : Listener) : List DataType :=
  DataType.all.filter fun type => (l.handler? type).isSome

/-- The handler that takes a payload. -/
def dispatch (l : Listener) (payload : Payload) : Except ClientError Nat :=
  match l.handler? payload.type with
  | some handler => .ok handler
  | none => .error (.unhandled payload.type)

def describe (l : Listener) : String :=
  "MessageListener \x7b handles: [" ++ ", ".intercalate (l.handled.map (·.name)) ++ "] \x7d"

end Listener

end DataGateway
