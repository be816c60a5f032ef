import DataGateway.Client.ClientError
import DataGateway.Form.Record

/-!
# Forms of errors

An error's form has the name of its cause, the message that words it, and what callers ask of it: to
which family it belongs, or whether the call was misuse or may be made again.
-/

namespace DataGateway

/-- The name of an error's cause. -/
def ProtocolError.name : ProtocolError → String
  | typeMismatch .. => "TypeMismatch"
  | elementCount .. => "ElementCount"
  | unknownDataType _ => "UnknownDataType"
  | unsupportedDataType _ => "UnsupportedDataType"
  | unknownStatus _ => "UnknownAckStatus"
  | unknownFieldType _ => "UnknownFieldType"
  | unknownConsistency _ => "UnknownConsistencyType"
  | integerOutOfRange .. => "IntegerOutOfRange"
  | malformed _ => "Malformed"
  | unexpectedEnd => "UnexpectedEof"
  | trailingBytes _ => "TrailingBytes"
  | tooLarge .. => "TooLarge"
  | missingField _ => "MissingField"
  | invalid .. => "Invalid"
  | io _ => "Io"

/-- The fields of an error's form. -/
def ProtocolError.toFields (e : ProtocolError) : List (String × Form) :=
  [("error", toForm e.name), ("kind", toForm e.kind.label), ("message", toForm e.message),
    ("is", toForm [e.kind == .decode, e.kind == .validation])]

instance : ToForm ProtocolError := ⟨fun e => .fields e.toFields⟩

instance {κ α : Type} [Ord κ] [ToForm κ] [ToForm α] : ToForm (Dict κ α) :=
  ⟨fun d => toForm d.entries⟩

instance {κ α : Type} [Ord κ] [Std.TransOrd κ] [OfForm κ] [OfForm α] : OfForm (Dict κ α) :=
  ⟨fun f => Dict.ofList <$> ofForm f⟩

instance : ToForm LoginFailure where
  toForm
    | .transport reason => .fields [("failure", .text "Transport"), ("reason", .text reason)]
    | .rejected status reasons exception =>
      .fields [("failure", .text "Rejected"), ("status", toForm status),
        ("reasons", toForm reasons), ("exception", toForm exception)]
    | .closed => .fields [("failure", .text "Closed")]
    | .timedOut => .fields [("failure", .text "Timeout")]

/-- The form of an error in the configuration. Only broken rules are worded. -/
instance : ToForm ConfigError where
  toForm
    | .unreadable => .fields [("error", .text "IoError")]
    | .unparsable => .fields [("error", .text "ParseError")]
    | .invalid reason =>
      .fields [("error", .text "Invalid"), ("message", .text (ConfigError.invalid reason).message)]

namespace ClientError

/-- The name of an error's cause. -/
def name : ClientError → String
  | protocol _ => "Protocol"
  | transport _ => "Transport"
  | timeout _ => "Timeout"
  | connectionFailed _ => "ConnectionFailed"
  | notLoggedIn _ => "NotLoggedIn"
  | connectionClosed => "ConnectionClosed"
  | duplicateId _ => "DuplicateMessageId"
  | alreadyUsed => "AlreadyUsed"
  | unhandled _ => "UnhandledMessage"
  | unexpectedReply .. => "UnexpectedReply"
  | config _ => "Config"

/-- What the error is about, if it is not a text. -/
def cause : ClientError → Form
  | protocol e => toForm e
  | connectionFailed failure => toForm failure
  | notLoggedIn phase => .text phase.name
  | unhandled type | unexpectedReply _ type => toForm type
  | config e => toForm e
  | _ => .absent

end ClientError

instance : ToForm ClientError where
  toForm e := .fields [("error", .text e.name), ("message", .text e.message), ("cause", e.cause),
    ("timeout", toForm e.isTimeout), ("usage", toForm e.isUsage),
    ("retryable", toForm e.isRetryable)]

end DataGateway
