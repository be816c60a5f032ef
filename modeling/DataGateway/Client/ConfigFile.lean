import DataGateway.Client.Config
import DataGateway.Text.Utf8
import DataGateway.Yaml.Node
import DataGateway.Yaml.Plain
import DataGateway.Yaml.Writer

/-!
# Configuration files and variables

The settings stand in a file as a mapping from their names to scalars. What the mapping leaves out
has its default, and keys that name no setting are passed over. Variables of the environment come
after the file and override what it says.
-/

namespace DataGateway.Config

open Yaml (Node Scalar)

/-- The tag of a kind of scalar. -/
def tagOf (kind : String) : String := "tag:yaml.org,2002:" ++ kind

/-- Whether a scalar may hold something else than text: a literal block says so by its tag. -/
def mayBe (kind : String) (s : Scalar) : Bool :=
  s.style = .plain || (s.style = .literal && s.tag = some (tagOf kind))

/-- What a setting's scalar holds. -/
def boolean? (s : Scalar) : Option Bool :=
  if mayBe "bool" s then Yaml.boolean? s.text else none

/-- A number that fits 64 bits. -/
def natural? (s : Scalar) : Option UInt64 := do
  let n ← if mayBe "int" s then Yaml.unsigned? s.text else none
  if n < UInt64.size then some (UInt64.ofNat n) else none

/-- A text that may be absent; only a plain null is. A tag decides whether a plain scalar is a null,
and what it calls null has to be spelled out. -/
def absentOrText? (s : Scalar) : Option (Option String) :=
  match s.style, s.tag with
  | .plain, none => some (if Yaml.isNull s.text then none else some s.text)
  | .plain, some tag =>
    if tag ≠ tagOf "null" then some (some s.text)
    else if s.text ≠ "" ∧ Yaml.isNull s.text then some none
    else none
  | _, _ => some (some s.text)

/-- How each setting is taken from its scalar. -/
def settings : List (String × (Config → Scalar → Option Config)) :=
  [("url", fun c v => some { c with url := v.text }),
    ("user_name", fun c v => some { c with userName := v.text }),
    ("password", fun c v => do return { c with password := ← absentOrText? v }),
    ("cluster_name", fun c v => some { c with clusterName := v.text }),
    ("serve_on_the_same_connection",
      fun c v => do return { c with serveOnTheSameConnection := ← boolean? v }),
    ("fragmentation_supported",
      fun c v => do return { c with fragmentationSupported := ← boolean? v }),
    ("fragment_transmission_unit",
      fun c v => do return { c with transmissionUnit := ← natural? v }),
    ("connect_timeout_ms", fun c v => do return { c with connectMillis := ← natural? v }),
    ("request_timeout_ms", fun c v => do return { c with requestMillis := ← natural? v }),
    ("event_channel_capacity", fun c v => do return { c with eventCapacity := ← natural? v })]

/-- The settings of a mapping in a document, given those already `seen`, none of which may come
again. -/
def ofEntries (root : Node) (c : Config) (seen : List String) :
    List (Node × Node) → Option Config
  | [] => some c
  | (key, value) :: rest => do
    let name ← (root.scalar? key).map (·.text)
    match settings.lookup name with
    | none => ofEntries root c seen rest
    | some set =>
      if seen.contains name then none
      else ofEntries root (← set c (← root.scalar? value)) (name :: seen) rest

/-- The settings that a document holds. An empty document holds none. -/
def parse (document : String) : Except ConfigError Config :=
  let config? := do
    match ← Yaml.read? document with
    | root@(.mapping _ entries) => ofEntries root {} [] entries
    | .scalar _ s => if s.text = "" ∧ s.style = .plain then some {} else none
    | _ => none
  match config? with
  | some config => .ok config
  | none => .error .unparsable

/-- The settings in a file, if there is one. -/
def ofFile (file : Option Bytes) : Except ConfigError Config :=
  match file.map Text.ofOctets with
  | some (.ok document) => parse document
  | _ => .error .unreadable

/-- What a setting holds. -/
inductive Setting
  | text (s : String)
  | absent
  | truth (b : Bool)
  | number (n : UInt64)

/-- The settings by their names, in the order in which they are written. -/
def values (c : Config) : List (String × Setting) :=
  [("url", .text c.url), ("user_name", .text c.userName),
    ("password", (c.password.map .text).getD .absent), ("cluster_name", .text c.clusterName),
    ("serve_on_the_same_connection", .truth c.serveOnTheSameConnection),
    ("fragmentation_supported", .truth c.fragmentationSupported),
    ("fragment_transmission_unit", .number c.transmissionUnit),
    ("connect_timeout_ms", .number c.connectMillis),
    ("request_timeout_ms", .number c.requestMillis),
    ("event_channel_capacity", .number c.eventCapacity)]

/-- A setting as a scalar. -/
def Setting.scalar : Setting → List Char
  | text s => Yaml.scalar s
  | absent => "null".toList
  | truth b => (if b then "true" else "false").toList
  | number n => Text.shortest 10 n.toNat

/-- The settings as a document, which `parse` reads back. -/
def render (c : Config) : String :=
  String.ofList (c.values.flatMap fun (name, setting) => Yaml.entry name setting.scalar)

/-- The number of 64 bits that a variable spells, with one plus at most before its digits. -/
def spelled? (s : String) : Option UInt64 := do
  let digits := match s.toList with
    | '+' :: rest => rest
    | cs => cs
  if !Text.allDigits digits then none
  else
    let n ← Text.natural? 10 digits
    if n < UInt64.size then some (UInt64.ofNat n) else none

/-- The settings with those that variables override; a number that cannot be read overrides none. -/
def override (c : Config) (lookup : String → Option String) : Config where
  url := (lookup "GDS_URL").getD c.url
  userName := (lookup "GDS_USER").getD c.userName
  password := lookup "GDS_PASSWORD" <|> c.password
  clusterName := (lookup "GDS_CLUSTER").getD c.clusterName
  serveOnTheSameConnection := c.serveOnTheSameConnection
  fragmentationSupported := c.fragmentationSupported
  transmissionUnit := c.transmissionUnit
  connectMillis := ((lookup "GDS_CONNECT_TIMEOUT_MS").bind spelled?).getD c.connectMillis
  requestMillis := ((lookup "GDS_REQUEST_TIMEOUT_MS").bind spelled?).getD c.requestMillis
  eventCapacity := c.eventCapacity

/-- The settings a client starts with: those of the named file or else the defaults, overridden by
the environment and checked. What a named file holds is given as `file`. -/
def load (file : Option (Option Bytes)) (lookup : String → Option String) :
    Except ConfigError Config := do
  let config ← match file with
    | some file => ofFile file
    | none => .ok {}
  let config := config.override lookup
  config.check
  return config

end DataGateway.Config
