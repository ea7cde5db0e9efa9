import FieldDiscovery.Correlation.Evidence
import FieldDiscovery.Lib.JsonValue

/-!
# Controller records

What `unifi_inventory.py` reads off one record of a controller: bounded text, the identifier the
inventory keys it by, the time it was last seen, and its observation for correlation. A record is
untyped JSON, so every reader says what it does with a value of another type.
-/

namespace FieldDiscovery.Unifi

open Py Correlation

/-! ## Resources and kinds -/

/-- `UNIFI_RESOURCES` -/
inductive Resource where
  | devices
  | clients
  | networks
  | wlans
  | profiles
  | alarms
  | events
  deriving DecidableEq

/-- The resources in the order the inventory reads them. -/
def Resource.all : List Resource :=
  [.devices, .clients, .networks, .wlans, .profiles, .alarms, .events]

def Resource.value : Resource → Str
  | devices => str "devices"
  | clients => str "clients"
  | networks => str "networks"
  | wlans => str "wlans"
  | profiles => str "profiles"
  | alarms => str "alarms"
  | events => str "events"

/-- `_ENTITY_KINDS` -/
inductive EntityKind where
  | gateway
  | switch
  | accessPoint
  | client
  | network
  | wlan
  | portProfile
  | port
  | alarm
  | event
  deriving DecidableEq

def EntityKind.value : EntityKind → Str
  | gateway => str "gateway"
  | switch => str "switch"
  | accessPoint => str "access_point"
  | client => str "client"
  | network => str "network"
  | wlan => str "wlan"
  | portProfile => str "port_profile"
  | port => str "port"
  | alarm => str "alarm"
  | event => str "event"

/-- `kind in {*_DEVICE_ROLES.values(), "client"}` -/
def EntityKind.isDevice : EntityKind → Bool
  | gateway | switch | accessPoint | client => true
  | _ => false

/-- A record of a controller. -/
abbrev Record := Dict Str Json

/-! ## Values -/

/-- `_text` -/
def text (value : Json) (maximum : Nat := 512) : Option Str :=
  match value with
  | .string s => if strip s = [] then none else some ((strip s).take maximum)
  | _ => none

/-- `_last_seen` -/
def lastSeen : Json → Option Datetime
  | .int n => if n < 0 then none else (toDouble n).bind Datetime.fromTimestamp
  | .float repr =>
    (floatValue repr).bind fun q => if q < 0 then none else Datetime.fromTimestamp q
  | _ => none

/-- `_ATTRIBUTE_FIELDS` -/
def attributeFields : List String :=
  ["model", "version", "adopted", "disabled", "vlan", "vlan_enabled", "purpose", "security",
    "channel", "radio", "poe_mode", "speed", "duplex", "message", "category", "severity"]

/-- `isinstance(value, str | int | float | bool)` -/
def isScalar : Json → Bool
  | .null | .list _ | .dict _ => false
  | _ => true

/-- `_safe_attributes` -/
def safeAttributes (record : Record) : Dict Str Json :=
  attributeFields.filterMap fun name =>
    let value := Json.field record name
    if isScalar value then some (str name, value) else none

section

variable (rt : Runtime)

/-- `_identifier` -/
def identifier (record : Record) : Str :=
  match ["_id", "id", "mac"].findSome? fun name => text (Json.field record name) 256 with
  | some value => rt.casefold value
  | none =>
    -- the serialization escapes every character outside ASCII, so it always has a UTF-8 form
    let encoded := ((Json.dict record).dumps (.compact true)).flatMap utf8Char
    str "anonymous-" ++ (rt.sha256 encoded).take 16

/-- `_DEVICE_ROLES.get(str(record.get("type", "")).casefold())`. The `str` of a value that is not a
string is a number, a word of Python or a literal in brackets, so it names no role. -/
def deviceRole (record : Record) : Option EntityKind :=
  match Json.field record "type" with
  | .string s =>
    let role := rt.casefold s
    if role = str "ugw" then some .gateway
    else if role = str "usw" then some .switch
    else if role = str "uap" then some .accessPoint
    else none
  | _ => none

/-- The kind of the entity that a record of the resource describes. -/
def entityKind (resource : Resource) (record : Record) : Option EntityKind :=
  match resource with
  | .devices => deviceRole rt record
  | .clients => some .client
  | .networks => some .network
  | .wlans => some .wlan
  | .profiles => some .portProfile
  | .alarms => some .alarm
  | .events => some .event

/-- `f"{site_key}:{kind}:{controller_id}"` -/
def scopedId (siteKey : Str) (kind : EntityKind) (controllerId : Str) : Str :=
  siteKey ++ str ":" ++ kind.value ++ str ":" ++ controllerId

/-! ## Liveness -/

/-- `observed_at - last_seen > stale_after` of a record that was seen. -/
def isStale (observedAt : Datetime) (staleAfter : Int) (record : Record) : Bool :=
  match lastSeen (Json.field record "last_seen") with
  | some seen => decide (staleAfter < observedAt.instant - seen.instant)
  | none => false

/-- `record.get("connected", record.get("state", 1))` -/
def connectedValue (record : Record) : Json :=
  (record.get (str "connected")).getD ((record.get (str "state")).getD (.int 1))

/-- `value not in {False, "0", "disconnected"}` -/
def isConnected (value : Json) : Except Exc Bool :=
  if value.isHashable then
    .ok (!(value.equalsFalse || (match value with
      | .string s => s = str "0" || s = str "disconnected"
      | _ => false)))
  else .error .type

/-- `active` -/
def isActive (record : Record) (stale : Bool) : Except Exc Bool := do
  let connected ← isConnected (connectedValue record)
  .ok (connected && !stale && !(Json.field record "disabled").truthy)

/-! ## Observations -/

/-- The literal `0.7`. -/
def reducedConfidence : ℚ := 3152519739159347 / 4503599627370496

/-- The literal `0.6`. -/
def addressConfidence : ℚ := 5404319552844595 / 9007199254740992

/-- `_identity` -/
def identity (kind : IdentifierKind) (value : Json) (observedAt : Datetime) (confidence : ℚ := 1)
    (idNamespace : Option Str := none) : Except Exc (Option IdentityEvidence) :=
  match text value with
  | none => .ok none
  | some t =>
    match IdentityEvidence.new rt kind t (str "unifi") (some observedAt) confidence idNamespace with
    | .ok evidence => .ok (some evidence)
    | .error (.normalization _) => .ok none
    | .error e => .error e

/-- The `interfaces` of an observation: the record's MAC address on one interface, unless it is
not a MAC address. -/
def macInterfaces (record : Record) (observedAt : Datetime) :
    Except Exc (List InterfaceEvidence) :=
  match text (Json.field record "mac") with
  | none => .ok []
  | some mac =>
    match InterfaceEvidence.new (str "primary") (str "unifi") (some observedAt)
        (some (str "primary")) (some mac) with
    | .ok interface => .ok [interface]
    | .error (.normalization _) => .ok []
    | .error e => .error e

/-- The facts whose value a record gives. -/
def recordFacts (record : Record) (observedAt : Datetime) : Except Exc (List FactEvidence) :=
  (["name", "model", "version"].filterMap fun name =>
    (text (Json.field record name)).map fun value => (name, value)).mapM fun f =>
      FactEvidence.new rt (str f.1) f.2 (str "unifi") (some observedAt)

/-- What `_device_observation` takes besides the record. -/
structure Subject where
  controllerKey : Str
  siteKey : Str
  kind : EntityKind
  observedAt : Datetime
  active : Bool
  stale : Bool

/-- `f"unifi:{controller_key}:{site_key}:{kind}:{controller_id}"` -/
def observationName (s : Subject) (controllerId : Str) : Str :=
  str "unifi:" ++ s.controllerKey ++ str ":" ++ s.siteKey ++ str ":" ++ s.kind.value ++ str ":" ++
    controllerId

/-- The identifiers of an observation. -/
def recordIdentifiers (s : Subject) (record : Record) : Except Exc (List IdentityEvidence) := do
  let idNamespace := str "unifi:" ++ s.controllerKey ++ str ":" ++ s.siteKey
  let sourceId ← identity rt .sourceId (.string (identifier rt record)) s.observedAt 1 idNamespace
  let mac ← identity rt .mac (Json.field record "mac") s.observedAt
    (if s.stale then reducedConfidence else 1)
  let serial ← identity rt .serial (Json.field record "serial") s.observedAt
  let hostname ← identity rt .hostname (Json.field record "hostname") s.observedAt
    reducedConfidence
  let ipv4 ← identity rt .ipv4 (Json.field record "ip") s.observedAt addressConfidence
  .ok ([sourceId, mac, serial, hostname, ipv4].filterMap id)

/-- The facts of an observation. -/
def subjectFacts (s : Subject) (record : Record) : Except Exc (List FactEvidence) := do
  let state := if s.active then str "active" else str "disconnected"
  let role ← FactEvidence.new rt (str "role") s.kind.value (str "unifi") (some s.observedAt)
  let site ← FactEvidence.new rt (str "site") s.siteKey (str "unifi") (some s.observedAt)
  let connection ← FactEvidence.new rt (str "connection_state") state (str "unifi")
    (some s.observedAt)
  let stale ← if s.stale then
      (FactEvidence.new rt (str "stale") (str "true") (str "unifi") (some s.observedAt)).map
        fun fact => [fact]
    else .ok []
  let facts ← recordFacts rt record s.observedAt
  .ok ([role, site, connection] ++ stale ++ facts)

/-- `_device_observation` -/
def deviceObservation (s : Subject) (record : Record) : Except Exc DeviceObservation := do
  let identifiers ← recordIdentifiers rt s record
  let interfaces ← macInterfaces record s.observedAt
  let facts ← subjectFacts rt s record
  DeviceObservation.new (observationName s (identifier rt record)) (str "unifi")
    (some s.observedAt) identifiers interfaces facts

end

end FieldDiscovery.Unifi
