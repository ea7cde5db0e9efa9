import FieldDiscovery.Lib.JsonValue

/-!
# Records of infrastructure observations

How `infrastructure_reporting` reads the payload of an observation: `_snmp_record` routes an SNMP
fact by its type, and `_ssh_records` takes the rows of a structured command output apart.
-/

namespace FieldDiscovery.Infrastructure

open Py

/-- `s.removeprefix(lead)` -/
def removePrefix (lead : String) (s : Str) : Str :=
  if str lead <+: s then s.drop (str lead).length else s

/-- `s.startswith(lead)` -/
def startsWith (lead : String) (s : Str) : Bool := decide (str lead <+: s)

/-- What follows the first occurrence of `c`: `s.split(c, 1)[1]`. -/
def afterFirst (c : CodePoint) (s : Str) : Str := (s.dropWhile fun d => decide (d ≠ c)).tail

/-- `_SECTIONS` -/
inductive Section where
  | switchPorts
  | vlans
  | neighbors
  | printers
  | ups
  | environment
  | firmware
  deriving DecidableEq

namespace Section

def name : Section → Str
  | switchPorts => str "switch_ports"
  | vlans => str "vlans"
  | neighbors => str "neighbors"
  | printers => str "printers"
  | ups => str "ups"
  | environment => str "environment"
  | firmware => str "firmware"

def all : List Section :=
  [switchPorts, vlans, neighbors, printers, ups, environment, firmware]

end Section

/-- The tuple `(section, key, field_name, value, unit)`; no unit is `null`. -/
structure Record where
  place : Section
  key : Str
  fieldName : Str
  value : Json
  unit : Json := .null

/-! ## Rows of a payload -/

/-- `_rows` -/
def rowsOf : Json → List (Dict Str Json)
  | .dict row => [row]
  | .list items => items.filterMap fun
    | .dict row => some row
    | _ => none
  | _ => []

/-- `value in (None, "")` -/
def isBlank : Json → Bool
  | .null => true
  | .string s => decide (s = [])
  | _ => false

/-- `_first` -/
def first (row : Dict Str Json) (names : List String) : Option Json :=
  names.findSome? fun name => (row.get (str name)).filter fun value => !isBlank value

/-- `_PORT_KEYS` -/
def portKeys : List String := ["port", "interface", "local_interface", "destination_port"]

/-- `any(token in command for token in tokens)` -/
def mentions (command : Str) (tokens : List String) : Bool :=
  tokens.any fun token => contains (str token) command

/-- `sorted(row.items())`, without the keys in `names`. -/
def itemsBut (row : Dict Str Json) (names : List String) : List (Str × Json) :=
  (sortedBy Prod.fst row).filter fun item => decide (item.1 ∉ names.map str)

section

-- `str.isprintable` of a code point outside ASCII
variable (printable : CodePoint → Bool)

/-- The branches of `_ssh_records` that do not ask for a port. -/
def unportedRecords (command : Str) (row : Dict Str Json) : List Record :=
  if contains (str "vlan") command then
    match first row ["vlan", "vlan_id", "vid"] with
    | some vlan => (itemsBut row ["vlan", "vlan_id", "vid"]).map fun item =>
      { place := .vlans, key := vlan.toStr printable, fieldName := item.1, value := item.2 }
    | none => []
  else if mentions command ["environment", "temperature"] then
    let key :=
      match (first row ["sensor", "name", "index"]).filter Json.truthy with
      | some sensor => sensor.toStr printable
      | none => str "system"
    (itemsBut row []).map fun item =>
      { place := .environment, key, fieldName := item.1, value := item.2
        unit := Json.field row "unit" }
  else if mentions command ["version", "system", "inventory", "module"] then
    ["firmware", "version", "software_version", "model", "serial"].filterMap fun name =>
      (row.get (str name)).map fun value =>
        { place := .firmware, key := str "system", fieldName := str name, value }
  else []

/-- The records of one row of `_ssh_records`. -/
def rowRecords (command : Str) (row : Dict Str Json) : List Record :=
  match first row portKeys with
  | none => unportedRecords printable command row
  | some port =>
    let key := port.toStr printable
    if contains (str "mac") command then
      match first row ["mac", "mac_address", "destination_address"] with
      | some value => [{ place := .switchPorts, key, fieldName := str "learned_mac", value }]
      | none => []
    else if mentions command ["lldp", "cdp", "neighbor"] then
      match first row ["neighbor", "system_name", "device_id", "neighbor_id"] with
      | some value => [{ place := .neighbors, key, fieldName := str "neighbor", value }]
      | none => []
    else if mentions command ["power", "poe"] then
      (itemsBut row portKeys).map fun item =>
        { place := .switchPorts, key, fieldName := str "poe_" ++ item.1, value := item.2 }
    else if contains (str "interface") command then
      (itemsBut row portKeys).map fun item =>
        { place := .switchPorts, key, fieldName := item.1, value := item.2 }
    else unportedRecords printable command row

/-- `_ssh_records` -/
def sshRecords (factType : Str) (payload : Dict Str Json) : List Record :=
  (rowsOf (Json.field payload "value")).flatMap
    (rowRecords printable (removePrefix "ssh." factType))

/-- `_snmp_record` -/
def snmpRecord (factType : Str) (payload : Dict Str Json) : Option (Section × Str × Str) :=
  let suffix := removePrefix "snmp." factType
  let index := Json.field payload "index"
  let index := if index.truthy then index.toStr printable else str "system"
  if startsWith "interface." suffix then
    some (.switchPorts, index, removePrefix "interface." suffix)
  else if startsWith "poe.port." suffix then
    some (.switchPorts, str "poe:" ++ index, removePrefix "poe.port." suffix)
  else if startsWith "vlan." suffix then some (.vlans, index, removePrefix "vlan." suffix)
  else if startsWith "neighbor." suffix || startsWith "lldp.remote." suffix then
    some (.neighbors, index, afterFirst (cp '.') suffix)
  else if startsWith "printer." suffix then some (.printers, index, removePrefix "printer." suffix)
  else if startsWith "ups." suffix then some (.ups, index, removePrefix "ups." suffix)
  else if startsWith "environment." suffix then
    some (.environment, index, removePrefix "environment." suffix)
  else if startsWith "firmware." suffix || startsWith "software." suffix ||
      startsWith "inventory." suffix then some (.firmware, index, suffix)
  else none

/-- The value of an SNMP observation: a status in place of a missing value. -/
def snmpValue (payload : Dict Str Json) : Json :=
  match Json.field payload "value", payload.get (str "value_status") with
  | .null, some status =>
    .dict [(str "status", status), (str "raw_value", Json.field payload "raw_value")]
  | value, _ => value

/-- The record of an SNMP observation outside bridge tables. -/
def snmpRecords (factType : Str) (payload : Dict Str Json) : List Record :=
  (snmpRecord printable factType payload).toList.map fun mapped =>
    { place := mapped.1, key := mapped.2.1, fieldName := mapped.2.2, value := snmpValue payload
      unit := Json.field payload "unit" }

end

end FieldDiscovery.Infrastructure
