import FieldDiscovery.Config.Schema
import FieldDiscovery.Lib.IpClasses
import FieldDiscovery.Lib.Json
import FieldDiscovery.Lib.PosixPath
import FieldDiscovery.Lib.UrlSplit

/-!
# Validation

`validate_config` of `config.py`: the checks on the merged mapping, section by section, in the order in
which the source makes them.
-/

namespace FieldDiscovery.Config

open Py

/-- `Configuration` -/
structure Configuration where
  data : Yaml

/-! ## Scalars -/

/-- The value is an `int` that is no `bool`, in the bounds. -/
def isInteger (minimum maximum : Int) : Yaml → Bool
  | .int n => minimum ≤ n ∧ n ≤ maximum
  | _ => false

/-- `_integer` -/
def integer (value : Yaml) (path : Str) (minimum maximum : Int) : Except Exc Unit :=
  reject (isInteger minimum maximum value = false)
    (path ++ str " must be an integer from " ++ intStr minimum ++ str " to " ++ intStr maximum)

def isBoolean : Yaml → Bool
  | .bool _ => true
  | _ => false

/-- `_boolean` -/
def boolean (value : Yaml) (path : Str) : Except Exc Unit :=
  reject (isBoolean value = false) (path ++ str " must be true or false")

/-- A string that `accepts` holds of. -/
def isText (accepts : Str → Bool) : Yaml → Bool
  | .string s => accepts s
  | _ => false

/-- Not the empty string. -/
def isNonEmpty (s : Str) : Bool := s ≠ []

/-- A string with something else than white space. -/
def isNotBlank (s : Str) : Bool := strip s ≠ []

/-- `Path(s).is_absolute()` -/
def isAbsolute (s : Str) : Bool := (PurePath.of s).root ≠ []

/-- `None`, or what `accepts` holds of. -/
def isNullOr (accepts : Yaml → Bool) : Yaml → Bool
  | .null => true
  | v => accepts v

/-- `a < b` of two `int`s. -/
def less (a b : Yaml) : Except Exc Bool :=
  match a, b with
  | .int n, .int m => .ok (n < m)
  | _, _ => .error .type

/-! ## `_validate_types` -/

def excludedInterface (name : Str) : Bool :=
  name = str "lo" || name = str "wlan0" || (str "docker").isPrefixOf name ||
    (str "tailscale").isPrefixOf name

def validateInterface (config : Yaml) : Except Exc Unit := do
  let interface ← config.item "interface"
  let name ← interface.item "name"
  reject (isText isNonEmpty name = false) (str "interface.name must be a non-empty string")
  let allow ← interface.item "allow_excluded_interface"
  boolean allow (str "interface.allow_excluded_interface")
  reject (isText excludedInterface name = true ∧ allow.truthy = false) (str
    "interface.name is excluded by default; set allow_excluded_interface: true explicitly")

def validateActive (config : Yaml) : Except Exc Unit := do
  let active ← config.item "active"
  let approvedRanges ← active.item "approved_ranges"
  reject (approvedRanges.isList = false) (str "active.approved_ranges must be a list")
  integer (← active.item "max_hosts") (str "active.max_hosts") 1 1024
  integer (← active.item "scan_timeout_seconds") (str "active.scan_timeout_seconds") 1 86400

/-- An absolute path without parent steps. -/
def validateRooted (paths : Yaml) (name : String) : Except Exc Unit := do
  let value ← paths.item name
  reject (isText isAbsolute value = false) (str "paths." ++ str name ++ str " must be an absolute path")
  reject (isText (fun s => parentStep ∈ (PurePath.of s).parts) value = true)
    (str "paths." ++ str name ++ str " must not contain parent traversal")

/-- `database != data_root and database.is_relative_to(data_root)` -/
def isBelow (database dataRoot : Str) : Bool :=
  (PurePath.of database).root = (PurePath.of dataRoot).root ∧
    (PurePath.of dataRoot).parts <+: (PurePath.of database).parts ∧
    (PurePath.of database).parts ≠ (PurePath.of dataRoot).parts

/-- The same for the values of the section, which are strings. -/
def databaseInside : Yaml → Yaml → Bool
  | .string database, .string dataRoot => isBelow database dataRoot
  | _, _ => false

def validatePaths (config : Yaml) : Except Exc Unit := do
  let paths ← config.item "paths"
  reject (isText isAbsolute (← paths.item "nmap_results") = false)
    (str "paths.nmap_results must be an absolute path")
  validateRooted paths "data_root"
  validateRooted paths "database"
  let dataRoot ← paths.item "data_root"
  let database ← paths.item "database"
  reject (databaseInside database dataRoot = false)
    (str "paths.database must be inside paths.data_root")

def validateScheduler (config : Yaml) : Except Exc Unit := do
  let scheduler ← config.item "scheduler"
  integer (← scheduler.item "interval_seconds") (str "scheduler.interval_seconds") 60 604800
  integer (← scheduler.item "jitter_seconds") (str "scheduler.jitter_seconds") 0 3600
  integer (← scheduler.item "timeout_seconds") (str "scheduler.timeout_seconds") 1 300
  integer (← scheduler.item "retries") (str "scheduler.retries") 0 3
  integer (← scheduler.item "concurrency") (str "scheduler.concurrency") 1 16
  let below ← less (← scheduler.item "jitter_seconds") (← scheduler.item "interval_seconds")
  reject (below = false) (str "scheduler.jitter_seconds must be less than interval_seconds")

def validateStorage (config : Yaml) : Except Exc Unit := do
  let storage ← config.item "storage"
  integer (← storage.item "minimum_free_bytes") (str "storage.minimum_free_bytes") 1 (2 ^ 50)
  integer (← storage.item "minimum_free_percent") (str "storage.minimum_free_percent") 1 50

/-- `for name, collector in config["collectors"].items()` -/
def validateEnabled : List (Key × Yaml) → Except Exc Unit
  | [] => .ok ()
  | (name, collector) :: rest => do
    boolean (← collector.item "enabled")
      (str "collectors." ++ name.shown ++ str ".enabled")
    validateEnabled rest

def validateReport (config : Yaml) : Except Exc Unit := do
  let report ← config.item "report"
  reject (isText isNotBlank (← report.item "confidentiality") = false)
    (str "report.confidentiality must be a non-empty string")
  reject (isNullOr (isText isAbsolute) (← report.item "template") = false)
    (str "report.template must be null or an absolute path")
  ["customer_name", "site_name", "author"].forM fun key => do
    reject (isNullOr (isText isNotBlank) (← report.item key) = false)
      (str "report." ++ str key ++ str " must be null or a non-empty string")
  ["company_name", "document_version"].forM fun key => do
    reject (isText isNotBlank (← report.item key) = false)
      (str "report." ++ str key ++ str " must be a non-empty string")

def validateRetention (config : Yaml) : Except Exc Unit := do
  let retention ← config.item "retention"
  ["detailed_days", "artifact_days", "report_days", "backup_days"].forM fun name => do
    integer (← retention.item name) (str "retention." ++ str name) 1 365
  integer (← retention.item "diagnostic_capture_hours") (str "retention.diagnostic_capture_hours")
    1 168

/-- `_validate_types` -/
def validateTypes (config : Yaml) : Except Exc Unit := do
  validateInterface config
  validateActive config
  validatePaths config
  validateScheduler config
  validateStorage config
  validateEnabled (← (← config.item "collectors").items)
  validateReport config
  validateRetention config

/-! ## `_validate_targets` -/

/-- `n > v` for an `int` `v`. -/
def exceeds (n : Nat) : Yaml → Except Exc Bool
  | .int m => .ok (m < n)
  | _ => .error .type

/-- One item of `approved_ranges`. -/
def validateRange (maxHosts : Yaml) (path : Str) : Yaml → Except Exc Unit
  | .string value =>
    match ipNetwork value true with
    | none => configurationError (path ++ str " must be a canonical IPv4 CIDR")
    | some .v6 => configurationError (path ++ str " must be IPv4; IPv6 is out of scope")
    | some (.v4 network) => do
      reject (network.isPrivate = false ∨ network.isLoopback = true ∨ network.isLinkLocal = true)
        (path ++ str " must be a private, non-loopback, non-link-local range")
      reject ((← exceeds network.numAddresses maxHosts) = true)
        (path ++ str " has " ++ natStr network.numAddresses ++ str " addresses, exceeding " ++
          str "active.max_hosts=" ++ match maxHosts with | .int n => intStr n | _ => [])
  | _ => configurationError (path ++ str " must be an IPv4 CIDR string")

/-- `for index, item in enumerate(items): validate(item, f"{path}[{index}]")` -/
def validateTargets (config : Yaml) : Except Exc Unit := do
  let active ← config.item "active"
  let ranges ← (← active.item "approved_ranges").iterate
  let maxHosts ← active.item "max_hosts"
  checkEach (validateRange maxHosts) (str "active.approved_ranges") 0 ranges

/-! ## `_validate_providers_and_references` -/

/-- One item of `secret_providers`. -/
def validateProvider (name : Str) (provider : Yaml) : Except Exc Unit := do
  let path := str "secret_providers." ++ name
  let type ← provider.get "type" .null
  if isText (· = str "env_file") type then
    reject (isText isAbsolute (← provider.get "path" .null) = false)
      (path ++ str ".path must be an absolute restricted file path")
  else if isText (· = str "command") type then
    reject (isText isAbsolute (← provider.get "executable" .null) = false)
      (path ++ str ".executable must be an absolute path")
    integer (← provider.get "timeout_seconds" (.int 5)) (path ++ str ".timeout_seconds") 1 30
  else configurationError (path ++ str ".type must be env_file or command")

/-- `_REFERENCE_KEY.fullmatch(key)` -/
def isReferenceKey : Str → Bool
  | [] => false
  | c :: rest => isUpper c && 2 ≤ rest.length && rest.length ≤ 127 &&
      rest.all fun c => isUpper c || isDigit c || c = cp '_'

/-- `set(reference) != {"provider", "key"}` -/
def hasReferenceKeys (fields : List (Key × Yaml)) : Bool :=
  let keys := [Key.text (str "provider"), Key.text (str "key")]
  (fields.all fun field => field.1 ∈ keys) && keys.all fun key => key ∈ fields.map Prod.fst

/-- `provider in providers` -/
def isKnownProvider (providers : List (Key × Yaml)) : Yaml → Except Exc Bool
  | .string name => .ok (decide (Key.text name ∈ providers.map Prod.fst))
  | .list _ | .dict _ | .other false _ => .error .type
  | _ => .ok false

/-- One reference. -/
def validateReference (providers : List (Key × Yaml)) (path : Str) : Yaml → Except Exc Unit
  | .null => .ok ()
  | .dict fields => do
    reject (hasReferenceKeys fields = false) (path ++ str " must contain exactly provider and key")
    let reference := Yaml.dict fields
    let known ← isKnownProvider providers (← reference.item "provider")
    reject (known = false) (path ++ str ".provider names an unknown secret provider")
    reject (isText isReferenceKey (← reference.item "key") = false)
      (path ++ str ".key must be an uppercase secret identifier")
  | _ => configurationError (path ++ str " must contain exactly provider and key")

/-- `_validate_providers_and_references` -/
def validateProvidersAndReferences (config : Yaml) : Except Exc Unit := do
  let providers ← (← config.item "secret_providers").items
  providers.forM fun provider => validateProvider provider.1.shown provider.2
  let collectors ← config.item "collectors"
  let references ← ["snmp", "ad", "ssh"].mapM fun name => do
    let reference ← (← collectors.item name).item "credential_ref"
    return (str "collectors." ++ str name ++ str ".credential_ref", reference)
  let endpoints ← (← (← collectors.item "unifi").item "endpoints").iterate
  let endpointReferences ← endpoints.zipIdx.mapM fun endpoint => do
    let reference ← endpoint.1.get "credential_ref" .null
    return (indexPath (str "collectors.unifi.endpoints") endpoint.2 ++ str ".credential_ref",
      reference)
  (references ++ endpointReferences).forM fun reference =>
    validateReference providers reference.1 reference.2

/-! ## `_validate_protocols` -/

section

variable (rt : Runtime)

/-- `any(address in ipaddress.IPv4Network(network) for network in approved_ranges)` -/
def inApproved (address : Nat) : List Yaml → Except Exc Bool
  | [] => .ok false
  | .string value :: ranges =>
    match ipNetwork value true with
    | some (.v4 network) => if network.contains address then .ok true else inApproved address ranges
    | _ => .error .value
  | _ :: _ => .error .type

/-- `_configured_ipv4` -/
def configuredIpv4 (active : Yaml) (requireApproval : Bool) (path : Str) :
    Yaml → Except Exc Unit
  | .string value =>
    match addressValue value with
    | none => configurationError (path ++ str " must be one IPv4 address")
    | some address => do
      let approved ← if requireApproval then do
          inApproved address (← (← active.item "approved_ranges").iterate)
        else pure true
      reject (approved = false) (path ++ str " is outside active.approved_ranges")
  | _ => configurationError (path ++ str " must be one IPv4 address")

/-- `not isinstance(targets, list) or len(targets) > active["max_hosts"]` -/
def isBoundedList (active targets : Yaml) : Except Exc Bool :=
  match targets with
  | .list items => do return !(← exceeds items.length (← active.item "max_hosts"))
  | _ => .ok false

def validateSnmp (collectors active : Yaml) : Except Exc Unit := do
  let snmp ← collectors.item "snmp"
  let insecure ← snmp.item "allow_insecure_v2c"
  boolean insecure (str "collectors.snmp.allow_insecure_v2c")
  let protocol ← snmp.item "protocol"
  reject ((← protocol.isOneOf ["v3", "v2c"]) = false)
    (str "collectors.snmp.protocol must be v3 or v2c")
  reject (isText (· = str "v2c") protocol = true ∧ insecure.truthy = false)
    (str "SNMPv2c requires explicit allow_insecure_v2c: true")
  let targets ← snmp.item "targets"
  reject ((← isBoundedList active targets) = false)
    (str "collectors.snmp.targets must be a bounded list")
  let enabled ← snmp.item "enabled"
  checkEach (configuredIpv4 active enabled.truthy) (str "collectors.snmp.targets") 0
    (← targets.iterate)

/-- `_HOST_LABEL.fullmatch(label)` -/
def isHostLabel (label : Str) : Bool :=
  label ≠ [] && label.length ≤ 63 && (label.all fun c => isAsciiAlnum c || c = cp '-') &&
    label.head?.any isAsciiAlnum && label.getLast?.any isAsciiAlnum

/-- At least two labels. -/
def isQualified (serverName : Str) : Bool :=
  let labels := (serverName.rdropWhile (· = cp '.')).splitOn (cp '.')
  2 ≤ labels.length && labels.all isHostLabel

def validateAd (collectors active : Yaml) : Except Exc Unit := do
  let ad ← collectors.item "ad"
  let plaintext ← ad.item "allow_plaintext_ldap"
  boolean plaintext (str "collectors.ad.allow_plaintext_ldap")
  let transport ← ad.item "transport"
  reject ((← transport.isOneOf ["kerberos", "ldaps", "ldap"]) = false)
    (str "collectors.ad.transport must be kerberos, ldaps, or ldap")
  reject (isText (· = str "ldap") transport = true ∧ plaintext.truthy = false)
    (str "plaintext LDAP requires explicit allow_plaintext_ldap: true")
  let enabled ← ad.item "enabled"
  let domain ← ad.item "domain"
  let baseDn ← ad.item "base_dn"
  reject (enabled.truthy = true ∧ ¬ (isText isNonEmpty domain = true ∧ isText isNonEmpty baseDn = true))
    (str "enabled AD collection requires domain and base_dn")
  let serverName ← ad.item "server_name"
  reject (isNullOr (isText isNonEmpty) serverName = false)
    (str "collectors.ad.server_name must be null or a hostname")
  reject (isNullOr (isText isQualified) serverName = false)
    (str "collectors.ad.server_name must be null or a qualified hostname")
  match ← ad.item "target" with
  | .null => reject (enabled.truthy = true) (str "enabled AD collection requires one approved target")
  | target => configuredIpv4 active enabled.truthy (str "collectors.ad.target") target
  integer (← ad.item "page_size") (str "collectors.ad.page_size") 1 1000
  integer (← ad.item "max_entries") (str "collectors.ad.max_entries") 1 100000
  let groups ← ad.item "documentation_groups"
  reject ((match groups with
      | .list names => decide (names.length ≤ 128) && names.all (isText fun name =>
          name ≠ [] && name.length ≤ 256)
      | _ => false) = false)
    (str "collectors.ad.documentation_groups must contain at most 128 bounded names")

/-- One SSH target. -/
def validateSshTarget (active : Yaml) (enabled : Bool) (path : Str) (target : Yaml) :
    Except Exc Unit := do
  configuredIpv4 active enabled (path ++ str ".address") (← target.get "address" .null)
  let platform ← target.get "platform" .null
  reject ((← platform.isOneOf ["cisco_ios", "hp_comware", "aruba_aos"]) = false)
    (path ++ str ".platform must be cisco_ios, hp_comware, or aruba_aos")

def validateSsh (collectors active : Yaml) : Except Exc Unit := do
  let ssh ← collectors.item "ssh"
  reject ((← (← ssh.item "host_key_policy").isOneOf ["strict", "accept-new"]) = false)
    (str "collectors.ssh.host_key_policy must be strict or accept-new")
  let targets ← ssh.item "targets"
  reject ((← isBoundedList active targets) = false)
    (str "collectors.ssh.targets must be a bounded list")
  let enabled ← ssh.item "enabled"
  checkEach (validateSshTarget active enabled.truthy) (str "collectors.ssh.targets") 0
    (← targets.iterate)

/-- `_decoded_forms` -/
def decodedForms (value : Str) : List Str :=
  [value, unquotePlus value, unquotePlus (unquotePlus value)]

/-- `_contains_credential_parameter` -/
def containsCredentialParameter (value : Str) : Bool :=
  (decodedForms value).any fun form =>
    (form.splitOnP fun c => c = cp '&' || c = cp ';').any fun field =>
      rt.casefold (strip (partitionAt (cp '=') field).1) ∈ inlineSecretKeys

/-- The checks on `url`. -/
def validateUrl (path : Str) : Yaml → Except Exc Unit
  | .string url =>
    match urlsplit rt url with
    | none => .error .value
    | some parsed => do
      reject (parsed.scheme ≠ str "https" ∨ UrlParts.hostinfo parsed.netloc = [])
        (path ++ str ".url must use https://")
      reject ((decodedForms parsed.netloc).any (fun form => cp '@' ∈ form) = true)
        (path ++ str ".url must not contain userinfo credentials")
      reject (containsCredentialParameter rt parsed.query = true)
        (path ++ str ".url must not contain credential query parameters")
      reject (containsCredentialParameter rt parsed.fragment = true)
        (path ++ str ".url must not contain credential fragments")
  | _ => configurationError (path ++ str ".url must use https://")

/-- The checks on `verify_tls` and `allow_self_signed`. -/
def validateTls (path : Str) (endpoint : Yaml) : Except Exc Unit := do
  boolean (← endpoint.get "verify_tls" .null) (path ++ str ".verify_tls")
  boolean (← endpoint.get "allow_self_signed" .null) (path ++ str ".allow_self_signed")
  let verify ← endpoint.item "verify_tls"
  let selfSigned ← endpoint.item "allow_self_signed"
  reject (verify.truthy = false ∧ selfSigned.truthy = false)
    (path ++ str " disabling TLS verification requires explicit allow_self_signed: true")

/-- One UniFi endpoint. -/
def validateEndpoint (active : Yaml) (enabled : Bool) (path : Str) (endpoint : Yaml) :
    Except Exc Unit := do
  reject ((← (← endpoint.get "api_type" (.string (str "modern"))).isOneOf ["modern", "legacy"]) =
    false) (path ++ str ".api_type must be modern or legacy")
  validateUrl rt path (← endpoint.get "url" .null)
  match ← endpoint.get "approved_address" .null with
  | .null =>
    reject (enabled = true) (path ++ str ".approved_address is required when UniFi is enabled")
  | address => configuredIpv4 active enabled (path ++ str ".approved_address") address
  validateTls path endpoint

def validateUnifi (collectors active : Yaml) : Except Exc Unit := do
  let unifi ← collectors.item "unifi"
  let endpoints ← (← unifi.item "endpoints").iterate
  let enabled ← unifi.item "enabled"
  checkEach (validateEndpoint rt active enabled.truthy) (str "collectors.unifi.endpoints") 0 endpoints

/-- `_validate_protocols` -/
def validateProtocols (config : Yaml) : Except Exc Unit := do
  let collectors ← config.item "collectors"
  let active ← config.item "active"
  validateSnmp collectors active
  validateAd collectors active
  validateSsh collectors active
  validateUnifi rt collectors active

/-! ## `validate_config` -/

/-- The checks on the merged mapping. -/
def validateMerged (merged : Yaml) : Except Exc Unit := do
  validateTypes merged
  validateTargets merged
  validateProvidersAndReferences merged
  validateProtocols rt merged

/-- `validate_config` -/
def validateConfig : Yaml → Except Exc Configuration
  | .dict document => do
    rejectInlineSecrets [] (.dict document)
    checkChild [] (.dict document)
    reject (((Dict.get document (.text (str "schema_version"))).any Yaml.isOne) = false)
      (str "schema_version must be integer 1")
    let merged := Yaml.dict (mergeItems defaults document)
    validateMerged rt merged
    return ⟨merged⟩
  | _ => configurationError (str "configuration root must be a mapping")

end

end FieldDiscovery.Config
