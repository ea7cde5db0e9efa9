import FieldDiscovery.Config.Yaml

/-!
# The schema of a configuration

`_DEFAULTS`, `_merge`, and the two checks on the mapping as it was parsed: no key at any depth is the
name of an inline secret, and the known sections have known keys only.
-/

namespace FieldDiscovery.Config

open Py

/-! ## Defaults -/

/-- `_DEFAULTS` -/
def defaultSections : List (String × Yaml) := [
  ("interface", .fields [("name", .string (str "eth0")),
    ("allow_excluded_interface", .bool false)]),
  ("active", .fields [("approved_ranges", .list []), ("max_hosts", .int 256),
    ("scan_timeout_seconds", .int 7200)]),
  ("paths", .fields [("nmap_results", .string (str "/var/log/network-discovery")),
    ("data_root", .string (str "/var/lib/field-discovery")),
    ("database", .string (str "/var/lib/field-discovery/discovery.db"))]),
  ("scheduler", .fields [("interval_seconds", .int 3600), ("jitter_seconds", .int 120),
    ("timeout_seconds", .int 30), ("retries", .int 1), ("concurrency", .int 4)]),
  ("storage", .fields [("minimum_free_bytes", .int 536870912),
    ("minimum_free_percent", .int 10)]),
  ("collectors", .fields [
    ("snmp", .fields [("enabled", .bool false), ("protocol", .string (str "v3")),
      ("allow_insecure_v2c", .bool false), ("credential_ref", .null), ("targets", .list [])]),
    ("unifi", .fields [("enabled", .bool false), ("endpoints", .list [])]),
    ("ad", .fields [("enabled", .bool false), ("transport", .string (str "ldaps")),
      ("allow_plaintext_ldap", .bool false), ("domain", .null), ("base_dn", .null),
      ("server_name", .null), ("target", .null), ("page_size", .int 500),
      ("max_entries", .int 10000), ("documentation_groups", .list []),
      ("credential_ref", .null)]),
    ("ssh", .fields [("enabled", .bool false), ("host_key_policy", .string (str "strict")),
      ("credential_ref", .null), ("targets", .list [])])]),
  ("secret_providers", .fields []),
  ("report", .fields [("confidentiality", .string (str "Confidential")), ("template", .null),
    ("customer_name", .null), ("site_name", .null), ("author", .null),
    ("company_name", .string (str "CodexNet")), ("document_version", .string (str "1.0"))]),
  ("retention", .fields [("detailed_days", .int 30), ("artifact_days", .int 30),
    ("report_days", .int 30), ("backup_days", .int 30), ("diagnostic_capture_hours", .int 24)])]

/-- `_DEFAULTS`, as a mapping. -/
def defaults : List (Key × Yaml) := defaultSections.map fun item => (.text (str item.1), item.2)

mutual

/-- What `_merge` stores for a value. -/
def mergeValue (old : Option Yaml) : Yaml → Yaml
  | .dict items =>
    match old with
    | some (.dict defaults) => .dict (mergeItems defaults items)
    | _ => .dict items
  | value => value

/-- `_merge`: the loop over the supplied items. -/
def mergeItems (result : List (Key × Yaml)) : List (Key × Yaml) → List (Key × Yaml)
  | [] => result
  | (key, value) :: rest =>
    mergeItems (Dict.set result key (mergeValue (Dict.get result key) value)) rest

end

/-! ## Inline secrets -/

/-- `_INLINE_SECRET_KEYS` -/
def inlineSecretKeys : List Str :=
  ["password", "passwd", "pwd", "passphrase", "token", "access_token", "refresh_token", "id_token",
    "api_key", "api-key", "apikey", "community", "snmp_community", "community_string", "private_key",
    "auth_key", "priv_key", "client_secret"].map str

/-- `str(key).lower() in _INLINE_SECRET_KEYS` -/
def Key.isSecret (key : Key) : Bool := Redaction.lowerKey key.shown ∈ inlineSecretKeys

/-- `f"{path}.{key}" if path else key` -/
def childPath (path key : Str) : Str := if path = [] then key else path ++ str "." ++ key

/-- `f"{path}[{index}]"` -/
def indexPath (path : Str) (index : Nat) : Str := path ++ str "[" ++ natStr index ++ str "]"

mutual

/-- `_reject_inline_secrets` -/
def rejectInlineSecrets (path : Str) : Yaml → Except Exc Unit
  | .dict items => rejectSecretItems path items
  | .list items => rejectSecretElements path 0 items
  | _ => .ok ()

def rejectSecretItems (path : Str) : List (Key × Yaml) → Except Exc Unit
  | [] => .ok ()
  | (key, child) :: rest => do
    reject (key.isSecret = true) (childPath path key.shown ++
      str " is an inline secret; use credential_ref with a secret provider")
    rejectInlineSecrets (childPath path key.shown) child
    rejectSecretItems path rest

def rejectSecretElements (path : Str) (index : Nat) : List Yaml → Except Exc Unit
  | [] => .ok ()
  | child :: rest => do
    rejectInlineSecrets (indexPath path index) child
    rejectSecretElements path (index + 1) rest

end

/-! ## Known keys -/

/-- `_ALLOWED` -/
def allowedSections : List (String × List String) := [
  ("", ["schema_version", "interface", "active", "paths", "scheduler", "storage", "collectors",
    "secret_providers", "report", "retention"]),
  ("interface", ["name", "allow_excluded_interface"]),
  ("active", ["approved_ranges", "max_hosts", "scan_timeout_seconds"]),
  ("paths", ["nmap_results", "data_root", "database"]),
  ("scheduler", ["interval_seconds", "jitter_seconds", "timeout_seconds", "retries",
    "concurrency"]),
  ("storage", ["minimum_free_bytes", "minimum_free_percent"]),
  ("collectors", ["snmp", "unifi", "ad", "ssh"]),
  ("collectors.snmp", ["enabled", "protocol", "allow_insecure_v2c", "credential_ref", "targets"]),
  ("collectors.unifi", ["enabled", "endpoints"]),
  ("collectors.ad", ["enabled", "transport", "allow_plaintext_ldap", "domain", "base_dn",
    "server_name", "target", "page_size", "max_entries", "documentation_groups",
    "credential_ref"]),
  ("collectors.ssh", ["enabled", "host_key_policy", "credential_ref", "targets"]),
  ("report", ["confidentiality", "template", "customer_name", "site_name", "author", "company_name",
    "document_version"]),
  ("retention", ["detailed_days", "artifact_days", "report_days", "backup_days",
    "diagnostic_capture_hours"])]

/-- `_ALLOWED.get(path)` -/
def allowedKeys (path : Str) : Option (List Str) :=
  (allowedSections.find? fun entry => str entry.1 = path).map fun entry => entry.2.map str

/-- The least of some keys as `sorted` puts them. Keys that have no order among them raise. -/
def firstKey : List Key → Except Exc (Option Key)
  | [] => .ok none
  | [key] => .ok (some key)
  | key :: keys =>
    match (key :: keys).mapM fun | .text s => some s | _ => none with
    | some texts => .ok ((sortedBy id texts).head?.map .text)
    | none =>
      match (key :: keys).mapM fun | .number shown value => some (value, shown) | _ => none with
      | some numbers => .ok ((sortedBy Prod.fst numbers).head?.map fun n => .number n.2 n.1)
      | none => .error .type

/-- `unknown = sorted(set(value) - allowed)` -/
def rejectUnknown (location : Str) (allowed : List Str) (items : List (Key × Yaml)) :
    Except Exc Unit := do
  match ← firstKey ((items.map Prod.fst).filter fun key => key ∉ allowed.map Key.text) with
  | none => .ok ()
  | some key => configurationError (location ++ str " contains unknown key: " ++ key.shown)

/-- A mapping that has no other keys than those allowed. -/
def checkKeysOf (allowed : List (Key × Yaml) → List Str) (path : Str) : Yaml → Except Exc Unit
  | .dict items => rejectUnknown path (allowed items) items
  | _ => configurationError (path ++ str " must be a mapping")

/-- `_check_provider_keys` -/
def checkProviderKeys : Str → Yaml → Except Exc Unit :=
  checkKeysOf fun items =>
    match Dict.get items (.text (str "type")) with
    | some (.string s) =>
      if s = str "env_file" then ["type", "path"].map str
      else if s = str "command" then ["type", "executable", "timeout_seconds"].map str
      else ["type", "path", "executable", "timeout_seconds"].map str
    | _ => ["type", "path", "executable", "timeout_seconds"].map str

/-- `_check_endpoint_keys` -/
def checkEndpointKeys : Str → Yaml → Except Exc Unit :=
  checkKeysOf fun _ => ["url", "api_type", "verify_tls", "allow_self_signed", "credential_ref",
    "approved_address"].map str

/-- `_check_ssh_target_keys` -/
def checkSshTargetKeys : Str → Yaml → Except Exc Unit :=
  checkKeysOf fun _ => ["address", "platform"].map str

/-- `for index, item in enumerate(items): check(item, f"{path}[{index}]")` -/
def checkEach (check : Str → Yaml → Except Exc Unit) (path : Str) (index : Nat) :
    List Yaml → Except Exc Unit
  | [] => .ok ()
  | item :: rest => do
    check (indexPath path index) item
    checkEach check path (index + 1) rest

/-- `_NAME.fullmatch(name)` -/
def isProviderName : Str → Bool
  | [] => false
  | c :: rest => isLower c && rest.length ≤ 63 &&
      rest.all fun c => isLower c || isDigit c || c = cp '_' || c = cp '-'

/-- The loop over the providers. -/
def checkProviders : List (Key × Yaml) → Except Exc Unit
  | [] => .ok ()
  | (name, provider) :: rest => do
    let path := str "secret_providers." ++ name.shown
    reject (isProviderName name.shown = false) (path ++ str " has an invalid provider name")
    checkProviderKeys path provider
    checkProviders rest

/-- `isinstance(key, str)` -/
def Key.isText : Key → Bool
  | text _ => true
  | _ => false

/-- What `_check_known_keys` checks before it looks at the children, and whether it does. -/
def checkKeys (path : Str) (items : List (Key × Yaml)) : Except Exc Bool := do
  let location := if path = [] then str "configuration" else path
  reject ((items.all fun item => item.1.isText) = false) (location ++ str " keys must be strings")
  if path = str "secret_providers" then
    checkProviders items
    return false
  else
    match allowedKeys path with
    | none => return false
    | some allowed =>
      rejectUnknown location allowed items
      return true

mutual

/-- `_check_known_keys` of a child. -/
def checkChild (path : Str) : Yaml → Except Exc Unit
  | .dict items => do
    if ← checkKeys path items then checkChildren path items else return ()
  | .list items =>
    if path = str "collectors.unifi.endpoints" then checkEach checkEndpointKeys path 0 items
    else if path = str "collectors.ssh.targets" then checkEach checkSshTargetKeys path 0 items
    else .ok ()
  | _ => .ok ()

/-- The loop over the children. -/
def checkChildren (path : Str) : List (Key × Yaml) → Except Exc Unit
  | [] => .ok ()
  | (key, child) :: rest => do
    checkChild (childPath path key.shown) child
    checkChildren path rest

end

end FieldDiscovery.Config
