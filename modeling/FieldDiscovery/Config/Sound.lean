import FieldDiscovery.Config.Merged
import FieldDiscovery.Config.Validate

/-!
# What an accepted configuration promises

Each validator has one lemma that says what its acceptance means for the values in the merged mapping,
named by their keys (`Yaml.lookup`). The collectors stay inside the approved ranges
(`config_bounded`), no secret stands in the mapping and what weakens a protocol is allowed in so many
words (`config_guarded`), the mapping is accepted again as it is (`config_fixed`), and the defaults
fill in only what the document leaves out (`config_kept`).
-/

namespace FieldDiscovery.Config

open Py

/-! ## Values by their keys -/

namespace Yaml

/-- What stands under nested keys. -/
def lookup (keys : List String) (v : Yaml) : Option Yaml :=
  match keys with
  | [] => some v
  | key :: keys =>
    match v with
    | dict fields => (Dict.get fields (.text (str key))).bind (lookup keys)
    | _ => none

variable {v w : Yaml} {key : String}

theorem lookup_of_item (h : v.item key = .ok w) (keys : List String) :
    v.lookup (key :: keys) = w.lookup keys := by
  obtain ⟨fields, rfl, hw⟩ := item_eq_ok.mp h
  rw [Yaml.lookup, hw, Option.bind_some]

theorem lookup_item (h : v.item key = .ok w) : v.lookup [key] = some w := lookup_of_item h []

theorem lookup_item₂ {key' : String} {u : Yaml} (h : v.item key = .ok w) (h' : w.item key' = .ok u) :
    v.lookup [key, key'] = some u := (lookup_of_item h _).trans (lookup_item h')

theorem lookup_item₃ {key' key'' : String} {u x : Yaml} (h : v.item key = .ok w)
    (h' : w.item key' = .ok u) (h'' : u.item key'' = .ok x) :
    v.lookup [key, key', key''] = some x := (lookup_of_item h _).trans (lookup_item₂ h' h'')

end Yaml

/-- The document says something under the keys, or something other than a mapping on the way to
them. -/
def Yaml.Overrides (v : Yaml) (keys : List String) : Prop :=
  ∃ front w, front <+: keys ∧ v.lookup front = some w ∧ (front = keys ∨ ∀ fields, w ≠ .dict fields)

section

variable {v w : Yaml} {keys : List String}

theorem lookup_mergeValue (old : Option Yaml) (hv : v.Distinct) (h : v.lookup keys = some w)
    (hw : ∀ fields, w ≠ .dict fields) : (mergeValue old v).lookup keys = some w := by
  induction keys generalizing old v with
  | nil =>
    obtain rfl := Option.some.inj h
    cases v with
    | dict fields => exact absurd rfl (hw fields)
    | null | bool | int | float | string | list | other => rfl
  | cons key keys ih =>
    cases v with
    | dict fields =>
      obtain ⟨v', hget, hlookup⟩ := Option.bind_eq_some_iff.mp h
      by_cases hold : ∃ d, old = some (.dict d)
      · obtain ⟨d, rfl⟩ := hold
        rw [mergeValue_dict, mergeItems_eq, Yaml.lookup, Dict.get_mergeWith hv.keys, hget]
        exact ih _ (hv.field (Dict.mem_of_get hget)) hlookup
      · rw [mergeValue_of_not_dict fun d heq => hold ⟨d, heq⟩]
        exact h
    | null | bool | int | float | string | list | other => cases h

theorem lookup_mergeValue_old {old : Yaml} (hv : v.Distinct) (h : old.lookup keys = some w) :
    (mergeValue (some old) v).lookup keys = some w ∨ v.Overrides keys := by
  induction keys generalizing old v with
  | nil => exact .inr ⟨[], v, List.nil_prefix, rfl, .inl rfl⟩
  | cons key keys ih =>
    cases old with
    | dict d =>
      obtain ⟨old', hold, hlookup⟩ := Option.bind_eq_some_iff.mp h
      cases v with
      | dict fields =>
        rw [mergeValue_dict, mergeItems_eq, Yaml.lookup, Dict.get_mergeWith hv.keys, hold]
        cases hget : Dict.get fields (.text (str key)) with
        | none => exact .inl hlookup
        | some v' =>
          rcases ih (hv.field (Dict.mem_of_get hget)) hlookup with hmerged | ⟨front, x, hfront, hx, hor⟩
          · exact .inl hmerged
          · refine .inr ⟨key :: front, x, (List.prefix_cons_inj key).mpr hfront, ?_,
              hor.imp_left (congrArg (key :: ·))⟩
            rw [Yaml.lookup, hget]
            exact hx
      | null | bool | int | float | string | list | other =>
        exact .inr ⟨[], _, List.nil_prefix, rfl, .inr fun _ heq => by cases heq⟩
    | null | bool | int | float | string | list | other => cases h

end

/-! ## Approved ranges and targets -/

/-- The collectors that connect to configured targets. -/
inductive Protocol where
  | snmp | ad | ssh | unifi

/-- The name of its section. -/
def Protocol.key : Protocol → String
  | snmp => "snmp"
  | ad => "ad"
  | ssh => "ssh"
  | unifi => "unifi"

section

variable (config : Yaml)

/-- The items of `active.approved_ranges`. -/
def Range (v : Yaml) : Prop :=
  ∃ ranges, config.lookup ["active", "approved_ranges"] = some (.list ranges) ∧ v ∈ ranges

/-- The address lies in one of the approved ranges. -/
def Approved (address : Nat) : Prop :=
  ∃ s network, Range config (.string s) ∧ ipNetwork s true = some (.v4 network) ∧
    network.contains address = true

/-- An IPv4 address in one of the approved ranges. -/
def Placed (v : Yaml) : Prop :=
  ∃ s address, v = .string s ∧ addressValue s = some address ∧ Approved config address

/-- The values that name the targets of a collector. -/
inductive Target : Protocol → Yaml → Prop
  | snmp {targets : List Yaml} {v : Yaml}
      (h : config.lookup ["collectors", "snmp", "targets"] = some (.list targets)) (hv : v ∈ targets) :
      Target .snmp v
  | ad {v : Yaml} (h : config.lookup ["collectors", "ad", "target"] = some v) : Target .ad v
  | ssh {targets : List Yaml} {target v : Yaml}
      (h : config.lookup ["collectors", "ssh", "targets"] = some (.list targets))
      (htarget : target ∈ targets) (hv : target.get "address" .null = .ok v) : Target .ssh v
  | unifi {endpoints : List Yaml} {endpoint v : Yaml}
      (h : config.lookup ["collectors", "unifi", "endpoints"] = some (.list endpoints))
      (hendpoint : endpoint ∈ endpoints) (hv : endpoint.get "approved_address" .null = .ok v) :
      Target .unifi v

/-- A range that may be scanned. -/
structure ScannableRange (maxHosts : Int) (v : Yaml) : Prop where
  network : ∃ s network, v = .string s ∧ ipNetwork s true = some (.v4 network) ∧
    network.isPrivate = true ∧ network.isLoopback = false ∧ network.isLinkLocal = false ∧
    (network.numAddresses : Int) ≤ maxHosts

/-- A URL without credentials that is fetched over TLS. -/
def SafeUrl (rt : Runtime) (v : Yaml) : Prop :=
  ∃ s parsed, v = .string s ∧ urlsplit rt s = some parsed ∧ parsed.scheme = str "https" ∧
    UrlParts.hostinfo parsed.netloc ≠ [] ∧
    (∀ form ∈ decodedForms parsed.netloc, cp '@' ∉ form) ∧
    containsCredentialParameter rt parsed.query = false ∧
    containsCredentialParameter rt parsed.fragment = false

/-- An endpoint whose TLS is verified, unless the operator accepts that it is not. -/
structure SafeEndpoint (rt : Runtime) (endpoint : Yaml) : Prop where
  url : ∃ v, endpoint.get "url" .null = .ok v ∧ SafeUrl rt v
  tls : ∃ verify selfSigned, endpoint.item "verify_tls" = .ok (.bool verify) ∧
    endpoint.item "allow_self_signed" = .ok (.bool selfSigned) ∧
    (verify = true ∨ selfSigned = true)

/-- A secret provider with a place to read from. -/
inductive Provider (provider : Yaml) : Prop
  | envFile {path : Str} (htype : provider.get "type" .null = .ok (.string (str "env_file")))
      (hpath : provider.get "path" .null = .ok (.string path)) (habsolute : isAbsolute path = true)
  | command {executable : Str} {timeout : Int}
      (htype : provider.get "type" .null = .ok (.string (str "command")))
      (hexecutable : provider.get "executable" .null = .ok (.string executable))
      (habsolute : isAbsolute executable = true)
      (htimeout : provider.get "timeout_seconds" (.int 5) = .ok (.int timeout))
      (hbounds : 1 ≤ timeout ∧ timeout ≤ 30)

/-- The values that stand for credentials. -/
inductive Reference (config : Yaml) (v : Yaml) : Prop
  | collector {name : String} (hname : name ∈ ["snmp", "ad", "ssh"])
      (h : config.lookup ["collectors", name, "credential_ref"] = some v)
  | endpoint {endpoints : List Yaml} {endpoint : Yaml}
      (h : config.lookup ["collectors", "unifi", "endpoints"] = some (.list endpoints))
      (hendpoint : endpoint ∈ endpoints) (hv : endpoint.get "credential_ref" .null = .ok v)

/-- A reference to a key of one of the providers, and nothing else. -/
def Resolved (providers : List (Key × Yaml)) (v : Yaml) : Prop :=
  ∃ fields name key, v = .dict fields ∧ hasReferenceKeys fields = true ∧
    v.item "provider" = .ok (.string name) ∧ Key.text name ∈ providers.map Prod.fst ∧
    v.item "key" = .ok (.string key) ∧ isReferenceKey key = true

/-- The database lies below the data root, and no step of its path leads up. -/
def PlacedDatabase (config : Yaml) : Prop :=
  ∃ dataRoot database rest, config.lookup ["paths", "data_root"] = some (.string dataRoot) ∧
    config.lookup ["paths", "database"] = some (.string database) ∧ isAbsolute dataRoot = true ∧
    (PurePath.of database).root = (PurePath.of dataRoot).root ∧
    (PurePath.of database).parts = (PurePath.of dataRoot).parts ++ rest ∧ rest ≠ [] ∧
    parentStep ∉ (PurePath.of dataRoot).parts ++ rest

end

/-! ## Validators of single values -/

section

variable {path : Str} {v : Yaml} {u : Unit}

theorem isInteger_eq_true {minimum maximum : Int} : isInteger minimum maximum v = true ↔
    ∃ n, v = .int n ∧ minimum ≤ n ∧ n ≤ maximum := by
  cases v with
  | int n =>
    rw [isInteger, decide_eq_true_iff]
    constructor
    · exact fun h => ⟨n, rfl, h⟩
    · rintro ⟨_, heq, h⟩
      cases heq
      exact h
  | null | bool | float | string | list | dict | other =>
    refine iff_of_false Bool.false_ne_true ?_
    rintro ⟨_, heq, -⟩
    cases heq

theorem integer_eq_ok {minimum maximum : Int} : integer v path minimum maximum = .ok u ↔
    ∃ n, v = .int n ∧ minimum ≤ n ∧ n ≤ maximum := by
  rw [integer, reject_eq_ok, Bool.not_eq_false, isInteger_eq_true]

theorem boolean_eq_ok : boolean v path = .ok u ↔ ∃ b, v = .bool b := by
  rw [boolean, reject_eq_ok, Bool.not_eq_false]
  cases v with
  | bool b => exact iff_of_true rfl ⟨b, rfl⟩
  | null | int | float | string | list | dict | other =>
    refine iff_of_false Bool.false_ne_true ?_
    rintro ⟨_, heq⟩
    cases heq

theorem isText_eq_true {accepts : Str → Bool} :
    isText accepts v = true ↔ ∃ s, v = .string s ∧ accepts s = true := by
  cases v with
  | string s =>
    constructor
    · exact fun h => ⟨s, rfl, h⟩
    · rintro ⟨_, heq, h⟩
      cases heq
      exact h
  | null | bool | int | float | list | dict | other =>
    refine iff_of_false Bool.false_ne_true ?_
    rintro ⟨_, heq, -⟩
    cases heq

theorem validateRange_ok {maxHosts : Int} (h : validateRange (.int maxHosts) path v = .ok u) :
    ScannableRange maxHosts v := by
  cases v with
  | string s =>
    simp only [validateRange] at h
    split at h
    · cases h
    · cases h
    · next network hnetwork =>
      obtain ⟨⟨⟩, hkind, h⟩ := Except.bind_eq_ok.mp h
      obtain ⟨b, hsize, h⟩ := Except.bind_eq_ok.mp h
      have hkind := reject_eq_ok.mp hkind
      rw [not_or, not_or, Bool.not_eq_false, Bool.not_eq_true, Bool.not_eq_true] at hkind
      obtain ⟨hprivate, hloopback, hlocal⟩ := hkind
      refine ⟨s, network, rfl, hnetwork, hprivate, hloopback, hlocal, ?_⟩
      cases hsize
      have hsize := reject_eq_ok.mp h
      rw [decide_eq_true_iff] at hsize
      exact not_lt.mp hsize
  | null | bool | int | float | list | dict | other => cases h

/-- An address that was found in the ranges lies in one of them. -/
theorem inApproved_ok {address : Nat} {ranges : List Yaml} (h : inApproved address ranges = .ok true) :
    ∃ s network, Yaml.string s ∈ ranges ∧ ipNetwork s true = some (.v4 network) ∧
      network.contains address = true := by
  induction ranges with
  | nil => cases h
  | cons v ranges ih =>
    cases v with
    | string s =>
      simp only [inApproved] at h
      split at h
      · next network hnetwork =>
        split at h
        · next hcontains => exact ⟨s, network, List.mem_cons_self, hnetwork, hcontains⟩
        · obtain ⟨s', network', hmem, hrest⟩ := ih h
          exact ⟨s', network', List.mem_cons_of_mem _ hmem, hrest⟩
      · cases h
    | null | bool | int | float | list | dict | other => cases h

end

/-! ## The sections -/

section

variable {config collectors active v : Yaml} {ranges : List Yaml} {u : Unit}

theorem validateActive_ok (h : validateActive config = .ok u) :
    (∃ ranges, config.lookup ["active", "approved_ranges"] = some (.list ranges)) ∧
      ∃ n, config.lookup ["active", "max_hosts"] = some (.int n) ∧ 1 ≤ n ∧ n ≤ 1024 := by
  obtain ⟨active, hactive, h⟩ := Except.bind_eq_ok.mp h
  obtain ⟨approvedRanges, hranges, h⟩ := Except.bind_eq_ok.mp h
  obtain ⟨⟨⟩, hlist, h⟩ := Except.bind_eq_ok.mp h
  obtain ⟨maxHosts, hmax, h⟩ := Except.bind_eq_ok.mp h
  obtain ⟨⟨⟩, hint, h⟩ := Except.bind_eq_ok.mp h
  constructor
  · have hlist := reject_eq_ok.mp hlist
    cases approvedRanges with
    | list ranges => exact ⟨ranges, Yaml.lookup_item₂ hactive hranges⟩
    | null | bool | int | float | string | dict | other => exact absurd rfl hlist
  · obtain ⟨n, rfl, hn⟩ := integer_eq_ok.mp hint
    exact ⟨n, Yaml.lookup_item₂ hactive hmax, hn⟩

theorem validateTargets_ok (h : validateTargets config = .ok u) {maxHosts : Int}
    (hmax : config.lookup ["active", "max_hosts"] = some (.int maxHosts)) (hv : Range config v) :
    ScannableRange maxHosts v := by
  obtain ⟨ranges, hranges, hv⟩ := hv
  obtain ⟨active, hactive, h⟩ := Except.bind_eq_ok.mp h
  obtain ⟨approvedRanges, hranges', h⟩ := Except.bind_eq_ok.mp h
  obtain ⟨items, hitems, h⟩ := Except.bind_eq_ok.mp h
  obtain ⟨maxHosts', hmax', h⟩ := Except.bind_eq_ok.mp h
  rw [Yaml.lookup_item₂ hactive hranges'] at hranges
  rw [Yaml.lookup_item₂ hactive hmax'] at hmax
  cases hranges
  cases hmax
  cases hitems
  obtain ⟨i, hi⟩ := List.mem_iff_getElem?.mp hv
  exact validateRange_ok (checkEach_eq_ok.mp h i v hi)

/-- One IPv4 address, which an active collector finds in the approved ranges. -/
theorem configuredIpv4_ok (hactive : config.item "active" = .ok active)
    (hranges : config.lookup ["active", "approved_ranges"] = some (.list ranges)) {path : Str}
    (h : configuredIpv4 active true path v = .ok u) : Placed config v := by
  cases v with
  | string s =>
    simp only [configuredIpv4, if_true] at h
    split at h
    · cases h
    · next address haddress =>
      obtain ⟨w, hw, h⟩ := Except.bind_eq_ok.mp h
      obtain ⟨items, hitems, h⟩ := Except.bind_eq_ok.mp h
      obtain ⟨approved, happroved, h⟩ := Except.bind_eq_ok.mp h
      have hrejected := reject_eq_ok.mp h
      rw [Bool.not_eq_false] at hrejected
      rw [hrejected] at happroved
      have hlookup := Yaml.lookup_item₂ hactive hw
      rw [hranges] at hlookup
      cases hlookup
      cases hitems
      obtain ⟨s', network, hmem, hnetwork, hcontains⟩ := inApproved_ok happroved
      exact ⟨s, address, rfl, haddress, s', network, ⟨ranges, hranges, hmem⟩, hnetwork, hcontains⟩
  | null | bool | int | float | list | dict | other => cases h

theorem validateEnabled_ok {fields : List (Key × Yaml)} (h : validateEnabled fields = .ok u)
    {field : Key × Yaml} (hfield : field ∈ fields) :
    ∃ b, field.2.item "enabled" = .ok (.bool b) := by
  induction fields with
  | nil => exact absurd hfield List.not_mem_nil
  | cons field' fields ih =>
    obtain ⟨enabled, henabled, h⟩ := Except.bind_eq_ok.mp h
    obtain ⟨⟨⟩, hbool, h⟩ := Except.bind_eq_ok.mp h
    rcases List.mem_cons.mp hfield with rfl | hfield
    · obtain ⟨b, rfl⟩ := boolean_eq_ok.mp hbool
      exact ⟨b, henabled⟩
    · exact ih h hfield

end

section

variable {config collectors active v : Yaml} {ranges : List Yaml} {u : Unit}

/-- What was read from the section of a collector. -/
theorem lookup_collector {name key : String} {collector w : Yaml}
    (hcollectors : config.item "collectors" = .ok collectors)
    (hcollector : collectors.item name = .ok collector) (hw : collector.item key = .ok w) :
    config.lookup ["collectors", name, key] = some w :=
  Yaml.lookup_item₃ hcollectors hcollector hw

/-- A protocol that needs the leave of a Boolean. -/
theorem optIn_of_reject {protocol permit : Yaml} {name : String} {path message : Str}
    (hbool : boolean permit path = .ok ())
    (h : reject (isText (· = str name) protocol = true ∧ permit.truthy = false) message = .ok ())
    (hprotocol : protocol = .string (str name)) : permit = .bool true := by
  obtain ⟨b, rfl⟩ := boolean_eq_ok.mp hbool
  have h := reject_eq_ok.mp h
  cases b with
  | true => rfl
  | false => exact absurd ⟨isText_eq_true.mpr ⟨_, hprotocol, decide_eq_true rfl⟩, rfl⟩ h

theorem isBoundedList_ok {targets : Yaml} (hactive : config.item "active" = .ok active)
    (h : isBoundedList active targets = .ok true) {maxHosts : Int}
    (hmax : config.lookup ["active", "max_hosts"] = some (.int maxHosts)) :
    ∃ items, targets = .list items ∧ (items.length : Int) ≤ maxHosts := by
  cases targets with
  | list items =>
    obtain ⟨w, hw, h⟩ := Except.bind_eq_ok.mp h
    rw [Yaml.lookup_item₂ hactive hw] at hmax
    cases hmax
    obtain ⟨exceeded, hexceeded, h⟩ := Except.bind_eq_ok.mp h
    cases hexceeded
    have hsize := Except.ok.inj h
    rw [Bool.not_eq_true', decide_eq_false_iff_not, not_lt] at hsize
    exact ⟨items, rfl, hsize⟩
  | null | bool | int | float | string | dict | other => cases h

variable (hcollectors : config.item "collectors" = .ok collectors)
  (hactive : config.item "active" = .ok active)
  (hranges : config.lookup ["active", "approved_ranges"] = some (.list ranges))

include hcollectors hactive hranges

theorem validateSnmp_ok (h : validateSnmp collectors active = .ok u) :
    (config.lookup ["collectors", "snmp", "protocol"] = some (.string (str "v2c")) →
      config.lookup ["collectors", "snmp", "allow_insecure_v2c"] = some (.bool true)) ∧
    (∀ maxHosts, config.lookup ["active", "max_hosts"] = some (.int maxHosts) → ∃ targets,
      config.lookup ["collectors", "snmp", "targets"] = some (.list targets) ∧
        (targets.length : Int) ≤ maxHosts) ∧
    (config.lookup ["collectors", "snmp", "enabled"] = some (.bool true) →
      ∀ v, Target config .snmp v → Placed config v) := by
  obtain ⟨snmp, hsnmp, h⟩ := Except.bind_eq_ok.mp h
  obtain ⟨insecure, hinsecure, h⟩ := Except.bind_eq_ok.mp h
  obtain ⟨⟨⟩, hbool, h⟩ := Except.bind_eq_ok.mp h
  obtain ⟨protocol, hprotocol, h⟩ := Except.bind_eq_ok.mp h
  obtain ⟨known, -, h⟩ := Except.bind_eq_ok.mp h
  obtain ⟨⟨⟩, -, h⟩ := Except.bind_eq_ok.mp h
  obtain ⟨⟨⟩, hoptIn, h⟩ := Except.bind_eq_ok.mp h
  obtain ⟨targets, htargets, h⟩ := Except.bind_eq_ok.mp h
  obtain ⟨bounded, hbounded, h⟩ := Except.bind_eq_ok.mp h
  obtain ⟨⟨⟩, hreject, h⟩ := Except.bind_eq_ok.mp h
  obtain ⟨enabled, henabled, h⟩ := Except.bind_eq_ok.mp h
  obtain ⟨items, hitems, heach⟩ := Except.bind_eq_ok.mp h
  refine ⟨fun hv2c => ?_, fun maxHosts hmax => ?_, fun hon v hv => ?_⟩
  · rw [lookup_collector hcollectors hsnmp hprotocol] at hv2c
    rw [lookup_collector hcollectors hsnmp hinsecure,
      optIn_of_reject hbool hoptIn (Option.some.inj hv2c)]
  · rw [Bool.not_eq_false _ |>.mp (reject_eq_ok.mp hreject)] at hbounded
    obtain ⟨items, rfl, hsize⟩ := isBoundedList_ok hactive hbounded hmax
    exact ⟨items, lookup_collector hcollectors hsnmp htargets, hsize⟩
  · rw [lookup_collector hcollectors hsnmp henabled] at hon
    cases hon
    cases hv with
    | snmp hlist hmem =>
      rw [lookup_collector hcollectors hsnmp htargets] at hlist
      cases hlist
      cases hitems
      obtain ⟨i, hi⟩ := List.mem_iff_getElem?.mp hmem
      exact configuredIpv4_ok hactive hranges (checkEach_eq_ok.mp heach i v hi)

theorem validateAd_ok (h : validateAd collectors active = .ok u) :
    (config.lookup ["collectors", "ad", "transport"] = some (.string (str "ldap")) →
      config.lookup ["collectors", "ad", "allow_plaintext_ldap"] = some (.bool true)) ∧
    (config.lookup ["collectors", "ad", "enabled"] = some (.bool true) →
      ∀ v, Target config .ad v → Placed config v) := by
  obtain ⟨ad, had, h⟩ := Except.bind_eq_ok.mp h
  obtain ⟨plaintext, hplaintext, h⟩ := Except.bind_eq_ok.mp h
  obtain ⟨⟨⟩, hbool, h⟩ := Except.bind_eq_ok.mp h
  obtain ⟨transport, htransport, h⟩ := Except.bind_eq_ok.mp h
  obtain ⟨known, -, h⟩ := Except.bind_eq_ok.mp h
  obtain ⟨⟨⟩, -, h⟩ := Except.bind_eq_ok.mp h
  obtain ⟨⟨⟩, hoptIn, h⟩ := Except.bind_eq_ok.mp h
  obtain ⟨enabled, henabled, h⟩ := Except.bind_eq_ok.mp h
  obtain ⟨domain, -, h⟩ := Except.bind_eq_ok.mp h
  obtain ⟨baseDn, -, h⟩ := Except.bind_eq_ok.mp h
  obtain ⟨⟨⟩, -, h⟩ := Except.bind_eq_ok.mp h
  obtain ⟨serverName, -, h⟩ := Except.bind_eq_ok.mp h
  obtain ⟨⟨⟩, -, h⟩ := Except.bind_eq_ok.mp h
  obtain ⟨⟨⟩, -, h⟩ := Except.bind_eq_ok.mp h
  obtain ⟨target, htarget, hplace⟩ := Except.bind_eq_ok.mp h
  refine ⟨fun hldap => ?_, fun hon v hv => ?_⟩
  · rw [lookup_collector hcollectors had htransport] at hldap
    rw [lookup_collector hcollectors had hplaintext,
      optIn_of_reject hbool hoptIn (Option.some.inj hldap)]
  · rw [lookup_collector hcollectors had henabled] at hon
    cases hon
    cases hv with
    | ad hlookup =>
      rw [lookup_collector hcollectors had htarget] at hlookup
      cases hlookup
      split at hplace
      · obtain ⟨⟨⟩, hnull, -⟩ := Except.bind_eq_ok.mp hplace
        exact absurd rfl (reject_eq_ok.mp hnull)
      · obtain ⟨⟨⟩, hplaced, -⟩ := Except.bind_eq_ok.mp hplace
        exact configuredIpv4_ok hactive hranges hplaced

theorem validateSsh_ok (h : validateSsh collectors active = .ok u) :
    (∀ maxHosts, config.lookup ["active", "max_hosts"] = some (.int maxHosts) → ∃ targets,
      config.lookup ["collectors", "ssh", "targets"] = some (.list targets) ∧
        (targets.length : Int) ≤ maxHosts) ∧
    (config.lookup ["collectors", "ssh", "enabled"] = some (.bool true) →
      ∀ v, Target config .ssh v → Placed config v) := by
  obtain ⟨ssh, hssh, h⟩ := Except.bind_eq_ok.mp h
  obtain ⟨policy, -, h⟩ := Except.bind_eq_ok.mp h
  obtain ⟨known, -, h⟩ := Except.bind_eq_ok.mp h
  obtain ⟨⟨⟩, -, h⟩ := Except.bind_eq_ok.mp h
  obtain ⟨targets, htargets, h⟩ := Except.bind_eq_ok.mp h
  obtain ⟨bounded, hbounded, h⟩ := Except.bind_eq_ok.mp h
  obtain ⟨⟨⟩, hreject, h⟩ := Except.bind_eq_ok.mp h
  obtain ⟨enabled, henabled, h⟩ := Except.bind_eq_ok.mp h
  obtain ⟨items, hitems, heach⟩ := Except.bind_eq_ok.mp h
  refine ⟨fun maxHosts hmax => ?_, fun hon v hv => ?_⟩
  · rw [Bool.not_eq_false _ |>.mp (reject_eq_ok.mp hreject)] at hbounded
    obtain ⟨items, rfl, hsize⟩ := isBoundedList_ok hactive hbounded hmax
    exact ⟨items, lookup_collector hcollectors hssh htargets, hsize⟩
  · rw [lookup_collector hcollectors hssh henabled] at hon
    cases hon
    cases hv with
    | ssh hlist hmem haddress =>
      rw [lookup_collector hcollectors hssh htargets] at hlist
      cases hlist
      cases hitems
      obtain ⟨i, hi⟩ := List.mem_iff_getElem?.mp hmem
      obtain ⟨address, haddress', hplaced⟩ := Except.bind_eq_ok.mp (checkEach_eq_ok.mp heach i _ hi)
      rw [haddress] at haddress'
      cases haddress'
      obtain ⟨⟨⟩, hplaced, -⟩ := Except.bind_eq_ok.mp hplaced
      exact configuredIpv4_ok hactive hranges hplaced

end

/-! ## Endpoints -/

section

variable {rt : Runtime} {config collectors active endpoint : Yaml} {ranges : List Yaml} {path : Str}
  {u : Unit}

theorem validateUrl_ok {v : Yaml} (h : validateUrl rt path v = .ok u) : SafeUrl rt v := by
  cases v with
  | string s =>
    simp only [validateUrl] at h
    split at h
    · cases h
    · next parsed hparsed =>
      obtain ⟨⟨⟩, hscheme, h⟩ := Except.bind_eq_ok.mp h
      obtain ⟨⟨⟩, huserinfo, h⟩ := Except.bind_eq_ok.mp h
      obtain ⟨⟨⟩, hquery, h⟩ := Except.bind_eq_ok.mp h
      have hscheme := reject_eq_ok.mp hscheme
      have huserinfo := reject_eq_ok.mp huserinfo
      rw [not_or, not_not] at hscheme
      refine ⟨s, parsed, rfl, hparsed, hscheme.1, hscheme.2, fun form hform hat => ?_, ?_, ?_⟩
      · exact huserinfo (List.any_eq_true.mpr ⟨form, hform, decide_eq_true hat⟩)
      · exact Bool.not_eq_true _ |>.mp (reject_eq_ok.mp hquery)
      · exact Bool.not_eq_true _ |>.mp (reject_eq_ok.mp h)
  | null | bool | int | float | list | dict | other => cases h

theorem item_of_get {key : String} {w default : Yaml} (hget : endpoint.get key default = .ok w)
    {w' : Yaml} (hitem : endpoint.item key = .ok w') : w' = w := by
  obtain ⟨fields, rfl, hfields⟩ := Yaml.item_eq_ok.mp hitem
  have hget := Except.ok.inj hget
  rw [hfields] at hget
  exact hget

theorem validateTls_ok (h : validateTls path endpoint = .ok u) : ∃ verify selfSigned,
    endpoint.item "verify_tls" = .ok (.bool verify) ∧
    endpoint.item "allow_self_signed" = .ok (.bool selfSigned) ∧
    (verify = true ∨ selfSigned = true) := by
  obtain ⟨w, hw, h⟩ := Except.bind_eq_ok.mp h
  obtain ⟨⟨⟩, hwbool, h⟩ := Except.bind_eq_ok.mp h
  obtain ⟨x, hx, h⟩ := Except.bind_eq_ok.mp h
  obtain ⟨⟨⟩, hxbool, h⟩ := Except.bind_eq_ok.mp h
  obtain ⟨verify, hverify, h⟩ := Except.bind_eq_ok.mp h
  obtain ⟨selfSigned, hselfSigned, h⟩ := Except.bind_eq_ok.mp h
  obtain ⟨b, rfl⟩ := boolean_eq_ok.mp hwbool
  obtain ⟨b', rfl⟩ := boolean_eq_ok.mp hxbool
  cases item_of_get hw hverify
  cases item_of_get hx hselfSigned
  refine ⟨b, b', hverify, hselfSigned, ?_⟩
  have hneither := reject_eq_ok.mp h
  by_contra hnot
  rw [not_or, Bool.not_eq_true, Bool.not_eq_true] at hnot
  exact hneither hnot

theorem validateEndpoint_ok {enabled : Bool} (h : validateEndpoint rt active enabled path endpoint =
    .ok u) : SafeEndpoint rt endpoint ∧ ∃ address, endpoint.get "approved_address" .null = .ok address ∧
      (enabled = true → configuredIpv4 active true (path ++ str ".approved_address") address = .ok ())
    := by
  obtain ⟨apiType, -, h⟩ := Except.bind_eq_ok.mp h
  obtain ⟨known, -, h⟩ := Except.bind_eq_ok.mp h
  obtain ⟨⟨⟩, -, h⟩ := Except.bind_eq_ok.mp h
  obtain ⟨url, hurl, h⟩ := Except.bind_eq_ok.mp h
  obtain ⟨⟨⟩, hsafe, h⟩ := Except.bind_eq_ok.mp h
  obtain ⟨address, haddress, h⟩ := Except.bind_eq_ok.mp h
  obtain ⟨hplaced, htls⟩ : (enabled = true →
      configuredIpv4 active true (path ++ str ".approved_address") address = .ok ()) ∧
      validateTls path endpoint = .ok u := by
    split at h
    · obtain ⟨⟨⟩, hnull, h⟩ := Except.bind_eq_ok.mp h
      exact ⟨fun hon => absurd hon (reject_eq_ok.mp hnull), h⟩
    · obtain ⟨⟨⟩, hplaced, h⟩ := Except.bind_eq_ok.mp h
      exact ⟨fun hon => hon ▸ hplaced, h⟩
  exact ⟨⟨⟨url, hurl, validateUrl_ok hsafe⟩, validateTls_ok htls⟩, address, haddress, hplaced⟩

theorem validateUnifi_ok (hcollectors : config.item "collectors" = .ok collectors)
    (hactive : config.item "active" = .ok active)
    (hranges : config.lookup ["active", "approved_ranges"] = some (.list ranges))
    (h : validateUnifi rt collectors active = .ok u) :
    (∀ endpoints, config.lookup ["collectors", "unifi", "endpoints"] = some (.list endpoints) →
      ∀ endpoint ∈ endpoints, SafeEndpoint rt endpoint) ∧
    (config.lookup ["collectors", "unifi", "enabled"] = some (.bool true) →
      ∀ v, Target config .unifi v → Placed config v) := by
  obtain ⟨unifi, hunifi, h⟩ := Except.bind_eq_ok.mp h
  obtain ⟨endpoints, hendpoints, h⟩ := Except.bind_eq_ok.mp h
  obtain ⟨items, hitems, h⟩ := Except.bind_eq_ok.mp h
  obtain ⟨enabled, henabled, heach⟩ := Except.bind_eq_ok.mp h
  refine ⟨fun endpoints' hlist endpoint hmem => ?_, fun hon v hv => ?_⟩
  · rw [lookup_collector hcollectors hunifi hendpoints] at hlist
    cases hlist
    cases hitems
    obtain ⟨i, hi⟩ := List.mem_iff_getElem?.mp hmem
    exact (validateEndpoint_ok (checkEach_eq_ok.mp heach i _ hi)).1
  · rw [lookup_collector hcollectors hunifi henabled] at hon
    cases hon
    cases hv with
    | unifi hlist hmem haddress =>
      rw [lookup_collector hcollectors hunifi hendpoints] at hlist
      cases hlist
      cases hitems
      obtain ⟨i, hi⟩ := List.mem_iff_getElem?.mp hmem
      obtain ⟨address, haddress', hplaced⟩ := (validateEndpoint_ok (checkEach_eq_ok.mp heach i _ hi)).2
      rw [haddress] at haddress'
      cases haddress'
      exact configuredIpv4_ok hactive hranges (hplaced rfl)

end

/-! ## Providers and references -/

section

variable {config provider v : Yaml} {providers : List (Key × Yaml)} {path name : Str} {u : Unit}

theorem validateProvider_ok (h : validateProvider name provider = .ok u) : Provider provider := by
  obtain ⟨type, htype, h⟩ := Except.bind_eq_ok.mp h
  split at h
  · next henv =>
    obtain ⟨s, rfl, hs⟩ := isText_eq_true.mp henv
    obtain rfl := of_decide_eq_true hs
    obtain ⟨file, hfile, h⟩ := Except.bind_eq_ok.mp h
    obtain ⟨p, rfl, hp⟩ := isText_eq_true.mp (Bool.not_eq_false _ |>.mp (reject_eq_ok.mp h))
    exact .envFile htype hfile hp
  · split at h
    · next hcommand =>
      obtain ⟨s, rfl, hs⟩ := isText_eq_true.mp hcommand
      obtain rfl := of_decide_eq_true hs
      obtain ⟨executable, hexecutable, h⟩ := Except.bind_eq_ok.mp h
      obtain ⟨⟨⟩, habsolute, h⟩ := Except.bind_eq_ok.mp h
      obtain ⟨timeout, htimeout, hbounds⟩ := Except.bind_eq_ok.mp h
      obtain ⟨n, rfl, hn⟩ := integer_eq_ok.mp hbounds
      obtain ⟨p, rfl, hp⟩ := isText_eq_true.mp (Bool.not_eq_false _ |>.mp (reject_eq_ok.mp habsolute))
      exact .command htype hexecutable hp htimeout hn
    · cases h

theorem validateReference_ok (h : validateReference providers path v = .ok u) (hv : v ≠ .null) :
    Resolved providers v := by
  cases v with
  | null => exact absurd rfl hv
  | dict fields =>
    obtain ⟨⟨⟩, hkeys, h⟩ := Except.bind_eq_ok.mp h
    obtain ⟨provider, hprovider, h⟩ := Except.bind_eq_ok.mp h
    obtain ⟨known, hknown, h⟩ := Except.bind_eq_ok.mp h
    obtain ⟨⟨⟩, hreject, h⟩ := Except.bind_eq_ok.mp h
    obtain ⟨key, hkey, h⟩ := Except.bind_eq_ok.mp h
    have hkeys := Bool.not_eq_false _ |>.mp (reject_eq_ok.mp hkeys)
    obtain ⟨identifier, rfl, hidentifier⟩ :=
      isText_eq_true.mp (Bool.not_eq_false _ |>.mp (reject_eq_ok.mp h))
    rw [Bool.not_eq_false _ |>.mp (reject_eq_ok.mp hreject)] at hknown
    cases provider with
    | string name =>
      have hmem := of_decide_eq_true (Except.ok.inj hknown)
      exact ⟨fields, name, identifier, rfl, hkeys, hprovider, hmem, hkey, hidentifier⟩
    | other hashable size => cases hashable <;> cases hknown
    | null | bool | int | float | list | dict => cases hknown
  | bool | int | float | string | list | other => cases h

theorem validateProvidersAndReferences_ok (h : validateProvidersAndReferences config = .ok u) :
    ∃ providers, config.lookup ["secret_providers"] = some (.dict providers) ∧
      (∀ provider ∈ providers, Provider provider.2) ∧
      ∀ v, Reference config v → v ≠ .null → Resolved providers v := by
  obtain ⟨w, hw, h⟩ := Except.bind_eq_ok.mp h
  obtain ⟨providers, hproviders, h⟩ := Except.bind_eq_ok.mp h
  obtain ⟨⟨⟩, hall, h⟩ := Except.bind_eq_ok.mp h
  obtain ⟨collectors, hcollectors, h⟩ := Except.bind_eq_ok.mp h
  obtain ⟨references, hreferences, h⟩ := Except.bind_eq_ok.mp h
  obtain ⟨unifi, hunifi, h⟩ := Except.bind_eq_ok.mp h
  obtain ⟨endpoints, hendpoints, h⟩ := Except.bind_eq_ok.mp h
  obtain ⟨items, hitems, h⟩ := Except.bind_eq_ok.mp h
  obtain ⟨endpointReferences, hendpointReferences, hresolved⟩ := Except.bind_eq_ok.mp h
  have hresolved := forM_eq_ok.mp hresolved
  cases Yaml.items_eq_ok.mp hproviders
  refine ⟨providers, Yaml.lookup_item hw, fun provider hprovider =>
    validateProvider_ok (forM_eq_ok.mp hall provider hprovider), fun v hv hnull => ?_⟩
  cases hv with
  | collector hname hlookup =>
    obtain ⟨reference, hmem, href⟩ := (Except.mapM_eq_ok.mp hreferences).exists_of_mem_left hname
    obtain ⟨collector, hcollector, href⟩ := Except.bind_eq_ok.mp href
    obtain ⟨w', hw', href⟩ := Except.bind_eq_ok.mp href
    cases href
    rw [lookup_collector hcollectors hcollector hw'] at hlookup
    cases hlookup
    exact validateReference_ok (hresolved _ (List.mem_append_left _ hmem)) hnull
  | endpoint hlookup hmem hget =>
    rw [lookup_collector hcollectors hunifi hendpoints] at hlookup
    cases hlookup
    cases hitems
    obtain ⟨i, hi⟩ := List.mem_iff_getElem?.mp hmem
    have hpairs := Except.mapM_eq_ok.mp hendpointReferences
    obtain ⟨reference, hreference, href⟩ :=
      hpairs.exists_of_mem_left (List.mk_mem_zipIdx_iff_getElem?.mpr hi)
    obtain ⟨w', hw', href⟩ := Except.bind_eq_ok.mp href
    cases href
    rw [hget] at hw'
    cases hw'
    exact validateReference_ok (hresolved _ (List.mem_append_right _ hreference)) hnull

end

/-! ## Paths and times -/

section

variable {config : Yaml} {u : Unit}

theorem validateRooted_ok {paths : Yaml} {name : String} (h : validateRooted paths name = .ok u) :
    ∃ s, paths.item name = .ok (.string s) ∧ isAbsolute s = true ∧
      parentStep ∉ (PurePath.of s).parts := by
  obtain ⟨w, hw, h⟩ := Except.bind_eq_ok.mp h
  obtain ⟨⟨⟩, habsolute, h⟩ := Except.bind_eq_ok.mp h
  obtain ⟨s, rfl, hs⟩ := isText_eq_true.mp (Bool.not_eq_false _ |>.mp (reject_eq_ok.mp habsolute))
  exact ⟨s, hw, hs, fun hmem => reject_eq_ok.mp h (decide_eq_true hmem)⟩

theorem validatePaths_ok (h : validatePaths config = .ok u) : PlacedDatabase config := by
  obtain ⟨paths, hpaths, h⟩ := Except.bind_eq_ok.mp h
  obtain ⟨results, -, h⟩ := Except.bind_eq_ok.mp h
  obtain ⟨⟨⟩, -, h⟩ := Except.bind_eq_ok.mp h
  obtain ⟨⟨⟩, hroot, h⟩ := Except.bind_eq_ok.mp h
  obtain ⟨⟨⟩, hdatabase, h⟩ := Except.bind_eq_ok.mp h
  obtain ⟨w, hw, h⟩ := Except.bind_eq_ok.mp h
  obtain ⟨x, hx, h⟩ := Except.bind_eq_ok.mp h
  obtain ⟨dataRoot, hdataRoot, habsolute, hsteps⟩ := validateRooted_ok hroot
  obtain ⟨database, hdatabase, -, hsteps'⟩ := validateRooted_ok hdatabase
  rw [hw] at hdataRoot
  rw [hx] at hdatabase
  cases hdataRoot
  cases hdatabase
  have hinside := Bool.not_eq_false _ |>.mp (reject_eq_ok.mp h)
  obtain ⟨hsame, ⟨rest, hrest⟩, hne⟩ := of_decide_eq_true hinside
  refine ⟨dataRoot, database, rest, Yaml.lookup_item₂ hpaths hw, Yaml.lookup_item₂ hpaths hx,
    habsolute, hsame, hrest.symm, fun hnil => ?_, fun hmem => ?_⟩
  · rw [hnil, List.append_nil] at hrest
    exact hne hrest.symm
  · rw [← hrest] at hsteps'
    rcases List.mem_append.mp hmem with hmem | hmem
    · exact hsteps hmem
    · exact hsteps' (List.mem_append_right _ hmem)

theorem validateScheduler_ok (h : validateScheduler config = .ok u) : ∃ interval jitter : Int,
    config.lookup ["scheduler", "interval_seconds"] = some (.int interval) ∧
    config.lookup ["scheduler", "jitter_seconds"] = some (.int jitter) ∧ 0 ≤ jitter ∧
    jitter < interval := by
  obtain ⟨scheduler, hscheduler, h⟩ := Except.bind_eq_ok.mp h
  obtain ⟨w, hw, h⟩ := Except.bind_eq_ok.mp h
  obtain ⟨⟨⟩, hinterval, h⟩ := Except.bind_eq_ok.mp h
  obtain ⟨x, hx, h⟩ := Except.bind_eq_ok.mp h
  obtain ⟨⟨⟩, hjitter, h⟩ := Except.bind_eq_ok.mp h
  obtain ⟨timeout, -, h⟩ := Except.bind_eq_ok.mp h
  obtain ⟨⟨⟩, -, h⟩ := Except.bind_eq_ok.mp h
  obtain ⟨retries, -, h⟩ := Except.bind_eq_ok.mp h
  obtain ⟨⟨⟩, -, h⟩ := Except.bind_eq_ok.mp h
  obtain ⟨concurrency, -, h⟩ := Except.bind_eq_ok.mp h
  obtain ⟨⟨⟩, -, h⟩ := Except.bind_eq_ok.mp h
  obtain ⟨x', hx', h⟩ := Except.bind_eq_ok.mp h
  obtain ⟨w', hw', h⟩ := Except.bind_eq_ok.mp h
  obtain ⟨below, hbelow, h⟩ := Except.bind_eq_ok.mp h
  obtain ⟨interval, rfl, -⟩ := integer_eq_ok.mp hinterval
  obtain ⟨jitter, rfl, hnonneg, -⟩ := integer_eq_ok.mp hjitter
  rw [hx] at hx'
  rw [hw] at hw'
  cases hx'
  cases hw'
  cases hbelow
  have hlt := of_decide_eq_true (Bool.not_eq_false _ |>.mp (reject_eq_ok.mp h))
  exact ⟨interval, jitter, Yaml.lookup_item₂ hscheduler hw, Yaml.lookup_item₂ hscheduler hx, hnonneg,
    hlt⟩

end

/-! ## Accepted configurations -/

/-- Where the collectors of a configuration may connect. -/
structure Bounded (config : Yaml) : Prop where
  /-- The ranges are IPv4 networks for private use, and neither they nor the lists of targets have more
  addresses than is allowed. -/
  hosts : ∃ maxHosts : Int, config.lookup ["active", "max_hosts"] = some (.int maxHosts) ∧
    1 ≤ maxHosts ∧ maxHosts ≤ 1024 ∧ (∀ v, Range config v → ScannableRange maxHosts v) ∧
    ∀ name ∈ ["snmp", "ssh"], ∃ targets,
      config.lookup ["collectors", name, "targets"] = some (.list targets) ∧
        (targets.length : Int) ≤ maxHosts
  switched : ∀ protocol : Protocol, ∃ b,
    config.lookup ["collectors", protocol.key, "enabled"] = some (.bool b)
  /-- The targets of a collector that is switched on lie in the approved ranges. -/
  placed : ∀ protocol : Protocol,
    config.lookup ["collectors", protocol.key, "enabled"] = some (.bool true) →
      ∀ v, Target config protocol v → Placed config v

/-- What a configuration never does without being told. -/
structure Guarded (rt : Runtime) (config : Yaml) : Prop where
  /-- No mapping has a key for a secret, at any depth. -/
  secrets : ∀ key, config.HasKey key → key.isSecret = false
  references : ∃ providers, config.lookup ["secret_providers"] = some (.dict providers) ∧
    (∀ provider ∈ providers, Provider provider.2) ∧
    ∀ v, Reference config v → v ≠ .null → Resolved providers v
  endpoints : ∀ endpoints,
    config.lookup ["collectors", "unifi", "endpoints"] = some (.list endpoints) →
      ∀ endpoint ∈ endpoints, SafeEndpoint rt endpoint
  snmp : config.lookup ["collectors", "snmp", "protocol"] = some (.string (str "v2c")) →
    config.lookup ["collectors", "snmp", "allow_insecure_v2c"] = some (.bool true)
  ldap : config.lookup ["collectors", "ad", "transport"] = some (.string (str "ldap")) →
    config.lookup ["collectors", "ad", "allow_plaintext_ldap"] = some (.bool true)
  database : PlacedDatabase config
  schedule : ∃ interval jitter : Int,
    config.lookup ["scheduler", "interval_seconds"] = some (.int interval) ∧
    config.lookup ["scheduler", "jitter_seconds"] = some (.int jitter) ∧ 0 ≤ jitter ∧
    jitter < interval

section

variable {rt : Runtime} {config document : Yaml} {c : Configuration} {u : Unit}

/-- The runs of the validators over an accepted mapping. -/
theorem validateMerged_eq_ok : validateMerged rt config = .ok u ↔ validateTypes config = .ok () ∧
    validateTargets config = .ok () ∧ validateProvidersAndReferences config = .ok () ∧
    ∃ collectors active, config.item "collectors" = .ok collectors ∧
      config.item "active" = .ok active ∧ validateSnmp collectors active = .ok () ∧
      validateAd collectors active = .ok () ∧ validateSsh collectors active = .ok () ∧
      validateUnifi rt collectors active = .ok () := by
  constructor
  · intro h
    obtain ⟨⟨⟩, htypes, h⟩ := Except.bind_eq_ok.mp h
    obtain ⟨⟨⟩, htargets, h⟩ := Except.bind_eq_ok.mp h
    obtain ⟨⟨⟩, hreferences, h⟩ := Except.bind_eq_ok.mp h
    obtain ⟨collectors, hcollectors, h⟩ := Except.bind_eq_ok.mp h
    obtain ⟨active, hactive, h⟩ := Except.bind_eq_ok.mp h
    obtain ⟨⟨⟩, hsnmp, h⟩ := Except.bind_eq_ok.mp h
    obtain ⟨⟨⟩, had, h⟩ := Except.bind_eq_ok.mp h
    obtain ⟨⟨⟩, hssh, hunifi⟩ := Except.bind_eq_ok.mp h
    exact ⟨htypes, htargets, hreferences, collectors, active, hcollectors, hactive, hsnmp, had, hssh,
      hunifi⟩
  · rintro ⟨htypes, htargets, hreferences, collectors, active, hcollectors, hactive, hsnmp, had, hssh,
      hunifi⟩
    simp only [validateMerged, validateProtocols, htypes, htargets, hreferences, hcollectors, hactive,
      hsnmp, had, hssh, Except.ok_bind]
    exact hunifi

/-- The runs of the checks over the sections. -/
theorem validateTypes_ok (h : validateTypes config = .ok u) : validateActive config = .ok () ∧
    validatePaths config = .ok () ∧ validateScheduler config = .ok () ∧
    ∃ collectors fields, config.item "collectors" = .ok collectors ∧ collectors = .dict fields ∧
      validateEnabled fields = .ok () := by
  obtain ⟨⟨⟩, -, h⟩ := Except.bind_eq_ok.mp h
  obtain ⟨⟨⟩, hactive, h⟩ := Except.bind_eq_ok.mp h
  obtain ⟨⟨⟩, hpaths, h⟩ := Except.bind_eq_ok.mp h
  obtain ⟨⟨⟩, hscheduler, h⟩ := Except.bind_eq_ok.mp h
  obtain ⟨⟨⟩, -, h⟩ := Except.bind_eq_ok.mp h
  obtain ⟨collectors, hcollectors, h⟩ := Except.bind_eq_ok.mp h
  obtain ⟨fields, hfields, h⟩ := Except.bind_eq_ok.mp h
  obtain ⟨⟨⟩, henabled, -⟩ := Except.bind_eq_ok.mp h
  exact ⟨hactive, hpaths, hscheduler, collectors, fields, hcollectors, Yaml.items_eq_ok.mp hfields,
    henabled⟩

theorem validateConfig_eq_ok : validateConfig rt document = .ok c ↔ ∃ fields,
    document = .dict fields ∧ rejectInlineSecrets [] document = .ok () ∧
    checkChild [] document = .ok () ∧
    (Dict.get fields (.text (str "schema_version"))).any Yaml.isOne = true ∧
    validateMerged rt (.dict (mergeItems defaults fields)) = .ok () ∧
    c = ⟨.dict (mergeItems defaults fields)⟩ := by
  constructor
  · intro h
    cases document with
    | dict fields =>
      obtain ⟨⟨⟩, hsecrets, h⟩ := Except.bind_eq_ok.mp h
      obtain ⟨⟨⟩, hkeys, h⟩ := Except.bind_eq_ok.mp h
      obtain ⟨⟨⟩, hversion, h⟩ := Except.bind_eq_ok.mp h
      obtain ⟨⟨⟩, hmerged, h⟩ := Except.bind_eq_ok.mp h
      exact ⟨fields, rfl, hsecrets, hkeys, Bool.not_eq_false _ |>.mp (reject_eq_ok.mp hversion),
        hmerged, (Except.ok.inj h).symm⟩
    | null | bool | int | float | string | list | other => cases h
  · rintro ⟨fields, rfl, hsecrets, hkeys, hversion, hmerged, rfl⟩
    exact Except.bind_eq_ok.mpr ⟨(), hsecrets, Except.bind_eq_ok.mpr ⟨(), hkeys,
      Except.bind_eq_ok.mpr ⟨(), reject_eq_ok.mpr (Bool.not_eq_false _ |>.mpr hversion),
        Except.bind_eq_ok.mpr ⟨(), hmerged, rfl⟩⟩⟩⟩

/-- The sections of an accepted configuration. -/
theorem bounded_of_merged (h : validateMerged rt config = .ok u) : Bounded config := by
  obtain ⟨htypes, htargets, -, collectors, active, hcollectors, hactive, hsnmp, had, hssh, hunifi⟩ :=
    validateMerged_eq_ok.mp h
  obtain ⟨hranges, -, -, collectors', fields, hcollectors', rfl, henabled⟩ := validateTypes_ok htypes
  obtain ⟨⟨ranges, hranges⟩, maxHosts, hmax, hbounds⟩ := validateActive_ok hranges
  rw [hcollectors] at hcollectors'
  cases hcollectors'
  obtain ⟨-, hsnmpLe, hsnmpPlaced⟩ := validateSnmp_ok hcollectors hactive hranges hsnmp
  obtain ⟨-, hadPlaced⟩ := validateAd_ok hcollectors hactive hranges had
  obtain ⟨hsshLe, hsshPlaced⟩ := validateSsh_ok hcollectors hactive hranges hssh
  obtain ⟨-, hunifiPlaced⟩ := validateUnifi_ok hcollectors hactive hranges hunifi
  refine ⟨⟨maxHosts, hmax, hbounds.1, hbounds.2, fun v hv => validateTargets_ok htargets hmax hv,
    fun name hname => ?_⟩, fun protocol => ?_, fun protocol hon v hv => ?_⟩
  · rcases List.mem_pair.mp hname with rfl | rfl
    · exact hsnmpLe maxHosts hmax
    · exact hsshLe maxHosts hmax
  · obtain ⟨collector, hcollector⟩ : ∃ collector,
        (Yaml.dict fields).item protocol.key = .ok collector := by
      cases protocol with
      | snmp => exact (Except.bind_eq_ok.mp hsnmp).imp fun _ h => h.1
      | ad => exact (Except.bind_eq_ok.mp had).imp fun _ h => h.1
      | ssh => exact (Except.bind_eq_ok.mp hssh).imp fun _ h => h.1
      | unifi => exact (Except.bind_eq_ok.mp hunifi).imp fun _ h => h.1
    obtain ⟨_, heq, hget⟩ := Yaml.item_eq_ok.mp hcollector
    cases heq
    obtain ⟨b, hb⟩ := validateEnabled_ok henabled (Dict.mem_of_get hget)
    exact ⟨b, lookup_collector hcollectors hcollector hb⟩
  · cases protocol with
    | snmp => exact hsnmpPlaced hon v hv
    | ad => exact hadPlaced hon v hv
    | ssh => exact hsshPlaced hon v hv
    | unifi => exact hunifiPlaced hon v hv

theorem guarded_of_merged (h : validateMerged rt config = .ok u)
    (hsecrets : rejectInlineSecrets [] config = .ok ()) : Guarded rt config := by
  obtain ⟨htypes, -, hreferences, collectors, active, hcollectors, hactive, hsnmp, had, -, hunifi⟩ :=
    validateMerged_eq_ok.mp h
  obtain ⟨hranges, hpaths, hscheduler, -⟩ := validateTypes_ok htypes
  obtain ⟨⟨ranges, hranges⟩, -⟩ := validateActive_ok hranges
  exact ⟨rejectInlineSecrets_eq_ok.mp hsecrets, validateProvidersAndReferences_ok hreferences,
    (validateUnifi_ok hcollectors hactive hranges hunifi).1,
    (validateSnmp_ok hcollectors hactive hranges hsnmp).1,
    (validateAd_ok hcollectors hactive hranges had).1, validatePaths_ok hpaths,
    validateScheduler_ok hscheduler⟩

/-- A document that switches on two collectors. -/
def sampleDocument : Yaml := .fields [
  ("schema_version", .int 1),
  ("active", .fields [("approved_ranges", .list [.string (str "192.168.1.0/25"),
    .string (str "10.0.0.0/24")])]),
  ("secret_providers", .fields [("vault", .fields [("type", .string (str "command")),
    ("executable", .string (str "/usr/bin/vault"))])]),
  ("collectors", .fields [
    ("snmp", .fields [("enabled", .bool true), ("targets", .list [.string (str "10.0.0.7")]),
      ("credential_ref", .fields [("provider", .string (str "vault")),
        ("key", .string (str "SNMP_KEY"))])]),
    ("unifi", .fields [("enabled", .bool true), ("endpoints", .list [.fields [
      ("url", .string (str "https://unifi.lan:8443/")), ("verify_tls", .bool false),
      ("allow_self_signed", .bool true), ("approved_address", .string (str "192.168.1.2"))]])])])]

theorem sampleDocument_distinct : sampleDocument.Distinct := by decide +kernel

theorem sampleDocument_ok : (validateConfig (.ofDigests []) sampleDocument).isOk = true := by
  decide +kernel

/-- The collectors of an accepted configuration connect to no address outside the approved ranges,
which are small and private. -/
theorem config_bounded (h : validateConfig rt document = .ok c) : Bounded c.data := by
  obtain ⟨fields, -, -, -, -, hmerged, rfl⟩ := validateConfig_eq_ok.mp h
  exact bounded_of_merged hmerged

theorem config_bounded_sample : ∃ c, validateConfig (.ofDigests []) sampleDocument = .ok c ∧
    Bounded c.data :=
  (Except.exists_of_isOk sampleDocument_ok).imp fun _ h => ⟨h, config_bounded h⟩

/-- An accepted configuration holds no secret, refers to providers that it has, and weakens no protocol
silently. -/
theorem config_guarded (hdoc : document.Distinct) (h : validateConfig rt document = .ok c) :
    Guarded rt c.data := by
  obtain ⟨fields, rfl, hsecrets, -, -, hmerged, rfl⟩ := validateConfig_eq_ok.mp h
  exact guarded_of_merged hmerged (rejectInlineSecrets_merged hdoc hsecrets)

theorem config_guarded_sample : ∃ c, validateConfig (.ofDigests []) sampleDocument = .ok c ∧
    Guarded (.ofDigests []) c.data :=
  (Except.exists_of_isOk sampleDocument_ok).imp fun _ h =>
    ⟨h, config_guarded sampleDocument_distinct h⟩

/-- An accepted configuration, read as a document, is accepted and stays as it is: the defaults are
part of it, and they pass the checks on documents. -/
theorem config_fixed (hdoc : document.Distinct) (h : validateConfig rt document = .ok c) :
    validateConfig rt c.data = .ok c := by
  obtain ⟨fields, rfl, hsecrets, hkeys, hversion, hmerged, rfl⟩ := validateConfig_eq_ok.mp h
  have habsorb := mergeItems_absorb distinct_defaults hdoc
  refine validateConfig_eq_ok.mpr ⟨mergeItems defaults fields, rfl,
    rejectInlineSecrets_merged hdoc hsecrets, checkChild_merged hdoc hkeys, ?_, ?_, ?_⟩
  · rwa [get_version hdoc]
  · rwa [habsorb]
  · rw [habsorb]

theorem config_fixed_sample : ∃ c, validateConfig (.ofDigests []) sampleDocument = .ok c ∧
    validateConfig (.ofDigests []) c.data = .ok c :=
  (Except.exists_of_isOk sampleDocument_ok).imp fun _ h =>
    ⟨h, config_fixed sampleDocument_distinct h⟩

/-- What the document says stands in the configuration, and a default stands there unless the document
says something else. -/
theorem config_kept (hdoc : document.Distinct) (h : validateConfig rt document = .ok c)
    (keys : List String) (v : Yaml) :
    (document.lookup keys = some v → (∀ fields, v ≠ .dict fields) → c.data.lookup keys = some v) ∧
    ((Yaml.dict defaults).lookup keys = some v → c.data.lookup keys = some v ∨
      document.Overrides keys) := by
  obtain ⟨fields, rfl, -, -, -, -, rfl⟩ := validateConfig_eq_ok.mp h
  exact ⟨lookup_mergeValue (some (.dict defaults)) hdoc, lookup_mergeValue_old hdoc⟩

theorem config_kept_sample : ∃ c, validateConfig (.ofDigests []) sampleDocument = .ok c ∧
    c.data.lookup ["collectors", "snmp", "enabled"] = some (.bool true) := by
  obtain ⟨c, h⟩ := Except.exists_of_isOk sampleDocument_ok
  exact ⟨c, h, (config_kept sampleDocument_distinct h ["collectors", "snmp", "enabled"] (.bool true)).1
    rfl fun _ heq => by cases heq⟩

end

end FieldDiscovery.Config
