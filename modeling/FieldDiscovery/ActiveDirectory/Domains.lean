import FieldDiscovery.ActiveDirectory.Entries
import FieldDiscovery.Lib.Literal

/-!
# Domains and their evidence

What `ad_detection.py` accepts: approved domains and sites, host names below a domain, SRV records,
and RootDSE responses that name a domain.
-/

namespace FieldDiscovery.ActiveDirectory

open Py

/-! ## Limits -/

/-- `MAX_DOMAINS` -/
def maxDomains : Nat := 16

/-- `MAX_SITES` -/
def maxSites : Nat := 32

/-- `MAX_RECORDS` -/
def maxRecords : Nat := 512

/-- `MAX_ROOTDSE_VALUES` -/
def maxRootdseValues : Nat := 128

/-- `AD_PORTS` -/
def adPorts : List Int := [53, 88, 389, 445, 464, 636, 3268, 3269]

/-- `AD_SERVICE_NAMES` -/
def adServiceNames : List Str :=
  ["domain", "dns", "kerberos", "ldap", "ldaps", "microsoft-ds", "globalcatldap"].map str

/-- `ROOTDSE_ATTRIBUTES` -/
def rootdseAttributes : List Str :=
  ["defaultNamingContext", "rootDomainNamingContext", "configurationNamingContext",
    "schemaNamingContext", "dnsHostName", "namingContexts", "supportedCapabilities"].map str

/-- `AD_CAPABILITY_OIDS` -/
def adCapabilityOids : List Str :=
  ["1.2.840.113556.1.4.800", "1.2.840.113556.1.4.1670", "1.2.840.113556.1.4.1791"].map str

/-! ## Names -/

/-- `[a-z0-9]` under `IGNORECASE`. -/
def isLabelChar (c : CodePoint) : Bool := isDigit c || Re.letterIgnoreCase c

/-- `_LABEL` -/
def labelPattern : Pattern :=
  [.re (.chr isLabelChar),
    .re (.opt (.seq (.upTo 61 (.chr fun c => isLabelChar c || c == cp '-')) (.chr isLabelChar)))]

/-- `_LABEL.fullmatch(label)` -/
def isLabel (label : Str) : Bool := (fullmatch labelPattern label).isSome

/-- `_SITE` -/
def sitePattern : Pattern :=
  [.re (.chr isAsciiAlnum), .re (.upTo 62 (.chr fun c => isAsciiAlnum c || c ∈ str "_.-"))]

section

variable (rt : Runtime)

/-- `value.strip().rstrip(".").casefold()` -/
def foldName (value : Str) : Str := rt.casefold ((strip value).rdropWhile (· == cp '.'))

/-- `normalize_domain` -/
def normalizeDomain (value : Str) : Except Exc Str :=
  let domain := foldName rt value
  if domain = [] ∨ 253 < domain.length ∨ cp '.' ∉ domain then
    .error (.adDetection (str "approved AD domain must be a qualified DNS name"))
  else if (domain.splitOn (cp '.')).any fun label => !isLabel label then
    .error (.adDetection (str "approved AD domain contains an invalid DNS label"))
  else .ok domain

/-- `normalize_site` -/
def normalizeSite (value : Str) : Except Exc Str :=
  if (fullmatch sitePattern value).isSome then .ok value
  else .error (.adDetection (str "AD site must be a bounded DNS-safe name"))

/-- `_hostname` -/
def hostname (value domain : Str) : Except Exc Str :=
  let host := foldName rt value
  if host = domain ∨ ¬ (cp '.' :: domain) <:+ host then
    .error (.adDetection (str "SRV target is outside the approved AD domain"))
  else if (host.splitOn (cp '.')).any fun label => !isLabel label then
    .error (.adDetection (str "SRV target contains an invalid DNS label"))
  else .ok host

/-! ## SRV records -/

/-- An SRV record of an answer. A number is `none` where the answer has no `int`, and the target
where it has no text. -/
structure SrvAnswer where
  priority : Option Int
  weight : Option Int
  port : Option Int
  target : Option Str

/-- `SRVRecord` -/
structure SRVRecord where
  priority : Int
  weight : Int
  port : Int
  target : Str

/-- `_validate_srv` -/
def validateSrv (record : SrvAnswer) (domain : Str) : Except Exc SRVRecord :=
  match record.priority, record.weight, record.port with
  | some priority, some weight, some port => do
    if ¬ (0 ≤ priority ∧ priority ≤ 65535) ∨ ¬ (0 ≤ weight ∧ weight ≤ 65535) then
      .error (.adDetection (str "SRV record priority or weight is out of range"))
    else if ¬ (1 ≤ port ∧ port ≤ 65535) then
      .error (.adDetection (str "SRV record port is out of range"))
    else
      match record.target with
      | none => .error .attribute
      | some target => do
        let target ← hostname rt target domain
        .ok { priority, weight, port, target }
  | _, _, _ => .error (.adDetection (str "SRV record numeric fields are malformed"))

/-! ## RootDSE -/

/-- A RootDSE response: each attribute with its values. -/
abbrev RootDse := Dict Str (List Str)

/-- The texts among the values of an attribute, when all of them are texts. -/
def textItems (raw : LdapValue) : Option (List Str) :=
  let items := match raw with
    | .list items => items
    | .tuple items => items
    | raw => [raw]
  if maxRootdseValues < items.length then none
  else items.mapM fun
    | .text s => some (s.take 1024)
    | _ => none

/-- The body of `for attribute in ROOTDSE_ATTRIBUTES`. -/
def normalizeAttribute (value : Entry) (normalized : RootDse) (name : Str) :
    Except Exc RootDse :=
  match (value.get name).getD .none with
  | .none => .ok normalized
  | raw =>
    match textItems raw with
    | some items => .ok (normalized.set name items)
    | none =>
      .error (.adDetection (str "RootDSE attribute values are malformed or oversized"))

/-- `_normalize_rootdse` -/
def normalizeRootdse (value : Entry) : Except Exc RootDse :=
  if value.any fun item => decide (item.1 ∉ rootdseAttributes) then
    .error (.adDetection (str "RootDSE returned attributes outside the fixed allowlist"))
  else rootdseAttributes.foldlM (normalizeAttribute value) []

/-- `_domain_from_dn`, from the labels found so far. -/
def domainLabels : List Str → Option (List Str)
  | [] => some []
  | component :: components =>
    let component := strip component
    let name := component.takeWhile (· != cp '=')
    let item := (component.dropWhile (· != cp '=')).tail
    if cp '=' ∈ component ∧ rt.casefold name = str "dc" then
      if isLabel item then (domainLabels components).map (rt.casefold item :: ·) else none
    else domainLabels components

/-- `_domain_from_dn` -/
def domainFromDn (value : Str) : Option Str :=
  match domainLabels rt (value.splitOn (cp ',')) with
  | some (label :: labels) => some (join (str ".") (label :: labels))
  | _ => none

/-- `_rootdse_confirms_ad` -/
def rootdseConfirmsAd (rootdse : RootDse) (domain : Str) : Bool :=
  let naming := (rootdse.get (str "defaultNamingContext")).getD []
  let capabilities := (rootdse.get (str "supportedCapabilities")).getD []
  decide (naming.head?.bind (domainFromDn rt) = some domain) &&
    capabilities.any fun oid => decide (oid ∈ adCapabilityOids)

variable {rt}

/-- A host name that was accepted is below its domain. -/
theorem hostname_below {value domain host : Str} (h : hostname rt value domain = .ok host) :
    ∃ labels, labels ≠ [] ∧ host = labels ++ cp '.' :: domain := by
  unfold hostname at h
  simp only at h
  split at h
  · cases h
  · next hbelow =>
    split at h
    · cases h
    · next hlabels =>
      cases h
      rw [not_or, not_not] at hbelow
      obtain ⟨labels, hhost⟩ := hbelow.2
      refine ⟨labels, ?_, hhost.symm⟩
      -- a host that starts with the full stop has an empty label
      rintro rfl
      rw [List.nil_append] at hhost
      refine hlabels (List.any_eq_true.mpr ⟨[], ?_, by decide⟩)
      rw [← hhost]
      have hsplit := List.splitOn_append_cons_self [] domain (a := cp '.')
      rw [List.nil_append, List.splitOn_nil] at hsplit
      rw [hsplit]
      exact List.mem_cons_self

end

end FieldDiscovery.ActiveDirectory
