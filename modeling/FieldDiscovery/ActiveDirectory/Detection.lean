import FieldDiscovery.ActiveDirectory.Domains
import FieldDiscovery.Collectors.Approve
import FieldDiscovery.Lib.Machine
import FieldDiscovery.Lib.Sorted

/-!
# Detection of domain controllers

`ADDetector` of `ad_detection.py`. The evidence of DNS and of stored services is read in order. Then
one task a candidate host looks its addresses up, keeps the approved ones and asks them for their
RootDSE. The tasks are the components of a machine: an event is a lookup or a probe that completes, or
a task that gets through the semaphore, and the order of the events is not fixed.
-/

namespace FieldDiscovery.ActiveDirectory

open Py Collectors

/-! ## Candidates -/

/-- `_CandidateState`; a set is the list of its members. -/
structure CandidateState where
  addresses : List Str := []
  ports : List Int := []
  sites : List Str := []
  sources : List Str := []
  ldapSrv : Bool := false
  rootdse : RootDse := []
  rootdseConfirmed : Bool := false

/-- `DetectionIssue` -/
structure DetectionIssue where
  category : Str
  subject : Str
  detail : Str
  deriving DecidableEq

/-- `ServiceEvidence` -/
structure ServiceEvidence where
  domain : Str
  host : Str
  address : Str
  port : Int
  service : Str
  source : Str := str "existing_service"

/-- `DomainControllerCandidate` -/
structure DomainControllerCandidate where
  domain : Str
  hostname : Str
  addresses : List Str
  ports : List Int
  sites : List Str
  sources : List Str
  rootdse : RootDse
  confidence : ℚ
  deriving DecidableEq

/-- `ADDetectionResult` -/
structure ADDetectionResult where
  domains : List Str
  candidates : List DomainControllerCandidate
  issues : List DetectionIssue
  deriving DecidableEq

/-- The variables `states` and `issues` of `detect`. -/
structure Evidence where
  states : Dict (Str × Str) CandidateState := []
  issues : List DetectionIssue := []

/-- `issues.append(DetectionIssue(category, subject, detail))` -/
def Evidence.report (e : Evidence) (category : String) (subject : Str) (detail : String) : Evidence :=
  { e with issues := e.issues ++ [⟨str category, subject, str detail⟩] }

/-- An update of `states[key]`, which starts empty. -/
def Evidence.update (e : Evidence) (key : Str × Str) (f : CandidateState → CandidateState) :
    Evidence :=
  { e with states := e.states.set key (f ((e.states.get key).getD {})) }

section

variable (rt : Runtime)

/-! ## Evidence of DNS -/

/-- One SRV query about a domain. -/
structure SrvQuery where
  owner : Str
  source : Str
  site : Option Str
  isLdap : Bool

/-- The queries about a domain. -/
def srvQueries (domain : Str) (sites : List Str) : List SrvQuery :=
  [⟨str "_ldap._tcp.dc._msdcs." ++ domain, str "dns_ldap_srv", none, true⟩,
    ⟨str "_kerberos._tcp." ++ domain, str "dns_kerberos_srv", none, false⟩] ++
  sites.map fun site =>
    ⟨str "_ldap._tcp." ++ site ++ str "._sites.dc._msdcs." ++ domain, str "dns_site_ldap_srv",
      some site, true⟩

/-- The body of `for record in records`. -/
def readSrv (domain : Str) (query : SrvQuery) (e : Evidence) (record : SrvAnswer) :
    Except Exc Evidence :=
  match validateSrv rt record domain with
  | .error (.adDetection _) | .error (.adDetectionUnreachable _) | .error .attribute =>
    .ok (e.report "malformed_srv" query.owner "Malformed SRV record was ignored")
  | .error exc => .error exc
  | .ok normalized =>
    .ok (e.update (domain, normalized.target) fun state =>
      { state with
        ports := state.ports.insert normalized.port
        sources := state.sources.insert query.source
        ldapSrv := state.ldapSrv || query.isLdap
        sites := query.site.elim state.sites state.sites.insert })

variable (resolveSrv : Str → Except Exc (List SrvAnswer))

/-- The body of `for owner, source, site, is_ldap in queries`. -/
def askSrv (domain : Str) (e : Evidence) (query : SrvQuery) : Except Exc Evidence :=
  match resolveSrv query.owner with
  | .error (.adDetectionUnreachable _) =>
    .ok (e.report "dns_unreachable" query.owner "DNS query was unreachable")
  | .error (.adDetection _) => .ok (e.report "dns_error" query.owner "DNS query failed safely")
  | .error exc => .error exc
  | .ok records =>
    if maxRecords < records.length then
      .ok (e.report "dns_oversized" query.owner "DNS answer exceeded the record limit")
    else records.foldlM (readSrv rt domain query) e

/-- `_dns_evidence` -/
def dnsEvidence (sites : List Str) (e : Evidence) (domain : Str) : Except Exc Evidence :=
  (srvQueries domain sites).foldlM (askSrv rt resolveSrv domain) e

/-! ## Evidence of stored services -/

/-- The host and the address that a service names; `none` where the service tells nothing. -/
def serviceHost (domains : List Str) (item : ServiceEvidence) :
    Except Exc (Option ((Str × Str) × Str)) := do
  let domain ← normalizeDomain rt item.domain
  if domain ∉ domains then
    .error (.adDetection (str "stored evidence domain was not approved"))
  else
    let host ← hostname rt item.host domain
    match addressValue item.address with
    | none => .error .value
    | some address =>
      if item.port ∉ adPorts ∧ rt.casefold item.service ∉ adServiceNames then .ok none
      else .ok (some ((domain, host), dottedQuad address))

/-- The body of `for item in evidence`. -/
def readService (domains : List Str) (e : Evidence) (item : ServiceEvidence) :
    Except Exc Evidence :=
  match serviceHost rt domains item with
  | .error (.adDetection _) | .error (.adDetectionUnreachable _) | .error .value
  | .error .attribute =>
    .ok (e.report "malformed_service" (str "stored")
      "Malformed stored service evidence was ignored")
  | .error exc => .error exc
  | .ok none => .ok e
  | .ok (some (key, address)) =>
    .ok (e.update key fun state =>
      { state with
        addresses := state.addresses.insert address
        ports := state.ports.insert item.port
        sources := state.sources.insert item.source })

/-- `_stored_evidence` -/
def storedEvidence (domains : List Str) (evidence : List ServiceEvidence) (e : Evidence) :
    Except Exc Evidence :=
  let e := if maxRecords < evidence.length then
      e.report "service_oversized" (str "stored") "Stored evidence exceeded the limit"
    else e
  (evidence.take maxRecords).foldlM (readService rt domains) e

/-- `detect`, up to `_resolve_and_probe`: the approved domains and the evidence. -/
def gatherEvidence (domains sites : List Str) (evidence : List ServiceEvidence) :
    Except Exc (List Str × Evidence) := do
  let approvedDomains := sortedSet (← domains.mapM (normalizeDomain rt))
  let approvedSites := sortedSet (← sites.mapM normalizeSite)
  if approvedDomains = [] ∨ maxDomains < approvedDomains.length then
    .error (.adDetection (str "AD detection requires 1 to 16 approved domains"))
  else if maxSites < approvedSites.length then
    .error (.adDetection (str "AD detection accepts at most 32 sites"))
  else do
    let e ← approvedDomains.foldlM (dnsEvidence rt resolveSrv approvedSites) {}
    let e ← storedEvidence rt approvedDomains evidence e
    .ok (approvedDomains, e)

end

/-! ## The task of a host -/

/-- Where the task of a host waits, or how it ended. -/
inductive HostTask where
  /-- For the addresses of the host. -/
  | resolving
  /-- For the semaphore, to ask the first of the addresses. -/
  | waiting (addresses : List Str)
  /-- For the RootDSE of an address. -/
  | probing (address : Str) (rest : List Str)
  | finished
  | raised (exc : Exc)

/-- `one(domain, host, state)` -/
structure HostRun where
  domain : Str
  host : Str
  state : CandidateState
  task : HostTask

section

variable (rt : Runtime) (approvedRanges : List Str)

/-- The loop over the approved addresses, from the next one. -/
def probeNext : List Str → HostTask
  | [] => .finished
  | addresses => .waiting addresses

/-- The local variable `approved`, the issues of the loop that fills it, and an exception that ends
the loop. -/
structure Approval where
  approved : List Str := []
  issues : List DetectionIssue := []
  raised : Option Exc := none

/-- The body of `for address in sorted(state.addresses)`. -/
def approveAddress (host : Str) (a : Approval) (address : Str) : Approval :=
  match a.raised with
  | some _ => a
  | none =>
    match approveTarget approvedRanges address with
    | .ok canonical => { a with approved := a.approved ++ [canonical] }
    | .error (.targetApproval _) | .error .value =>
      { a with issues := a.issues ++ [⟨str "target_refused", host,
          str "RootDSE target was outside approved ranges"⟩] }
    | .error exc => { a with raised := some exc }

/-- From the addresses of a host to its first probe. -/
def HostRun.approve (h : HostRun) : HostRun × List DetectionIssue :=
  let a := (sortedSet h.state.addresses).foldl (approveAddress approvedRanges h.host) {}
  match a.raised with
  | some exc => ({ h with task := .raised exc }, a.issues)
  | none =>
    ({ h with
        state := { h.state with
          addresses := h.state.addresses.filter fun address => decide (address ∈ a.approved) }
        task := probeNext a.approved }, a.issues)

/-- A task up to its first `await`. -/
def HostRun.start (h : HostRun) : HostRun × List DetectionIssue :=
  if h.state.addresses = [] then ({ h with task := .resolving }, []) else h.approve approvedRanges

/-- The body of `for address in addresses[:MAX_RECORDS]`. -/
def HostRun.readAddress (read : HostRun × List DetectionIssue) (address : Str) :
    HostRun × List DetectionIssue :=
  match addressValue address with
  | some n =>
    ({ read.1 with
        state := { read.1.state with
          addresses := read.1.state.addresses.insert (dottedQuad n) } }, read.2)
  | none =>
    (read.1, read.2 ++ [⟨str "malformed_address", read.1.host,
      str "Malformed IPv4 address was ignored"⟩])

/-- A task from the end of its lookup to its first probe. -/
def HostRun.lookup (h : HostRun) (answer : Except Exc (List Str)) :
    HostRun × List DetectionIssue :=
  match answer with
  | .error (.adDetectionUnreachable _) =>
    ({ h with task := .finished },
      [⟨str "dns_unreachable", h.host, str "Address lookup was unreachable"⟩])
  | .error (.adDetection _) =>
    ({ h with task := .finished },
      [⟨str "dns_error", h.host, str "Address lookup failed safely"⟩])
  | .error exc => ({ h with task := .raised exc }, [])
  | .ok addresses =>
    let (h, malformed) := (addresses.take maxRecords).foldl HostRun.readAddress (h, [])
    let (h, refused) := h.approve approvedRanges
    (h, malformed ++ refused)

/-- `probe_port` -/
def HostRun.probePort (h : HostRun) : Int := if 636 ∈ h.state.ports then 636 else 389

/-- A task from the end of a probe to the next one. -/
def HostRun.probe (h : HostRun) (address : Str) (rest : List Str) (answer : Except Exc Entry) :
    HostRun × List DetectionIssue :=
  match answer >>= normalizeRootdse with
  | .error (.adDetectionUnreachable _) =>
    ({ h with task := probeNext rest },
      [⟨str "rootdse_unreachable", address, str "RootDSE was unreachable"⟩])
  | .error (.adDetection _) =>
    ({ h with task := probeNext rest },
      [⟨str "rootdse_malformed", address, str "RootDSE response was rejected"⟩])
  | .error exc => ({ h with task := .raised exc }, [])
  | .ok rootdse =>
    if rootdseConfirmsAd rt rootdse h.domain then
      ({ h with
          state := { h.state with
            rootdse, rootdseConfirmed := true
            sources := h.state.sources.insert (str "anonymous_rootdse") }
          task := .finished }, [])
    else
      ({ h with task := probeNext rest },
        [⟨str "rootdse_not_ad", address, str "RootDSE did not confirm the approved AD domain"⟩])

/-! ## The tasks together -/

/-- `_resolve_and_probe`: its tasks, the shared issues, and the RootDSE queries made so far. -/
structure Detection where
  hosts : List HostRun
  issues : List DetectionIssue
  queries : List (Str × Int) := []

/-- The tasks, each up to its first `await`. -/
def startDetection (e : Evidence) : Detection :=
  let started := (sortedBy (fun item => toLex item.1) e.states).map fun item =>
    HostRun.start approvedRanges ⟨item.1.1, item.1.2, item.2, .resolving⟩
  { hosts := started.map Prod.fst, issues := e.issues ++ started.flatMap Prod.snd }

/-- What happens next: the task of a host gets through the semaphore, or what it waits for
completes. -/
inductive DetectionEvent where
  | acquire (i : Nat)
  | lookup (i : Nat) (answer : Except Exc (List Str))
  | probe (i : Nat) (answer : Except Exc Entry)

/-- The task holds the semaphore. -/
def HostRun.isProbing (h : HostRun) : Bool :=
  match h.task with
  | .probing _ _ => true
  | _ => false

/-- The task of a host moved on, and reported issues. -/
def Detection.advance (s : Detection) (i : Nat) (moved : HostRun × List DetectionIssue) : Detection :=
  { s with hosts := s.hosts.set i moved.1, issues := s.issues ++ moved.2 }

/-- The transitions of `_resolve_and_probe`. Each lookup and each probe is taken to suspend its task,
as those of the resolver and of the probe do, which run in threads. -/
def detectionStep (concurrency : Nat) (s : Detection) : DetectionEvent → Option Detection
  | .acquire i => do
    let h ← s.hosts[i]?
    match h.task with
    | .waiting (address :: rest) =>
      if s.hosts.countP HostRun.isProbing < concurrency then
        some { s.advance i ({ h with task := .probing address rest }, []) with
          queries := s.queries ++ [(address, h.probePort)] }
      else none
    | _ => none
  | .lookup i answer => do
    let h ← s.hosts[i]?
    match h.task with
    | .resolving => some (s.advance i (h.lookup approvedRanges answer))
    | _ => none
  | .probe i answer => do
    let h ← s.hosts[i]?
    match h.task with
    | .probing address rest => some (s.advance i (h.probe rt address rest answer))
    | _ => none

/-- The state after the events. -/
def runDetection (concurrency : Nat) (s : Detection) (events : List DetectionEvent) :
    Option Detection :=
  Machine.run (detectionStep rt approvedRanges concurrency) s events

end

/-! ## The result -/

/-- The literal `0.98`. -/
def confirmedConfidence : ℚ := 2206763817411543 / 2251799813685248

/-- The literal `0.8`. -/
def srvConfidence : ℚ := 3602879701896397 / 4503599627370496

/-- The candidate of a host, if its evidence is enough. -/
def HostRun.candidate (h : HostRun) : Option DomainControllerCandidate :=
  if h.state.ldapSrv || h.state.rootdseConfirmed then
    some {
      domain := h.domain
      hostname := h.host
      addresses := sortedBy (fun address => (addressValue address).getD 0)
        (sortedSet h.state.addresses)
      ports := sortedSet h.state.ports
      sites := sortedSet h.state.sites
      sources := sortedSet h.state.sources
      rootdse := sortedBy Prod.fst h.state.rootdse
      confidence := if h.state.rootdseConfirmed then confirmedConfidence else srvConfidence }
  else none

/-- The task has returned. -/
def HostRun.isFinished (h : HostRun) : Bool :=
  match h.task with
  | .finished => true
  | _ => false

/-- What `detect` returns once all tasks have. -/
def Detection.result (domains : List Str) (s : Detection) : Option ADDetectionResult :=
  if s.hosts.all HostRun.isFinished then
    some { domains, candidates := s.hosts.filterMap HostRun.candidate, issues := s.issues }
  else none

end FieldDiscovery.ActiveDirectory
