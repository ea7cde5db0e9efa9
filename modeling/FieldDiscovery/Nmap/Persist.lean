import FieldDiscovery.Correlation.Correlate
import FieldDiscovery.Lib.Dict
import FieldDiscovery.Lib.Json
import FieldDiscovery.Nmap.Observation
import FieldDiscovery.Redaction.Redactor
import FieldDiscovery.Repository.Inventory

/-!
# Persistence of a scan

`_persist` of `nmap_import.py`, and what `import_nmap_artifacts` does with a stable file whose scan
it has parsed. One transaction stores the devices of a scan with their aliases, addresses and facts,
the services of its ports, and last the artifact the scan was read from. A failed transaction leaves
the database as it was, so a failure returns no database.

`UNIQUE(address_kind, address, device_id, interface_id, source, observed_at)` has two columns that
may be `NULL`, and a `NULL` differs from every other: a row with one of them `NULL` conflicts with
nothing.
-/

namespace FieldDiscovery.Nmap

open Py Correlation Redaction Repository

/-! ## Tables -/

/-- A row of `address_assignments`. -/
structure AssignmentRow where
  deviceId : Option Nat
  interfaceId : Option Nat
  kind : Str
  address : Str
  firstSeenAt : Str
  lastSeenAt : Str
  source : Str
  observedAt : Str

def AssignmentRow.key (r : AssignmentRow) :
    Option ((Str × Str) × (Nat × Nat) × Str × Str) :=
  match r.deviceId, r.interfaceId with
  | some deviceId, some interfaceId =>
    some ((r.kind, r.address), (deviceId, interfaceId), r.source, r.observedAt)
  | _, _ => none

/-- A row of `services`. -/
structure ServiceRow where
  deviceId : Nat
  transport : Str
  port : Nat
  serviceName : Option Str
  product : Option Str
  version : Option Str
  state : Option Str
  source : Str
  observedAt : Str

def ServiceRow.key (r : ServiceRow) : Option (Nat × Str × Nat × Str × Str) :=
  some (r.deviceId, r.transport, r.port, r.source, r.observedAt)

/-- A row of `artifacts`. -/
structure ArtifactRow where
  deploymentId : Nat
  collectorRunId : Option Nat
  relativePath : Str
  sha256Digest : Str
  mediaType : Str
  sizeBytes : Nat
  collectedAt : Str
  importedAt : Str
  source : Str
  observedAt : Str

def ArtifactRow.key (r : ArtifactRow) : Option (Str × Str) :=
  some (r.relativePath, r.sha256Digest)

/-- The tables that hold what a scan saw. -/
structure EvidenceDb where
  /-- The ids of `deployments`. -/
  deployments : List Nat
  /-- The ids of `collector_runs`. -/
  collectorRuns : List Nat := []
  devices : Sql.Table DeviceRow.key := .empty
  aliases : Sql.Table AliasRow.key := .empty
  assignments : Sql.Table AssignmentRow.key := .empty
  observations : Sql.Table ObservationRow.key := .empty
  services : Sql.Table ServiceRow.key := .empty

/-- The part of the database that a scan is kept in. -/
structure ScanDb where
  evidence : EvidenceDb
  artifacts : Sql.Table ArtifactRow.key := .empty

/-- `deployment_id REFERENCES deployments(id)` -/
def EvidenceDb.checkDeployment (db : EvidenceDb) (deploymentId : Nat) : Except Exc Unit :=
  if deploymentId ∈ db.deployments then .ok () else .error .sqlite

/-- `collector_run_id REFERENCES collector_runs(id)` -/
def EvidenceDb.checkRun (db : EvidenceDb) (collectorRunId : Option Nat) : Except Exc Unit :=
  if ∀ id ∈ collectorRunId, id ∈ db.collectorRuns then .ok () else .error .sqlite

/-- `ids[key]` -/
def lookup (ids : Dict Str Nat) (key : Str) : Except Exc Nat :=
  match ids.get key with
  | some id => .ok id
  | none => .error .key

/-! ## The importer -/

/-- What stays fixed while scans are imported. -/
structure Importer where
  rt : Runtime
  redactor : Redactor
  deploymentId : Nat

/-- One call of `import_nmap_artifacts`. -/
structure ImportPass where
  collectorRunId : Option Nat := none
  /-- `current_time.isoformat()` -/
  importedAt : Str

/-- A file whose content is a completed scan. -/
structure ScanFile where
  relativePath : Str
  /-- `hexdigest()` of its bytes. -/
  digest : Str
  size : Nat
  /-- `datetime.fromtimestamp(before.st_mtime, tz=UTC)` -/
  modified : Datetime
  scan : NmapScan

/-- `_scan_time` -/
def ScanFile.scanTime (file : ScanFile) : Datetime :=
  (file.scan.finishedAt.or file.scan.startedAt).getD file.modified

/-- The observations of the hosts. -/
def ScanFile.observations (rt : Runtime) (file : ScanFile) :
    Except Exc (List DeviceObservation) :=
  file.scan.hosts.zipIdx.mapM fun (host, index) =>
    hostObservation rt file.scanTime file.digest index host

namespace Importer

variable (imp : Importer)

/-- `_json` of a string. -/
def json (value : Str) : Except Exc Str := do
  let value ← imp.redactor.text imp.rt value
  .ok ((Json.string value).dumps (.compact false))

/-- `_text` -/
def text (value : Option Str) : Except Exc (Option Str) :=
  match value with
  | none => .ok none
  | some s => do
    let s ← imp.redactor.text imp.rt s
    .ok (some s)

/-! ## Devices -/

/-- The row of an identifier, with its value redacted. -/
def aliasRow (deviceId : Nat) (identity : IdentityEvidence) (value : Str) : AliasRow :=
  { deviceId, kind := identity.kind.value, value, confidence := identity.confidence, source
    observedAt := identity.observedAt.isoformat }

/-- The address of an identifier. `interface_id` is not among the columns. -/
def assignmentRow (deviceId : Nat) (identity : IdentityEvidence) (value : Str) : AssignmentRow :=
  { deviceId := some deviceId, interfaceId := none, kind := identity.kind.value, address := value
    firstSeenAt := identity.observedAt.isoformat, lastSeenAt := identity.observedAt.isoformat
    source, observedAt := identity.observedAt.isoformat }

/-- `identity.kind in {IdentifierKind.IPV4, IdentifierKind.MAC}` -/
def isAddress (identity : IdentityEvidence) : Bool :=
  identity.kind = .ipv4 || identity.kind = .mac

/-- The body of `for identity in device.identifiers`. -/
def storeIdentity (deviceId : Nat) (db : EvidenceDb) (identity : IdentityEvidence) :
    Except Exc EvidenceDb := do
  let value ← imp.redactor.text imp.rt identity.value
  Repository.bind [.text identity.kind.value, .text value, .text identity.observedAt.isoformat]
  let db := { db with aliases := db.aliases.insertOrIgnore (aliasRow deviceId identity value) }
  if isAddress identity then
    .ok { db with
      assignments := db.assignments.insertOrIgnore (assignmentRow deviceId identity value) }
  else .ok db

/-- The row of a fact, with its value as JSON. -/
def factRow (deviceId : Nat) (fact : FactEvidence) (factValueJson : Str) : ObservationRow :=
  { deploymentId := imp.deploymentId, subjectType := str "device", subjectId := some deviceId
    factType := fact.field, factValueJson, confidence := fact.confidence, inferred := false, source
    observedAt := fact.observedAt.isoformat }

/-- The body of `for fact in device.facts`. -/
def storeFact (deviceId : Nat) (db : EvidenceDb) (fact : FactEvidence) : Except Exc EvidenceDb := do
  let factValueJson ← imp.json fact.value.val
  Repository.bind [.text fact.field, .text factValueJson, .text fact.observedAt.isoformat]
  db.checkDeployment imp.deploymentId
  .ok { db with
    observations := db.observations.insertOrIgnore (imp.factRow deviceId fact factValueJson) }

/-- `created_at`: the time of the first evidence, or of the import. -/
def createdAt (importedAt : Str) (device : CanonicalDevice) : Str :=
  let times := device.identifiers.map IdentityEvidence.observedAt ++
    device.facts.map FactEvidence.observedAt
  match sortedBy Datetime.instant times with
  | first :: _ => first.isoformat
  | [] => importedAt

/-- The row of a device. -/
def deviceRow (importedAt : Str) (device : CanonicalDevice) : DeviceRow :=
  { deploymentId := imp.deploymentId, canonicalKey := device.canonicalKey
    createdAt := createdAt importedAt device }

/-- The body of `for device in correlation.devices`, with `device_ids`. -/
def storeDevice (importedAt : Str) (st : EvidenceDb × Dict Str Nat) (device : CanonicalDevice) :
    Except Exc (EvidenceDb × Dict Str Nat) := do
  Repository.bind [.text device.canonicalKey, .text (createdAt importedAt device)]
  st.1.checkDeployment imp.deploymentId
  let (devices, deviceId) ← insertSelect st.1.devices (imp.deviceRow importedAt device)
  let db ← device.identifiers.foldlM (imp.storeIdentity deviceId) { st.1 with devices }
  let db ← device.facts.foldlM (imp.storeFact deviceId) db
  .ok (db, st.2.set device.canonicalKey deviceId)

/-- `observation_to_device` -/
def observationToDevice (deviceIds : Dict Str Nat) (devices : List CanonicalDevice) :
    Except Exc (Dict Str Nat) :=
  (devices.flatMap fun device => device.observationIds.map fun id => (id, device.canonicalKey)).foldlM
    (fun ids item => do
      let deviceId ← lookup deviceIds item.2
      .ok (ids.set item.1 deviceId)) []

/-! ## Services -/

/-- The row of a script of a port, with its output as JSON. -/
def scriptRow (serviceId : Nat) (hostTime : Str) (script : NmapScript) (factValueJson : Str) :
    ObservationRow :=
  { deploymentId := imp.deploymentId, subjectType := str "service", subjectId := some serviceId
    factType := scriptField script, factValueJson, confidence := ⟨1, one_isConfidence⟩
    inferred := false, source, observedAt := hostTime }

/-- The body of `for script in port.scripts`. -/
def storeScript (serviceId : Nat) (hostTime : Str) (db : EvidenceDb) (script : NmapScript) :
    Except Exc EvidenceDb := do
  let factValueJson ← imp.json (scriptOutput script)
  Repository.bind [.text (scriptField script), .text factValueJson, .text hostTime]
  db.checkDeployment imp.deploymentId
  .ok { db with
    observations :=
      db.observations.insertOrIgnore (imp.scriptRow serviceId hostTime script factValueJson) }

/-- The body of `for port in host.ports`. -/
def storePort (deviceId : Nat) (hostTime : Str) (db : EvidenceDb) (port : NmapPort) :
    Except Exc EvidenceDb := do
  let serviceName ← imp.text (port.service.bind NmapService.name)
  let product ← imp.text (port.service.bind NmapService.product)
  let version ← imp.text (port.service.bind NmapService.version)
  let state ← imp.text port.state
  Repository.bind [.text port.protocol, .integer port.port, .ofText serviceName, .ofText product,
    .ofText version, .ofText state, .text hostTime]
  let row : ServiceRow :=
    { deviceId, transport := port.protocol, port := port.port, serviceName, product, version, state
      source, observedAt := hostTime }
  -- `CHECK(port BETWEEN 0 AND 65535)`
  let (services, serviceId) ← insertSelect db.services row (decide (port.port ≤ 65535))
  port.scripts.foldlM (imp.storeScript serviceId hostTime) { db with services }

/-- The body of `for index, host in enumerate(scan.hosts)`. -/
def storeHost (digest : Str) (observations : List DeviceObservation) (ids : Dict Str Nat)
    (db : EvidenceDb) (item : NmapHost × Nat) : Except Exc EvidenceDb := do
  let deviceId ← lookup ids (observationId digest item.2)
  match observations[item.2]? with
  | none => .error .lookup
  | some observation =>
    item.1.ports.foldlM (imp.storePort deviceId observation.observedAt.isoformat) db

/-! ## The transaction -/

/-- The loops of the transaction. -/
def storeEvidence (importedAt digest : Str) (hosts : List NmapHost)
    (observations : List DeviceObservation) (devices : List CanonicalDevice) (db : EvidenceDb) :
    Except Exc EvidenceDb := do
  let (db, deviceIds) ← devices.foldlM (imp.storeDevice importedAt) (db, [])
  let ids ← observationToDevice deviceIds devices
  hosts.zipIdx.foldlM (imp.storeHost digest observations ids) db

/-- The row of the artifact. -/
def artifactRow (pass : ImportPass) (file : ScanFile) : ArtifactRow :=
  { deploymentId := imp.deploymentId, collectorRunId := pass.collectorRunId
    relativePath := file.relativePath, sha256Digest := file.digest
    mediaType := str "application/xml", sizeBytes := file.size
    collectedAt := file.modified.isoformat, importedAt := pass.importedAt, source
    observedAt := pass.importedAt }

/-- `INSERT INTO artifacts` -/
def storeArtifact (pass : ImportPass) (file : ScanFile) (db : ScanDb) : Except Exc ScanDb := do
  Repository.bind [.text file.relativePath, .text file.digest, .integer file.size,
    .text file.modified.isoformat, .text pass.importedAt]
  db.evidence.checkDeployment imp.deploymentId
  db.evidence.checkRun pass.collectorRunId
  if file.digest.length = 64 then
    match db.artifacts.insert (imp.artifactRow pass file) with
    | some artifacts => .ok { db with artifacts }
    | none => .error .sqlite
  else .error .sqlite

/-- `_persist`, with the database it leaves and the flag it returns. -/
def persist (so : SetOrder) (pass : ImportPass) (file : ScanFile)
    (observations : List DeviceObservation) (db : ScanDb) : Except Exc (ScanDb × Bool) := do
  let correlation ← correlate imp.rt so observations
  let pathValue ← imp.redactor.text imp.rt file.relativePath
  if pathValue ≠ file.relativePath then
    .error (.repository (str "artifact path contains sensitive data"))
  else do
    Repository.bind [.text file.relativePath, .text file.digest]
    match db.artifacts.find (file.relativePath, file.digest) with
    | some _ => .ok (db, false)
    | none => do
      let evidence ← imp.storeEvidence pass.importedAt file.digest file.scan.hosts observations
        correlation.devices db.evidence
      let db ← imp.storeArtifact pass file { db with evidence }
      .ok (db, true)

/-- What `import_nmap_artifacts` does with a file. -/
def importFile (so : SetOrder) (pass : ImportPass) (file : ScanFile) (db : ScanDb) :
    Except Exc (ScanDb × Bool) := do
  let observations ← file.observations imp.rt
  imp.persist so pass file observations db

end Importer

end FieldDiscovery.Nmap
