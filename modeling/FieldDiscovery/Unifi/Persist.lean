import FieldDiscovery.Correlation.Correlate
import FieldDiscovery.Redaction.Value
import FieldDiscovery.Repository.Inventory
import FieldDiscovery.Unifi.Normalize

/-!
# Persistence of an inventory

`persist_inventory` of `unifi_inventory.py`: one transaction that correlates the observations of an
inventory and stores its devices, sites, entities, relationships and coverage issues. Every row goes
in by `INSERT OR IGNORE`, which also ignores a row that a `CHECK` constraint refuses; the `SELECT`
that follows then finds nothing, and `fetchone()[0]` raises `TypeError`. A failed transaction leaves
the database as it was, so a failure returns no database.
-/

namespace FieldDiscovery.Unifi

open Py Correlation Redaction Repository

/-! ## Tables -/

/-- A row of `unifi_sites`. -/
structure SiteRow where
  deploymentId : Nat
  controllerKey : Str
  siteKey : Str
  displayName : Option Str
  source : Str
  observedAt : Str

def SiteRow.key (r : SiteRow) : Option (Nat × Str × Str × Str × Str) :=
  some (r.deploymentId, r.controllerKey, r.siteKey, r.source, r.observedAt)

/-- A row of `unifi_entities`. -/
structure EntityRow where
  siteId : Nat
  canonicalDeviceId : Option Nat
  kind : Str
  controllerEntityId : Str
  displayName : Option Str
  state : Option Str
  active : Bool
  lastSeenAt : Option Str
  attributesJson : Str
  source : Str
  observedAt : Str

def EntityRow.key (r : EntityRow) : Option (Nat × Str × Str × Str × Str) :=
  some (r.siteId, r.kind, r.controllerEntityId, r.source, r.observedAt)

/-- A row of `unifi_relationships`. -/
structure RelationshipRow where
  siteId : Nat
  localEntityId : Nat
  remoteEntityId : Option Nat
  remoteIdentifier : Option Str
  kind : Str
  attributesJson : Str
  source : Str
  observedAt : Str

/-- The index `unifi_relationship_exact`. -/
def RelationshipRow.key (r : RelationshipRow) :
    Option ((Nat × Option Nat × Str) × Str × Str × Str) :=
  some ((r.localEntityId, r.remoteEntityId, r.remoteIdentifier.getD []), r.kind, r.source,
    r.observedAt)

/-- The part of the database that an inventory is kept in. -/
structure InventoryDb where
  /-- The ids of `deployments`. -/
  deployments : List Nat
  devices : Sql.Table DeviceRow.key := .empty
  aliases : Sql.Table AliasRow.key := .empty
  observations : Sql.Table ObservationRow.key := .empty
  sites : Sql.Table SiteRow.key := .empty
  entities : Sql.Table EntityRow.key := .empty
  relationships : Sql.Table RelationshipRow.key := .empty

/-! ## Statements -/

/-- `deployment_id REFERENCES deployments(id)` -/
def InventoryDb.checkDeployment (db : InventoryDb) (deploymentId : Nat) : Except Exc Unit :=
  if deploymentId ∈ db.deployments then .ok () else .error .sqlite

/-- `redactor.value(fields)` of a `dict` of scalars. -/
def redactFields (rt : Runtime) (redactor : Redactor) (fields : Dict Str Json) :
    Except Exc (Dict Str Json) :=
  fields.mapM fun (name, value) =>
    if isSensitive name then .ok (name, .string redacted)
    else
      match value with
      | .string s => do
        let t ← redactor.text rt s
        .ok (name, .string t)
      | value => .ok (name, value)

/-! ## The transaction -/

/-- What stays fixed while an inventory is stored. -/
structure Writer where
  rt : Runtime
  redactor : Redactor
  deploymentId : Nat
  controllerKey : Str
  /-- `inventory.observed_at.isoformat()` -/
  observed : Str

/-- The database, and the dictionaries of `persist_inventory`. -/
structure Store where
  db : InventoryDb
  canonicalByObservation : Dict Str Nat := []
  siteIds : Dict Str Nat := []
  entityIds : Dict Str Nat := []

namespace Writer

variable (w : Writer)

/-- `source` of every row. -/
def source : Str := str "unifi"

/-- `INSERT OR IGNORE INTO observations` -/
def storeObservation (db : InventoryDb) (subjectType : Str) (subjectId : Option Nat)
    (factType factValueJson : Str) (confidence : Confidence) : Except Exc InventoryDb := do
  Repository.bind [.text factType, .text factValueJson, .text w.observed]
  db.checkDeployment w.deploymentId
  let row : ObservationRow :=
    { deploymentId := w.deploymentId, subjectType, subjectId, factType, factValueJson
      confidence, inferred := false, source, observedAt := w.observed }
  .ok { db with observations := db.observations.insertOrIgnore row }

/-- `INSERT OR IGNORE INTO device_aliases` -/
def storeAlias (deviceId : Nat) (db : InventoryDb) (identifier : IdentityEvidence) :
    Except Exc InventoryDb := do
  Repository.bind [.text identifier.kind.value, .text identifier.value, .text w.observed]
  let row : AliasRow :=
    { deviceId, kind := identifier.kind.value, value := identifier.value
      confidence := identifier.confidence, source, observedAt := w.observed }
  .ok { db with aliases := db.aliases.insertOrIgnore row }

/-- The body of `for device in result.devices`. -/
def storeDevice (st : Store) (device : CanonicalDevice) : Except Exc Store := do
  Repository.bind [.text device.canonicalKey, .text w.observed]
  st.db.checkDeployment w.deploymentId
  let (devices, deviceId) ← insertSelect st.db.devices
    { deploymentId := w.deploymentId, canonicalKey := device.canonicalKey
      createdAt := w.observed }
  let db ← device.identifiers.foldlM (w.storeAlias deviceId) { st.db with devices }
  let db ← device.facts.foldlM (fun db (fact : FactEvidence) =>
    w.storeObservation db (str "device") (some deviceId) fact.field
      ((Json.string fact.value.val).dumps {}) fact.confidence) db
  .ok { st with
    db
    canonicalByObservation := device.observationIds.foldl (fun ids id => ids.set id deviceId)
      st.canonicalByObservation }

/-- The row of a site. -/
def siteRow (site : Str × Option Str) : SiteRow :=
  { deploymentId := w.deploymentId, controllerKey := w.controllerKey, siteKey := site.1
    displayName := site.2, source, observedAt := w.observed }

/-- The body of `for site_key, display_name in inventory.sites`. -/
def storeSite (st : Store) (site : Str × Option Str) : Except Exc Store := do
  Repository.bind [.text w.controllerKey, .text site.1, .ofText site.2, .text w.observed]
  st.db.checkDeployment w.deploymentId
  let (sites, siteId) ← insertSelect st.db.sites (w.siteRow site)
  .ok { st with db := { st.db with sites }, siteIds := st.siteIds.set site.1 siteId }

/-- The row of an entity. -/
def entityRow (siteId : Nat) (canonicalDeviceId : Option Nat) (attributesJson : Str)
    (e : UniFiEntity) : EntityRow :=
  { siteId, canonicalDeviceId, kind := e.kind.value, controllerEntityId := e.controllerId
    displayName := e.displayName, state := e.state, active := e.active
    lastSeenAt := e.lastSeenAt.map Datetime.isoformat, attributesJson
    source, observedAt := w.observed }

/-- `site_ids[site_key]` -/
def siteId (st : Store) (siteKey : Str) : Except Exc Nat :=
  match st.siteIds.get siteKey with
  | some id => .ok id
  | none => .error .key

/-- The body of `for entity in inventory.entities`. Every kind is one of `_ENTITY_KINDS`. -/
def storeEntity (st : Store) (e : UniFiEntity) : Except Exc Store := do
  let canonicalId := e.observationId.bind st.canonicalByObservation.get
  let siteId ← siteId st e.siteKey
  let attributes ← redactFields w.rt w.redactor e.attributes
  let attributesJson := (Json.dict attributes).dumps (.compact true)
  Repository.bind [.text e.controllerId, .ofText e.displayName, .ofText e.state,
    .text attributesJson, .text w.observed]
  -- `json_valid` refuses the words `NaN` and `Infinity`
  let (entities, entityId) ← insertSelect st.db.entities
    (w.entityRow siteId canonicalId attributesJson e) (Json.dict attributes).isFinite
  .ok { st with
    db := { st.db with entities }, entityIds := st.entityIds.set e.scopedId entityId }

/-- The row of a relationship between two entities. -/
def relationshipRow (siteId localId : Nat) (remoteId : Option Nat) (x : UniFiRelationship) :
    RelationshipRow :=
  { siteId, localEntityId := localId, remoteEntityId := remoteId
    remoteIdentifier := if remoteId.any (· ≠ 0) then none else some x.remoteScopedId
    kind := x.kind, attributesJson := str "\x7b\x7d", source, observedAt := w.observed }

/-- The body of `for relation in inventory.relationships`. -/
def storeRelationship (st : Store) (x : UniFiRelationship) : Except Exc Store :=
  match st.entityIds.get x.localScopedId with
  | none => .ok st
  | some localId => do
    let siteId ← siteId st x.siteKey
    let row := w.relationshipRow siteId localId (st.entityIds.get x.remoteScopedId) x
    Repository.bind [.ofText row.remoteIdentifier, .text row.kind, .text w.observed]
    .ok { st with db := { st.db with relationships := st.db.relationships.insertOrIgnore row } }

/-- The body of `for issue in inventory.coverage_issues`. -/
def storeCoverage (st : Store) (issue : UniFiCoverageIssue) : Except Exc Store := do
  let detail ← redactFields w.rt w.redactor
    [(str "site", .string issue.siteKey), (str "resource", .string issue.resource),
      (str "detail", .string issue.detail)]
  let db ← w.storeObservation st.db (str "unifi_coverage") none issue.category
    ((Json.dict detail).dumps (.compact true)) ⟨1, one_isConfidence⟩
  .ok { st with db }

/-- The body of `with repository.transaction()`. -/
def storeInventory (inventory : NormalizedUniFiInventory) (devices : List CanonicalDevice)
    (db : InventoryDb) : Except Exc Store := do
  let st ← devices.foldlM w.storeDevice { db }
  let st ← inventory.sites.foldlM w.storeSite st
  let st ← inventory.entities.foldlM w.storeEntity st
  let st ← inventory.relationships.foldlM w.storeRelationship st
  inventory.coverageIssues.foldlM w.storeCoverage st

end Writer

/-- `persist_inventory`, with the database it leaves and the entity count it returns. -/
def persistInventory (rt : Runtime) (so : SetOrder) (redactor : Redactor) (deploymentId : Nat)
    (inventory : NormalizedUniFiInventory) (db : InventoryDb) :
    Except Exc (InventoryDb × Nat) := do
  let result ← correlate rt so inventory.devices
  let w : Writer :=
    { rt, redactor, deploymentId, controllerKey := inventory.controllerKey
      observed := inventory.observedAt.isoformat }
  let st ← w.storeInventory inventory result.devices db
  .ok (st.db, inventory.entities.length)

end FieldDiscovery.Unifi
