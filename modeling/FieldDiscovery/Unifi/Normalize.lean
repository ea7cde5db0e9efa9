import FieldDiscovery.Lib.Sorted
import FieldDiscovery.Lib.Except
import FieldDiscovery.Unifi.Records

/-!
# Normalization of a controller snapshot

`normalize_snapshot` of `unifi_inventory.py`. The sites of a snapshot are visited in turn, and at
each the seven resources are read in a fixed order. A record is read unless its resource or type is
unknown or its scoped ID was seen before; a device or a client is also registered under its
controller ID, which is where a later uplink of the same visit finds it.
-/

namespace FieldDiscovery.Unifi

open Py Correlation

/-! ## Snapshots and inventories -/

structure UniFiCoverageIssue where
  siteKey : Str
  resource : Str
  category : Str
  detail : Str
  deriving DecidableEq

/-- The JSON values a controller returned. -/
structure UniFiSnapshot where
  controllerKey : Str
  sites : List Record
  resources : Dict (Str × Resource) (List Json)
  coverageIssues : List UniFiCoverageIssue := []

structure UniFiEntity where
  siteKey : Str
  kind : EntityKind
  controllerId : Str
  displayName : Option Str
  state : Option Str
  active : Bool
  lastSeenAt : Option Datetime
  attributes : Dict Str Json
  observationId : Option Str := none

def UniFiEntity.scopedId (e : UniFiEntity) : Str := Unifi.scopedId e.siteKey e.kind e.controllerId

structure UniFiRelationship where
  siteKey : Str
  localScopedId : Str
  remoteScopedId : Str
  kind : Str
  deriving DecidableEq

structure NormalizedUniFiInventory where
  controllerKey : Str
  observedAt : Datetime
  sites : List (Str × Option Str)
  entities : List UniFiEntity
  relationships : List UniFiRelationship
  devices : List DeviceObservation
  coverageIssues : List UniFiCoverageIssue

/-! ## Reading one record -/

/-- What stays fixed while a snapshot is read. -/
structure Reader where
  rt : Runtime
  /-- `str.isprintable` of a code point outside ASCII. -/
  printable : CodePoint → Bool
  controllerKey : Str
  observedAt : Datetime
  /-- `stale_after`, in microseconds. -/
  staleAfter : Int

/-- The lists and sets that the loops of `normalize_snapshot` extend. -/
structure ReadState where
  sites : List (Str × Option Str) := []
  entities : List UniFiEntity := []
  relationships : List UniFiRelationship := []
  devices : List DeviceObservation := []
  seenEntities : List Str := []
  /-- `device_ids` of the site that is visited. -/
  deviceIds : Dict Str Str := []

namespace Reader

variable (reader : Reader)

/-- The entity of one entry of `port_table`, and its scoped ID. -/
def portEntity (siteKey controllerId : Str) (port : Record) : UniFiEntity :=
  let portId := Json.toStr reader.printable
    ((port.get (str "port_idx")).getD ((port.get (str "name")).getD (.string (str "unknown"))))
  let up := (Json.field port "up").truthy
  { siteKey, kind := .port, controllerId := controllerId ++ str ":" ++ portId
    displayName := some ((text (Json.field port "name")).getD (str "Port " ++ portId))
    state := some (if up then str "up" else str "down"), active := up, lastSeenAt := none
    attributes := safeAttributes port }

/-- The body of `for port in record.get("port_table", ())`. -/
def readPort (siteKey controllerId : Str) (st : ReadState) (port : Json) : ReadState :=
  match port with
  | .dict port =>
    let entity := reader.portEntity siteKey controllerId port
    if entity.scopedId ∈ st.seenEntities then st
    else
      { st with
        seenEntities := entity.scopedId :: st.seenEntities, entities := st.entities ++ [entity] }
  | _ => st

/-- `record.get("port_table", ()) if isinstance(record.get("port_table"), list) else ()` -/
def portTable (resource : Resource) (record : Record) : List Json :=
  match resource, Json.field record "port_table" with
  | .devices, .list ports => ports
  | _, _ => []

/-- `_text(record.get("uplink_device")) or _text(record.get("uplink_remote_id"))` -/
def uplink (record : Record) : Option Str :=
  (text (Json.field record "uplink_device")).or (text (Json.field record "uplink_remote_id"))

/-- A record that the loops do not skip, with the kind of its entity. -/
structure Reading where
  /-- The position of the site in the snapshot. -/
  visit : Nat
  siteKey : Str
  resource : Resource
  kind : EntityKind
  record : Record

namespace Reading

variable (r : Reading)

def controllerId : Str := identifier reader.rt r.record

def scopedId : Str := Unifi.scopedId r.siteKey r.kind (r.controllerId reader)

/-- The record is stale. -/
def stale : Bool := isStale reader.observedAt reader.staleAfter r.record

/-- The arguments of `_device_observation`. -/
def subject (active : Bool) : Subject :=
  { controllerKey := reader.controllerKey, siteKey := r.siteKey, kind := r.kind
    observedAt := reader.observedAt, active, stale := r.stale reader }

/-- The observation of a device or a client. -/
def observation : Except Exc DeviceObservation := do
  let active ← isActive r.record (r.stale reader)
  deviceObservation reader.rt (r.subject reader active) r.record

/-- The entity of the record. -/
def entity (active : Bool) (observationId : Option Str) : UniFiEntity :=
  { siteKey := r.siteKey, kind := r.kind, controllerId := r.controllerId reader
    displayName := (text (Json.field r.record "name")).or (text (Json.field r.record "hostname"))
    state := some ((text (Json.field r.record "state")).getD
      (if active then str "active" else str "disconnected"))
    active, lastSeenAt := lastSeen (Json.field r.record "last_seen")
    attributes := safeAttributes r.record, observationId }

/-- The relationship of a device or a client that names its uplink. -/
def relationship (deviceIds : Dict Str Str) : Option UniFiRelationship :=
  if r.kind.isDevice then
    (uplink r.record).map fun remote =>
      { siteKey := r.siteKey, localScopedId := r.scopedId reader
        remoteScopedId := (deviceIds.get remote).getD
          (r.siteKey ++ str ":device:" ++ reader.rt.casefold remote)
        kind := str "uplink" }
  else none

end Reading

/-- The record at hand, unless the loops skip it. -/
def reading (visit : Nat) (siteKey : Str) (resource : Resource) (seenEntities : List Str)
    (raw : Json) : Option Reading :=
  match raw with
  | .dict record =>
    (entityKind reader.rt resource record).bind fun kind =>
      let r : Reading := { visit, siteKey, resource, kind, record }
      if r.scopedId reader ∈ seenEntities then none else some r
  | _ => none

/-- The body of the loop for a record that is not skipped. -/
def readReading (st : ReadState) (r : Reading) : Except Exc ReadState := do
  let scopedId := r.scopedId reader
  let st := { st with seenEntities := scopedId :: st.seenEntities }
  let active ← isActive r.record (r.stale reader)
  let (st, observationId) ←
    if r.kind.isDevice then do
      let observation ← deviceObservation reader.rt (r.subject reader active) r.record
      .ok ({ st with
        devices := st.devices ++ [observation]
        deviceIds := st.deviceIds.set (r.controllerId reader) scopedId }, some observation.id)
    else .ok (st, none)
  let st := { st with entities := st.entities ++ [r.entity reader active observationId] }
  let st := (portTable r.resource r.record).foldl
    (reader.readPort r.siteKey (r.controllerId reader)) st
  .ok { st with relationships := st.relationships ++ (r.relationship reader st.deviceIds).toList }

/-- The body of `for raw in snapshot.resources.get((site_key, resource), ())`. -/
def readRecord (visit : Nat) (siteKey : Str) (resource : Resource) (st : ReadState) (raw : Json) :
    Except Exc ReadState :=
  match reader.reading visit siteKey resource st.seenEntities raw with
  | some r => reader.readReading st r
  | none => .ok st

/-- The body of `for site_record in snapshot.sites`. -/
def readSite (snapshot : UniFiSnapshot) (st : ReadState) (site : Record × Nat) :
    Except Exc ReadState :=
  let siteKey := identifier reader.rt site.1
  let displayName := (text (Json.field site.1 "desc")).or (text (Json.field site.1 "name"))
  let st := { st with sites := st.sites ++ [(siteKey, displayName)], deviceIds := [] }
  Resource.all.foldlM (fun st resource =>
    ((snapshot.resources.get (siteKey, resource)).getD []).foldlM
      (reader.readRecord site.2 siteKey resource) st) st

end Reader

/-! ## The inventory -/

/-- `sorted(set(sites))`. The names of one key compare only when both are text. -/
def sortSites (sites : List (Str × Option Str)) : Except Exc (List (Str × Option Str)) :=
  if sites.any fun site => site.2.isNone && sites.any fun other =>
      other.1 = site.1 && other.2.isSome then .error .type
  else .ok (sortedBy (fun site : Str × Option Str => toLex (site.1, site.2.getD [])) sites.dedup)

/-- `normalize_snapshot`. A naive `observed_at` is `none`. -/
def normalizeSnapshot (rt : Runtime) (printable : CodePoint → Bool) (snapshot : UniFiSnapshot)
    (observedAt : Option Datetime) (staleAfter : Int := 7 * microsPerDay) :
    Except Exc NormalizedUniFiInventory :=
  match observedAt with
  | none => .error .value
  | some observedAt => do
    let reader : Reader :=
      { rt, printable, controllerKey := snapshot.controllerKey, observedAt, staleAfter }
    let st ← snapshot.sites.zipIdx.foldlM (reader.readSite snapshot) {}
    let sites ← sortSites st.sites
    .ok
      { controllerKey := snapshot.controllerKey, observedAt, sites
        entities := sortedBy UniFiEntity.scopedId st.entities
        relationships := sortedBy (fun r : UniFiRelationship =>
          toLex (r.siteKey, r.localScopedId)) st.relationships
        devices := sortedBy DeviceObservation.id st.devices
        coverageIssues := snapshot.coverageIssues }

end FieldDiscovery.Unifi
