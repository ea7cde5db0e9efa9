import FieldDiscovery.Infrastructure.Records
import FieldDiscovery.Lib.IsoRead
import FieldDiscovery.Lib.Ties
import FieldDiscovery.Repository.Inventory
import FieldDiscovery.Repository.Observations

/-!
# The infrastructure model

`build_infrastructure_model`. Every observation of a deployment is an `Outcome`: what it appends to
`grouped`, to `quality` and to `bridge`. The bridge tables are paired afterwards, and the entries
are regrouped into cells by section, target, key and field.
-/

namespace FieldDiscovery.Infrastructure

open Py Repository

/-- What the standard library leaves open: the `repr` of a float, `str.isprintable` outside ASCII,
and `datetime.fromisoformat` of texts in another form than that of `isoformat`. -/
structure Stdlib where
  floatRepr : Str → Str
  printable : CodePoint → Bool
  otherIso : Str → Option Stamp

/-! ## Evidence -/

/-- A float operation, by the exact value of its result. -/
def double (q : ℚ) : Except Exc ℚ :=
  match toDouble q with
  | some d => .ok d
  | none => .error .overflow

/-- `_timestamp` -/
def timestamp (std : Stdlib) (value : Str) : Except Exc Utc :=
  match Datetime.fromisoformat std.otherIso (replace (str "Z") (str "+00:00") value) with
  | none | some .naive => .error .value
  | some (.aware d) =>
    match d.astimezone with
    | some t => .ok t
    | none => .error .overflow

/-- `delta.total_seconds() / 86_400` of a `timedelta` in microseconds. -/
def days (micros : Int) : Except Exc ℚ := do
  let seconds ← double (micros / 1000000)
  double (seconds / 86400)

/-- `_age` -/
def age (std : Stdlib) (observedAt : Str) (generatedAt : Utc) : Except Exc ℚ := do
  let observed ← timestamp std observedAt
  let seconds ← double ((((generatedAt.val : Int) - observed.val : Int) : ℚ) / 1000000)
  let elapsed ← double (max 0 seconds / 86400)
  double (roundHalfEven (elapsed * 1000) / 1000)

/-- The `dict` that `_field` returns; no unit is `null`. -/
structure Field where
  value : Json
  source : Str
  observedAt : Str
  ageDays : ℚ
  stale : Bool
  confidence : ℚ
  unit : Json

/-- `(str(item["observed_at"]), str(item["source"]))` -/
def Field.rank (f : Field) : Str ×ₗ Str := toLex (f.observedAt, f.source)

/-- The arguments that all calls of `_field` share. -/
structure Horizon where
  generatedAt : Utc
  staleAfter : Int

/-- `_field` -/
def fieldOf (std : Stdlib) (horizon : Horizon) (value unit : Json) (source observedAt : Str)
    (confidence : ℚ) : Except Exc Field := do
  let ageDays ← age std observedAt horizon.generatedAt
  let limit ← days horizon.staleAfter
  .ok { value, source, observedAt, ageDays, stale := decide (limit < ageDays), confidence, unit }

/-! ## Devices -/

/-- The inner step of `_target_devices`. -/
def addAlias (grouped : Dict Str (List Str)) (row : Str × Str) : Dict Str (List Str) :=
  let keys := (grouped.get row.1).getD []
  grouped.set row.1 (if row.2 ∈ keys then keys else keys ++ [row.2])

/-- `_target_devices`, of the rows of its query. -/
def targetDevices (rows : List (Str × Str)) : Dict Str (List Str) := rows.foldl addAlias []

/-- `aliases.get(target, ())` -/
def devicesOf (aliases : Dict Str (List Str)) (target : Str) : List Str :=
  (aliases.get target).getD []

/-- `devices[0] if len(devices) == 1 else None` -/
def deviceKey (aliases : Dict Str (List Str)) (target : Str) : Option Str :=
  match devicesOf aliases target with
  | [device] => some device
  | _ => none

/-! ## Observations -/

/-- An entry of `quality`. -/
inductive Quality where
  | malformedCollectorObservation (factType : Str)
  /-- The target is the address of no device, or of several. -/
  | unattached (target : Str) (candidateDevices : List Str)
  | unmappedSshFact (target factType : Str)
  | incompleteBridgeEntry (target index : Str)
  deriving DecidableEq

def Quality.toJson : Quality → Json
  | malformedCollectorObservation factType =>
    .dict [(str "kind", .string (str "malformed_collector_observation")),
      (str "fact_type", .string factType)]
  | unattached target candidateDevices =>
    .dict [(str "kind", .string
        (if candidateDevices = [] then str "unmatched_target" else str "ambiguous_target")),
      (str "target", .string target),
      (str "candidate_devices", .list (candidateDevices.map .string))]
  | unmappedSshFact target factType =>
    .dict [(str "kind", .string (str "unmapped_ssh_fact")), (str "target", .string target),
      (str "fact_type", .string factType)]
  | incompleteBridgeEntry target index =>
    .dict [(str "kind", .string (str "incomplete_bridge_entry")), (str "target", .string target),
      (str "index", .string index)]

/-- The key of `grouped`. -/
structure GroupKey where
  place : Section
  target : Str
  key : Str
  device : Option Str
  deriving DecidableEq

/-- One append to `grouped[group][name]`. -/
structure Entry where
  group : GroupKey
  name : Str
  field : Field

/-- One assignment `bridge[(target, source, observed_at)][name] = value`. -/
structure BridgeFact where
  target : Str
  source : Str
  observedAt : Str
  name : Str
  value : Json

/-- What the loop does for one row. -/
structure Outcome where
  quality : List Quality := []
  bridge : List BridgeFact := []
  entries : List Entry := []

section

variable (std : Stdlib) (horizon : Horizon) (aliases : Dict Str (List Str))

/-- The payload of a row and its target, when they have the expected shape. -/
def payloadOf (row : FactRow) : Except Exc (Option (Dict Str Json × Str)) :=
  match Json.loads std.floatRepr row.factValueJson with
  | none => .error .jsonDecode
  | some (.dict payload) =>
    match Dict.get payload (str "target") with
    | some (.string target) => .ok (some (payload, target))
    | _ => .ok none
  | some _ => .ok none

/-- The entry of a record. -/
def entryOf (row : FactRow) (target : Str) (record : Record) : Except Exc Entry := do
  let field ← fieldOf std horizon record.value record.unit row.source row.observedAt row.confidence
  .ok ⟨⟨record.place, target, record.key, deviceKey aliases target⟩, record.fieldName, field⟩

/-- `f"{fact_type}:{payload.get('index', '')}"` -/
def bridgeName (row : FactRow) (payload : Dict Str Json) : Str :=
  row.factType ++ str ":" ++
    ((payload.get (str "index")).getD (.string [])).toStr std.printable

/-- The assignment that a row of a bridge table makes. -/
def bridgeFact (row : FactRow) (payload : Dict Str Json) (target : Str) : BridgeFact :=
  ⟨target, row.source, row.observedAt, bridgeName std row payload, Json.field payload "value"⟩

/-- The records that a row maps to outside bridge tables. -/
def recordsOf (row : FactRow) (payload : Dict Str Json) : List Record :=
  if startsWith "ssh." row.factType then sshRecords std.printable row.factType payload
  else if startsWith "snmp.bridge." row.factType then []
  else snmpRecords std.printable row.factType payload

/-- The body of the loop over the rows. -/
def observe (row : FactRow) : Except Exc Outcome := do
  match ← payloadOf std row with
  | none => .ok { quality := [.malformedCollectorObservation row.factType] }
  | some (payload, target) =>
    let devices := devicesOf aliases target
    let unattached := if devices.length = 1 then [] else [.unattached target devices]
    let records := recordsOf std row payload
    let unmapped :=
      if startsWith "ssh." row.factType ∧ records.isEmpty then
        [.unmappedSshFact target row.factType] else []
    let bridge :=
      if startsWith "snmp.bridge." row.factType then [bridgeFact std row payload target] else []
    let entries ← records.mapM (entryOf std horizon aliases row target)
    .ok { quality := unattached ++ unmapped, bridge, entries }

/-! ## Bridge tables -/

/-- The keys of `bridge`, in the order in which they are sorted. -/
def BridgeFact.table (fact : BridgeFact) : Str ×ₗ Str ×ₗ Str :=
  toLex (fact.target, toLex (fact.source, fact.observedAt))

/-- The `dict` of one table. -/
def factsOf (table : List BridgeFact) : Dict Str Json :=
  table.foldl (fun facts fact => facts.set fact.name fact.value) []

/-- `facts.get(f"snmp.bridge.port:{index}")`, with `None` for a missing port. -/
def portOf (facts : Dict Str Json) (index : Str) : Json :=
  (facts.get (str "snmp.bridge.port:" ++ index)).getD .null

/-- The body of the loop over `sorted(facts.items())`. -/
def pairFact (target source observedAt : Str) (facts : Dict Str Json) (fact : Str × Json) :
    Except Exc Outcome :=
  if ¬ contains (str ".mac:") fact.1 then .ok {}
  else
    let index := afterFirst (cp ':') fact.1
    match portOf facts index with
    | .null => .ok { quality := [.incompleteBridgeEntry target index] }
    | port => do
      let group : GroupKey := ⟨.switchPorts, target, str "bridge:" ++ port.toStr std.printable,
        deviceKey aliases target⟩
      let learned ← fieldOf std horizon fact.2 .null source observedAt 1
      let status ← fieldOf std horizon (.string (str "unresolved_bridge_port")) .null source
        observedAt 1
      .ok
        { entries :=
            [⟨group, str "learned_mac", learned⟩, ⟨group, str "mapping_status", status⟩] }

/-- The body of the loop over `sorted(bridge.items())`. -/
def pairTable (table : (Str ×ₗ Str ×ₗ Str) × List BridgeFact) : Except Exc (List Outcome) :=
  let facts := factsOf table.2
  (sortedBy Prod.fst facts).mapM
    (pairFact std horizon aliases table.1.1 table.1.2.1 table.1.2.2 facts)

/-- The second loop. -/
def pairBridge (bridge : List BridgeFact) : Except Exc (List Outcome) := do
  let tables ← (sortedBy Prod.fst (groupBy BridgeFact.table bridge)).mapM
    (pairTable std horizon aliases)
  .ok tables.flatten

end

/-! ## Cells -/

/-- A rendered field. -/
structure Cell where
  value : Json
  evidence : List Field
  conflict : Bool
  alternatives : Option (List Json)

/-- `json.dumps(item["value"], sort_keys=True)` -/
def Field.valueText (f : Field) : Str := f.value.dumps {}

/-- The body of the loop over `sorted(fields.items())`; there is evidence for every field. -/
def renderCell (evidence : List Field) : Cell :=
  let ordered := sortedBy Field.rank evidence
  let values := (ordered.map Field.valueText).dedup
  { value := (ordered.getLast?.map Field.value).getD .null
    evidence := ordered
    conflict := decide (1 < values.length)
    alternatives := if 1 < values.length then some (ordered.map Field.value) else none }

/-- A row of a section. -/
structure ReportRow where
  deviceKey : Option Str
  target : Str
  key : Str
  fields : List (Str × Cell)

/-- An entry of `conflicts`. -/
structure Conflict where
  target : Str
  place : Section
  key : Str
  field : Str
  evidence : List Field

/-- What the keys of `grouped` are sorted by: no two of one target differ in the device. -/
def GroupKey.rank (group : GroupKey) : Str ×ₗ Str ×ₗ Str :=
  toLex (group.place.name, toLex (group.target, group.key))

/-- `sorted(grouped.items())` -/
def groups (entries : List Entry) : List (GroupKey × List Entry) :=
  sortedBy (fun p => p.1.rank) (groupBy Entry.group entries)

/-- The row of a group. -/
def reportRow (group : GroupKey × List Entry) : ReportRow where
  deviceKey := group.1.device
  target := group.1.target
  key := group.1.key
  fields := (sortedBy Prod.fst (groupBy Entry.name group.2)).map fun field =>
    (field.1, renderCell (field.2.map Entry.field))

/-- The entries of `conflicts` of a row. -/
def rowConflicts (place : Section) (row : ReportRow) : List Conflict :=
  (row.fields.filter fun field => field.2.conflict).map fun field =>
    ⟨row.target, place, row.key, field.1, field.2.evidence⟩

/-- The returned `dict`. -/
structure InfrastructureModel where
  sections : List (Section × List ReportRow)
  conflicts : List Conflict
  dataQuality : List Quality
  staleAfterDays : ℚ
  limitations : List Str

/-- `"limitations"` -/
def limitations : List Str :=
  [str "Bridge and PoE port identifiers remain unresolved unless an explicit interface " ++
      str "mapping exists.",
    str "Firmware versions are inventory observations only; vulnerability status was not " ++
      str "assessed."]

/-- The model of all entries. -/
def assemble (entries : List Entry) (quality : List Quality) (staleAfterDays : ℚ) :
    InfrastructureModel where
  sections := Section.all.map fun place =>
    (place, ((groups entries).filter fun group => decide (group.1.place = place)).map reportRow)
  conflicts := (groups entries).flatMap fun group => rowConflicts group.1.place (reportRow group)
  dataQuality := sortedBy (fun entry => entry.toJson.dumps {}) quality
  staleAfterDays
  limitations

/-- `build_infrastructure_model`, of the rows of its query. -/
def infrastructureModel (std : Stdlib) (horizon : Horizon) (aliases : Dict Str (List Str))
    (rows : List FactRow) : Except Exc InfrastructureModel := do
  let observed ← rows.mapM (observe std horizon aliases)
  let paired ← pairBridge std horizon aliases (observed.flatMap Outcome.bridge)
  let staleAfterDays ← days horizon.staleAfter
  let outcomes := observed ++ paired
  .ok (assemble (outcomes.flatMap Outcome.entries) (outcomes.flatMap Outcome.quality)
    staleAfterDays)

/-! ## The queries -/

/-- The tables that the model is read from. -/
structure ReportDb where
  observations : Sql.Table FactRow.indexKey
  devices : Sql.Table DeviceRow.key
  deviceAliases : Sql.Table AliasRow.key

namespace ReportDb

/-- `LIKE` of a literal text and `%`, which does not tell the case of ASCII letters. -/
def like (lead : String) (s : Str) : Bool :=
  decide ((s.take (str lead).length).map lowerAscii = str lead)

/-- SQLite hands out text as UTF-8; a text that is none raises. -/
def fetched (row : FactRow) : Except Exc FactRow :=
  if Encodable row.factType ∧ Encodable row.factValueJson ∧ Encodable row.source ∧
      Encodable row.observedAt then .ok row
  else .error .sqlite

/-- `ORDER BY observed_at, source, fact_type, id`; the table lists its rows by `id`. -/
def readingOrder (row : FactRow) : Str ×ₗ Str ×ₗ Str :=
  toLex (row.observedAt, toLex (row.source, row.factType))

/-- The rows of the query on `observations`. -/
def selectObservations (db : ReportDb) (deploymentId : Int) : Except Exc (List FactRow) :=
  (sortedBy readingOrder
    ((db.observations.rows.map Prod.snd).filter fun row =>
      decide (row.deploymentId = deploymentId) &&
        (like "snmp." row.factType || like "ssh." row.factType))).mapM fetched

/-- The rows of the query of `_target_devices`. -/
def selectAliases (db : ReportDb) (deploymentId : Int) : List (Str × Str) :=
  sortedBy toLex (db.deviceAliases.rows.flatMap fun entry =>
    db.devices.rows.filterMap fun device =>
      if device.1 = entry.2.deviceId ∧ (device.2.deploymentId : Int) = deploymentId ∧
          entry.2.kind = str "ipv4" then some (entry.2.value, device.2.canonicalKey)
      else none)

end ReportDb

/-- `build_infrastructure_model` -/
def buildInfrastructureModel (std : Stdlib) (db : ReportDb) (deploymentId : Int)
    (generatedAt : Datetime) (staleAfter : Int := 7 * 86400000000) :
    Except Exc InfrastructureModel := do
  let generated ←
    match generatedAt.astimezone with
    | some t => .ok t
    | none => .error .overflow
  let aliases := targetDevices (db.selectAliases deploymentId)
  let rows ← db.selectObservations deploymentId
  infrastructureModel std ⟨generated, staleAfter⟩ aliases rows

end FieldDiscovery.Infrastructure
