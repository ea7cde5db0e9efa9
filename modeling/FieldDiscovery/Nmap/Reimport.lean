import FieldDiscovery.Correlation.Partition
import FieldDiscovery.Nmap.Persist

/-!
# Importing a scan again

A copy of a file passes the check of `artifacts` under its other path, and the loops run over a
database that may hold all it has to say. What a loop then writes is read off its statements
(`storeEvidence_quiet_iff`): nothing, when the rows are there and no device has an address. An
address always writes, because the key of its row has a `NULL`.
-/

namespace FieldDiscovery.Nmap

open Py Correlation Redaction Repository

/-! ## Databases that hold another -/

/-- `db'` has the deployments and runs of `db`, and every row of it. -/
structure EvidenceDb.Extends (db db' : EvidenceDb) : Prop where
  deployments : db'.deployments = db.deployments
  collectorRuns : db'.collectorRuns = db.collectorRuns
  devices : db.devices ≤ db'.devices
  aliases : db.aliases ≤ db'.aliases
  assignments : db.assignments ≤ db'.assignments
  observations : db.observations ≤ db'.observations
  services : db.services ≤ db'.services

theorem EvidenceDb.Extends.refl (db : EvidenceDb) : db.Extends db :=
  ⟨rfl, rfl, le_rfl, le_rfl, le_rfl, le_rfl, le_rfl⟩

instance : PartialOrder EvidenceDb where
  le := EvidenceDb.Extends
  le_refl := .refl
  le_trans _ _ _ h h' :=
    { deployments := h'.deployments.trans h.deployments
      collectorRuns := h'.collectorRuns.trans h.collectorRuns
      devices := h.devices.trans h'.devices
      aliases := h.aliases.trans h'.aliases
      assignments := h.assignments.trans h'.assignments
      observations := h.observations.trans h'.observations
      services := h.services.trans h'.services }
  le_antisymm db db' h h' := by
    cases db
    cases db'
    simp only [EvidenceDb.mk.injEq]
    exact ⟨h'.deployments, h'.collectorRuns, le_antisymm h.devices h'.devices,
      le_antisymm h.aliases h'.aliases, le_antisymm h.assignments h'.assignments,
      le_antisymm h.observations h'.observations, le_antisymm h.services h'.services⟩

namespace EvidenceDb

variable (db : EvidenceDb)

theorem le_devices {devices : Sql.Table _} (h : db.devices ≤ devices) :
    db ≤ { db with devices } := { Extends.refl db with devices := h }

theorem le_observations {observations : Sql.Table _} (h : db.observations ≤ observations) :
    db ≤ { db with observations } := { Extends.refl db with observations := h }

theorem le_services {services : Sql.Table _} (h : db.services ≤ services) :
    db ≤ { db with services } := { Extends.refl db with services := h }

theorem checkDeployment_congr {db d : EvidenceDb} (h : d.deployments = db.deployments)
    (deploymentId : Nat) : d.checkDeployment deploymentId = db.checkDeployment deploymentId := by
  unfold checkDeployment
  rw [h]

end EvidenceDb

namespace Importer

variable {imp : Importer}

/-! ## One statement -/

theorem storeIdentity_cases {deviceId : Nat} {db db' : EvidenceDb} {identity : IdentityEvidence}
    (h : imp.storeIdentity deviceId db identity = .ok db') :
    ∃ value, imp.redactor.text imp.rt identity.value = .ok value ∧
      Repository.bind [.text identity.kind.value, .text value,
        .text identity.observedAt.isoformat] = .ok () ∧
      db' = { db with
        aliases := db.aliases.insertOrIgnore (aliasRow deviceId identity value)
        assignments := if isAddress identity then
            db.assignments.insertOrIgnore (assignmentRow deviceId identity value)
          else db.assignments } := by
  obtain ⟨value, hvalue, h⟩ := Except.bind_eq_ok.mp h
  obtain ⟨⟨⟩, hbind, h⟩ := Except.bind_eq_ok.mp h
  refine ⟨value, hvalue, hbind, ?_⟩
  dsimp only at h
  split at h
  · next haddress =>
    cases h
    rw [if_pos haddress]
  · next haddress =>
    cases h
    rw [if_neg haddress]

theorem storeFact_cases {deviceId : Nat} {db db' : EvidenceDb} {fact : FactEvidence}
    (h : imp.storeFact deviceId db fact = .ok db') :
    ∃ json, imp.json fact.value.val = .ok json ∧
      Repository.bind [.text fact.field, .text json, .text fact.observedAt.isoformat] = .ok () ∧
      db.checkDeployment imp.deploymentId = .ok () ∧
      db' = { db with
        observations := db.observations.insertOrIgnore (imp.factRow deviceId fact json) } := by
  obtain ⟨json, hjson, h⟩ := Except.bind_eq_ok.mp h
  obtain ⟨⟨⟩, hbind, h⟩ := Except.bind_eq_ok.mp h
  obtain ⟨⟨⟩, hdeployment, h⟩ := Except.bind_eq_ok.mp h
  cases h
  exact ⟨json, hjson, hbind, hdeployment, rfl⟩

theorem storeScript_cases {serviceId : Nat} {hostTime : Str} {db db' : EvidenceDb}
    {script : NmapScript} (h : imp.storeScript serviceId hostTime db script = .ok db') :
    ∃ json, imp.json (scriptOutput script) = .ok json ∧
      Repository.bind [.text (scriptField script), .text json, .text hostTime] = .ok () ∧
      db.checkDeployment imp.deploymentId = .ok () ∧
      db' = { db with observations :=
        db.observations.insertOrIgnore (imp.scriptRow serviceId hostTime script json) } := by
  obtain ⟨json, hjson, h⟩ := Except.bind_eq_ok.mp h
  obtain ⟨⟨⟩, hbind, h⟩ := Except.bind_eq_ok.mp h
  obtain ⟨⟨⟩, hdeployment, h⟩ := Except.bind_eq_ok.mp h
  cases h
  exact ⟨json, hjson, hbind, hdeployment, rfl⟩

theorem storeIdentity_grows (deviceId : Nat) (identity : IdentityEvidence) :
    Grows (fun db => db) fun db => imp.storeIdentity deviceId db identity := by
  intro db db' h
  obtain ⟨value, -, -, rfl⟩ := storeIdentity_cases h
  refine { EvidenceDb.Extends.refl db with
    aliases := Sql.Table.extends_insertOrIgnore _ _, assignments := ?_ }
  show db.assignments ≤ if isAddress identity then _ else _
  split
  · exact Sql.Table.extends_insertOrIgnore _ _
  · exact le_rfl

theorem storeFact_grows (deviceId : Nat) (fact : FactEvidence) :
    Grows (fun db => db) fun db => imp.storeFact deviceId db fact := by
  intro db db' h
  obtain ⟨json, -, -, -, rfl⟩ := storeFact_cases h
  exact db.le_observations (Sql.Table.extends_insertOrIgnore _ _)

theorem storeScript_grows (serviceId : Nat) (hostTime : Str) (script : NmapScript) :
    Grows (fun db => db) fun db => imp.storeScript serviceId hostTime db script := by
  intro db db' h
  obtain ⟨json, -, -, -, rfl⟩ := storeScript_cases h
  exact db.le_observations (Sql.Table.extends_insertOrIgnore _ _)

/-! ## Loops -/

theorem storeDevice_cases {importedAt : Str} {st st' : EvidenceDb × Dict Str Nat}
    {device : CanonicalDevice} (h : imp.storeDevice importedAt st device = .ok st') :
    ∃ devices deviceId db₁ db₂,
      Repository.bind [.text device.canonicalKey, .text (createdAt importedAt device)] = .ok () ∧
      st.1.checkDeployment imp.deploymentId = .ok () ∧
      insertSelect st.1.devices (imp.deviceRow importedAt device) = .ok (devices, deviceId) ∧
      device.identifiers.foldlM (imp.storeIdentity deviceId) { st.1 with devices } = .ok db₁ ∧
      device.facts.foldlM (imp.storeFact deviceId) db₁ = .ok db₂ ∧
      st' = (db₂, st.2.set device.canonicalKey deviceId) := by
  obtain ⟨⟨⟩, hbind, h⟩ := Except.bind_eq_ok.mp h
  obtain ⟨⟨⟩, hdeployment, h⟩ := Except.bind_eq_ok.mp h
  obtain ⟨⟨devices, deviceId⟩, hinsert, h⟩ := Except.bind_eq_ok.mp h
  obtain ⟨db₁, hidentities, h⟩ := Except.bind_eq_ok.mp h
  obtain ⟨db₂, hfacts, h⟩ := Except.bind_eq_ok.mp h
  cases h
  exact ⟨devices, deviceId, db₁, db₂, hbind, hdeployment, hinsert, hidentities, hfacts, rfl⟩

theorem storePort_cases {deviceId : Nat} {hostTime : Str} {db db' : EvidenceDb} {port : NmapPort}
    (h : imp.storePort deviceId hostTime db port = .ok db') :
    ∃ row services serviceId, row.key = some (deviceId, port.protocol, port.port, source, hostTime) ∧
      insertSelect db.services row (decide (port.port ≤ 65535)) = .ok (services, serviceId) ∧
      port.scripts.foldlM (imp.storeScript serviceId hostTime) { db with services } = .ok db' := by
  obtain ⟨serviceName, -, h⟩ := Except.bind_eq_ok.mp h
  obtain ⟨product, -, h⟩ := Except.bind_eq_ok.mp h
  obtain ⟨version, -, h⟩ := Except.bind_eq_ok.mp h
  obtain ⟨state, -, h⟩ := Except.bind_eq_ok.mp h
  obtain ⟨⟨⟩, -, h⟩ := Except.bind_eq_ok.mp h
  obtain ⟨⟨services, serviceId⟩, hinsert, h⟩ := Except.bind_eq_ok.mp h
  exact ⟨_, services, serviceId, rfl, hinsert, h⟩

theorem storeHost_cases {digest : Str} {observations : List DeviceObservation}
    {ids : Dict Str Nat} {db db' : EvidenceDb} {item : NmapHost × Nat}
    (h : imp.storeHost digest observations ids db item = .ok db') : ∃ deviceId observation,
      ids.get (observationId digest item.2) = some deviceId ∧
      observations[item.2]? = some observation ∧
      item.1.ports.foldlM (imp.storePort deviceId observation.observedAt.isoformat) db = .ok db' := by
  obtain ⟨deviceId, hlookup, h⟩ := Except.bind_eq_ok.mp h
  unfold lookup at hlookup
  cases hget : ids.get (observationId digest item.2) with
  | none =>
    rw [hget] at hlookup
    cases hlookup
  | some id =>
    rw [hget] at hlookup
    cases hlookup
    cases hobservation : observations[item.2]? with
    | none =>
      rw [hobservation] at h
      cases h
    | some observation =>
      rw [hobservation] at h
      exact ⟨deviceId, observation, rfl, rfl, h⟩

theorem storeDevice_grows (importedAt : Str) (device : CanonicalDevice) :
    Grows Prod.fst fun st => imp.storeDevice importedAt st device := by
  intro st st' h
  obtain ⟨devices, deviceId, db₁, db₂, -, -, hinsert, hidentities, hfacts, rfl⟩ :=
    storeDevice_cases h
  exact ((st.1.le_devices (insertSelect_spec hinsert).1).trans
    (Grows.foldlM (fun identity _ => storeIdentity_grows deviceId identity) _ _ hidentities)).trans
    (Grows.foldlM (fun fact _ => storeFact_grows deviceId fact) _ _ hfacts)

theorem storePort_grows (deviceId : Nat) (hostTime : Str) (port : NmapPort) :
    Grows (fun db => db) fun db => imp.storePort deviceId hostTime db port := by
  intro db db' h
  obtain ⟨row, services, serviceId, -, hinsert, hscripts⟩ := storePort_cases h
  exact (db.le_services (insertSelect_spec hinsert).1).trans
    (Grows.foldlM (fun script _ => storeScript_grows serviceId hostTime script) _ _ hscripts)

theorem storeHost_grows (digest : Str) (observations : List DeviceObservation)
    (ids : Dict Str Nat) (item : NmapHost × Nat) :
    Grows (fun db => db) fun db => imp.storeHost digest observations ids db item := by
  intro db db' h
  obtain ⟨deviceId, observation, -, -, hports⟩ := storeHost_cases h
  exact Grows.foldlM (fun port _ => storePort_grows deviceId _ port) _ _ hports

/-! ## Rows that are there -/

section

variable (imp) (db : EvidenceDb)

/-- The alias of the identifier is stored. -/
def IdentityRecorded (deviceId : Nat) (identity : IdentityEvidence) : Prop :=
  ∀ value, imp.redactor.text imp.rt identity.value = .ok value →
    db.aliases.Taken (aliasRow deviceId identity value)

/-- The fact is stored. -/
def FactRecorded (deviceId : Nat) (fact : FactEvidence) : Prop :=
  ∀ json, imp.json fact.value.val = .ok json →
    db.observations.Taken (imp.factRow deviceId fact json)

/-- The output of the script is stored. -/
def ScriptRecorded (serviceId : Nat) (hostTime : Str) (script : NmapScript) : Prop :=
  ∀ json, imp.json (scriptOutput script) = .ok json →
    db.observations.Taken (imp.scriptRow serviceId hostTime script json)

/-- The device is stored, and so are its aliases and facts. -/
def DeviceRecorded (device : CanonicalDevice) : Prop :=
  ∃ deviceId, db.devices.find (imp.deploymentId, device.canonicalKey) = some deviceId ∧
    (∀ identity ∈ device.identifiers, imp.IdentityRecorded db deviceId identity) ∧
    ∀ fact ∈ device.facts, imp.FactRecorded db deviceId fact

/-- The service is stored, and so are its scripts. -/
def PortRecorded (deviceId : Nat) (hostTime : Str) (port : NmapPort) : Prop :=
  ∃ serviceId,
    db.services.find (deviceId, port.protocol, port.port, source, hostTime) = some serviceId ∧
    ∀ script ∈ port.scripts, imp.ScriptRecorded db serviceId hostTime script

end

/-! ## Runs that write nothing -/

theorem storeIdentity_quiet_iff {deviceId : Nat} {db db' : EvidenceDb}
    {identity : IdentityEvidence} (h : imp.storeIdentity deviceId db identity = .ok db') :
    db' = db ↔ isAddress identity = false ∧ imp.IdentityRecorded db deviceId identity := by
  obtain ⟨value, hvalue, -, rfl⟩ := storeIdentity_cases h
  constructor
  · intro heq
    have haliases := congrArg EvidenceDb.aliases heq
    have hassignments := congrArg EvidenceDb.assignments heq
    refine ⟨?_, fun value' hvalue' => ?_⟩
    · by_contra haddress
      simp only [Bool.not_eq_false] at haddress
      simp only [haddress, if_true] at hassignments
      -- no row has the key of an address without an interface
      obtain ⟨-, -, -, hkey⟩ := Sql.Table.insertOrIgnore_quiet_iff.mp hassignments
      exact hkey rfl
    · rw [hvalue] at hvalue'
      cases hvalue'
      exact Sql.Table.insertOrIgnore_quiet_iff.mp haliases
  · rintro ⟨haddress, hrecorded⟩
    have haliases := Sql.Table.insertOrIgnore_quiet_iff.mpr (hrecorded value hvalue)
    simp only [haddress, haliases, Bool.false_eq_true, if_false]

theorem storeFact_quiet_iff {deviceId : Nat} {db db' : EvidenceDb} {fact : FactEvidence}
    (h : imp.storeFact deviceId db fact = .ok db') :
    db' = db ↔ imp.FactRecorded db deviceId fact := by
  obtain ⟨json, hjson, -, -, rfl⟩ := storeFact_cases h
  constructor
  · intro heq json' hjson'
    rw [hjson] at hjson'
    cases hjson'
    exact Sql.Table.insertOrIgnore_quiet_iff.mp (congrArg EvidenceDb.observations heq)
  · intro hrecorded
    rw [Sql.Table.insertOrIgnore_quiet_iff.mpr (hrecorded json hjson)]

theorem storeScript_quiet_iff {serviceId : Nat} {hostTime : Str} {db db' : EvidenceDb}
    {script : NmapScript} (h : imp.storeScript serviceId hostTime db script = .ok db') :
    db' = db ↔ imp.ScriptRecorded db serviceId hostTime script := by
  obtain ⟨json, hjson, -, -, rfl⟩ := storeScript_cases h
  constructor
  · intro heq json' hjson'
    rw [hjson] at hjson'
    cases hjson'
    exact Sql.Table.insertOrIgnore_quiet_iff.mp (congrArg EvidenceDb.observations heq)
  · intro hrecorded
    rw [Sql.Table.insertOrIgnore_quiet_iff.mpr (hrecorded json hjson)]

/-- A device writes nothing exactly when it has no address and its rows are there. -/
theorem storeDevice_quiet_iff {importedAt : Str} {db : EvidenceDb}
    {st st' : EvidenceDb × Dict Str Nat} {device : CanonicalDevice} (hst : st.1 = db)
    (h : imp.storeDevice importedAt st device = .ok st') : st'.1 = db ↔
      (∀ identity ∈ device.identifiers, isAddress identity = false) ∧
        imp.DeviceRecorded db device := by
  subst hst
  obtain ⟨devices, deviceId, db₁, db₂, -, -, hinsert, hidentities, hfacts, rfl⟩ :=
    storeDevice_cases h
  have hle₀ := st.1.le_devices (insertSelect_spec hinsert).1
  have hle₁ : _ ≤ db₁ :=
    Grows.foldlM (fun identity _ => storeIdentity_grows deviceId identity) _ _ hidentities
  have hle₂ : db₁ ≤ db₂ := Grows.foldlM (fun fact _ => storeFact_grows deviceId fact) _ _ hfacts
  have hdevice := insertSelect_quiet_iff hinsert rfl
  have hquiet₁ : ∀ d, { st.1 with devices } = d → (db₁ = d ↔ ∀ identity ∈ device.identifiers,
      isAddress identity = false ∧ imp.IdentityRecorded d deviceId identity) := fun d hd =>
    Grows.foldlM_quiet_iff (fun identity _ => storeIdentity_grows deviceId identity)
      (fun identity _ s s' hs hstep => hs ▸ storeIdentity_quiet_iff hstep) hd hidentities
  have hquiet₂ : ∀ d, db₁ = d →
      (db₂ = d ↔ ∀ fact ∈ device.facts, imp.FactRecorded d deviceId fact) := fun d hd =>
    Grows.foldlM_quiet_iff (fun fact _ => storeFact_grows deviceId fact)
      (fun fact _ s s' hs hstep => hs ▸ storeFact_quiet_iff hstep) hd hfacts
  constructor
  · intro heq
    have hdb₂ : db₂ = st.1 := heq
    have hdb₁ : db₁ = st.1 := le_antisymm (hdb₂ ▸ hle₂) (hle₀.trans hle₁)
    have hdb₀ : { st.1 with devices } = st.1 := le_antisymm (hdb₁ ▸ hle₁) hle₀
    have hidentity := (hquiet₁ st.1 hdb₀).mp hdb₁
    exact ⟨fun identity hmem => (hidentity identity hmem).1, deviceId,
      hdevice.mp (congrArg EvidenceDb.devices hdb₀),
      fun identity hmem => (hidentity identity hmem).2, (hquiet₂ st.1 hdb₁).mp hdb₂⟩
  · rintro ⟨haddress, id, hfind, hidentity, hfact⟩
    obtain rfl := insertSelect_find hinsert rfl hfind
    obtain rfl := hdevice.mpr hfind
    have hdb₁ : db₁ = st.1 :=
      (hquiet₁ st.1 rfl).mpr fun identity hmem => ⟨haddress identity hmem, hidentity identity hmem⟩
    exact (hquiet₂ st.1 hdb₁).mpr hfact

/-- A port writes nothing exactly when its rows are there. -/
theorem storePort_quiet_iff {deviceId : Nat} {hostTime : Str} {db db' : EvidenceDb}
    {port : NmapPort} (h : imp.storePort deviceId hostTime db port = .ok db') :
    db' = db ↔ imp.PortRecorded db deviceId hostTime port := by
  obtain ⟨row, services, serviceId, hkey, hinsert, hscripts⟩ := storePort_cases h
  have hle₀ := db.le_services (insertSelect_spec hinsert).1
  have hle₁ : _ ≤ db' :=
    Grows.foldlM (fun script _ => storeScript_grows serviceId hostTime script) _ _ hscripts
  have hservice := insertSelect_quiet_iff hinsert hkey
  have hquiet : ∀ d, { db with services } = d →
      (db' = d ↔ ∀ script ∈ port.scripts, imp.ScriptRecorded d serviceId hostTime script) :=
    fun d hd => Grows.foldlM_quiet_iff (fun script _ => storeScript_grows serviceId hostTime script)
      (fun script _ s s' hs hstep => hs ▸ storeScript_quiet_iff hstep) hd hscripts
  constructor
  · intro heq
    have hdb₀ : { db with services } = db := le_antisymm (heq ▸ hle₁) hle₀
    exact ⟨serviceId, hservice.mp (congrArg EvidenceDb.services hdb₀), (hquiet db hdb₀).mp heq⟩
  · rintro ⟨id, hfind, hscript⟩
    obtain rfl := insertSelect_find hinsert hkey hfind
    obtain rfl := hservice.mpr hfind
    exact (hquiet db rfl).mpr hscript

/-- A host writes nothing exactly when the rows of its ports are there. -/
theorem storeHost_quiet_iff {digest : Str} {observations : List DeviceObservation}
    {ids : Dict Str Nat} {db db' : EvidenceDb} {item : NmapHost × Nat}
    (h : imp.storeHost digest observations ids db item = .ok db') :
    db' = db ↔ ∀ deviceId, ids.get (observationId digest item.2) = some deviceId →
      ∀ observation, observations[item.2]? = some observation →
        ∀ port ∈ item.1.ports,
          imp.PortRecorded db deviceId observation.observedAt.isoformat port := by
  obtain ⟨deviceId, observation, hget, hobservation, hports⟩ := storeHost_cases h
  rw [hget, hobservation]
  simp only [Option.some.injEq, forall_eq']
  exact Grows.foldlM_quiet_iff (fun port _ => storePort_grows deviceId _ port)
    (fun port _ s s' hs hstep => hs ▸ storePort_quiet_iff hstep) rfl hports

/-! ## The dictionaries -/

/-- `device_ids` holds the row of every device that is stored. -/
def DeviceIdsStored (imp : Importer) (st : EvidenceDb × Dict Str Nat) : Prop :=
  ∀ key id, st.2.get key = some id → st.1.devices.find (imp.deploymentId, key) = some id

theorem storeDevice_ids {importedAt : Str} {st st' : EvidenceDb × Dict Str Nat}
    {device : CanonicalDevice} (hst : imp.DeviceIdsStored st)
    (h : imp.storeDevice importedAt st device = .ok st') : imp.DeviceIdsStored st' := by
  have hle := storeDevice_grows importedAt device _ _ h
  obtain ⟨devices, deviceId, db₁, db₂, -, -, hinsert, hidentities, hfacts, rfl⟩ :=
    storeDevice_cases h
  intro key id hid
  simp only [Dict.get_set] at hid
  split at hid
  · next heq =>
    cases hid
    obtain ⟨-, k, hk, hfind⟩ := insertSelect_spec hinsert
    cases hk
    have hle₁ : _ ≤ db₁ :=
      Grows.foldlM (fun identity _ => storeIdentity_grows deviceId identity) _ _ hidentities
    have hle₂ : db₁ ≤ db₂ := Grows.foldlM (fun fact _ => storeFact_grows deviceId fact) _ _ hfacts
    rw [← heq]
    exact Sql.Table.Extends.find (EvidenceDb.Extends.devices (hle₁.trans hle₂)) hfind
  · exact Sql.Table.Extends.find (EvidenceDb.Extends.devices hle) (hst key id hid)

theorem observationToDevice_spec {deviceIds ids : Dict Str Nat} {devices : List CanonicalDevice}
    (h : observationToDevice deviceIds devices = .ok ids) {x : Str} {id : Nat}
    (hid : ids.get x = some id) : ∃ device ∈ devices, x ∈ device.observationIds ∧
      deviceIds.get device.canonicalKey = some id := by
  revert x id
  refine Except.foldlM_invariant (P := fun ids : Dict Str Nat => ∀ {x : Str} {id : Nat},
    ids.get x = some id → ∃ device ∈ devices, x ∈ device.observationIds ∧
      deviceIds.get device.canonicalKey = some id) (fun hid => by cases hid) ?_ h
  intro item hitem ids ids' hids hstep x id hid
  obtain ⟨device, hdevice, hmem⟩ := List.mem_flatMap.mp hitem
  obtain ⟨y, hy, rfl⟩ := List.mem_map.mp hmem
  obtain ⟨deviceId, hlookup, hstep⟩ := Except.bind_eq_ok.mp hstep
  cases hstep
  rw [Dict.get_set] at hid
  split at hid
  · next heq =>
    cases hid
    refine ⟨device, hdevice, heq ▸ hy, ?_⟩
    unfold lookup at hlookup
    split at hlookup
    · next hget =>
      cases hlookup
      exact hget
    · cases hlookup
  · exact hids hid

/-! ## The evidence of a scan -/

/-- All that the scan has to say is stored: the devices with their aliases and facts, and the services
of their ports. -/
structure Recorded (imp : Importer) (db : EvidenceDb) (digest : Str) (hosts : List NmapHost)
    (observations : List DeviceObservation) (devices : List CanonicalDevice) : Prop where
  stored : ∀ device ∈ devices, imp.DeviceRecorded db device
  ports : ∀ host index, hosts[index]? = some host → ∀ observation,
    observations[index]? = some observation → ∀ device ∈ devices,
      observationId digest index ∈ device.observationIds → ∀ deviceId,
        db.devices.find (imp.deploymentId, device.canonicalKey) = some deviceId →
          ∀ port ∈ host.ports,
            imp.PortRecorded db deviceId observation.observedAt.isoformat port

/-- The loops write nothing exactly when no device has an address and all rows are there. -/
theorem storeEvidence_quiet_iff {importedAt digest : Str} {hosts : List NmapHost}
    {observations : List DeviceObservation} {devices : List CanonicalDevice}
    {db db' : EvidenceDb} (hunique : ∀ x, ∀ d ∈ devices, ∀ d' ∈ devices, x ∈ d.observationIds →
      x ∈ d'.observationIds → d = d')
    (h : imp.storeEvidence importedAt digest hosts observations devices db = .ok db') :
    db' = db ↔
      (∀ device ∈ devices, ∀ identity ∈ device.identifiers, isAddress identity = false) ∧
        imp.Recorded db digest hosts observations devices := by
  obtain ⟨⟨db₁, deviceIds⟩, hdevices, h⟩ := Except.bind_eq_ok.mp h
  obtain ⟨ids, hids, hhosts⟩ := Except.bind_eq_ok.mp h
  have hle₁ : db ≤ db₁ :=
    Grows.foldlM (fun device _ => storeDevice_grows importedAt device) _ _ hdevices
  have hle₂ : db₁ ≤ db' := Grows.foldlM (l := hosts.zipIdx)
    (fun item _ => storeHost_grows digest observations ids item) _ _ hhosts
  have hquiet₁ := Grows.foldlM_quiet_iff (d := db)
    (fun device _ => storeDevice_grows importedAt device)
    (fun device _ st st' hst hstep => storeDevice_quiet_iff hst hstep) rfl hdevices
  have hquiet₂ := fun hdb₁ : db₁ = db => Grows.foldlM_quiet_iff (l := hosts.zipIdx)
    (fun item _ => storeHost_grows digest observations ids item)
    (fun item _ s s' hs hstep => hs ▸ storeHost_quiet_iff hstep) hdb₁ hhosts
  have hfound : imp.DeviceIdsStored (db₁, deviceIds) := Except.foldlM_invariant
    (P := imp.DeviceIdsStored) (fun key id hid => by cases hid)
    (fun device _ st st' hst hstep => storeDevice_ids hst hstep) hdevices
  -- the dictionary holds the row of the device that the observation stands in
  have hdictionary : db₁ = db → ∀ x id, ids.get x = some id → ∃ device ∈ devices,
      x ∈ device.observationIds ∧ db.devices.find (imp.deploymentId, device.canonicalKey) = some id := by
    intro hdb₁ x id hid
    obtain ⟨device, hdevice, hmem, hget⟩ := observationToDevice_spec hids hid
    exact ⟨device, hdevice, hmem, hdb₁ ▸ hfound _ _ hget⟩
  constructor
  · intro heq
    have hdb₁ : db₁ = db := le_antisymm (heq ▸ hle₂) hle₁
    have hdevice := hquiet₁.mp hdb₁
    have hhost := (hquiet₂ hdb₁).mp heq
    refine ⟨fun device hmem => (hdevice device hmem).1, fun device hmem => (hdevice device hmem).2,
      ?_⟩
    intro host index hget observation hobservation device hmem hx deviceId hfind port hport
    have hitem : (host, index) ∈ hosts.zipIdx := List.mem_zipIdx_iff_getElem?.mpr hget
    obtain ⟨s, s', hstep⟩ := exists_step_of_foldlM hhosts hitem
    obtain ⟨id, -, hid, -, -⟩ := storeHost_cases hstep
    obtain ⟨device', hmem', hx', hfind'⟩ := hdictionary hdb₁ _ _ hid
    obtain rfl := hunique _ device hmem device' hmem' hx hx'
    obtain rfl := Option.some.inj (hfind'.symm.trans hfind)
    exact hhost (host, index) hitem id hid observation hobservation port hport
  · rintro ⟨haddress, hrecorded⟩
    have hdb₁ : db₁ = db :=
      hquiet₁.mpr fun device hmem => ⟨haddress device hmem, hrecorded.stored device hmem⟩
    refine (hquiet₂ hdb₁).mpr fun item hitem deviceId hget observation hobservation port hport => ?_
    obtain ⟨device, hmem, hx, hfind⟩ := hdictionary hdb₁ _ _ hget
    exact hrecorded.ports item.1 item.2 (List.mem_zipIdx_iff_getElem?.mp hitem) observation
      hobservation device hmem hx deviceId hfind port hport

/-! ## Runs over what an import left -/

theorem storeIdentity_replays (deviceId : Nat) {identity : IdentityEvidence}
    (haddress : isAddress identity = false) : Replays (fun db => db) (fun _ d => d) fun db =>
      imp.storeIdentity deviceId db identity := by
  intro db db' h
  refine ⟨storeIdentity_grows deviceId identity db db' h, fun d hd => ?_⟩
  obtain ⟨value, hvalue, hbind, rfl⟩ := storeIdentity_cases h
  have hrows : Sql.Table.insertOrIgnore db.aliases _ ≤ d.aliases := EvidenceDb.Extends.aliases hd
  refine Except.bind_eq_ok.mpr ⟨value, hvalue, Except.bind_eq_ok.mpr ⟨⟨⟩, hbind, ?_⟩⟩
  rw [haddress]
  exact congrArg (fun aliases => Except.ok { d with aliases })
    (Sql.Table.insertOrIgnore_of_le hrows rfl)

theorem storeFact_replays (deviceId : Nat) (fact : FactEvidence) :
    Replays (fun db => db) (fun _ d => d) fun db => imp.storeFact deviceId db fact := by
  intro db db' h
  refine ⟨storeFact_grows deviceId fact db db' h, fun d hd => ?_⟩
  obtain ⟨json, hjson, hbind, hdeployment, rfl⟩ := storeFact_cases h
  have hdeployments : d.deployments = db.deployments :=
    (EvidenceDb.Extends.deployments hd).trans rfl
  have hrows : Sql.Table.insertOrIgnore db.observations _ ≤ d.observations :=
    EvidenceDb.Extends.observations hd
  refine Except.bind_eq_ok.mpr ⟨json, hjson, Except.bind_eq_ok.mpr ⟨⟨⟩, hbind, ?_⟩⟩
  refine Except.bind_eq_ok.mpr ⟨⟨⟩, ?_, ?_⟩
  · exact (EvidenceDb.checkDeployment_congr hdeployments _).trans hdeployment
  · exact congrArg (fun observations => Except.ok { d with observations })
      (Sql.Table.insertOrIgnore_of_le hrows rfl)

theorem storeScript_replays (serviceId : Nat) (hostTime : Str) (script : NmapScript) :
    Replays (fun db => db) (fun _ d => d) fun db =>
      imp.storeScript serviceId hostTime db script := by
  intro db db' h
  refine ⟨storeScript_grows serviceId hostTime script db db' h, fun d hd => ?_⟩
  obtain ⟨json, hjson, hbind, hdeployment, rfl⟩ := storeScript_cases h
  have hdeployments : d.deployments = db.deployments :=
    (EvidenceDb.Extends.deployments hd).trans rfl
  have hrows : Sql.Table.insertOrIgnore db.observations _ ≤ d.observations :=
    EvidenceDb.Extends.observations hd
  refine Except.bind_eq_ok.mpr ⟨json, hjson, Except.bind_eq_ok.mpr ⟨⟨⟩, hbind, ?_⟩⟩
  refine Except.bind_eq_ok.mpr ⟨⟨⟩, ?_, ?_⟩
  · exact (EvidenceDb.checkDeployment_congr hdeployments _).trans hdeployment
  · exact congrArg (fun observations => Except.ok { d with observations })
      (Sql.Table.insertOrIgnore_of_le hrows rfl)

theorem bind_createdAt {importedAt importedAt' : Str} {device : CanonicalDevice}
    (h : Repository.bind [.text device.canonicalKey, .text (createdAt importedAt device)] = .ok ())
    (himported : (Repository.Value.text importedAt').check = .ok ()) :
    Repository.bind [.text device.canonicalKey, .text (createdAt importedAt' device)] = .ok () := by
  rw [bind_eq_ok] at h ⊢
  simp only [List.mem_cons, List.not_mem_nil, or_false, forall_eq_or_imp, forall_eq] at h ⊢
  refine ⟨h.1, ?_⟩
  unfold createdAt at h ⊢
  dsimp only at h ⊢
  split
  · next hsorted =>
    rw [hsorted] at h
    exact h.2
  · exact himported

theorem storeDevice_replayed {importedAt importedAt' : Str}
    (himported : (Repository.Value.text importedAt').check = .ok ()) {device : CanonicalDevice}
    (haddress : ∀ identity ∈ device.identifiers, isAddress identity = false) :
    Replayed Prod.fst (fun st d => (d, st.2)) (fun st => imp.storeDevice importedAt st device)
      fun st => imp.storeDevice importedAt' st device := by
  intro st st' h
  refine ⟨storeDevice_grows importedAt device st st' h, fun d hd => ?_⟩
  obtain ⟨devices, deviceId, db₁, db₂, hbind, hdeployment, hinsert, hidentities, hfacts, rfl⟩ :=
    storeDevice_cases h
  obtain ⟨hle₁, hagain₁⟩ := Replayed.foldlM
    (fun identity hmem => storeIdentity_replays deviceId (haddress identity hmem)) _ _ hidentities
  obtain ⟨hle₂, hagain₂⟩ :=
    Replayed.foldlM (fun fact _ => storeFact_replays deviceId fact) _ _ hfacts
  have hd₁ : db₁ ≤ d := hle₂.trans hd
  have hd₀ : { st.1 with devices } ≤ d := hle₁.trans hd₁
  refine Except.bind_eq_ok.mpr ⟨⟨⟩, bind_createdAt hbind himported, ?_⟩
  refine Except.bind_eq_ok.mpr ⟨⟨⟩, ?_, ?_⟩
  · exact (EvidenceDb.checkDeployment_congr (EvidenceDb.Extends.deployments hd₀) _).trans hdeployment
  · have hagain := insertSelect_of_le (b := imp.deviceRow importedAt' device) hinsert
      (EvidenceDb.Extends.devices hd₀) rfl true
    refine Except.bind_eq_ok.mpr ⟨⟨d.devices, deviceId⟩, hagain, ?_⟩
    refine Except.bind_eq_ok.mpr ⟨d, hagain₁ d hd₁, ?_⟩
    exact Except.bind_eq_ok.mpr ⟨d, hagain₂ d hd, rfl⟩

theorem storePort_replays (deviceId : Nat) (hostTime : Str) (port : NmapPort) :
    Replays (fun db => db) (fun _ d => d) fun db => imp.storePort deviceId hostTime db port := by
  intro db db' h
  refine ⟨storePort_grows deviceId hostTime port db db' h, fun d hd => ?_⟩
  obtain ⟨serviceName, hname, h⟩ := Except.bind_eq_ok.mp h
  obtain ⟨product, hproduct, h⟩ := Except.bind_eq_ok.mp h
  obtain ⟨version, hversion, h⟩ := Except.bind_eq_ok.mp h
  obtain ⟨state, hstate, h⟩ := Except.bind_eq_ok.mp h
  obtain ⟨⟨⟩, hbind, h⟩ := Except.bind_eq_ok.mp h
  obtain ⟨⟨services, serviceId⟩, hinsert, hscripts⟩ := Except.bind_eq_ok.mp h
  obtain ⟨hle, hagain⟩ := Replayed.foldlM
    (fun script _ => storeScript_replays serviceId hostTime script) _ _ hscripts
  have hd₀ : { db with services } ≤ d := hle.trans hd
  refine Except.bind_eq_ok.mpr ⟨serviceName, hname, Except.bind_eq_ok.mpr ⟨product, hproduct, ?_⟩⟩
  refine Except.bind_eq_ok.mpr ⟨version, hversion, Except.bind_eq_ok.mpr ⟨state, hstate, ?_⟩⟩
  refine Except.bind_eq_ok.mpr ⟨⟨⟩, hbind, Except.bind_eq_ok.mpr ⟨⟨d.services, serviceId⟩, ?_, ?_⟩⟩
  · exact insertSelect_of_le hinsert (EvidenceDb.Extends.services hd₀) rfl _
  · exact hagain d hd

theorem storeHost_replays (digest : Str) (observations : List DeviceObservation)
    (ids : Dict Str Nat) (item : NmapHost × Nat) :
    Replays (fun db => db) (fun _ d => d) fun db =>
      imp.storeHost digest observations ids db item := by
  intro db db' h
  refine ⟨storeHost_grows digest observations ids item db db' h, fun d hd => ?_⟩
  obtain ⟨deviceId, observation, hget, hobservation, hports⟩ := storeHost_cases h
  obtain ⟨-, hagain⟩ :=
    Replayed.foldlM (fun port _ => storePort_replays deviceId _ port) _ _ hports
  refine Except.bind_eq_ok.mpr ⟨deviceId, ?_, ?_⟩
  · unfold lookup
    rw [hget]
  · rw [hobservation]
    exact hagain d hd

/-- Without addresses the loops run again over what they left, and leave it as it is. -/
theorem storeEvidence_again {importedAt importedAt' digest : Str} {hosts : List NmapHost}
    {observations : List DeviceObservation} {devices : List CanonicalDevice} {db db' : EvidenceDb}
    (haddress : ∀ device ∈ devices, ∀ identity ∈ device.identifiers, isAddress identity = false)
    (himported : (Repository.Value.text importedAt').check = .ok ())
    (h : imp.storeEvidence importedAt digest hosts observations devices db = .ok db') :
    imp.storeEvidence importedAt' digest hosts observations devices db' = .ok db' := by
  obtain ⟨⟨db₁, deviceIds⟩, hdevices, h⟩ := Except.bind_eq_ok.mp h
  obtain ⟨ids, hids, hhosts⟩ := Except.bind_eq_ok.mp h
  obtain ⟨-, hagain₁⟩ := Replayed.foldlM (fun device hmem =>
    storeDevice_replayed himported (haddress device hmem)) _ _ hdevices
  obtain ⟨hle₂, hagain₂⟩ := Replayed.foldlM (l := hosts.zipIdx)
    (fun item _ => storeHost_replays digest observations ids item) _ _ hhosts
  refine Except.bind_eq_ok.mpr ⟨(db', deviceIds), hagain₁ db' hle₂, ?_⟩
  exact Except.bind_eq_ok.mpr ⟨ids, hids, hagain₂ db' le_rfl⟩

end Importer

end FieldDiscovery.Nmap
