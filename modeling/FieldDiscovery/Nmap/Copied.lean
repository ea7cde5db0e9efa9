import FieldDiscovery.Nmap.Reimport

/-!
# Copies of a scan

The same bytes under two paths. The second import adds its artifact, and for the rest what its loops
have left to write: nothing, when no host has a MAC or IPv4 address and the rows are there. They are
there after the first import when both take the same time. A scan without a time of its own takes
the modification time of its file, and a copy may have another.
-/

namespace FieldDiscovery.Nmap

open Py Correlation Redaction Repository

/-! ## Addresses -/

/-- No host of the scan has a MAC or IPv4 address. -/
def NmapScan.NoAddress (scan : NmapScan) : Prop :=
  ∀ host ∈ scan.hosts, ∀ a ∈ host.addresses,
    a.addressType ≠ str "mac" ∧ a.addressType ≠ str "ipv4"

theorem IdentityEvidence.kind_of_new {rt : Runtime} {kind : IdentifierKind} {value src : Str}
    {observedAt : Option Datetime} {confidence : ℚ} {e : IdentityEvidence}
    (h : IdentityEvidence.new rt kind value src observedAt confidence = .ok e) : e.kind = kind := by
  obtain ⟨source, -, h⟩ := Except.bind_eq_ok.mp h
  obtain ⟨time, -, h⟩ := Except.bind_eq_ok.mp h
  obtain ⟨weight, -, h⟩ := Except.bind_eq_ok.mp h
  obtain ⟨normal, -, h⟩ := Except.bind_eq_ok.mp h
  dsimp only at h
  split at h
  · cases h
  · cases h
    rfl

section

variable {rt : Runtime} {observedAt : Datetime}

/-- An address has an identifier of its kind exactly when it is a MAC or IPv4 address. -/
theorem exists_isAddress_addressEvidence {a : NmapAddress}
    {evidence : List IdentityEvidence × List FactEvidence}
    (h : addressEvidence rt observedAt a = .ok evidence) :
    (∃ e ∈ evidence.1, Importer.isAddress e = true) ↔
      a.addressType = str "mac" ∨ a.addressType = str "ipv4" := by
  unfold addressEvidence at h
  split at h
  · next hmac =>
    obtain ⟨e, he, h⟩ := Except.bind_eq_ok.mp h
    obtain ⟨facts, -, h⟩ := Except.bind_eq_ok.mp h
    cases h
    refine iff_of_true ⟨e, List.mem_singleton_self e, ?_⟩ (.inl hmac)
    rw [Importer.isAddress, IdentityEvidence.kind_of_new he]
    rfl
  · next hmac =>
    split at h
    · next hipv4 =>
      obtain ⟨e, he, h⟩ := Except.bind_eq_ok.mp h
      cases h
      refine iff_of_true ⟨e, List.mem_singleton_self e, ?_⟩ (.inr hipv4)
      rw [Importer.isAddress, IdentityEvidence.kind_of_new he]
      rfl
    · next hipv4 =>
      cases h
      refine iff_of_false ?_ (not_or.mpr ⟨hmac, hipv4⟩)
      rintro ⟨e, he, -⟩
      cases he

/-- The observation of a host carries an address exactly when the host has one. -/
theorem exists_isAddress_hostObservation {digest : Str} {index : Nat} {host : NmapHost}
    {o : DeviceObservation} (h : hostObservation rt observedAt digest index host = .ok o) :
    (∃ e ∈ o.carried, Importer.isAddress e = true) ↔
      ∃ a ∈ host.addresses, a.addressType = str "mac" ∨ a.addressType = str "ipv4" := by
  obtain ⟨addresses, haddresses, h⟩ := Except.bind_eq_ok.mp h
  obtain ⟨hostnames, hhostnames, h⟩ := Except.bind_eq_ok.mp h
  obtain ⟨state, -, h⟩ := Except.bind_eq_ok.mp h
  obtain ⟨osGuesses, -, h⟩ := Except.bind_eq_ok.mp h
  obtain ⟨scripts, -, h⟩ := Except.bind_eq_ok.mp h
  obtain ⟨id, -, h⟩ := Except.bind_eq_ok.mp h
  obtain ⟨src, -, h⟩ := Except.bind_eq_ok.mp h
  obtain ⟨time, -, h⟩ := Except.bind_eq_ok.mp h
  cases h
  have hall := Except.mapM_eq_ok.mp haddresses
  have hnames := Except.mapM_eq_ok.mp hhostnames
  simp only [DeviceObservation.carried, List.filterMap_nil, List.append_nil, List.mem_append,
    List.mem_flatMap]
  constructor
  · rintro ⟨e, ⟨evidence, hevidence, he⟩ | he, haddress⟩
    · obtain ⟨a, ha, hrun⟩ := hall.exists_of_mem_right hevidence
      exact ⟨a, ha, (exists_isAddress_addressEvidence hrun).mp ⟨e, he, haddress⟩⟩
    · obtain ⟨name, -, hrun⟩ := hnames.exists_of_mem_right he
      rw [Importer.isAddress, IdentityEvidence.kind_of_new hrun] at haddress
      cases haddress
  · rintro ⟨a, ha, htype⟩
    obtain ⟨evidence, hevidence, hrun⟩ := hall.exists_of_mem_left ha
    obtain ⟨e, he, haddress⟩ := (exists_isAddress_addressEvidence hrun).mpr htype
    exact ⟨e, .inl ⟨evidence, hevidence, he⟩, haddress⟩

end

/-- The identifiers of the devices are those the observations carry. -/
theorem mem_identifiers_iff {rt : Runtime} {so : SetOrder} {observations : List DeviceObservation}
    {result : CorrelationResult} (h : correlate rt so observations = .ok result)
    {e : IdentityEvidence} : (∃ device ∈ result.devices, e ∈ device.identifiers) ↔
      ∃ o ∈ observations, e ∈ o.carried := by
  have haccepted := correlate_accepted h
  constructor
  · rintro ⟨device, hdevice, he⟩
    obtain ⟨o, -, hrun⟩ := haccepted.exists_root hdevice
    rw [(device_fields hrun).2.2, mem_sortedBy] at he
    obtain ⟨o', ho', he⟩ := List.mem_flatMap.mp he
    exact ⟨o', (mem_membersOf.mp ho').1, mem_sortedBy.mp he⟩
  · rintro ⟨o, ho, he⟩
    obtain ⟨device, hdevice, hrun⟩ := haccepted.exists_device ho
    refine ⟨device, hdevice, ?_⟩
    rw [(device_fields hrun).2.2, mem_sortedBy]
    exact List.mem_flatMap.mpr ⟨o, mem_membersOf.mpr ⟨ho, rfl⟩, mem_sortedBy.mpr he⟩

/-- No device has an address exactly when no host has one. -/
theorem noAddress_iff {rt : Runtime} {so : SetOrder} {file : ScanFile}
    {observations : List DeviceObservation} {result : CorrelationResult}
    (hobservations : file.observations rt = .ok observations)
    (h : correlate rt so observations = .ok result) :
    (∀ device ∈ result.devices, ∀ identity ∈ device.identifiers,
      Importer.isAddress identity = false) ↔ file.scan.NoAddress := by
  have hall := Except.mapM_eq_ok.mp hobservations
  constructor
  · intro hnone host hhost a ha
    by_contra htype
    obtain ⟨index, hindex⟩ := List.mem_iff_getElem?.mp hhost
    obtain ⟨o, ho, hrun⟩ :=
      hall.exists_of_mem_left (List.mem_zipIdx_iff_getElem?.mpr hindex : (host, index) ∈ _)
    have haddress := (exists_isAddress_hostObservation hrun).mpr
      ⟨a, ha, by rwa [not_and_or, not_not, not_not] at htype⟩
    obtain ⟨e, he, haddress⟩ := haddress
    obtain ⟨device, hdevice, he⟩ := (mem_identifiers_iff h).mpr ⟨o, ho, he⟩
    exact absurd (hnone device hdevice e he) (by simp [haddress])
  · intro hnone device hdevice e he
    by_contra haddress
    obtain ⟨o, ho, he⟩ := (mem_identifiers_iff h).mp ⟨device, hdevice, he⟩
    obtain ⟨⟨host, index⟩, hhost, hrun⟩ := hall.exists_of_mem_right ho
    obtain ⟨a, ha, htype⟩ := (exists_isAddress_hostObservation hrun).mp
      ⟨e, he, by simpa using haddress⟩
    have hmem : host ∈ file.scan.hosts :=
      List.mem_iff_getElem?.mpr ⟨index, List.mem_zipIdx_iff_getElem?.mp hhost⟩
    obtain ⟨hmac, hipv4⟩ := hnone host hmem a ha
    exact htype.elim hmac hipv4

namespace Importer

variable {imp : Importer}

/-! ## Files -/

/-- The import is neither refused nor skipped. -/
structure Fresh (imp : Importer) (pass : ImportPass) (file : ScanFile) (db : ScanDb) : Prop where
  path : imp.redactor.text imp.rt file.relativePath = .ok file.relativePath
  bound : Repository.bind [.text file.relativePath, .text file.digest, .integer file.size,
    .text file.modified.isoformat, .text pass.importedAt] = .ok ()
  new : db.artifacts.find (file.relativePath, file.digest) = none
  run : ∀ id ∈ pass.collectorRunId, id ∈ db.evidence.collectorRuns

/-- All that the scan has to say at its time is stored. -/
def RecordedAt (imp : Importer) (so : SetOrder) (file : ScanFile) (db : EvidenceDb) : Prop :=
  ∃ observations result, file.observations imp.rt = .ok observations ∧
    correlate imp.rt so observations = .ok result ∧
    imp.Recorded db file.digest file.scan.hosts observations result.devices

theorem storeArtifact_cases {pass : ImportPass} {file : ScanFile} {db db' : ScanDb}
    (h : imp.storeArtifact pass file db = .ok db') : file.digest.length = 64 ∧
      db.evidence.checkDeployment imp.deploymentId = .ok () ∧ db'.evidence = db.evidence ∧
      db'.artifacts.rows = db.artifacts.rows ++
        [(db.artifacts.nextId, imp.artifactRow pass file)] := by
  obtain ⟨⟨⟩, -, h⟩ := Except.bind_eq_ok.mp h
  obtain ⟨⟨⟩, hdeployment, h⟩ := Except.bind_eq_ok.mp h
  obtain ⟨⟨⟩, -, h⟩ := Except.bind_eq_ok.mp h
  split at h
  · next hlength =>
    split at h
    · next artifacts hinsert =>
      cases h
      unfold Sql.Table.insert at hinsert
      split at hinsert
      · cases hinsert
      · cases hinsert
        exact ⟨hlength, hdeployment, rfl, rfl⟩
    · cases h
  · cases h

/-- An import that took place. -/
theorem importFile_cases {so : SetOrder} {pass : ImportPass} {file : ScanFile} {db db' : ScanDb}
    (h : imp.importFile so pass file db = .ok (db', true)) :
    ∃ observations result evidence, file.observations imp.rt = .ok observations ∧
      correlate imp.rt so observations = .ok result ∧
      imp.storeEvidence pass.importedAt file.digest file.scan.hosts observations result.devices
        db.evidence = .ok evidence ∧
      imp.storeArtifact pass file { db with evidence } = .ok db' := by
  obtain ⟨observations, hobservations, h⟩ := Except.bind_eq_ok.mp h
  obtain ⟨result, hresult, h⟩ := Except.bind_eq_ok.mp h
  obtain ⟨pathValue, -, h⟩ := Except.bind_eq_ok.mp h
  split at h
  · cases h
  · obtain ⟨⟨⟩, -, h⟩ := Except.bind_eq_ok.mp h
    split at h
    · cases h
    · obtain ⟨evidence, hevidence, h⟩ := Except.bind_eq_ok.mp h
      obtain ⟨db₁, hartifact, h⟩ := Except.bind_eq_ok.mp h
      cases h
      exact ⟨observations, result, evidence, hobservations, hresult, hevidence, hartifact⟩

/-- An import that is neither refused nor skipped takes place when its loops end. -/
theorem importFile_of_fresh {so : SetOrder} {pass : ImportPass} {file : ScanFile} {db : ScanDb}
    {observations : List DeviceObservation} {result : CorrelationResult} {evidence : EvidenceDb}
    (hfresh : imp.Fresh pass file db) (hobservations : file.observations imp.rt = .ok observations)
    (hresult : correlate imp.rt so observations = .ok result)
    (hevidence : imp.storeEvidence pass.importedAt file.digest file.scan.hosts observations
      result.devices db.evidence = .ok evidence)
    (hruns : evidence.collectorRuns = db.evidence.collectorRuns)
    (hdeployment : evidence.checkDeployment imp.deploymentId = .ok ())
    (hlength : file.digest.length = 64) :
    ∃ db', imp.importFile so pass file db = .ok (db', true) := by
  have hbound := bind_eq_ok.mp hfresh.bound
  have hpath : Repository.bind [.text file.relativePath, .text file.digest] = .ok () := by
    rw [bind_eq_ok]
    intro v hv
    refine hbound v ?_
    simp only [List.mem_cons, List.not_mem_nil, or_false] at hv ⊢
    exact hv.imp_right .inl
  have hfree : ¬ db.artifacts.Taken (imp.artifactRow pass file) := by
    have hkey : (imp.artifactRow pass file).key = some (file.relativePath, file.digest) := rfl
    rw [Sql.Table.taken_iff hkey, hfresh.new]
    rintro ⟨id, hid⟩
    cases hid
  have hartifact : imp.storeArtifact pass file { db with evidence } =
      .ok { evidence, artifacts := db.artifacts.push _ hfree } := by
    refine Except.bind_eq_ok.mpr ⟨⟨⟩, hfresh.bound, Except.bind_eq_ok.mpr ⟨⟨⟩, hdeployment, ?_⟩⟩
    refine Except.bind_eq_ok.mpr ⟨⟨⟩, ?_, ?_⟩
    · unfold EvidenceDb.checkRun
      rw [hruns, if_pos hfresh.run]
    · rw [if_pos hlength, Sql.Table.insert, dif_neg hfree]
  refine ⟨{ evidence, artifacts := db.artifacts.push _ hfree }, ?_⟩
  refine Except.bind_eq_ok.mpr ⟨observations, hobservations, ?_⟩
  refine Except.bind_eq_ok.mpr ⟨result, hresult, Except.bind_eq_ok.mpr ⟨_, hfresh.path, ?_⟩⟩
  rw [if_neg (not_not.mpr rfl)]
  refine Except.bind_eq_ok.mpr ⟨⟨⟩, hpath, ?_⟩
  rw [hfresh.new]
  exact Except.bind_eq_ok.mpr ⟨evidence, hevidence, Except.bind_eq_ok.mpr ⟨_, hartifact, rfl⟩⟩

/-! ## Main theorem -/

/-- The second import of a scan adds its artifact. It adds no evidence exactly when the scan has no
MAC or IPv4 address and either both imports take the same time or the rows of the second one's time
are there. In the first case it takes place whenever it is neither refused nor skipped. -/
theorem reimport_adds_nothing_iff {so so' : SetOrder} {pass pass' : ImportPass}
    {file file' : ScanFile} {db db₁ : ScanDb}
    (hfirst : imp.importFile so pass file db = .ok (db₁, true))
    (hdigest : file'.digest = file.digest) (hscan : file'.scan = file.scan)
    (hfresh : imp.Fresh pass' file' db₁) :
    (file.scan.NoAddress → file'.scanTime = file.scanTime →
      ∃ db₂, imp.importFile so' pass' file' db₁ = .ok (db₂, true)) ∧
    ∀ db₂, imp.importFile so' pass' file' db₁ = .ok (db₂, true) →
      db₂.artifacts.rows = db₁.artifacts.rows ++
        [(db₁.artifacts.nextId, imp.artifactRow pass' file')] ∧
      (db₂.evidence = db₁.evidence ↔ file.scan.NoAddress ∧
        (file'.scanTime = file.scanTime ∨ imp.RecordedAt so' file' db₁.evidence)) := by
  obtain ⟨observations, result, evidence, hobservations, hresult, hevidence, hartifact⟩ :=
    importFile_cases hfirst
  obtain ⟨hlength, hdeployment, heq, -⟩ := storeArtifact_cases hartifact
  have himported : (Repository.Value.text pass'.importedAt).check = .ok () :=
    bind_eq_ok.mp hfresh.bound _ (by simp)
  -- at the same time the loops of the second import run over what those of the first one left
  have hsame : file.scan.NoAddress → file'.scanTime = file.scanTime → ∃ result',
      file'.observations imp.rt = .ok observations ∧
      correlate imp.rt so' observations = .ok result' ∧
      imp.storeEvidence pass'.importedAt file'.digest file'.scan.hosts observations result'.devices
        db₁.evidence = .ok db₁.evidence := by
    intro hnone htime
    obtain ⟨result', hresult', hdevices⟩ := correlate_devices hresult so'
    refine ⟨result', ?_, hresult', ?_⟩
    · unfold ScanFile.observations at hobservations ⊢
      rwa [htime, hdigest, hscan]
    · rw [hdevices, hdigest, hscan, heq]
      exact storeEvidence_again ((noAddress_iff hobservations hresult).mpr hnone) himported hevidence
  refine ⟨fun hnone htime => ?_, fun db₂ hsecond => ?_⟩
  · obtain ⟨result', hobservations', hresult', hagain⟩ := hsame hnone htime
    refine importFile_of_fresh hfresh hobservations' hresult' hagain rfl ?_ (hdigest ▸ hlength)
    rw [heq]
    exact hdeployment
  · obtain ⟨observations₂, result₂, evidence₂, hobservations₂, hresult₂, hevidence₂, hartifact₂⟩ :=
      importFile_cases hsecond
    obtain ⟨-, -, heq₂, hrows⟩ := storeArtifact_cases hartifact₂
    have hevidenceEq : db₂.evidence = evidence₂ := heq₂
    refine ⟨hrows, ?_⟩
    have hquiet := storeEvidence_quiet_iff (fun x d hd d' hd' hx hx' =>
      (correlate_accepted hresult₂).device_unique hd hd' hx hx') hevidence₂
    rw [noAddress_iff hobservations₂ hresult₂, hscan] at hquiet
    rw [hevidenceEq, hquiet]
    constructor
    · rintro ⟨hnone, hrecorded⟩
      exact ⟨hnone, .inr ⟨observations₂, result₂, hobservations₂, hresult₂, hscan ▸ hrecorded⟩⟩
    · rintro ⟨hnone, htime | ⟨observations₃, result₃, hobservations₃, hresult₃, hrecorded⟩⟩
      · obtain ⟨result', hobservations', hresult', hagain⟩ := hsame hnone htime
        cases hobservations'.symm.trans hobservations₂
        cases hresult'.symm.trans hresult₂
        cases hagain.symm.trans hevidence₂
        exact hquiet.mp rfl
      · cases hobservations₃.symm.trans hobservations₂
        cases hresult₃.symm.trans hresult₂
        exact ⟨hnone, hscan ▸ hrecorded⟩

end Importer

/-! ## A printer scanned once -/

namespace CopySample

def printerAddress : NmapAddress := ⟨str "192.0.2.1", str "ipv4", none⟩

/-- A host with a web server. -/
def host (addresses : List NmapAddress) : NmapHost :=
  { startedAt := none, endedAt := none, state := none, stateReason := none, addresses
    hostnames := [⟨str "printer", none⟩], osMatches := []
    ports := [
      { protocol := str "tcp", port := 80, state := some (str "open"), reason := none
        reasonTtl := none, service := none, scripts := [] }]
    scripts := [] }

/-- A finished scan of one host. -/
def scan (addresses : List NmapAddress) : NmapScan :=
  { scanner := none, args := none, version := none, xmlOutputVersion := none, startedAt := none
    finishedAt := some epoch, elapsedSeconds := none, summary := none, exitStatus := none
    scanInfo := [], scripts := [], hosts := [host addresses] }

def importer : Importer := ⟨Runtime.ofDigests [], ⟨[], []⟩, 1⟩

def pass : ImportPass := { importedAt := epoch.isoformat }

def file (relativePath : String) (addresses : List NmapAddress) : ScanFile :=
  { relativePath := str relativePath, digest := importer.rt.sha256 printerDocument, size := 64
    modified := epoch, scan := scan addresses }

def database : ScanDb := { evidence := { deployments := [1] } }

def imported (relativePath : String) (addresses : List NmapAddress) (db : ScanDb) :
    Except Exc (ScanDb × Bool) :=
  importer.importFile .insertion pass (file relativePath addresses) db

end CopySample

open CopySample

/-- A host without an address. -/
theorem reimport_adds_nothing_sample : ∃ db₁ db₂,
    imported "a.xml" [] database = .ok (db₁, true) ∧ imported "b.xml" [] db₁ = .ok (db₂, true) ∧
      db₂.artifacts.rows.length = db₁.artifacts.rows.length + 1 ∧ db₂.evidence = db₁.evidence := by
  have hrun : (imported "a.xml" [] database).toOption.any (fun p => p.2 &&
      (p.1.artifacts.find ((file "b.xml" []).relativePath, (file "b.xml" []).digest)).isNone) =
        true := by
    decide +kernel
  obtain ⟨⟨db₁, created⟩, hdb₁, hfields⟩ := (Option.any_eq_true _ _).mp hrun
  simp only [Bool.and_eq_true, Option.isNone_iff_eq_none] at hfields
  obtain ⟨rfl, hnew⟩ := hfields
  have hfirst := Except.toOption_eq_some.mp hdb₁
  have hfresh : importer.Fresh pass (file "b.xml" []) db₁ :=
    ⟨by decide +kernel, by decide +kernel, hnew, fun id hid => by cases hid⟩
  have hnone : (file "a.xml" []).scan.NoAddress := by
    intro h hh a ha
    rw [List.mem_singleton.mp hh] at ha
    cases ha
  have hdigest : (file "b.xml" []).digest = (file "a.xml" []).digest := rfl
  have hscan : (file "b.xml" []).scan = (file "a.xml" []).scan := rfl
  have hspec := fun so' =>
    @Importer.reimport_adds_nothing_iff _ _ so' _ _ _ _ _ _ hfirst hdigest hscan hfresh
  obtain ⟨hexists, hadds⟩ := hspec .insertion
  obtain ⟨db₂, hsecond⟩ := hexists hnone rfl
  obtain ⟨hrows, hquiet⟩ := hadds db₂ hsecond
  refine ⟨db₁, db₂, hfirst, hsecond, ?_, hquiet.mpr ⟨hnone, .inl rfl⟩⟩
  rw [hrows, List.length_append]
  rfl

/-- The address of a host is stored once for each copy of the scan. -/
theorem reimport_adds_address :
    ((imported "a.xml" [printerAddress] database).toOption.bind fun p =>
      (imported "b.xml" [printerAddress] p.1).toOption.map fun q =>
        (p.2, p.1.evidence.assignments.rows.length, q.2, q.1.evidence.assignments.rows.length)) =
      some (true, 1, true, 2) ∧
    ¬ ∀ (imp : Importer) so so' pass pass' file file' db db₁ db₂,
      imp.importFile so pass file db = .ok (db₁, true) → file.scan.completed = true →
      file'.digest = file.digest → file'.scan = file.scan →
      file'.relativePath ≠ file.relativePath →
      imp.importFile so' pass' file' db₁ = .ok (db₂, true) →
        db₂.evidence = db₁.evidence := by
  have hrun : ((imported "a.xml" [printerAddress] database).toOption.bind fun p =>
      (imported "b.xml" [printerAddress] p.1).toOption.map fun q =>
        (p.2, p.1.evidence.assignments.rows.length, q.2, q.1.evidence.assignments.rows.length)) =
      some (true, 1, true, 2) := by
    decide +kernel
  refine ⟨hrun, fun h => ?_⟩
  obtain ⟨⟨db₁, created⟩, hfirst, hrest⟩ := Option.bind_eq_some_iff.mp hrun
  obtain ⟨⟨db₂, created'⟩, hsecond, hcounts⟩ := Option.map_eq_some_iff.mp hrest
  simp only [Prod.mk.injEq] at hcounts
  obtain ⟨rfl, hone, rfl, htwo⟩ := hcounts
  have hcompleted : (file "a.xml" [printerAddress]).scan.completed = true := by decide
  have hdigest : (file "b.xml" [printerAddress]).digest =
    (file "a.xml" [printerAddress]).digest := rfl
  have hscan : (file "b.xml" [printerAddress]).scan = (file "a.xml" [printerAddress]).scan := rfl
  have hpath : (file "b.xml" [printerAddress]).relativePath ≠
    (file "a.xml" [printerAddress]).relativePath := by decide
  have hsame := h importer .insertion .insertion pass pass (file "a.xml" [printerAddress])
    (file "b.xml" [printerAddress]) database db₁ db₂ (Except.toOption_eq_some.mp hfirst)
    hcompleted hdigest hscan hpath (Except.toOption_eq_some.mp hsecond)
  rw [hsame, hone] at htwo
  exact absurd htwo (by decide)

end FieldDiscovery.Nmap
