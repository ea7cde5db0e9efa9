import FieldDiscovery.Correlation.Partition
import FieldDiscovery.Unifi.Stored

/-!
# Storing an inventory again

Every statement of `persist_inventory` either finds its row under the key it inserts or puts it
there, so each loop of the transaction replays: over a database that holds what a first run left,
the second one reads the same ids, writes nothing and returns the same count.
-/

namespace FieldDiscovery.Unifi

open Py Correlation Redaction Repository

/-! ## Databases that hold another -/

/-- `db'` has the deployments of `db`, and every row of it. -/
structure InventoryDb.Extends (db db' : InventoryDb) : Prop where
  deployments : db'.deployments = db.deployments
  devices : db.devices ≤ db'.devices
  aliases : db.aliases ≤ db'.aliases
  observations : db.observations ≤ db'.observations
  sites : db.sites ≤ db'.sites
  entities : db.entities ≤ db'.entities
  relationships : db.relationships ≤ db'.relationships

theorem InventoryDb.Extends.refl (db : InventoryDb) : db.Extends db :=
  ⟨rfl, le_rfl, le_rfl, le_rfl, le_rfl, le_rfl, le_rfl⟩

instance : Preorder InventoryDb where
  le := InventoryDb.Extends
  le_refl := .refl
  le_trans _ _ _ h h' :=
    { deployments := h'.deployments.trans h.deployments
      devices := h.devices.trans h'.devices
      aliases := h.aliases.trans h'.aliases
      observations := h.observations.trans h'.observations
      sites := h.sites.trans h'.sites
      entities := h.entities.trans h'.entities
      relationships := h.relationships.trans h'.relationships }

theorem InventoryDb.le_devices (db : InventoryDb) {devices : Sql.Table _} (h : db.devices ≤ devices) :
    db ≤ { db with devices } := { InventoryDb.Extends.refl db with devices := h }

theorem InventoryDb.le_aliases (db : InventoryDb) {aliases : Sql.Table _} (h : db.aliases ≤ aliases) :
    db ≤ { db with aliases } := { InventoryDb.Extends.refl db with aliases := h }

theorem InventoryDb.le_observations (db : InventoryDb) {observations : Sql.Table _} (h : db.observations ≤ observations) :
    db ≤ { db with observations } := { InventoryDb.Extends.refl db with observations := h }

theorem InventoryDb.le_sites (db : InventoryDb) {sites : Sql.Table _} (h : db.sites ≤ sites) :
    db ≤ { db with sites } := { InventoryDb.Extends.refl db with sites := h }

theorem InventoryDb.le_entities (db : InventoryDb) {entities : Sql.Table _} (h : db.entities ≤ entities) :
    db ≤ { db with entities } := { InventoryDb.Extends.refl db with entities := h }

theorem InventoryDb.le_relationships (db : InventoryDb) {relationships : Sql.Table _} (h : db.relationships ≤ relationships) :
    db ≤ { db with relationships } := { InventoryDb.Extends.refl db with relationships := h }

theorem InventoryDb.checkDeployment_congr {db d : InventoryDb}
    (h : d.deployments = db.deployments) (deploymentId : Nat) :
    d.checkDeployment deploymentId = db.checkDeployment deploymentId := by
  unfold checkDeployment
  rw [h]

/-- The store with another database. -/
def Store.withDb (st : Store) (db : InventoryDb) : Store := { st with db }

namespace Writer

variable {w : Writer}

/-! ## Steps over the database -/

theorem storeObservation_replays (subjectType : Str) (subjectId : Option Nat)
    (factType factValueJson : Str) (confidence : Confidence) :
    Replays (fun db => db) (fun _ d => d) fun db =>
      w.storeObservation db subjectType subjectId factType factValueJson confidence := by
  intro db db' h
  obtain ⟨⟨⟩, hbind, h⟩ := Except.bind_eq_ok.mp h
  obtain ⟨⟨⟩, hdeployment, h⟩ := Except.bind_eq_ok.mp h
  cases h
  refine ⟨db.le_observations (Sql.Table.extends_insertOrIgnore db.observations _),
    fun d hd => ?_⟩
  have hdeployments : d.deployments = db.deployments :=
    (InventoryDb.Extends.deployments hd).trans rfl
  have hrows : Sql.Table.insertOrIgnore db.observations _ ≤ d.observations :=
    InventoryDb.Extends.observations hd
  refine Except.bind_eq_ok.mpr ⟨⟨⟩, hbind, Except.bind_eq_ok.mpr ⟨⟨⟩, ?_, ?_⟩⟩
  · exact (InventoryDb.checkDeployment_congr hdeployments _).trans hdeployment
  · exact congrArg (fun observations => Except.ok { d with observations })
      (Sql.Table.insertOrIgnore_of_le hrows rfl)

theorem storeAlias_replays (deviceId : Nat) (identifier : IdentityEvidence) :
    Replays (fun db => db) (fun _ d => d) fun db => w.storeAlias deviceId db identifier := by
  intro db db' h
  obtain ⟨⟨⟩, hbind, h⟩ := Except.bind_eq_ok.mp h
  cases h
  refine ⟨db.le_aliases (Sql.Table.extends_insertOrIgnore db.aliases _), fun d hd => ?_⟩
  have hrows : Sql.Table.insertOrIgnore db.aliases _ ≤ d.aliases :=
    InventoryDb.Extends.aliases hd
  refine Except.bind_eq_ok.mpr ⟨⟨⟩, hbind, ?_⟩
  exact congrArg (fun aliases => Except.ok { d with aliases })
    (Sql.Table.insertOrIgnore_of_le hrows rfl)

/-! ## Steps over the database and the dictionaries -/

theorem storeDevice_replays (device : CanonicalDevice) :
    Replays Store.db Store.withDb fun st => w.storeDevice st device := by
  intro st st' h
  obtain ⟨⟨⟩, hbind, h⟩ := Except.bind_eq_ok.mp h
  obtain ⟨⟨⟩, hdeployment, h⟩ := Except.bind_eq_ok.mp h
  obtain ⟨⟨devices, deviceId⟩, hinsert, h⟩ := Except.bind_eq_ok.mp h
  obtain ⟨db₁, haliases, h⟩ := Except.bind_eq_ok.mp h
  obtain ⟨db₂, hfacts, h⟩ := Except.bind_eq_ok.mp h
  cases h
  have hle₀ := st.db.le_devices (insertSelect_spec hinsert).1
  obtain ⟨hle₁, hagain₁⟩ :=
    Replayed.foldlM (fun identifier _ => storeAlias_replays deviceId identifier) _ _ haliases
  obtain ⟨hle₂, hagain₂⟩ := Replayed.foldlM (fun (fact : FactEvidence) _ =>
    storeObservation_replays (str "device") (some deviceId) fact.field
      ((Json.string fact.value.val).dumps {}) fact.confidence) _ _ hfacts
  refine ⟨(hle₀.trans hle₁).trans hle₂, fun d hd => ?_⟩
  have hd₁ : db₁ ≤ d := hle₂.trans hd
  have hd₀ : { st.db with devices } ≤ d := hle₁.trans hd₁
  refine Except.bind_eq_ok.mpr ⟨⟨⟩, hbind, Except.bind_eq_ok.mpr ⟨⟨⟩, ?_, ?_⟩⟩
  · exact (InventoryDb.checkDeployment_congr (InventoryDb.Extends.deployments hd₀) _).trans hdeployment
  · have hagain := insertSelect_of_le hinsert (InventoryDb.Extends.devices hd₀) rfl true
    refine Except.bind_eq_ok.mpr ⟨⟨d.devices, deviceId⟩, hagain, ?_⟩
    refine Except.bind_eq_ok.mpr ⟨d, hagain₁ d hd₁, ?_⟩
    exact Except.bind_eq_ok.mpr ⟨d, hagain₂ d hd, rfl⟩

theorem storeSite_replays (site : Str × Option Str) :
    Replays Store.db Store.withDb fun st => w.storeSite st site := by
  intro st st' h
  obtain ⟨⟨⟩, hbind, h⟩ := Except.bind_eq_ok.mp h
  obtain ⟨⟨⟩, hdeployment, h⟩ := Except.bind_eq_ok.mp h
  obtain ⟨⟨sites, siteId⟩, hinsert, h⟩ := Except.bind_eq_ok.mp h
  cases h
  refine ⟨st.db.le_sites (insertSelect_spec hinsert).1, fun d hd => ?_⟩
  refine Except.bind_eq_ok.mpr ⟨⟨⟩, hbind, Except.bind_eq_ok.mpr ⟨⟨⟩, ?_, ?_⟩⟩
  · exact (InventoryDb.checkDeployment_congr (InventoryDb.Extends.deployments hd) _).trans hdeployment
  · have hagain := insertSelect_of_le hinsert (InventoryDb.Extends.sites hd) rfl true
    exact Except.bind_eq_ok.mpr ⟨⟨d.sites, siteId⟩, hagain, rfl⟩

theorem storeEntity_replays (e : UniFiEntity) :
    Replays Store.db Store.withDb fun st => w.storeEntity st e := by
  intro st st' h
  obtain ⟨siteId, hsite, h⟩ := Except.bind_eq_ok.mp h
  obtain ⟨attributes, hattributes, h⟩ := Except.bind_eq_ok.mp h
  obtain ⟨⟨⟩, hbind, h⟩ := Except.bind_eq_ok.mp h
  obtain ⟨⟨entities, entityId⟩, hinsert, h⟩ := Except.bind_eq_ok.mp h
  cases h
  refine ⟨st.db.le_entities (insertSelect_spec hinsert).1, fun d hd => ?_⟩
  have hagain := insertSelect_of_le hinsert (InventoryDb.Extends.entities hd) rfl
    (Json.dict attributes).isFinite
  refine Except.bind_eq_ok.mpr ⟨siteId, hsite, Except.bind_eq_ok.mpr ⟨_, hattributes, ?_⟩⟩
  refine Except.bind_eq_ok.mpr ⟨⟨⟩, hbind, ?_⟩
  exact Except.bind_eq_ok.mpr ⟨⟨d.entities, entityId⟩, hagain, rfl⟩

theorem storeRelationship_replays (x : UniFiRelationship) :
    Replays Store.db Store.withDb fun st => w.storeRelationship st x := by
  intro st st' h
  dsimp only at h ⊢
  unfold storeRelationship at h
  cases hlocal : st.entityIds.get x.localScopedId with
  | none =>
    rw [hlocal] at h
    cases h
    refine ⟨le_rfl, fun d _ => ?_⟩
    simp only [storeRelationship, Store.withDb, hlocal]
  | some localId =>
    rw [hlocal] at h
    obtain ⟨siteId, hsite, h⟩ := Except.bind_eq_ok.mp h
    obtain ⟨⟨⟩, hbind, h⟩ := Except.bind_eq_ok.mp h
    cases h
    refine ⟨st.db.le_relationships (Sql.Table.extends_insertOrIgnore st.db.relationships _),
      fun d hd => ?_⟩
    have hrows : Sql.Table.insertOrIgnore st.db.relationships _ ≤ d.relationships :=
      InventoryDb.Extends.relationships hd
    simp only [storeRelationship, Store.withDb, hlocal]
    refine Except.bind_eq_ok.mpr ⟨siteId, hsite, Except.bind_eq_ok.mpr ⟨⟨⟩, hbind, ?_⟩⟩
    exact congrArg (fun relationships => Except.ok { st with db := { d with relationships } })
      (Sql.Table.insertOrIgnore_of_le hrows rfl)

theorem storeCoverage_replays (issue : UniFiCoverageIssue) :
    Replays Store.db Store.withDb fun st => w.storeCoverage st issue := by
  intro st st' h
  obtain ⟨detail, hdetail, h⟩ := Except.bind_eq_ok.mp h
  obtain ⟨db, hdb, h⟩ := Except.bind_eq_ok.mp h
  cases h
  obtain ⟨hle, hagain⟩ := storeObservation_replays _ _ _ _ _ _ _ hdb
  refine ⟨hle, fun d hd => ?_⟩
  exact Except.bind_eq_ok.mpr ⟨detail, hdetail, Except.bind_eq_ok.mpr ⟨d, hagain d hd, rfl⟩⟩

/-! ## The transaction -/

/-- A second run over a database that holds what the first one left leaves it as it is. -/
theorem storeInventory_again {inventory : NormalizedUniFiInventory}
    {devices : List CanonicalDevice} {db d : InventoryDb} {st : Store}
    (h : w.storeInventory inventory devices db = .ok st) (hd : st.db ≤ d) :
    w.storeInventory inventory devices d = .ok (st.withDb d) := by
  unfold storeInventory at h ⊢
  obtain ⟨st₁, hdevices, h⟩ := Except.bind_eq_ok.mp h
  obtain ⟨st₂, hsites, h⟩ := Except.bind_eq_ok.mp h
  obtain ⟨st₃, hentities, h⟩ := Except.bind_eq_ok.mp h
  obtain ⟨st₄, hrelationships, hcoverage⟩ := Except.bind_eq_ok.mp h
  obtain ⟨-, hagain₁⟩ := Replayed.foldlM (fun a _ => storeDevice_replays a) _ _ hdevices
  obtain ⟨hle₂, hagain₂⟩ := Replayed.foldlM (fun a _ => storeSite_replays a) _ _ hsites
  obtain ⟨hle₃, hagain₃⟩ := Replayed.foldlM (fun a _ => storeEntity_replays a) _ _ hentities
  obtain ⟨hle₄, hagain₄⟩ :=
    Replayed.foldlM (fun a _ => storeRelationship_replays a) _ _ hrelationships
  obtain ⟨hle₅, hagain₅⟩ := Replayed.foldlM (fun a _ => storeCoverage_replays a) _ _ hcoverage
  have hd₄ := hle₅.trans hd
  have hd₃ := hle₄.trans hd₄
  have hd₂ := hle₃.trans hd₃
  have hstart := hagain₁ d (hle₂.trans hd₂)
  dsimp only [Store.withDb] at hstart hagain₂ hagain₃ hagain₄ hagain₅ ⊢
  rw [hstart, Except.ok_bind, hagain₂ d hd₂, Except.ok_bind, hagain₃ d hd₃, Except.ok_bind,
    hagain₄ d hd₄, Except.ok_bind, hagain₅ d hd]

end Writer

/-- What a run stored stands, whatever is added to it: the same inventory leaves the database as it
is. -/
theorem persistInventory_again {rt : Runtime} {so : SetOrder} {redactor : Redactor}
    {deploymentId : Nat} {inventory : NormalizedUniFiInventory} {db db' d : InventoryDb}
    {count : Nat}
    (h : persistInventory rt so redactor deploymentId inventory db = .ok (db', count))
    (hd : db' ≤ d) (so' : SetOrder) :
    persistInventory rt so' redactor deploymentId inventory d = .ok (d, count) := by
  unfold persistInventory at h ⊢
  obtain ⟨result, hresult, h⟩ := Except.bind_eq_ok.mp h
  obtain ⟨st, hst, h⟩ := Except.bind_eq_ok.mp h
  cases h
  obtain ⟨result', hresult', hdevices⟩ := correlate_devices hresult so'
  rw [hresult', Except.ok_bind, hdevices]
  dsimp only
  rw [Writer.storeInventory_again hst hd]
  rfl

end FieldDiscovery.Unifi
