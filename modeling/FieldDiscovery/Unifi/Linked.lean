import FieldDiscovery.Unifi.Repeat
import FieldDiscovery.Unifi.Uplinks

/-!
# Entities and their devices

A device or client entity of an inventory names the observation that was made of its record, the
correlation puts that observation into one device, and `canonical_by_observation` holds the row of
that device. So the row of the entity, where the transaction is the first to write it, points to the
row under the canonical key of the device.
-/

namespace FieldDiscovery.Unifi

open Py Correlation Redaction Repository

/-! ## Entities and observations -/

namespace Reader

variable {reader : Reader}

/-- Every entity of a device or a client names an observation. -/
def Observed (st : ReadState) : Prop :=
  ∀ e ∈ st.entities, e.kind.isDevice = true → ∃ o ∈ st.devices, e.observationId = some o.id

theorem Observed.insert {st st' : ReadState} (h : Observed st) {e : UniFiEntity}
    (hentities : st'.entities = st.entities ++ [e]) (hdevices : st.devices ⊆ st'.devices)
    (he : e.kind.isDevice = true → ∃ o ∈ st'.devices, e.observationId = some o.id) :
    Observed st' := by
  intro e' he' hkind
  rw [hentities] at he'
  rcases List.mem_append.mp he' with he' | he'
  · obtain ⟨o, ho, hid⟩ := h e' he' hkind
    exact ⟨o, hdevices ho, hid⟩
  · obtain rfl := List.mem_singleton.mp he'
    exact he hkind

theorem Observed.ports {st : ReadState} (h : Observed st) (siteKey controllerId : Str)
    (values : List Json) : Observed (values.foldl (reader.readPort siteKey controllerId) st) := by
  induction values generalizing st with
  | nil => exact h
  | cons value values ih =>
    refine ih ?_
    unfold readPort
    cases value with
    | dict port =>
      simp only
      split
      · exact h
      · exact h.insert rfl (List.Subset.refl _) fun hkind => by cases hkind
    | _ => exact h

theorem Observed.reading {st st' : ReadState} (h : Observed st) {r : Reading}
    (hst : reader.readReading st r = .ok st') : Observed st' := by
  obtain ⟨active, -, hcases⟩ := readReading_cases hst
  rcases hcases with ⟨-, o, -, st₁, hst₁, rfl⟩ | ⟨hkind, rfl⟩
  · have hread : Observed st₁ := by
      rw [hst₁]
      refine Observed.ports ?_ _ _ _
      refine h.insert rfl (List.subset_append_left _ _) fun _ => ?_
      exact ⟨o, List.mem_append_right _ (List.mem_singleton_self o), rfl⟩
    exact hread
  · refine Observed.ports ?_ _ _ _
    refine h.insert rfl (List.Subset.refl _) fun hdevice => ?_
    exact absurd (hkind.symm.trans hdevice) (by decide)

theorem Observed.site {snapshot : UniFiSnapshot} {st st' : ReadState} (h : Observed st)
    {site : Record × Nat} (hst : reader.readSite snapshot st site = .ok st') : Observed st' := by
  unfold readSite at hst
  refine Except.foldlM_invariant (P := Observed) ?_ ?_ hst
  · exact h
  intro resource _ st st' hs hresource
  refine Except.foldlM_invariant (P := Observed) hs ?_ hresource
  intro value _ st st' hs hrecord
  unfold readRecord at hrecord
  split at hrecord
  · exact hs.reading hrecord
  · cases hrecord
    exact hs

/-- An entity of a device or a client of an inventory names one of its observations. -/
theorem exists_observation_of_entity {rt : Runtime} {printable : CodePoint → Bool}
    {snapshot : UniFiSnapshot} {observedAt : Datetime} {staleAfter : Int}
    {inv : NormalizedUniFiInventory}
    (h : normalizeSnapshot rt printable snapshot (some observedAt) staleAfter = .ok inv)
    {e : UniFiEntity} (he : e ∈ inv.entities) (hkind : e.kind.isDevice = true) :
    ∃ o ∈ inv.devices, e.observationId = some o.id := by
  unfold normalizeSnapshot at h
  obtain ⟨st, hst, h⟩ := Except.bind_eq_ok.mp h
  obtain ⟨sites, -, h⟩ := Except.bind_eq_ok.mp h
  obtain rfl := Except.ok.inj h
  have hobserved : Observed st := by
    refine Except.foldlM_invariant (P := Observed) (fun e he => ?_) ?_ hst
    · exact absurd he List.not_mem_nil
    · exact fun site _ st st' hs hsite => hs.site hsite
  obtain ⟨o, ho, hid⟩ := hobserved e (mem_sortedBy.mp he) hkind
  exact ⟨o, mem_sortedBy.mpr ho, hid⟩

end Reader

/-! ## Observations and devices -/

namespace Writer

variable {w : Writer}

/-- `canonical_by_observation` holds the row of the device of every observation. -/
structure DevicesStored (w : Writer) (done : List CanonicalDevice) (st : Store) : Prop where
  stored : ∀ d ∈ done, ∀ x ∈ d.observationIds, ∃ id, st.canonicalByObservation.get x = some id
  find : ∀ x id, st.canonicalByObservation.get x = some id → ∃ d ∈ done, x ∈ d.observationIds ∧
    st.db.devices.find (w.deploymentId, d.canonicalKey) = some id

theorem storeDevice_spec {done : List CanonicalDevice} {st st' : Store} {device : CanonicalDevice}
    (hst : DevicesStored w done st) (h : w.storeDevice st device = .ok st') :
    DevicesStored w (done ++ [device]) st' := by
  obtain ⟨devices, deviceId, aliases, observations, hinsert, rfl⟩ := storeDevice_cases h
  obtain ⟨hext, k, hk, hfind⟩ := insertSelect_spec hinsert
  cases hk
  refine ⟨fun d hd x hx => ?_, fun x id hid => ?_⟩
  · simp only [Dict.get_foldl_set_const]
    split
    · exact ⟨_, rfl⟩
    · next hnew =>
      rcases List.mem_append.mp hd with hd | hd
      · exact hst.stored d hd x hx
      · obtain rfl := List.mem_singleton.mp hd
        exact absurd hx hnew
  · simp only [Dict.get_foldl_set_const] at hid
    split at hid
    · next hx =>
      cases hid
      exact ⟨device, List.mem_append_right _ (List.mem_singleton_self _), hx, hfind⟩
    · obtain ⟨d, hd, hx, hfound⟩ := hst.find x id hid
      exact ⟨d, List.mem_append_left _ hd, hx, hext.find hfound⟩

/-! ## Entity rows -/

/-- The row of an entity that was read, with what the dictionaries gave. -/
def Written (w : Writer) (st : Store) (e : UniFiEntity) (row : EntityRow) : Prop :=
  ∃ siteId attributesJson, st.siteIds.get e.siteKey = some siteId ∧
    row = w.entityRow siteId (e.observationId.bind st.canonicalByObservation.get) attributesJson e

theorem storeEntity_written {st st' : Store} {e : UniFiEntity}
    (h : w.storeEntity st e = .ok st') : (∀ row ∈ st'.db.entities.rows,
      row ∈ st.db.entities.rows ∨ w.Written st e row.2) ∧
    st'.db.devices = st.db.devices ∧ st'.canonicalByObservation = st.canonicalByObservation ∧
    st'.siteIds = st.siteIds := by
  unfold storeEntity at h
  obtain ⟨siteId, hsite, h⟩ := Except.bind_eq_ok.mp h
  obtain ⟨attributes, -, h⟩ := Except.bind_eq_ok.mp h
  obtain ⟨-, -, h⟩ := Except.bind_eq_ok.mp h
  obtain ⟨⟨entities, entityId⟩, hinsert, h⟩ := Except.bind_eq_ok.mp h
  cases h
  refine ⟨fun row hrow => ?_, rfl, rfl, rfl⟩
  refine (mem_of_insertSelect hinsert hrow).imp_right fun heq => ⟨siteId, _, ?_, heq⟩
  unfold Writer.siteId at hsite
  split at hsite
  · next hget =>
    cases hsite
    exact hget
  · cases hsite

theorem storeSite_keeps {st st' : Store} {site : Str × Option Str}
    (h : w.storeSite st site = .ok st') : st'.db.devices = st.db.devices ∧
      st'.canonicalByObservation = st.canonicalByObservation ∧
      st'.db.entities = st.db.entities := by
  unfold storeSite at h
  obtain ⟨-, -, h⟩ := Except.bind_eq_ok.mp h
  obtain ⟨-, -, h⟩ := Except.bind_eq_ok.mp h
  obtain ⟨⟨sites, siteId⟩, -, h⟩ := Except.bind_eq_ok.mp h
  cases h
  exact ⟨rfl, rfl, rfl⟩

theorem storeRelationship_keeps {st st' : Store} {x : UniFiRelationship}
    (h : w.storeRelationship st x = .ok st') : ∃ relationships,
      st' = { st with db := { st.db with relationships } } := by
  unfold storeRelationship at h
  split at h
  · cases h
    exact ⟨_, rfl⟩
  · obtain ⟨siteId, -, h⟩ := Except.bind_eq_ok.mp h
    obtain ⟨-, -, h⟩ := Except.bind_eq_ok.mp h
    cases h
    exact ⟨_, rfl⟩

theorem storeCoverage_keeps {st st' : Store} {issue : UniFiCoverageIssue}
    (h : w.storeCoverage st issue = .ok st') : ∃ observations,
      st' = { st with db := { st.db with observations } } := by
  unfold storeCoverage at h
  obtain ⟨detail, -, h⟩ := Except.bind_eq_ok.mp h
  obtain ⟨db, hdb, h⟩ := Except.bind_eq_ok.mp h
  cases h
  obtain ⟨observations, rfl⟩ := storeObservation_frame hdb
  exact ⟨_, rfl⟩

/-! ## The transaction -/

/-- Every device has its row, and every new entity row is that of an entity. -/
structure Traced (w : Writer) (devices : List CanonicalDevice) (entities : List UniFiEntity)
    (base : List (Nat × EntityRow)) (st : Store) : Prop where
  devices : DevicesStored w devices st
  rows : ∀ row ∈ st.db.entities.rows, row ∈ base ∨ ∃ e ∈ entities, w.Written st e row.2

theorem Traced.congr {devices : List CanonicalDevice} {entities : List UniFiEntity}
    {base : List (Nat × EntityRow)} {st st' : Store} (h : Traced w devices entities base st)
    (hdevices : st'.db.devices = st.db.devices)
    (hcanonical : st'.canonicalByObservation = st.canonicalByObservation)
    (hsites : st'.siteIds = st.siteIds) (hentities : st'.db.entities = st.db.entities) :
    Traced w devices entities base st' := by
  refine ⟨⟨?_, ?_⟩, ?_⟩
  · rw [hcanonical]
    exact h.devices.stored
  · rw [hcanonical, hdevices]
    exact h.devices.find
  · unfold Written
    rw [hcanonical, hsites, hentities]
    exact h.rows

theorem storeInventory_traced {inventory : NormalizedUniFiInventory}
    {devices : List CanonicalDevice} {db : InventoryDb} {st : Store}
    (h : w.storeInventory inventory devices db = .ok st) :
    Traced w devices inventory.entities db.entities.rows st := by
  unfold storeInventory at h
  obtain ⟨st₁, hdevices, h⟩ := Except.bind_eq_ok.mp h
  obtain ⟨st₂, hsites, h⟩ := Except.bind_eq_ok.mp h
  obtain ⟨st₃, hentities, h⟩ := Except.bind_eq_ok.mp h
  obtain ⟨st₄, hrelationships, hcoverage⟩ := Except.bind_eq_ok.mp h
  have h₁ : DevicesStored w devices st₁ ∧ st₁.db.entities = db.entities := by
    have hrun := Except.foldlM_related (g := fun done d => done ++ [d]) (d := [])
      (R := fun done (st : Store) => DevicesStored w done st ∧ st.db.entities = db.entities)
      ?_ ?_ hdevices
    · rwa [foldl_snoc, List.nil_append] at hrun
    · exact ⟨⟨by simp, fun x id hid => by cases hid⟩, rfl⟩
    · rintro d - done st st' ⟨hst, hkeep⟩ hstep
      exact ⟨storeDevice_spec hst hstep, (storeDevice_frame hstep).entities.trans hkeep⟩
  have h₂ : DevicesStored w devices st₂ ∧ st₂.db.entities = db.entities := by
    refine Except.foldlM_invariant
      (P := fun st : Store => DevicesStored w devices st ∧ st.db.entities = db.entities) h₁ ?_ hsites
    rintro site - st st' ⟨hst, hkeep⟩ hstep
    obtain ⟨hrows, hcanonical, hentities⟩ := storeSite_keeps hstep
    refine ⟨⟨?_, ?_⟩, hentities.trans hkeep⟩
    · rw [hcanonical]
      exact hst.stored
    · rw [hcanonical, hrows]
      exact hst.find
  have h₃ : Traced w devices inventory.entities db.entities.rows st₃ := by
    have hrun := Except.foldlM_related (g := fun done e => done ++ [e]) (d := [])
      (R := fun done (st : Store) => Traced w devices done db.entities.rows st) ?_ ?_ hentities
    · rwa [foldl_snoc, List.nil_append] at hrun
    · exact ⟨h₂.1, fun row hrow => .inl (h₂.2 ▸ hrow)⟩
    · intro e _ done st st' hst hstep
      obtain ⟨hrows, hdevices, hcanonical, hsites⟩ := storeEntity_written hstep
      refine ⟨⟨?_, ?_⟩, fun row hrow => ?_⟩
      · rw [hcanonical]
        exact hst.devices.stored
      · rw [hcanonical, hdevices]
        exact hst.devices.find
      · unfold Written
        rw [hcanonical, hsites]
        rcases hrows row hrow with hrow | hwritten
        · refine (hst.rows row hrow).imp_right ?_
          rintro ⟨e', he', hwritten⟩
          exact ⟨e', List.mem_append_left _ he', hwritten⟩
        · exact .inr ⟨e, List.mem_append_right _ (List.mem_singleton_self e), hwritten⟩
  have h₄ : Traced w devices inventory.entities db.entities.rows st₄ := by
    refine Except.foldlM_invariant h₃ (fun x _ st st' hst hstep => ?_) hrelationships
    obtain ⟨relationships, rfl⟩ := storeRelationship_keeps hstep
    exact hst.congr rfl rfl rfl rfl
  refine Except.foldlM_invariant h₄ (fun x _ st st' hst hstep => ?_) hcoverage
  obtain ⟨observations, rfl⟩ := storeCoverage_keeps hstep
  exact hst.congr rfl rfl rfl rfl

/-! ## Rows that point to devices -/

/-- The row points to the row under the canonical key of the device. -/
def PointsTo (w : Writer) (db : InventoryDb) (row : EntityRow) (d : CanonicalDevice) : Prop :=
  ∃ device ∈ db.devices.rows, row.canonicalDeviceId = some device.1 ∧
    device.2.deploymentId = w.deploymentId ∧ device.2.canonicalKey = d.canonicalKey

/-- A row that the transaction wrote is that of an entity, and points to the device of the
entity's observation. -/
theorem Traced.exists_entity {devices : List CanonicalDevice}
    {inventory : NormalizedUniFiInventory} {base : List (Nat × RelationshipRow)}
    {entities : List (Nat × EntityRow)} {st : Store}
    (h : Traced w devices inventory.entities entities st) (hst : Stored w inventory base st)
    {row : Nat × EntityRow} (hrow : row ∈ st.db.entities.rows) (hnew : row ∉ entities) :
    ∃ e ∈ inventory.entities, w.RowOf st.db e row.2 ∧
      ∀ x, e.observationId = some x → ∀ d ∈ devices, x ∈ d.observationIds →
        (∀ d' ∈ devices, x ∈ d'.observationIds → d' = d) → w.PointsTo st.db row.2 d := by
  obtain ⟨e, he, siteId, attributesJson, hsite, heq⟩ := (h.rows row hrow).resolve_left hnew
  refine ⟨e, he, ⟨?_, ?_⟩, fun x hx d hd hmem hunique => ?_⟩
  · rw [heq]
    exact hst.sites.find _ siteId hsite
  · rw [heq]
    rfl
  · obtain ⟨id, hid⟩ := h.devices.stored d hd x hmem
    obtain ⟨d', hd', hmem', hfind⟩ := h.devices.find x id hid
    obtain rfl := hunique d' hd' hmem'
    obtain ⟨device, hdevice, hkey⟩ := Sql.Table.find_eq_some.mp hfind
    obtain ⟨hdeployment, hcanonical⟩ := Prod.mk.inj (Option.some.inj hkey)
    refine ⟨(id, device), hdevice, ?_, hdeployment, hcanonical⟩
    rw [heq]
    show e.observationId.bind _ = _
    rw [hx]
    exact hid

end Writer

/-! ## Main theorem -/

/-- An inventory that was stored is stored again without a trace. And where its time had no rows of
entities yet, every entity has its row, and the row of a device or a client points to the device
that the correlation put its observation in. -/
theorem persistInventory_idempotent_linked {rt : Runtime} {printable : CodePoint → Bool}
    {snapshot : UniFiSnapshot} {observedAt : Datetime} {staleAfter : Int}
    {inv : NormalizedUniFiInventory} {so : SetOrder} {redactor : Redactor} {deploymentId : Nat}
    {db db' : InventoryDb} {count : Nat}
    (hnorm : normalizeSnapshot rt printable snapshot (some observedAt) staleAfter = .ok inv)
    (hstore : persistInventory rt so redactor deploymentId inv db = .ok (db', count)) :
    let w : Writer :=
      ⟨rt, redactor, deploymentId, inv.controllerKey, inv.observedAt.isoformat⟩
    (∀ so', persistInventory rt so' redactor deploymentId inv db' = .ok (db', count)) ∧
    ((∀ row ∈ db.entities.rows, row.2.source = Writer.source → row.2.observedAt ≠ w.observed) →
      (∀ e ∈ inv.entities, ∃ row ∈ db'.entities.rows, w.RowOf db' e row.2) ∧
      ∃ result, correlate rt so inv.devices = .ok result ∧
        ∀ row ∈ db'.entities.rows, row.2.source = Writer.source → row.2.observedAt = w.observed →
          ∀ kind : EntityKind, kind.isDevice = true → row.2.kind = kind.value →
          ∃ e ∈ inv.entities, w.RowOf db' e row.2 ∧ ∃ o ∈ inv.devices, e.observationId = some o.id ∧
            ∃ d ∈ result.devices, o.id ∈ d.observationIds ∧
              (∀ d' ∈ result.devices, o.id ∈ d'.observationIds → d' = d) ∧
              w.PointsTo db' row.2 d) := by
  intro w
  refine ⟨persistInventory_again hstore le_rfl, fun hfresh => ?_⟩
  unfold persistInventory at hstore
  obtain ⟨result, hresult, hstore⟩ := Except.bind_eq_ok.mp hstore
  obtain ⟨st, hst, hstore⟩ := Except.bind_eq_ok.mp hstore
  cases hstore
  have hstored := Writer.storeInventory_spec hst
  have htraced := Writer.storeInventory_traced hst
  refine ⟨fun e he => hstored.exists_row he fun e' he' hscoped => ?_, result, hresult, ?_⟩
  · obtain ⟨visit, st, hread, hentities, -⟩ := (Reader.normalizeSnapshot_spec hnorm).state
    rw [hentities, mem_sortedBy] at he he'
    exact List.inj_on_of_nodup_map hread.distinct.nodup he' he hscoped
  · intro row hrow hsource hobserved kind hdevice hkind
    obtain ⟨e, he, hrowOf, hpoints⟩ := htraced.exists_entity hstored hrow
      fun hold => hfresh row hold hsource hobserved
    have hkinds : row.2.kind = e.kind.value :=
      congrArg (fun k : Nat × Str × Str × Str × Str => k.2.1) (Option.some.inj hrowOf.key)
    obtain rfl := EntityKind.value_injective (hkinds.symm.trans hkind)
    obtain ⟨o, ho, hid⟩ := Reader.exists_observation_of_entity hnorm he hdevice
    obtain ⟨d, hd, hmem, hunique⟩ := (correlate_accepted hresult).existsUnique_device ho
    exact ⟨e, he, hrowOf, o, ho, hid, d, hd, hmem, hunique, hpoints _ hid d hd hmem hunique⟩

open UplinkSample in
/-- Three devices of a site, stored twice. -/
theorem persistInventory_idempotent_linked_sample : ∃ inv db count,
    normalized resolved = .ok inv ∧ stored inv = .ok (db, count) ∧
    persistInventory reader.rt .insertion writer.redactor writer.deploymentId inv db =
      .ok (db, count) ∧
    (∀ e ∈ inv.entities, ∃ row ∈ db.entities.rows, writer.RowOf db e row.2) ∧
    ∃ row ∈ db.entities.rows, ∃ d, writer.PointsTo db row.2 d := by
  obtain ⟨inv, hinv⟩ := Except.exists_of_isOk
    (by decide +kernel : (normalized resolved).isOk = true)
  have hrun : (normalized resolved >>= stored).toOption.any (fun p => p.1.entities.rows.any
      fun row => row.2.kind = EntityKind.gateway.value && row.2.source = Writer.source &&
        row.2.observedAt = writer.observed) = true := by decide +kernel
  rw [hinv, Except.ok_bind] at hrun
  obtain ⟨⟨db, count⟩, hdb, hany⟩ := (Option.any_eq_true _ _).mp hrun
  have hstore := Except.toOption_eq_some.mp hdb
  obtain ⟨row, hrow, hfields⟩ := List.any_eq_true.mp hany
  simp only [Bool.and_eq_true, decide_eq_true_eq] at hfields
  obtain ⟨⟨hkind, hsource⟩, hobserved⟩ := hfields
  have hspec := Reader.normalizeSnapshot_spec hinv
  obtain ⟨hagain, hlinked⟩ := persistInventory_idempotent_linked hinv hstore
  rw [hspec.controllerKey, hspec.observedAt] at hlinked
  obtain ⟨hrows, result, -, hpoints⟩ := hlinked fun row hrow => absurd hrow List.not_mem_nil
  obtain ⟨e, -, -, o, -, -, d, -, -, -, hpoint⟩ :=
    hpoints row hrow hsource hobserved .gateway rfl hkind
  exact ⟨inv, db, count, hinv, hstore, hagain _, hrows, row, hrow, d, hpoint⟩

end FieldDiscovery.Unifi
