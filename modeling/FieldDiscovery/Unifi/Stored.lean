import FieldDiscovery.Unifi.Persist

/-!
# What a stored inventory leaves

The loops of `persist_inventory` one after the other, each with the account of what it has stored:
the sites and entities stand under the ids of their dictionaries, and every relationship whose local
entity has an id has a row under its key.
-/

namespace FieldDiscovery.Unifi

open Py Correlation Redaction Repository

/-- A loop that has gone through all items. -/
theorem foldl_snoc {α : Type*} (l done : List α) :
    l.foldl (fun done a => done ++ [a]) done = done ++ l := by
  induction l generalizing done with
  | nil => simp
  | cons a l ih => simp [ih]

namespace Writer

variable {w : Writer}

/-! ## Devices -/

theorem storeObservation_frame {db db' : InventoryDb} {subjectType : Str} {subjectId : Option Nat}
    {factType factValueJson : Str} {confidence : Confidence}
    (h : w.storeObservation db subjectType subjectId factType factValueJson confidence = .ok db') :
    ∃ observations, db' = { db with observations } := by
  unfold storeObservation at h
  obtain ⟨-, -, h⟩ := Except.bind_eq_ok.mp h
  obtain ⟨-, -, h⟩ := Except.bind_eq_ok.mp h
  cases h
  exact ⟨_, rfl⟩

theorem storeAlias_frame {deviceId : Nat} {db db' : InventoryDb} {identifier : IdentityEvidence}
    (h : w.storeAlias deviceId db identifier = .ok db') : ∃ aliases, db' = { db with aliases } := by
  unfold storeAlias at h
  obtain ⟨-, -, h⟩ := Except.bind_eq_ok.mp h
  cases h
  exact ⟨_, rfl⟩

/-- What storing a device leaves. -/
theorem storeDevice_cases {st st' : Store} {device : CanonicalDevice}
    (h : w.storeDevice st device = .ok st') : ∃ devices deviceId aliases observations,
      insertSelect st.db.devices
        { deploymentId := w.deploymentId, canonicalKey := device.canonicalKey
          createdAt := w.observed } = .ok (devices, deviceId) ∧
      st' = { st with
        db := { st.db with devices, aliases, observations }
        canonicalByObservation := device.observationIds.foldl (fun ids id => ids.set id deviceId)
          st.canonicalByObservation } := by
  unfold storeDevice at h
  obtain ⟨-, -, h⟩ := Except.bind_eq_ok.mp h
  obtain ⟨-, -, h⟩ := Except.bind_eq_ok.mp h
  obtain ⟨⟨devices, deviceId⟩, hinsert, h⟩ := Except.bind_eq_ok.mp h
  obtain ⟨db₁, hdb₁, h⟩ := Except.bind_eq_ok.mp h
  obtain ⟨db₂, hdb₂, h⟩ := Except.bind_eq_ok.mp h
  cases h
  have haliases := Except.foldlM_invariant
    (P := fun db => ∃ aliases, db = { st.db with devices, aliases }) ⟨_, rfl⟩
    (fun identifier _ db db' hdb hstep => by
      obtain ⟨aliases, rfl⟩ := hdb
      exact storeAlias_frame hstep) hdb₁
  obtain ⟨aliases, rfl⟩ := haliases
  have hfacts := Except.foldlM_invariant
    (P := fun db => ∃ observations, db = { st.db with devices, aliases, observations }) ⟨_, rfl⟩
    (fun fact _ db db' hdb hstep => by
      obtain ⟨observations, rfl⟩ := hdb
      exact storeObservation_frame hstep) hdb₂
  obtain ⟨observations, rfl⟩ := hfacts
  exact ⟨devices, deviceId, aliases, observations, hinsert, rfl⟩

/-- The tables and dictionaries of the controller's own objects. -/
structure SameObjects (st st' : Store) : Prop where
  sites : st'.db.sites = st.db.sites
  entities : st'.db.entities = st.db.entities
  relationships : st'.db.relationships = st.db.relationships
  siteIds : st'.siteIds = st.siteIds
  entityIds : st'.entityIds = st.entityIds

theorem storeDevice_frame {st st' : Store} {device : CanonicalDevice}
    (h : w.storeDevice st device = .ok st') : SameObjects st st' := by
  obtain ⟨devices, deviceId, aliases, observations, -, rfl⟩ := storeDevice_cases h
  exact ⟨rfl, rfl, rfl, rfl, rfl⟩

theorem SameObjects.refl (st : Store) : SameObjects st st := ⟨rfl, rfl, rfl, rfl, rfl⟩

theorem SameObjects.trans {st st' st'' : Store} (h : SameObjects st st')
    (h' : SameObjects st' st'') : SameObjects st st'' where
  sites := h'.sites.trans h.sites
  entities := h'.entities.trans h.entities
  relationships := h'.relationships.trans h.relationships
  siteIds := h'.siteIds.trans h.siteIds
  entityIds := h'.entityIds.trans h.entityIds

/-! ## Sites -/

variable (w)

/-- The key of the site under `siteKey`. -/
def siteKeyOf (siteKey : Str) : Nat × Str × Str × Str × Str :=
  (w.deploymentId, w.controllerKey, siteKey, source, w.observed)

/-- The key of an entity of the site with this id. -/
def entityKeyOf (siteId : Nat) (kind : EntityKind) (controllerId : Str) :
    Nat × Str × Str × Str × Str :=
  (siteId, kind.value, controllerId, source, w.observed)

variable {w}

/-- `site_ids` holds the row of every site that is stored. -/
structure SitesStored (w : Writer) (sites : Sql.Table SiteRow.key) (siteIds : Dict Str Nat) :
    Prop where
  find : ∀ siteKey id, siteIds.get siteKey = some id → sites.find (w.siteKeyOf siteKey) = some id

/-- Sites of different keys have different ids. -/
theorem SitesStored.inj {sites : Sql.Table SiteRow.key} {siteIds : Dict Str Nat}
    (h : SitesStored w sites siteIds) {a b : Str} {id : Nat} (ha : siteIds.get a = some id)
    (hb : siteIds.get b = some id) : a = b := by
  have hkey := Sql.Table.find_inj (h.find a id ha) (h.find b id hb)
  unfold siteKeyOf at hkey
  simp only [Prod.mk.injEq] at hkey
  exact hkey.2.2.1

theorem storeSite_spec {st st' : Store} {site : Str × Option Str}
    (h : w.storeSite st site = .ok st') (hst : SitesStored w st.db.sites st.siteIds) :
    SitesStored w st'.db.sites st'.siteIds ∧ st'.db.entities = st.db.entities ∧
      st'.db.relationships = st.db.relationships ∧ st'.entityIds = st.entityIds := by
  unfold storeSite at h
  obtain ⟨-, -, h⟩ := Except.bind_eq_ok.mp h
  obtain ⟨-, -, h⟩ := Except.bind_eq_ok.mp h
  obtain ⟨⟨sites, siteId⟩, hinsert, h⟩ := Except.bind_eq_ok.mp h
  cases h
  obtain ⟨hext, k, hk, hfind⟩ := insertSelect_spec hinsert
  refine ⟨⟨fun siteKey id hid => ?_⟩, rfl, rfl, rfl⟩
  rw [Dict.get_set] at hid
  split at hid
  · next heq =>
    cases hid
    cases hk
    rw [← heq]
    exact hfind
  · exact hext.find (hst.find siteKey id hid)

/-! ## Entities -/

/-- `entity_ids` holds the row of every entity that is stored, and of no other. -/
structure EntitiesStored (w : Writer) (siteIds : Dict Str Nat) (done : List UniFiEntity)
    (st : Store) : Prop where
  sameSites : st.siteIds = siteIds
  stored : ∀ e ∈ done, ∃ id, st.entityIds.get e.scopedId = some id
  find : ∀ s id, st.entityIds.get s = some id → ∃ e ∈ done, e.scopedId = s ∧
    ∃ siteId, siteIds.get e.siteKey = some siteId ∧
      st.db.entities.find (w.entityKeyOf siteId e.kind e.controllerId) = some id

theorem storeEntity_spec {siteIds : Dict Str Nat} {done : List UniFiEntity} {st st' : Store}
    {e : UniFiEntity} (hst : EntitiesStored w siteIds done st) (h : w.storeEntity st e = .ok st') :
    EntitiesStored w siteIds (done ++ [e]) st' ∧ st'.db.sites = st.db.sites ∧
      st'.db.relationships = st.db.relationships := by
  unfold storeEntity at h
  obtain ⟨siteId, hsite, h⟩ := Except.bind_eq_ok.mp h
  obtain ⟨attributes, -, h⟩ := Except.bind_eq_ok.mp h
  obtain ⟨-, -, h⟩ := Except.bind_eq_ok.mp h
  obtain ⟨⟨entities, entityId⟩, hinsert, h⟩ := Except.bind_eq_ok.mp h
  cases h
  obtain ⟨hext, k, hk, hfind⟩ := insertSelect_spec hinsert
  have hsiteId : siteIds.get e.siteKey = some siteId := by
    unfold Writer.siteId at hsite
    rw [hst.sameSites] at hsite
    split at hsite
    · next hget =>
      cases hsite
      exact hget
    · cases hsite
  refine ⟨⟨hst.sameSites, fun e' he' => ?_, fun s id hid => ?_⟩, rfl, rfl⟩
  · simp only [Dict.get_set]
    split
    · exact ⟨_, rfl⟩
    · next hne =>
      rcases List.mem_append.mp he' with he' | he'
      · exact hst.stored e' he'
      · exact absurd (congrArg UniFiEntity.scopedId (List.mem_singleton.mp he')).symm hne
  · simp only [Dict.get_set] at hid
    split at hid
    · next heq =>
      cases hid
      cases hk
      exact ⟨e, by simp, heq, siteId, hsiteId, hfind⟩
    · obtain ⟨e', he', hs, siteId', hsite', hfind'⟩ := hst.find s id hid
      exact ⟨e', List.mem_append_left _ he', hs, siteId', hsite', hext.find hfind'⟩

/-! ## Relationships -/

/-- Every relationship with a local entity has a row under its key, and other rows were there
before. -/
structure RelationshipsStored (w : Writer) (base : List (Nat × RelationshipRow))
    (done : List UniFiRelationship) (st : Store) : Prop where
  stored : ∀ x ∈ done, ∀ localId, st.entityIds.get x.localScopedId = some localId →
    ∃ siteId, ∃ row ∈ st.db.relationships.rows, row.2.key =
      (w.relationshipRow siteId localId (st.entityIds.get x.remoteScopedId) x).key
  origin : ∀ row ∈ st.db.relationships.rows, row ∈ base ∨ ∃ x ∈ done, ∃ localId siteId,
    st.entityIds.get x.localScopedId = some localId ∧
      row.2 = w.relationshipRow siteId localId (st.entityIds.get x.remoteScopedId) x

theorem storeRelationship_spec {base : List (Nat × RelationshipRow)}
    {done : List UniFiRelationship} {st st' : Store} {x : UniFiRelationship}
    (hst : RelationshipsStored w base done st) (h : w.storeRelationship st x = .ok st') :
    RelationshipsStored w base (done ++ [x]) st' ∧ st'.db.sites = st.db.sites ∧
      st'.db.entities = st.db.entities ∧ st'.siteIds = st.siteIds ∧
      st'.entityIds = st.entityIds := by
  unfold storeRelationship at h
  split at h
  · next hlocal =>
    cases h
    refine ⟨⟨fun y hy localId hid => ?_, fun row hrow => ?_⟩, rfl, rfl, rfl, rfl⟩
    · rcases List.mem_append.mp hy with hy | hy
      · exact hst.stored y hy localId hid
      · rw [List.mem_singleton.mp hy, hlocal] at hid
        cases hid
    · refine (hst.origin row hrow).imp_right ?_
      rintro ⟨y, hy, hrest⟩
      exact ⟨y, List.mem_append_left _ hy, hrest⟩
  · next localId hlocal =>
    obtain ⟨siteId, -, h⟩ := Except.bind_eq_ok.mp h
    obtain ⟨-, -, h⟩ := Except.bind_eq_ok.mp h
    cases h
    refine ⟨⟨fun y hy localId' hid => ?_, fun row hrow => ?_⟩, rfl, rfl, rfl, rfl⟩
    · rcases List.mem_append.mp hy with hy | hy
      · obtain ⟨siteId', row, hrow, hkey⟩ := hst.stored y hy localId' hid
        exact ⟨siteId', row, (Sql.Table.extends_insertOrIgnore _ _).subset hrow, hkey⟩
      · rw [List.mem_singleton.mp hy] at hid ⊢
        cases hlocal.symm.trans hid
        obtain ⟨id, hid⟩ := Sql.Table.exists_find_insertOrIgnore st.db.relationships
          (a := w.relationshipRow siteId localId (st.entityIds.get x.remoteScopedId) x) rfl
        obtain ⟨row, hrow, hkey⟩ := Sql.Table.find_eq_some.mp hid
        exact ⟨siteId, (id, row), hrow, hkey⟩
    · rcases Sql.Table.mem_insertOrIgnore hrow with hrow | rfl
      · refine (hst.origin row hrow).imp_right ?_
        rintro ⟨y, hy, hrest⟩
        exact ⟨y, List.mem_append_left _ hy, hrest⟩
      · exact Or.inr ⟨x, by simp, localId, siteId, hlocal, rfl⟩

/-! ## The transaction -/

theorem storeCoverage_frame {st st' : Store} {issue : UniFiCoverageIssue}
    (h : w.storeCoverage st issue = .ok st') : SameObjects st st' := by
  unfold storeCoverage at h
  obtain ⟨detail, -, h⟩ := Except.bind_eq_ok.mp h
  obtain ⟨db, hdb, h⟩ := Except.bind_eq_ok.mp h
  cases h
  obtain ⟨observations, rfl⟩ := storeObservation_frame hdb
  exact ⟨rfl, rfl, rfl, rfl, rfl⟩

/-- The account of a stored inventory. -/
structure Stored (w : Writer) (inventory : NormalizedUniFiInventory)
    (base : List (Nat × RelationshipRow)) (st : Store) : Prop where
  sites : SitesStored w st.db.sites st.siteIds
  entities : EntitiesStored w st.siteIds inventory.entities st
  relationships : RelationshipsStored w base inventory.relationships st

theorem storeInventory_spec {inventory : NormalizedUniFiInventory} {devices : List CanonicalDevice}
    {db : InventoryDb} {st : Store} (h : w.storeInventory inventory devices db = .ok st) :
    Stored w inventory db.relationships.rows st := by
  unfold storeInventory at h
  obtain ⟨st₁, hdevices, h⟩ := Except.bind_eq_ok.mp h
  obtain ⟨st₂, hsites, h⟩ := Except.bind_eq_ok.mp h
  obtain ⟨st₃, hentities, h⟩ := Except.bind_eq_ok.mp h
  obtain ⟨st₄, hrelationships, hcoverage⟩ := Except.bind_eq_ok.mp h
  have h₁ : SameObjects { db } st₁ := Except.foldlM_invariant (SameObjects.refl { db })
    (fun _ _ _ _ hst hstep => hst.trans (storeDevice_frame hstep)) hdevices
  have h₂ : SitesStored w st₂.db.sites st₂.siteIds ∧ st₂.entityIds = [] ∧
      st₂.db.relationships = db.relationships := by
    refine Except.foldlM_invariant (P := fun st : Store => SitesStored w st.db.sites st.siteIds ∧
      st.entityIds = [] ∧ st.db.relationships = db.relationships) ?_ ?_ hsites
    · refine ⟨⟨fun siteKey id hid => ?_⟩, h₁.entityIds, h₁.relationships⟩
      rw [h₁.siteIds] at hid
      cases hid
    · rintro site - st st' ⟨hst, hids, hrel⟩ hstep
      obtain ⟨hst', -, hrel', hids'⟩ := storeSite_spec hstep hst
      exact ⟨hst', hids'.trans hids, hrel'.trans hrel⟩
  have h₃ : EntitiesStored w st₂.siteIds inventory.entities st₃ ∧
      st₃.db.sites = st₂.db.sites ∧ st₃.db.relationships = db.relationships := by
    have hrun := Except.foldlM_related (g := fun done e => done ++ [e]) (d := [])
      (R := fun done (st : Store) => EntitiesStored w st₂.siteIds done st ∧
        st.db.sites = st₂.db.sites ∧ st.db.relationships = db.relationships) ?_ ?_ hentities
    · rwa [foldl_snoc, List.nil_append] at hrun
    · refine ⟨⟨rfl, by simp, fun s id hid => ?_⟩, rfl, h₂.2.2⟩
      rw [h₂.2.1] at hid
      cases hid
    · rintro e - done st st' ⟨hst, hsite, hrel⟩ hstep
      obtain ⟨hst', hsite', hrel'⟩ := storeEntity_spec hst hstep
      exact ⟨hst', hsite'.trans hsite, hrel'.trans hrel⟩
  have h₄ : RelationshipsStored w db.relationships.rows inventory.relationships st₄ ∧
      st₄.db.sites = st₃.db.sites ∧ st₄.db.entities = st₃.db.entities ∧
      st₄.siteIds = st₃.siteIds ∧ st₄.entityIds = st₃.entityIds := by
    have hrun := Except.foldlM_related (g := fun done x => done ++ [x]) (d := [])
      (R := fun done (st : Store) => RelationshipsStored w db.relationships.rows done st ∧
        st.db.sites = st₃.db.sites ∧ st.db.entities = st₃.db.entities ∧
        st.siteIds = st₃.siteIds ∧ st.entityIds = st₃.entityIds) ?_ ?_ hrelationships
    · rwa [foldl_snoc, List.nil_append] at hrun
    · refine ⟨⟨by simp, fun row hrow => Or.inl ?_⟩, rfl, rfl, rfl, rfl⟩
      rw [h₃.2.2] at hrow
      exact hrow
    · rintro x - done st st' ⟨hst, h1, h2, h3, h4⟩ hstep
      obtain ⟨hst', h1', h2', h3', h4'⟩ := storeRelationship_spec hst hstep
      exact ⟨hst', h1'.trans h1, h2'.trans h2, h3'.trans h3, h4'.trans h4⟩
  have h₅ : SameObjects st₄ st := Except.foldlM_invariant (SameObjects.refl st₄)
    (fun _ _ _ _ hst hstep => hst.trans (storeCoverage_frame hstep)) hcoverage
  obtain ⟨hrel, hsites₄, hentities₄, hsiteIds₄, hentityIds₄⟩ := h₄
  refine
    { sites := ⟨fun siteKey id hid => ?_⟩
      entities := ⟨rfl, fun e he => ?_, fun s id hid => ?_⟩
      relationships := ⟨fun x hx localId hid => ?_, fun row hrow => ?_⟩ }
  · rw [h₅.siteIds, hsiteIds₄, h₃.1.sameSites] at hid
    rw [h₅.sites, hsites₄, h₃.2.1]
    exact h₂.1.find siteKey id hid
  · rw [h₅.entityIds, hentityIds₄]
    exact h₃.1.stored e he
  · rw [h₅.entityIds, hentityIds₄] at hid
    rw [h₅.siteIds, hsiteIds₄, h₃.1.sameSites, h₅.entities, hentities₄]
    exact h₃.1.find s id hid
  · rw [h₅.entityIds] at hid ⊢
    rw [h₅.relationships]
    exact hrel.stored x hx localId hid
  · rw [h₅.relationships] at hrow
    rw [h₅.entityIds]
    exact hrel.origin row hrow

/-! ## Rows of entities -/

/-- The row of an entity: the one under its kind and ID at the row of its site. -/
structure RowOf (w : Writer) (db : InventoryDb) (e : UniFiEntity) (row : EntityRow) : Prop where
  site : db.sites.find (w.siteKeyOf e.siteKey) = some row.siteId
  key : row.key = some (w.entityKeyOf row.siteId e.kind e.controllerId)

/-- Every entity has its row. -/
theorem Stored.exists_row {inventory : NormalizedUniFiInventory}
    {base : List (Nat × RelationshipRow)} {st : Store} (h : Stored w inventory base st)
    {e : UniFiEntity} (he : e ∈ inventory.entities) (hdistinct :
      ∀ e' ∈ inventory.entities, e'.scopedId = e.scopedId → e' = e) :
    ∃ row ∈ st.db.entities.rows, w.RowOf st.db e row.2 := by
  obtain ⟨id, hid⟩ := h.entities.stored e he
  obtain ⟨e', he', hscoped, siteId, hsite, hfind⟩ := h.entities.find _ id hid
  obtain rfl := hdistinct e' he' hscoped
  obtain ⟨row, hrow, hkey⟩ := Sql.Table.find_eq_some.mp hfind
  have hsiteId : row.siteId = siteId := congrArg Prod.fst (Option.some.inj hkey)
  refine ⟨(id, row), hrow, ?_, ?_⟩
  · rw [hsiteId]
    exact h.sites.find _ siteId hsite
  · rw [hsiteId]
    exact hkey

end Writer

/-- A stored inventory, by the state the transaction ended in. -/
theorem persistInventory_spec {rt : Runtime} {so : SetOrder} {redactor : Redactor}
    {deploymentId : Nat} {inventory : NormalizedUniFiInventory} {db db' : InventoryDb} {count : Nat}
    (h : persistInventory rt so redactor deploymentId inventory db = .ok (db', count)) :
    ∃ st : Store, st.db = db' ∧
      Writer.Stored ⟨rt, redactor, deploymentId, inventory.controllerKey,
        inventory.observedAt.isoformat⟩ inventory db.relationships.rows st := by
  unfold persistInventory at h
  obtain ⟨result, -, h⟩ := Except.bind_eq_ok.mp h
  obtain ⟨st, hst, h⟩ := Except.bind_eq_ok.mp h
  cases h
  exact ⟨st, rfl, Writer.storeInventory_spec hst⟩

end FieldDiscovery.Unifi
