import FieldDiscovery.Unifi.Normalize

/-!
# What the loops of a normalization read

The nested loops of `normalize_snapshot` as one pass over the raw values of a snapshot. `readings`
are the records that the loops do not skip, and `Read` says what the loops have collected once the
readings `done` are behind them. The site that is visited matters only to `device_ids`.
-/

namespace FieldDiscovery.Unifi.Reader

open Py Correlation

variable (reader : Reader)

/-! ## The readings of a snapshot -/

/-- A value of a resource, with the visit that meets it. -/
structure Raw where
  visit : Nat
  siteKey : Str
  resource : Resource
  value : Json

/-- The values of one resource of a visited site. -/
def resourceRaws (snapshot : UniFiSnapshot) (visit : Nat) (siteKey : Str) (resource : Resource) :
    List Raw :=
  ((snapshot.resources.get (siteKey, resource)).getD []).map fun value =>
    { visit, siteKey, resource, value }

/-- The values of a visited site. -/
def siteRaws (snapshot : UniFiSnapshot) (site : Record × Nat) : List Raw :=
  Resource.all.flatMap (resourceRaws snapshot site.2 (identifier reader.rt site.1))

/-- The entries of `port_table` that are records. -/
def ports (r : Reading) : List Record :=
  (portTable r.resource r.record).filterMap fun
    | .dict port => some port
    | _ => none

/-- The scoped IDs that a reading marks as seen. -/
def marks (r : Reading) : List Str :=
  r.scopedId reader :: (ports r).map fun port =>
    (reader.portEntity r.siteKey (r.controllerId reader) port).scopedId

/-- The readings after one more value. -/
def record (done : List Reading) (raw : Raw) : List Reading :=
  match reader.reading raw.visit raw.siteKey raw.resource (done.flatMap reader.marks) raw.value with
  | some r => done ++ [r]
  | none => done

/-- The records of a snapshot that the loops do not skip, in their order. -/
def readings (snapshot : UniFiSnapshot) : List Reading :=
  (snapshot.sites.zipIdx.flatMap (reader.siteRaws snapshot)).foldl reader.record []

/-- `device_ids` after the readings of a visit. -/
def deviceIdsOf (visit : Nat) (done : List Reading) : Dict Str Str :=
  (done.filter fun r => r.visit = visit && r.kind.isDevice).foldl
    (fun ids r => ids.set (r.controllerId reader) (r.scopedId reader)) []

/-! ## Ports -/

section Ports

variable {reader} {siteKey controllerId : Str}

/-- Ports change the entities and the seen IDs only. -/
theorem foldl_readPort_frame (values : List Json) (st : ReadState) :
    let st' := values.foldl (reader.readPort siteKey controllerId) st
    st'.sites = st.sites ∧ st'.relationships = st.relationships ∧ st'.devices = st.devices ∧
      st'.deviceIds = st.deviceIds := by
  induction values generalizing st with
  | nil => exact ⟨rfl, rfl, rfl, rfl⟩
  | cons value values ih =>
    have hstep : (reader.readPort siteKey controllerId st value).sites = st.sites ∧
        (reader.readPort siteKey controllerId st value).relationships = st.relationships ∧
        (reader.readPort siteKey controllerId st value).devices = st.devices ∧
        (reader.readPort siteKey controllerId st value).deviceIds = st.deviceIds := by
      unfold readPort
      split
      · simp only
        split <;> exact ⟨rfl, rfl, rfl, rfl⟩
      · exact ⟨rfl, rfl, rfl, rfl⟩
    obtain ⟨h1, h2, h3, h4⟩ := ih (reader.readPort siteKey controllerId st value)
    rw [List.foldl_cons]
    exact ⟨h1.trans hstep.1, h2.trans hstep.2.1, h3.trans hstep.2.2.1, h4.trans hstep.2.2.2⟩

/-- What the entities and the seen IDs keep: entities are distinct, and seen. -/
structure Distinct (st : ReadState) : Prop where
  nodup : (st.entities.map UniFiEntity.scopedId).Nodup
  seen : ∀ e ∈ st.entities, e.scopedId ∈ st.seenEntities

theorem Distinct.insert {st : ReadState} (h : Distinct st) {e : UniFiEntity}
    (hnew : e.scopedId ∉ st.seenEntities) : Distinct { st with
      seenEntities := e.scopedId :: st.seenEntities, entities := st.entities ++ [e] } where
  nodup := by
    rw [List.map_append, List.map_singleton, List.nodup_append']
    refine ⟨h.nodup, List.nodup_singleton _, ?_⟩
    rw [List.disjoint_singleton]
    intro hmem
    obtain ⟨e', he', heq⟩ := List.mem_map.mp hmem
    exact hnew (heq ▸ h.seen e' he')
  seen := by
    intro e' he'
    rcases List.mem_append.mp he' with h' | h'
    · exact List.mem_cons_of_mem _ (h.seen e' h')
    · rw [List.mem_singleton.mp h']
      exact List.mem_cons_self

/-- The ports of a record become seen, and every entity they add is one of the site. -/
theorem foldl_readPort_spec (values : List Json) {st : ReadState} (h : Distinct st) :
    let st' := values.foldl (reader.readPort siteKey controllerId) st
    Distinct st' ∧
      (∀ s, s ∈ st'.seenEntities ↔ s ∈ st.seenEntities ∨ ∃ port, Json.dict port ∈ values ∧
        (reader.portEntity siteKey controllerId port).scopedId = s) ∧
      (∀ e ∈ st'.entities, e ∈ st.entities ∨ e.siteKey = siteKey) ∧ st.entities ⊆ st'.entities := by
  induction values generalizing st with
  | nil => exact ⟨h, by simp, fun e => Or.inl, List.Subset.refl _⟩
  | cons value values ih =>
    have hstep : Distinct (reader.readPort siteKey controllerId st value) ∧
        (∀ s, s ∈ (reader.readPort siteKey controllerId st value).seenEntities ↔
          s ∈ st.seenEntities ∨ ∃ port, Json.dict port = value ∧
            (reader.portEntity siteKey controllerId port).scopedId = s) ∧
        (∀ e ∈ (reader.readPort siteKey controllerId st value).entities,
          e ∈ st.entities ∨ e.siteKey = siteKey) ∧
        st.entities ⊆ (reader.readPort siteKey controllerId st value).entities := by
      unfold readPort
      split
      · next port =>
        simp only
        split
        · next hseen =>
          refine ⟨h, fun s => ⟨Or.inl, ?_⟩, fun e => Or.inl, List.Subset.refl _⟩
          rintro (hs | ⟨port', hport', rfl⟩)
          · exact hs
          · cases hport'
            exact hseen
        · next hseen =>
          refine ⟨h.insert hseen, fun s => ?_, fun e he => ?_, List.subset_append_left _ _⟩
          · rw [List.mem_cons, or_comm, eq_comm]
            refine or_congr_right ⟨fun hs => ⟨port, rfl, hs⟩, ?_⟩
            rintro ⟨port', hport', hs⟩
            cases hport'
            exact hs
          · rcases List.mem_append.mp he with he | he
            · exact Or.inl he
            · rw [List.mem_singleton.mp he]
              exact Or.inr rfl
      · next hvalue =>
        refine ⟨h, fun s => ⟨Or.inl, ?_⟩, fun e => Or.inl, List.Subset.refl _⟩
        rintro (hs | ⟨port, hport, -⟩)
        · exact hs
        · exact absurd hport.symm (hvalue port)
    obtain ⟨h1, h2, h3, h4⟩ := ih hstep.1
    rw [List.foldl_cons]
    refine ⟨h1, fun s => ?_, fun e he => ?_, List.Subset.trans hstep.2.2.2 h4⟩
    · rw [h2, hstep.2.1, or_assoc]
      refine or_congr_right ?_
      simp only [List.mem_cons, or_and_right, exists_or]
    · rcases h3 e he with h | h
      · exact hstep.2.2.1 e h
      · exact Or.inr h

end Ports

/-! ## The state after some readings -/

/-- What the loops have collected when `visit` is the current visit and `done` is read. -/
structure Read (visit : Nat) (done : List Reading) (st : ReadState) : Prop where
  distinct : Distinct st
  seen : ∀ s, s ∈ st.seenEntities ↔ s ∈ done.flatMap reader.marks
  devices : List.Forall₂ (fun (r : Reading) o => r.observation reader = .ok o)
    (done.filter fun r => r.kind.isDevice) st.devices
  deviceIds : st.deviceIds = reader.deviceIdsOf visit done
  relationships : ∀ x, x ∈ st.relationships ↔ ∃ front r back, done = front ++ r :: back ∧
    r.relationship reader (reader.deviceIdsOf r.visit (front ++ [r])) = some x
  entities : ∀ r ∈ done, ∃ e ∈ st.entities, e.siteKey = r.siteKey ∧ e.kind = r.kind ∧
    e.controllerId = r.controllerId reader
  visits : ∀ r ∈ done, r.visit ≤ visit
  sites : ∀ e ∈ st.entities, e.siteKey ∈ st.sites.map Prod.fst

variable {reader}

theorem Read.init : reader.Read 0 [] {} where
  distinct := ⟨List.nodup_nil, by simp⟩
  seen := by simp
  devices := .nil
  deviceIds := rfl
  relationships := by simp
  entities := by simp
  visits := by simp
  sites := by simp

/-- A new visit starts with no `device_ids`. -/
theorem Read.enter {visit next : Nat} {done : List Reading} {st : ReadState}
    (h : reader.Read visit done st) (hnext : ∀ r ∈ done, r.visit < next)
    (site : Str × Option Str) : reader.Read next done
      { st with sites := st.sites ++ [site], deviceIds := [] } where
  distinct := ⟨h.distinct.nodup, h.distinct.seen⟩
  seen := h.seen
  devices := h.devices
  deviceIds := by
    unfold deviceIdsOf
    rw [List.filter_eq_nil_iff.mpr]
    · rfl
    · intro r hr
      have hne := (hnext r hr).ne
      simp [hne]
  relationships := h.relationships
  entities := h.entities
  visits r hr := (hnext r hr).le
  sites e he := by
    rw [List.map_append]
    exact List.mem_append_left _ (h.sites e he)

/-- What a reading adds to the state, taken apart. -/
theorem readReading_cases {st st' : ReadState} {r : Reading}
    (h : reader.readReading st r = .ok st') : ∃ active, isActive r.record (r.stale reader) = .ok active ∧
      ((r.kind.isDevice = true ∧ ∃ o, r.observation reader = .ok o ∧ ∃ st₁,
          st₁ = (portTable r.resource r.record).foldl
            (reader.readPort r.siteKey (r.controllerId reader))
            { st with
              seenEntities := r.scopedId reader :: st.seenEntities
              devices := st.devices ++ [o]
              deviceIds := st.deviceIds.set (r.controllerId reader) (r.scopedId reader)
              entities := st.entities ++ [r.entity reader active (some o.id)] } ∧
          st' = { st₁ with relationships := st₁.relationships ++
            (r.relationship reader st₁.deviceIds).toList }) ∨
       (r.kind.isDevice = false ∧ st' = (portTable r.resource r.record).foldl
            (reader.readPort r.siteKey (r.controllerId reader))
            { st with
              seenEntities := r.scopedId reader :: st.seenEntities
              entities := st.entities ++ [r.entity reader active none] })) := by
  unfold readReading at h
  obtain ⟨active, hactive, h⟩ := Except.bind_eq_ok.mp h
  refine ⟨active, hactive, ?_⟩
  cases hkind : r.kind.isDevice with
  | true =>
    simp only [hkind, if_true] at h
    obtain ⟨o, ho, h⟩ := Except.bind_eq_ok.mp h
    cases h
    refine Or.inl ⟨rfl, o, ?_, _, rfl, rfl⟩
    unfold Reading.observation
    rw [hactive, Except.ok_bind]
    exact ho
  | false =>
    simp only [hkind, Bool.false_eq_true, if_false] at h
    cases h
    refine Or.inr ⟨rfl, ?_⟩
    have hnone : ∀ ids, r.relationship reader ids = none := by
      intro ids
      unfold Reading.relationship
      rw [hkind]
      rfl
    simp only [hnone, Option.toList_none, List.append_nil]

theorem mem_ports {r : Reading} {port : Record} :
    port ∈ ports r ↔ Json.dict port ∈ portTable r.resource r.record := by
  unfold ports
  rw [List.mem_filterMap]
  constructor
  · rintro ⟨value, hvalue, hport⟩
    split at hport
    · cases hport
      exact hvalue
    · cases hport
  · intro h
    exact ⟨_, h, rfl⟩

theorem deviceIdsOf_append {visit : Nat} {done : List Reading} {r : Reading}
    (hvisit : r.visit = visit) : reader.deviceIdsOf visit (done ++ [r]) =
      if r.kind.isDevice then
        (reader.deviceIdsOf visit done).set (r.controllerId reader) (r.scopedId reader)
      else reader.deviceIdsOf visit done := by
  unfold deviceIdsOf
  rw [List.filter_append, List.foldl_append]
  cases hkind : r.kind.isDevice <;> simp [hvisit, hkind]

/-- The last item of a list, or one before it. -/
theorem exists_append_singleton {α : Type*} {P : List α → α → Prop} {l : List α} {b : α} :
    (∃ front a back, l ++ [b] = front ++ a :: back ∧ P front a) ↔
      (∃ front a back, l = front ++ a :: back ∧ P front a) ∨ P l b := by
  constructor
  · rintro ⟨front, a, back, heq, h⟩
    rcases List.eq_nil_or_concat back with rfl | ⟨back, c, rfl⟩
    · obtain ⟨rfl, hab⟩ := List.append_inj' heq rfl
      cases hab
      exact Or.inr h
    · rw [List.concat_eq_append, ← List.cons_append, ← List.append_assoc] at heq
      obtain ⟨rfl, -⟩ := List.append_inj' heq rfl
      exact Or.inl ⟨front, a, back, rfl, h⟩
  · rintro (⟨front, a, back, rfl, h⟩ | h)
    · exact ⟨front, a, back ++ [b], by simp, h⟩
    · exact ⟨l, b, [], rfl, h⟩

/-- A reading keeps the account of the state. -/
theorem Read.step {visit : Nat} {done : List Reading} {st st' : ReadState} {r : Reading}
    (h : reader.Read visit done st) (hvisit : r.visit = visit)
    (hnew : r.scopedId reader ∉ st.seenEntities) (hsite : r.siteKey ∈ st.sites.map Prod.fst)
    (hst : reader.readReading st r = .ok st') : reader.Read visit (done ++ [r]) st' := by
  obtain ⟨active, -, hcases⟩ := readReading_cases hst
  -- both branches extend the entities by the record and then read its ports
  obtain ⟨observationId, devices, hdevices, hst'⟩ : ∃ observationId devices,
      List.Forall₂ (fun (r : Reading) o => r.observation reader = .ok o)
        ((done ++ [r]).filter fun r => r.kind.isDevice) devices ∧ ∃ st₁,
      st₁ = (portTable r.resource r.record).foldl (reader.readPort r.siteKey (r.controllerId reader))
        { st with
          seenEntities := (r.entity reader active observationId).scopedId :: st.seenEntities
          devices := devices, deviceIds := reader.deviceIdsOf visit (done ++ [r])
          entities := st.entities ++ [r.entity reader active observationId] } ∧
      st' = { st₁ with relationships := st₁.relationships ++
        (r.relationship reader (reader.deviceIdsOf visit (done ++ [r]))).toList } := by
    have hids := @deviceIdsOf_append reader _ done _ hvisit
    rcases hcases with ⟨hkind, o, ho, st₁, hst₁, rfl⟩ | ⟨hkind, rfl⟩
    · rw [if_pos hkind] at hids
      refine ⟨some o.id, st.devices ++ [o], ?_, st₁, ?_, ?_⟩
      · rw [List.filter_append, List.filter_cons, if_pos hkind, List.filter_nil]
        exact List.rel_append h.devices (.cons ho .nil)
      · rw [hst₁, hids, h.deviceIds]
        rfl
      · have hframe : st₁.deviceIds = reader.deviceIdsOf visit (done ++ [r]) := by
          rw [hst₁, hids, ← h.deviceIds]
          exact (foldl_readPort_frame _ _).2.2.2
        rw [hframe]
    · rw [if_neg (by simp [hkind])] at hids
      refine ⟨none, st.devices, ?_, _, rfl, ?_⟩
      · rw [List.filter_append, List.filter_cons, if_neg (by simp [hkind]), List.filter_nil,
          List.append_nil]
        exact h.devices
      · have hnone : r.relationship reader (reader.deviceIdsOf visit (done ++ [r])) = none := by
          unfold Reading.relationship
          rw [hkind]
          rfl
        rw [hnone, hids, ← h.deviceIds, Option.toList_none, List.append_nil]
        rfl
  obtain ⟨st₁, hst₁, rfl⟩ := hst'
  have hadd := h.distinct.insert (e := r.entity reader active observationId) hnew
  obtain ⟨hdistinct, hseen, hentities, hsub⟩ := @foldl_readPort_spec
    reader r.siteKey (r.controllerId reader) (portTable r.resource r.record) {
      st with
      seenEntities := (r.entity reader active observationId).scopedId :: st.seenEntities
      devices := devices, deviceIds := reader.deviceIdsOf visit (done ++ [r])
      entities := st.entities ++ [r.entity reader active observationId] }
    ⟨hadd.nodup, hadd.seen⟩
  obtain ⟨hsites, hrelationships, hdev, hids⟩ := @foldl_readPort_frame
    reader r.siteKey (r.controllerId reader) (portTable r.resource r.record) {
      st with
      seenEntities := (r.entity reader active observationId).scopedId :: st.seenEntities
      devices := devices, deviceIds := reader.deviceIdsOf visit (done ++ [r])
      entities := st.entities ++ [r.entity reader active observationId] }
  rw [← hst₁] at hdistinct hseen hentities hsub hsites hrelationships hdev hids
  refine
    { distinct := ⟨hdistinct.nodup, hdistinct.seen⟩
      seen := fun s => ?_
      devices := hdev ▸ hdevices
      deviceIds := hids
      relationships := fun x => ?_
      entities := fun r' hr' => ?_
      visits := fun r' hr' => ?_
      sites := fun e he => ?_ }
  · have hmark : (r.entity reader active observationId).scopedId = r.scopedId reader := rfl
    rw [hseen, List.flatMap_append, List.mem_append, ← h.seen, List.flatMap_singleton, marks,
      List.mem_cons, List.mem_cons, hmark, List.mem_map]
    simp only [mem_ports]
    tauto
  · have hsplit := exists_append_singleton (l := done) (b := r) (P := fun front r' =>
      r'.relationship reader (reader.deviceIdsOf r'.visit (front ++ [r'])) = some x)
    rw [hrelationships, List.mem_append, Option.mem_toList, h.relationships, ← hvisit]
    exact hsplit.symm
  · rcases List.mem_append.mp hr' with hr' | hr'
    · obtain ⟨e, he, heq⟩ := h.entities r' hr'
      exact ⟨e, hsub (List.mem_append_left _ he), heq⟩
    · rw [List.mem_singleton.mp hr']
      exact ⟨_, hsub (List.mem_append_right _ (List.mem_singleton_self _)), rfl, rfl, rfl⟩
  · rcases List.mem_append.mp hr' with hr' | hr'
    · exact h.visits r' hr'
    · rw [List.mem_singleton.mp hr', hvisit]
  · rw [hsites]
    rcases hentities e he with he | he
    · rcases List.mem_append.mp he with he | he
      · exact h.sites e he
      · rw [List.mem_singleton.mp he]
        exact hsite
    · rw [he]
      exact hsite

/-! ## The loops -/

/-- Whether a value is skipped depends on the seen IDs as a set. -/
theorem reading_congr {visit : Nat} {siteKey : Str} {resource : Resource} {seen seen' : List Str}
    (h : ∀ s, s ∈ seen ↔ s ∈ seen') (value : Json) :
    reader.reading visit siteKey resource seen value =
      reader.reading visit siteKey resource seen' value := by
  unfold reading
  cases value <;> simp only [h]

theorem reading_eq_some {visit : Nat} {siteKey : Str} {resource : Resource} {seen : List Str}
    {value : Json} {r : Reading} (h : reader.reading visit siteKey resource seen value = some r) :
    r.visit = visit ∧ r.siteKey = siteKey ∧ r.resource = resource ∧ value = .dict r.record ∧
      entityKind reader.rt resource r.record = some r.kind ∧ r.scopedId reader ∉ seen := by
  unfold reading at h
  split at h
  · obtain ⟨kind, hkind, h⟩ := Option.bind_eq_some_iff.mp h
    simp only at h
    split at h
    · cases h
    · next hseen =>
      cases h
      exact ⟨rfl, rfl, rfl, rfl, hkind, hseen⟩
  · cases h

variable (reader) in
/-- The account of the state during one visit. -/
def Visited (visit : Nat) (siteKey : Str) (done : List Reading) (st : ReadState) : Prop :=
  reader.Read visit done st ∧ siteKey ∈ st.sites.map Prod.fst

theorem readReading_sites {st st' : ReadState} {r : Reading}
    (h : reader.readReading st r = .ok st') : st'.sites = st.sites := by
  obtain ⟨active, -, hcases⟩ := readReading_cases h
  rcases hcases with ⟨-, o, -, st₁, rfl, rfl⟩ | ⟨-, rfl⟩
  · exact (foldl_readPort_frame _ _).1
  · exact (foldl_readPort_frame _ _).1

theorem Visited.record {visit : Nat} {siteKey : Str} {resource : Resource} {done : List Reading}
    {st st' : ReadState} (h : Visited reader visit siteKey done st) (value : Json)
    (hst : reader.readRecord visit siteKey resource st value = .ok st') :
    Visited reader visit siteKey
      (reader.record done { visit, siteKey, resource, value }) st' := by
  unfold readRecord at hst
  unfold Reader.record
  rw [← reading_congr h.1.seen]
  split at hst
  · next r hr =>
    obtain ⟨hvisit, hsite, -, -, -, hnew⟩ := reading_eq_some hr
    have hsites := readReading_sites hst
    simp only [hr]
    exact ⟨h.1.step hvisit hnew (hsite ▸ h.2) hst, hsites ▸ h.2⟩
  · next hr =>
    cases hst
    simp only [hr]
    exact h

theorem readSite_spec {snapshot : UniFiSnapshot} {visit : Nat} {done : List Reading}
    {st st' : ReadState} {site : Record × Nat} (h : reader.Read visit done st)
    (hnext : ∀ r ∈ done, r.visit < site.2) (hst : reader.readSite snapshot st site = .ok st') :
    reader.Read site.2 ((reader.siteRaws snapshot site).foldl reader.record done) st' := by
  unfold readSite at hst
  have henter := h.enter hnext (identifier reader.rt site.1,
    (text (Json.field site.1 "desc")).or (text (Json.field site.1 "name")))
  have hloop := Except.foldlM_related
    (R := Visited reader site.2 (identifier reader.rt site.1))
    (g := fun done resource => (resourceRaws snapshot site.2 (identifier reader.rt site.1)
      resource).foldl reader.record done)
    ⟨henter, by simp⟩ ?_ hst
  · unfold siteRaws
    rw [List.foldl_flatMap]
    exact hloop.1
  · intro resource _ done st st' hvisited hresource
    unfold resourceRaws
    rw [List.foldl_map]
    exact Except.foldlM_related hvisited (fun value _ done st st' hd hv => hd.record value hv)
      hresource

theorem readSites_spec {snapshot : UniFiSnapshot} (sites : List Record) {next visit : Nat}
    {done : List Reading} {st st' : ReadState} (h : reader.Read visit done st)
    (hnext : ∀ r ∈ done, r.visit < next)
    (hst : (sites.zipIdx next).foldlM (reader.readSite snapshot) st = .ok st') :
    ∃ visit, reader.Read visit
      (((sites.zipIdx next).flatMap (reader.siteRaws snapshot)).foldl reader.record done) st' := by
  induction sites generalizing next visit done st with
  | nil =>
    cases hst
    exact ⟨visit, h⟩
  | cons site sites ih =>
    rw [List.zipIdx_cons, List.foldlM_cons] at hst
    obtain ⟨st₁, hst₁, hst⟩ := Except.bind_eq_ok.mp hst
    rw [List.zipIdx_cons, List.flatMap_cons, List.foldl_append]
    refine ih (readSite_spec h hnext hst₁) (fun r hr => ?_) hst
    exact Nat.lt_succ_of_le ((readSite_spec h hnext hst₁).visits r hr)

/-- The state after the loops over a snapshot. -/
theorem readSnapshot_spec {snapshot : UniFiSnapshot} {st : ReadState}
    (h : snapshot.sites.zipIdx.foldlM (reader.readSite snapshot) {} = .ok st) :
    ∃ visit, reader.Read visit (reader.readings snapshot) st :=
  readSites_spec snapshot.sites Read.init (by simp) h

/-! ## The inventory -/

variable (reader) in
/-- What a normalization returned, by its readings. -/
structure Normalized (snapshot : UniFiSnapshot) (inv : NormalizedUniFiInventory) : Prop where
  state : ∃ visit st, reader.Read visit (reader.readings snapshot) st ∧
    inv.entities = sortedBy UniFiEntity.scopedId st.entities ∧
    inv.relationships = sortedBy (fun r : UniFiRelationship =>
      toLex (r.siteKey, r.localScopedId)) st.relationships ∧
    inv.devices = sortedBy DeviceObservation.id st.devices ∧
    sortSites st.sites = .ok inv.sites
  controllerKey : inv.controllerKey = snapshot.controllerKey
  observedAt : inv.observedAt = reader.observedAt

theorem normalizeSnapshot_spec {rt : Runtime} {printable : CodePoint → Bool}
    {snapshot : UniFiSnapshot} {observedAt : Datetime} {staleAfter : Int}
    {inv : NormalizedUniFiInventory}
    (h : normalizeSnapshot rt printable snapshot (some observedAt) staleAfter = .ok inv) :
    Normalized (⟨rt, printable, snapshot.controllerKey, observedAt, staleAfter⟩ : Reader)
      snapshot inv := by
  unfold normalizeSnapshot at h
  obtain ⟨st, hst, h⟩ := Except.bind_eq_ok.mp h
  obtain ⟨sites, hsites, h⟩ := Except.bind_eq_ok.mp h
  cases h
  obtain ⟨visit, hread⟩ := readSnapshot_spec hst
  exact ⟨⟨visit, st, hread, rfl, rfl, rfl, hsites⟩, rfl, rfl⟩

variable {snapshot : UniFiSnapshot} {inv : NormalizedUniFiInventory}

/-- Every device and client that was read has its observation in the inventory. -/
theorem Normalized.exists_observation (h : Normalized reader snapshot inv)
    {r : Reading} (hr : r ∈ reader.readings snapshot) (hkind : r.kind.isDevice = true) :
    ∃ o ∈ inv.devices, r.observation reader = .ok o := by
  obtain ⟨visit, st, hread, -, -, hdevices, -⟩ := h.state
  obtain ⟨o, ho, hobs⟩ := hread.devices.exists_of_mem_left (List.mem_filter.mpr ⟨hr, hkind⟩)
  exact ⟨o, hdevices ▸ mem_sortedBy.mpr ho, hobs⟩

end FieldDiscovery.Unifi.Reader
