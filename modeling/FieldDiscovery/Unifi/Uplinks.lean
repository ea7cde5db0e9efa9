import FieldDiscovery.Unifi.ScopedIds
import FieldDiscovery.Unifi.Stored

/-!
# Uplinks

An uplink is looked up in `device_ids` while the records of its site are still being read, and as it
is spelled. So the stored relationship points to the entity that it names exactly when the name is
spelled in the folded form of a controller ID, and that device or client was read before the record
or is the record itself (`uplinks_resolve_iff`).
-/

namespace FieldDiscovery.Unifi

open Py Correlation Redaction Repository

/-! ## Scoped IDs -/

/-- Two texts up to their first colon. -/
theorem append_colon_inj {u u' v v' : Str} (hu : cp ':' ∉ u) (hu' : cp ':' ∉ u')
    (h : u ++ str ":" ++ v = u' ++ str ":" ++ v') : u = u' ∧ v = v' := by
  rw [List.append_assoc, List.append_assoc] at h
  exact Prod.mk.inj ((Separated.joined_inj (p := (u, v)) (q := (u', v')) hu hu').mp h)

/-- Within one site a scoped ID is a kind and a controller ID. -/
theorem scopedId_inj {siteKey : Str} {k k' : EntityKind} {c c' : Str}
    (h : scopedId siteKey k c = scopedId siteKey k' c') : k = k' ∧ c = c' := by
  unfold scopedId at h
  simp only [List.append_assoc] at h
  have hrest := List.append_cancel_left (List.append_cancel_left h)
  rw [← List.append_assoc, ← List.append_assoc] at hrest
  obtain ⟨hk, hc⟩ := append_colon_inj k.colon_notMem_value k'.colon_notMem_value hrest
  exact ⟨EntityKind.value_injective hk, hc⟩

/-- The scoped ID that stands for an unknown uplink is none of an entity of the site. -/
theorem scopedId_ne_unknown {siteKey : Str} {k : EntityKind} {c remote : Str} :
    scopedId siteKey k c ≠ siteKey ++ str ":device:" ++ remote := by
  intro h
  have hdevice : str ":device:" = str ":" ++ str "device" ++ str ":" := rfl
  unfold scopedId at h
  rw [hdevice] at h
  simp only [List.append_assoc] at h
  have hrest := List.append_cancel_left (List.append_cancel_left h)
  rw [← List.append_assoc, ← List.append_assoc] at hrest
  obtain ⟨hk, -⟩ := append_colon_inj k.colon_notMem_value (by decide) hrest
  cases k <;> exact absurd hk (by decide)

namespace Reader

variable {reader : Reader}

/-! ## Readings -/

/-- What every reading of a snapshot satisfies. -/
structure Readings (reader : Reader) (siteKeys : Nat → Str) (done : List Reading) : Prop where
  nodup : (done.map fun r => r.scopedId reader).Nodup
  siteKey : ∀ r ∈ done, r.siteKey = siteKeys r.visit

theorem Readings.record {siteKeys : Nat → Str} {done : List Reading}
    (h : Readings reader siteKeys done) {raw : Raw} (hraw : raw.siteKey = siteKeys raw.visit) :
    Readings reader siteKeys (reader.record done raw) := by
  unfold Reader.record
  split
  · next r hr =>
    obtain ⟨hvisit, hsite, -, -, -, hnew⟩ := reading_eq_some hr
    refine ⟨?_, fun r' hr' => ?_⟩
    · rw [List.map_append, List.map_singleton, List.nodup_append']
      refine ⟨h.nodup, List.nodup_singleton _, ?_⟩
      rw [List.disjoint_singleton]
      intro hmem
      obtain ⟨r', hr', heq⟩ := List.mem_map.mp hmem
      refine hnew (List.mem_flatMap.mpr ⟨r', hr', ?_⟩)
      rw [← heq]
      exact List.mem_cons_self
    · rcases List.mem_append.mp hr' with hr' | hr'
      · exact h.siteKey r' hr'
      · rw [List.mem_singleton.mp hr', hsite, hvisit, hraw]
  · exact h

variable (reader) in
/-- The site key of a visit. -/
def visitedKey (snapshot : UniFiSnapshot) (visit : Nat) : Str :=
  identifier reader.rt (snapshot.sites.getD visit [])

variable (reader) in
theorem readings_spec (snapshot : UniFiSnapshot) :
    Readings reader (visitedKey reader snapshot) (reader.readings snapshot) := by
  have hraws : ∀ raw ∈ snapshot.sites.zipIdx.flatMap (reader.siteRaws snapshot),
      raw.siteKey = visitedKey reader snapshot raw.visit := by
    intro raw hraw
    obtain ⟨⟨site, visit⟩, hsite, hraw⟩ := List.mem_flatMap.mp hraw
    obtain ⟨resource, -, hraw⟩ := List.mem_flatMap.mp hraw
    obtain ⟨value, -, rfl⟩ := List.mem_map.mp hraw
    have hget := List.mem_zipIdx_iff_getElem?.mp hsite
    simp only at hget ⊢
    unfold visitedKey
    rw [List.getD_eq_getElem?_getD, hget]
    rfl
  unfold readings
  generalize snapshot.sites.zipIdx.flatMap (reader.siteRaws snapshot) = raws at hraws
  have hfold : ∀ (raws : List Raw) (done : List Reading),
      (∀ raw ∈ raws, raw.siteKey = visitedKey reader snapshot raw.visit) →
      Readings reader (visitedKey reader snapshot) done →
      Readings reader (visitedKey reader snapshot) (raws.foldl reader.record done) := by
    intro raws
    induction raws with
    | nil => exact fun done _ h => h
    | cons raw raws ih =>
      intro done hall h
      exact ih _ (fun raw' hraw' => hall raw' (List.mem_cons_of_mem _ hraw'))
        (h.record (hall raw List.mem_cons_self))
  exact hfold raws [] hraws ⟨List.nodup_nil, by simp⟩

/-- `device_ids` holds the devices and clients of the visit, each under its controller ID. -/
theorem deviceIdsOf_get {visit : Nat} {done : List Reading} {remote : Str} :
    (∀ s, (reader.deviceIdsOf visit done).get remote = some s → ∃ r ∈ done, r.visit = visit ∧
      r.kind.isDevice = true ∧ r.controllerId reader = remote ∧ r.scopedId reader = s) ∧
    ((∃ r ∈ done, r.visit = visit ∧ r.kind.isDevice = true ∧ r.controllerId reader = remote) →
      ∃ s, (reader.deviceIdsOf visit done).get remote = some s) := by
  have hfold : ∀ (l : List Reading) (ids : Dict Str Str),
      (∀ s, (l.foldl (fun ids r => ids.set (r.controllerId reader) (r.scopedId reader)) ids).get
          remote = some s → ids.get remote = some s ∨
            ∃ r ∈ l, r.controllerId reader = remote ∧ r.scopedId reader = s) ∧
      (((∃ s, ids.get remote = some s) ∨ ∃ r ∈ l, r.controllerId reader = remote) →
        ∃ s, (l.foldl (fun ids r => ids.set (r.controllerId reader) (r.scopedId reader)) ids).get
          remote = some s) := by
    intro l
    induction l with
    | nil => simp
    | cons r l ih =>
      intro ids
      obtain ⟨ih1, ih2⟩ := ih (ids.set (r.controllerId reader) (r.scopedId reader))
      rw [Dict.get_set] at ih1 ih2
      rw [List.foldl_cons]
      refine ⟨fun s hs => ?_, fun h => ih2 ?_⟩
      · rcases ih1 s hs with h | ⟨r', hr', h⟩
        · split at h
          · next heq =>
            cases h
            exact Or.inr ⟨r, List.mem_cons_self, heq, rfl⟩
          · exact Or.inl h
        · exact Or.inr ⟨r', List.mem_cons_of_mem _ hr', h⟩
      · by_cases heq : r.controllerId reader = remote
        · exact Or.inl ⟨_, if_pos heq⟩
        · rw [if_neg heq]
          refine h.imp_right ?_
          rintro ⟨r', hr', hid⟩
          rcases List.mem_cons.mp hr' with rfl | hr'
          · exact absurd hid heq
          · exact ⟨r', hr', hid⟩
  obtain ⟨h1, h2⟩ := hfold (done.filter fun r => r.visit = visit && r.kind.isDevice) []
  refine ⟨fun s hs => ?_, ?_⟩
  · rcases h1 s hs with h | ⟨r, hr, hid, hs⟩
    · cases h
    · rw [List.mem_filter, Bool.and_eq_true, decide_eq_true_eq] at hr
      exact ⟨r, hr.1, hr.2.1, hr.2.2, hid, hs⟩
  · rintro ⟨r, hr, hvisit, hkind, hid⟩
    refine h2 (Or.inr ⟨r, ?_, hid⟩)
    rw [List.mem_filter, Bool.and_eq_true, decide_eq_true_eq]
    exact ⟨hr, hvisit, hkind⟩

/-! ## Resolution -/

variable (reader)

/-- The device or client `r` names as its uplink, by `remote`, the controller ID of the device or
client `r'` of its site. Letter case is ignored as the inventory keys ignore it. -/
structure NamesUplink (snapshot : UniFiSnapshot) (r r' : Reading) (remote : Str) : Prop where
  mem : r ∈ reader.readings snapshot
  device : r.kind.isDevice = true
  named : uplink r.record = some remote
  mem' : r' ∈ reader.readings snapshot
  device' : r'.kind.isDevice = true
  sameSite : r'.siteKey = r.siteKey
  sameId : r'.controllerId reader = reader.rt.casefold remote

/-- Every named uplink is stored as a relationship between the rows of the two entities. -/
def UplinksResolve (snapshot : UniFiSnapshot) (w : Writer) (db : InventoryDb) : Prop :=
  ∀ r r' remote, reader.NamesUplink snapshot r r' remote →
    ∃ siteId, db.sites.find (w.siteKeyOf r.siteKey) = some siteId ∧
      ∃ row ∈ db.relationships.rows, row.2.kind = str "uplink" ∧
        row.2.source = Writer.source ∧ row.2.observedAt = w.observed ∧
        db.entities.find (w.entityKeyOf siteId r.kind (r.controllerId reader)) =
          some row.2.localEntityId ∧
        ∃ remoteId kind, row.2.remoteEntityId = some remoteId ∧ kind.isDevice = true ∧
          db.entities.find (w.entityKeyOf siteId kind (reader.rt.casefold remote)) = some remoteId

/-- Every named uplink is spelled as `device_ids` spells it, and a device or client of that ID is
read in the same visit of the site, no later than the record that names it. -/
def UplinksRead (snapshot : UniFiSnapshot) : Prop :=
  ∀ r r' remote, reader.NamesUplink snapshot r r' remote → reader.rt.casefold remote = remote ∧
    ∃ front back, reader.readings snapshot = front ++ r :: back ∧ ∃ r'' ∈ front ++ [r],
      r''.visit = r.visit ∧ r''.kind.isDevice = true ∧ r''.controllerId reader = remote

variable {reader} {snapshot : UniFiSnapshot} {inv : NormalizedUniFiInventory}

/-- The relationships of an inventory, by their readings. -/
theorem Normalized.mem_relationships (h : Normalized reader snapshot inv)
    {x : UniFiRelationship} : x ∈ inv.relationships ↔
      ∃ front r back, reader.readings snapshot = front ++ r :: back ∧
        r.relationship reader (reader.deviceIdsOf r.visit (front ++ [r])) = some x := by
  obtain ⟨visit, st, hread, -, hrelationships, -, -⟩ := h.state
  rw [hrelationships, mem_sortedBy, hread.relationships]

/-- Every reading has its entity, and scoped IDs tell the entities of an inventory apart. -/
theorem Normalized.entities (h : Normalized reader snapshot inv) :
    (∀ r ∈ reader.readings snapshot, ∃ e ∈ inv.entities, e.siteKey = r.siteKey ∧ e.kind = r.kind ∧
      e.controllerId = r.controllerId reader) ∧
    ∀ e ∈ inv.entities, ∀ e' ∈ inv.entities, e.scopedId = e'.scopedId → e = e' := by
  obtain ⟨visit, st, hread, hentities, -⟩ := h.state
  simp only [hentities, mem_sortedBy]
  exact ⟨hread.entities, fun e he e' he' heq =>
    List.inj_on_of_nodup_map hread.distinct.nodup he he' heq⟩

section Stored

variable {w : Writer} {base : List (Nat × RelationshipRow)} {st : Store}

/-- The row under the scoped ID of a reading is that of its entity. -/
theorem entity_find (h : Normalized reader snapshot inv)
    (hst : Writer.Stored w inv base st) {r : Reading} (hr : r ∈ reader.readings snapshot) :
    ∃ id siteId, st.entityIds.get (r.scopedId reader) = some id ∧
      st.siteIds.get r.siteKey = some siteId ∧
      st.db.entities.find (w.entityKeyOf siteId r.kind (r.controllerId reader)) = some id := by
  obtain ⟨hcover, hinj⟩ := h.entities
  obtain ⟨e, he, hsite, hkind, hid⟩ := hcover r hr
  have hscoped : e.scopedId = r.scopedId reader := by
    unfold UniFiEntity.scopedId Reading.scopedId
    rw [hsite, hkind, hid]
  obtain ⟨id, hget⟩ := hst.entities.stored e he
  obtain ⟨e', he', hscoped', siteId, hsiteId, hfind⟩ := hst.entities.find _ id hget
  obtain rfl := hinj e' he' e he hscoped'
  exact ⟨id, siteId, hscoped ▸ hget, hsite ▸ hsiteId, by rw [← hkind, ← hid]; exact hfind⟩

/-- An id that stands for an entity of a site stands under the scoped ID of that entity. -/
theorem scoped_of_find (hst : Writer.Stored w inv base st) {s siteKey : Str} {id siteId : Nat}
    {kind : EntityKind} {controllerId : Str} (hget : st.entityIds.get s = some id)
    (hsite : st.siteIds.get siteKey = some siteId)
    (hfind : st.db.entities.find (w.entityKeyOf siteId kind controllerId) = some id) :
    s = scopedId siteKey kind controllerId := by
  obtain ⟨e, -, rfl, siteId', hsite', hfind'⟩ := hst.entities.find s id hget
  have hkey := Sql.Table.find_inj hfind' hfind
  unfold Writer.entityKeyOf at hkey
  simp only [Prod.mk.injEq, and_true] at hkey
  obtain ⟨rfl, hkind, rfl⟩ := hkey
  rw [EntityKind.value_injective hkind.symm, ← hst.sites.inj hsite' hsite]
  rfl

theorem relationship_of_named {r : Reading} {remote : Str} (hkind : r.kind.isDevice = true)
    (hnamed : uplink r.record = some remote) (ids : Dict Str Str) : r.relationship reader ids =
      some { siteKey := r.siteKey, localScopedId := r.scopedId reader
             remoteScopedId := (ids.get remote).getD
               (r.siteKey ++ str ":device:" ++ reader.rt.casefold remote)
             kind := str "uplink" } := by
  unfold Reading.relationship
  rw [if_pos hkind, hnamed]
  rfl

/-- A relationship that is stored in an empty table and resolves was found in `device_ids`. -/
theorem read_of_resolved (h : Normalized reader snapshot inv)
    (hst : Writer.Stored w inv [] st) (hres : reader.UplinksResolve snapshot w st.db) :
    reader.UplinksRead snapshot := by
  intro r r' remote hnames
  obtain ⟨siteId, hsite, row, hrow, -, -, -, hlocal, remoteId, kind, hremote, -, hfind⟩ :=
    hres r r' remote hnames
  obtain ⟨localId, siteId', -, hsiteId, hlocalFind⟩ := entity_find h hst hnames.mem
  obtain rfl : siteId' = siteId :=
    Option.some.inj ((hst.sites.find _ _ hsiteId).symm.trans hsite)
  rcases hst.relationships.origin row hrow with hbase | ⟨x, hx, localId', _, hget, hrowEq⟩
  · cases hbase
  rw [hrowEq] at hlocal hremote
  -- the row is the one of the record itself
  have hlocalScoped : x.localScopedId = r.scopedId reader :=
    scoped_of_find hst hget hsiteId hlocal
  obtain ⟨front, r₀, back, hsplit, hx⟩ := h.mem_relationships.mp hx
  have hspec := readings_spec reader snapshot
  have hmem₀ : r₀ ∈ reader.readings snapshot := by simp [hsplit]
  obtain rfl : r₀ = r := by
    refine List.inj_on_of_nodup_map hspec.nodup hmem₀ hnames.mem ?_
    rw [← hlocalScoped]
    unfold Reading.relationship at hx
    split at hx
    · obtain ⟨_, _, rfl⟩ := Option.map_eq_some_iff.mp hx
      rfl
    · cases hx
  rw [relationship_of_named hnames.device hnames.named] at hx
  cases hx
  have hscoped := scoped_of_find hst hremote hsiteId hfind
  simp only at hscoped
  cases hids : (reader.deviceIdsOf r₀.visit (front ++ [r₀])).get remote with
  | none =>
    rw [hids, Option.getD_none] at hscoped
    exact absurd hscoped.symm scopedId_ne_unknown
  | some s =>
    obtain ⟨r'', hr'', hvisit, hkind, hid, hs⟩ := deviceIdsOf_get.1 s hids
    have hmem'' : r'' ∈ reader.readings snapshot := by
      rw [hsplit, List.append_cons]
      exact List.mem_append_left _ hr''
    have hkey : r''.siteKey = r₀.siteKey := by
      rw [hspec.siteKey r'' hmem'', hspec.siteKey r₀ hmem₀, hvisit]
    rw [hids, Option.getD_some, ← hs] at hscoped
    unfold Reading.scopedId at hscoped
    rw [hkey] at hscoped
    refine ⟨?_, front, back, hsplit, r'', hr'', hvisit, hkind, hid⟩
    rw [← (scopedId_inj hscoped).2, hid]

/-- A relationship that is found in `device_ids` resolves, whatever the tables held before. -/
theorem resolved_of_read (h : Normalized reader snapshot inv)
    (hst : Writer.Stored w inv base st) (hread : reader.UplinksRead snapshot) :
    reader.UplinksResolve snapshot w st.db := by
  intro r r' remote hnames
  obtain ⟨hfold, front, back, hsplit, hfound⟩ := hread r r' remote hnames
  obtain ⟨s, hids⟩ := deviceIdsOf_get.2 hfound
  obtain ⟨r'', hr'', hvisit, hkind, hid, rfl⟩ := deviceIdsOf_get.1 s hids
  have hmem'' : r'' ∈ reader.readings snapshot := by
    rw [hsplit, List.append_cons]
    exact List.mem_append_left _ hr''
  have hspec := readings_spec reader snapshot
  have hkey : r''.siteKey = r.siteKey := by
    rw [hspec.siteKey r'' hmem'', hspec.siteKey r hnames.mem, hvisit]
  obtain ⟨localId, siteId, hlocal, hsiteId, hlocalFind⟩ := entity_find h hst hnames.mem
  obtain ⟨remoteId, siteId', hremote, hsiteId', hremoteFind⟩ := entity_find h hst hmem''
  rw [hkey, hsiteId] at hsiteId'
  cases hsiteId'
  have hx := h.mem_relationships.mpr ⟨front, r, back, hsplit,
    relationship_of_named hnames.device hnames.named _⟩
  obtain ⟨_, row, hrow, hrowKey⟩ := hst.relationships.stored _ hx localId hlocal
  unfold Writer.relationshipRow RelationshipRow.key at hrowKey
  simp only [Option.some.injEq, Prod.mk.injEq, hids, Option.getD_some, hremote] at hrowKey
  obtain ⟨⟨hrowLocal, hrowRemote, -⟩, hrowKind, hrowSource, hrowObserved⟩ := hrowKey
  refine ⟨siteId, hst.sites.find _ _ hsiteId, row, hrow, hrowKind, hrowSource, hrowObserved, ?_,
    remoteId, r''.kind, hrowRemote, hkind, ?_⟩
  · rw [hrowLocal]
    exact hlocalFind
  · rw [hfold, ← hid]
    exact hremoteFind

end Stored

end Reader

/-- The readings by their positions. -/
theorem Reader.UplinksRead.of_getElem {reader : Reader} {snapshot : UniFiSnapshot}
    (h : ∀ i : Fin (reader.readings snapshot).length,
      ∀ remote ∈ Reader.uplink (reader.readings snapshot)[i].record,
        reader.rt.casefold remote = remote ∧
          ∃ r'' ∈ (reader.readings snapshot).take (i + 1),
            r''.visit = (reader.readings snapshot)[i].visit ∧ r''.kind.isDevice = true ∧
              r''.controllerId reader = remote) : reader.UplinksRead snapshot := by
  intro r r' remote hnames
  obtain ⟨i, hi, rfl⟩ := List.getElem_of_mem hnames.mem
  obtain ⟨hfold, hfound⟩ := h ⟨i, hi⟩ remote hnames.named
  refine ⟨hfold, (reader.readings snapshot).take i, (reader.readings snapshot).drop (i + 1), ?_, ?_⟩
  · rw [List.getElem_cons_drop, List.take_append_drop]
  · rw [List.take_append_getElem]
    exact hfound

/-! ## A site of three devices

`early` stands before the gateway that it names, and `late` spells its name in capitals. -/

namespace UplinkSample

def device (id role uplinkDevice : String) : Json :=
  .dict [(str "_id", .string (str id)), (str "type", .string (str role)),
    (str "uplink_device", .string (str uplinkDevice))]

def snapshot (devices : List Json) : UniFiSnapshot where
  controllerKey := str "fixture:443"
  sites := [[(str "_id", .string (str "site"))]]
  resources := [((str "site", .devices), devices)]

def reader : Reader where
  rt := Runtime.ofDigests []
  printable _ := true
  controllerKey := str "fixture:443"
  observedAt := ⟨63000000000000000, 0, sample_inCalendar, zero_offset⟩
  staleAfter := 7 * microsPerDay

def writer : Writer where
  rt := reader.rt
  redactor := ⟨[], []⟩
  deploymentId := 1
  controllerKey := reader.controllerKey
  observed := reader.observedAt.isoformat

def normalized (s : UniFiSnapshot) : Except Exc NormalizedUniFiInventory :=
  normalizeSnapshot reader.rt reader.printable s (some reader.observedAt)

/-- `persist_inventory` in a database that holds its deployment only. -/
def stored (inv : NormalizedUniFiInventory) : Except Exc (InventoryDb × Nat) :=
  persistInventory reader.rt .insertion writer.redactor writer.deploymentId inv
    { deployments := [1] }

def unresolved : UniFiSnapshot :=
  snapshot [device "early" "usw" "gw", device "gw" "ugw" "", device "late" "usw" "GW"]

def resolved : UniFiSnapshot :=
  snapshot [device "gw" "ugw" "", device "early" "usw" "gw", device "late" "usw" "gw"]

end UplinkSample

/-- Both uplinks to a gateway of the same site are stored as unresolved. -/
theorem uplinks_stay_unresolved : ∃ inv db count,
    UplinkSample.normalized UplinkSample.unresolved = .ok inv ∧
    UplinkSample.stored inv = .ok (db, count) ∧
    db.relationships.rows.map (fun row => (row.2.remoteEntityId, row.2.remoteIdentifier)) =
      [(none, some (str "site:device:gw")), (none, some (str "site:device:gw"))] ∧
    ¬ UplinkSample.reader.UplinksResolve UplinkSample.unresolved UplinkSample.writer db := by
  obtain ⟨inv, hinv⟩ := Except.exists_of_isOk
    (by decide +kernel : (UplinkSample.normalized UplinkSample.unresolved).isOk = true)
  have hrun : ((UplinkSample.normalized UplinkSample.unresolved >>= UplinkSample.stored).toOption.map
      fun p => p.1.relationships.rows.map fun row =>
        (row.2.remoteEntityId, row.2.remoteIdentifier)) =
      some [(none, some (str "site:device:gw")), (none, some (str "site:device:gw"))] := by
    decide +kernel
  rw [hinv, Except.ok_bind] at hrun
  obtain ⟨⟨db, count⟩, hdb, hrows⟩ := Option.map_eq_some_iff.mp hrun
  refine ⟨inv, db, count, hinv, Except.toOption_eq_some.mp hdb, hrows, fun hres => ?_⟩
  -- no row has a remote entity
  obtain ⟨r, hr, r', hr', hkind, hnamed, hkind', hsite, hid⟩ :
      ∃ r ∈ UplinkSample.reader.readings UplinkSample.unresolved,
      ∃ r' ∈ UplinkSample.reader.readings UplinkSample.unresolved, r.kind.isDevice = true ∧
        Reader.uplink r.record = some (str "GW") ∧ r'.kind.isDevice = true ∧
        r'.siteKey = r.siteKey ∧ r'.controllerId UplinkSample.reader =
          UplinkSample.reader.rt.casefold (str "GW") := by decide +kernel
  obtain ⟨_, _, row, hrow, -, -, -, -, remoteId, _, hremote, -⟩ :=
    hres r r' (str "GW") ⟨hr, hkind, hnamed, hr', hkind', hsite, hid⟩
  have hmem := List.mem_map_of_mem (f := fun row : Nat × RelationshipRow =>
    (row.2.remoteEntityId, row.2.remoteIdentifier)) hrow
  rw [hrows, hremote] at hmem
  simp at hmem

/-- An inventory that can be stored has all its named uplinks resolved in every database exactly
when they are read in time and as they are spelled. -/
theorem uplinks_resolve_iff {rt : Runtime} {printable : CodePoint → Bool}
    {snapshot : UniFiSnapshot} {observedAt : Datetime} {staleAfter : Int}
    {inv : NormalizedUniFiInventory} {so : SetOrder} {redactor : Redactor} {deploymentId : Nat}
    {deployments : List Nat}
    (hnorm : normalizeSnapshot rt printable snapshot (some observedAt) staleAfter = .ok inv)
    (hstore : (persistInventory rt so redactor deploymentId inv { deployments }).isOk = true) :
    let reader : Reader := ⟨rt, printable, snapshot.controllerKey, observedAt, staleAfter⟩
    let w : Writer := ⟨rt, redactor, deploymentId, snapshot.controllerKey, observedAt.isoformat⟩
    (∀ db db' count, persistInventory rt so redactor deploymentId inv db = .ok (db', count) →
      reader.UplinksResolve snapshot w db') ↔ reader.UplinksRead snapshot := by
  intro reader w
  have hspec := Reader.normalizeSnapshot_spec hnorm
  have hkey : inv.controllerKey = snapshot.controllerKey := hspec.controllerKey
  have hobserved : inv.observedAt = observedAt := hspec.observedAt
  constructor
  · intro hall
    obtain ⟨⟨db', count⟩, hpersist⟩ := Except.exists_of_isOk hstore
    obtain ⟨st, rfl, hst⟩ := persistInventory_spec hpersist
    rw [hkey, hobserved] at hst
    exact Reader.read_of_resolved hspec hst (hall _ _ _ hpersist)
  · intro hread db db' count hpersist
    obtain ⟨st, rfl, hst⟩ := persistInventory_spec hpersist
    rw [hkey, hobserved] at hst
    exact Reader.resolved_of_read hspec hst hread

theorem uplinks_resolve_iff_sample : ∃ inv db count,
    UplinkSample.normalized UplinkSample.resolved = .ok inv ∧
    UplinkSample.stored inv = .ok (db, count) ∧
    UplinkSample.reader.UplinksResolve UplinkSample.resolved UplinkSample.writer db := by
  obtain ⟨inv, hinv⟩ := Except.exists_of_isOk
    (by decide +kernel : (UplinkSample.normalized UplinkSample.resolved).isOk = true)
  have hrun : (UplinkSample.normalized UplinkSample.resolved >>= UplinkSample.stored).isOk =
      true := by decide +kernel
  rw [hinv, Except.ok_bind] at hrun
  have hread : UplinkSample.reader.UplinksRead UplinkSample.resolved :=
    .of_getElem (by decide +kernel)
  obtain ⟨⟨db, count⟩, hdb⟩ := Except.exists_of_isOk hrun
  exact ⟨inv, db, count, hinv, hdb, (uplinks_resolve_iff hinv hrun).mpr hread _ _ _ hdb⟩

end FieldDiscovery.Unifi
