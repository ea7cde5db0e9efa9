import FieldDiscovery.Correlation.Partition
import FieldDiscovery.Lib.Separated
import FieldDiscovery.Unifi.Readings
import FieldDiscovery.Unifi.Stored

/-!
# Scoped IDs

`normalize_snapshot` keys an entity by its site, its kind and the IDs of the controller, with colons
between them, and `normalize_identifier` keys a source ID by its namespace in the same way. The parts
may hold colons themselves. So two entities share a key exactly when a piece of one part has moved to
the part before it (`scopedIds_distinct_iff`), and then the second of them is not in the inventory.
Where nothing has moved, every entity is stored as a row of its own, and source IDs of different
scopes do not make the correlation join what holds them.
-/

namespace FieldDiscovery.Unifi

open Py Correlation Separated

/-! ## What a snapshot describes -/

/-- An entity of a controller. -/
inductive EntityIdentity where
  | ofRecord (siteKey : Str) (kind : EntityKind) (hkind : kind ≠ .port) (controllerId : Str)
  | ofPort (siteKey controllerId portId : Str)

namespace EntityIdentity

def siteKey : EntityIdentity → Str
  | ofRecord siteKey _ _ _ | ofPort siteKey _ _ => siteKey

def kind : EntityIdentity → EntityKind
  | ofRecord _ kind _ _ => kind
  | ofPort _ _ _ => .port

/-- `controller_id` of the entity. -/
def controllerId : EntityIdentity → Str
  | ofRecord _ _ _ controllerId => controllerId
  | ofPort _ controllerId portId => controllerId ++ str ":" ++ portId

/-- `scoped_id` -/
def scopedId (x : EntityIdentity) : Str := Unifi.scopedId x.siteKey x.kind x.controllerId

/-- A piece of the IDs has moved to the part before it: from what follows the site key to the site
key, or from the ID of a port to that of its device. -/
inductive Overlaps : EntityIdentity → EntityIdentity → Prop
  | site {x y : EntityIdentity} (h : Shifts (cp ':')
    (x.siteKey, joined (cp ':') (x.kind.value, x.controllerId))
    (y.siteKey, joined (cp ':') (y.kind.value, y.controllerId))) : Overlaps x y
  | port {siteKey controllerId portId controllerId' portId' : Str}
    (h : Shifts (cp ':') (controllerId, portId) (controllerId', portId')) :
    Overlaps (ofPort siteKey controllerId portId) (ofPort siteKey controllerId' portId')

end EntityIdentity

theorem EntityKind.value_injective : Function.Injective EntityKind.value := by
  intro a b
  cases a <;> cases b <;> decide

/-- Kinds hold no colon. -/
theorem EntityKind.colon_notMem_value (k : EntityKind) : cp ':' ∉ k.value := by
  cases k <;> decide

theorem entityKind_ne_port {rt : Runtime} {resource : Resource} {record : Record}
    {kind : EntityKind} (h : entityKind rt resource record = some kind) : kind ≠ .port := by
  rintro rfl
  cases resource with
  | devices =>
    have hrole : deviceRole rt record = some .port := h
    unfold deviceRole at hrole
    split at hrole
    · simp only at hrole
      split at hrole
      · cases hrole
      · split at hrole
        · cases hrole
        · split at hrole <;> cases hrole
    · cases hrole
  | clients | networks | wlans | profiles | alarms | events => cases h

namespace Reader

variable (reader : Reader)

/-- `str(port.get("port_idx", port.get("name", "unknown")))` -/
def portId (port : Record) : Str :=
  Json.toStr reader.printable
    ((port.get (str "port_idx")).getD ((port.get (str "name")).getD (.string (str "unknown"))))

/-- The records of a snapshot and the ports in their tables. -/
inductive Described (snapshot : UniFiSnapshot) : EntityIdentity → Prop
  | record {site : Record} {resource : Resource} {record : Record} {kind : EntityKind}
    (hsite : site ∈ snapshot.sites)
    (hrecord : Json.dict record ∈
      (snapshot.resources.get (identifier reader.rt site, resource)).getD [])
    (hkind : entityKind reader.rt resource record = some kind) :
    Described snapshot (.ofRecord (identifier reader.rt site) kind (entityKind_ne_port hkind)
      (identifier reader.rt record))
  | port {site : Record} {resource : Resource} {record port : Record} {kind : EntityKind}
    (hsite : site ∈ snapshot.sites)
    (hrecord : Json.dict record ∈
      (snapshot.resources.get (identifier reader.rt site, resource)).getD [])
    (hkind : entityKind reader.rt resource record = some kind)
    (hport : Json.dict port ∈ portTable resource record) :
    Described snapshot (.ofPort (identifier reader.rt site) (identifier reader.rt record)
      (reader.portId port))

/-- The inventory has an entity for it. -/
def Inventoried (inv : NormalizedUniFiInventory) (x : EntityIdentity) : Prop :=
  ∃ e ∈ inv.entities, e.siteKey = x.siteKey ∧ e.kind = x.kind ∧ e.controllerId = x.controllerId

end Reader

/-! ## Equal scoped IDs -/

namespace EntityIdentity

theorem scopedId_eq_joined (x : EntityIdentity) : x.scopedId =
    joined (cp ':') (x.siteKey, joined (cp ':') (x.kind.value, x.controllerId)) := by
  unfold scopedId Unifi.scopedId joined
  simp only [List.append_assoc]
  rfl

/-- Equal scoped IDs at one site are those of one entity, or of two ports. -/
theorem eq_or_overlaps {x y : EntityIdentity} (hsite : x.siteKey = y.siteKey)
    (hkind : x.kind = y.kind) (hid : x.controllerId = y.controllerId) :
    x = y ∨ x.Overlaps y ∨ y.Overlaps x := by
  cases x with
  | ofRecord siteKey kind hrecord controllerId =>
    cases y with
    | ofRecord siteKey' kind' hrecord' controllerId' =>
      cases hsite
      cases hkind
      cases hid
      exact .inl rfl
    | ofPort siteKey' controllerId' portId' => exact absurd hkind hrecord
  | ofPort siteKey controllerId portId =>
    cases y with
    | ofRecord siteKey' kind' hrecord' controllerId' => exact absurd hkind.symm hrecord'
    | ofPort siteKey' controllerId' portId' =>
      cases hsite
      have hjoined : joined (cp ':') (controllerId, portId) =
          joined (cp ':') (controllerId', portId') := by
        have hparts : controllerId ++ str ":" ++ portId = controllerId' ++ str ":" ++ portId' := hid
        rw [List.append_assoc, List.append_assoc] at hparts
        exact hparts
      rcases joined_eq_iff.mp hjoined with heq | hshift | hshift
      · cases heq
        exact .inl rfl
      · exact .inr (.inl (.port hshift))
      · exact .inr (.inr (.port hshift))

theorem Overlaps.scopedId_eq {x y : EntityIdentity} (h : x.Overlaps y) :
    x.scopedId = y.scopedId := by
  cases h with
  | site h =>
    rw [scopedId_eq_joined, scopedId_eq_joined]
    exact h.joined_eq
  | port h =>
    have hid := h.joined_eq
    unfold joined at hid
    unfold scopedId
    simp only [EntityIdentity.controllerId, List.append_assoc]
    exact congrArg (Unifi.scopedId _ .port) hid

theorem Overlaps.ne {x y : EntityIdentity} (h : x.Overlaps y) : x ≠ y := by
  rintro rfl
  cases h with
  | site h => exact absurd h.length_lt (lt_irrefl _)
  | port h => exact absurd h.length_lt (lt_irrefl _)

theorem scopedId_eq_iff {x y : EntityIdentity} :
    x.scopedId = y.scopedId ↔ x = y ∨ x.Overlaps y ∨ y.Overlaps x := by
  constructor
  · intro h
    rw [scopedId_eq_joined, scopedId_eq_joined] at h
    rcases joined_eq_iff.mp h with heq | hshift | hshift
    · obtain ⟨hsite, htail⟩ := Prod.mk.inj heq
      obtain ⟨hvalue, hid⟩ := Prod.mk.inj ((joined_inj (EntityKind.colon_notMem_value _)
        (EntityKind.colon_notMem_value _)).mp htail)
      exact eq_or_overlaps hsite (EntityKind.value_injective hvalue) hid
    · exact .inr (.inl (.site hshift))
    · exact .inr (.inr (.site hshift))
  · rintro (rfl | h | h)
    · rfl
    · exact h.scopedId_eq
    · exact h.scopedId_eq.symm

end EntityIdentity

/-! ## The inventory -/

namespace Reader

variable {reader : Reader} {snapshot : UniFiSnapshot}

variable (reader snapshot) in
/-- The entities and the seen IDs are those of what the snapshot describes, and every seen ID has its
entity. -/
structure Sourced (st : ReadState) : Prop where
  entities : ∀ e ∈ st.entities, ∃ x, reader.Described snapshot x ∧ e.siteKey = x.siteKey ∧
    e.kind = x.kind ∧ e.controllerId = x.controllerId
  seen : ∀ s ∈ st.seenEntities, ∃ e ∈ st.entities, e.scopedId = s

theorem Sourced.insert {st : ReadState} (h : Sourced reader snapshot st) {e : UniFiEntity}
    {x : EntityIdentity} (hx : reader.Described snapshot x) (hsite : e.siteKey = x.siteKey)
    (hkind : e.kind = x.kind) (hid : e.controllerId = x.controllerId) :
    Sourced reader snapshot { st with
      seenEntities := e.scopedId :: st.seenEntities, entities := st.entities ++ [e] } where
  entities := by
    intro e' he'
    rcases List.mem_append.mp he' with he' | he'
    · exact h.entities e' he'
    · rw [List.mem_singleton.mp he']
      exact ⟨x, hx, hsite, hkind, hid⟩
  seen := by
    intro s hs
    rcases List.mem_cons.mp hs with rfl | hs
    · exact ⟨e, List.mem_append_right _ (List.mem_singleton_self e), rfl⟩
    · obtain ⟨e', he', hid'⟩ := h.seen s hs
      exact ⟨e', List.mem_append_left _ he', hid'⟩

/-- Only the entities and the seen IDs matter. -/
theorem Sourced.congr {st st' : ReadState} (h : Sourced reader snapshot st)
    (hentities : st'.entities = st.entities) (hseen : st'.seenEntities = st.seenEntities) :
    Sourced reader snapshot st' :=
  ⟨hentities ▸ h.entities, by rw [hseen, hentities]; exact h.seen⟩

theorem Sourced.ports {st : ReadState} (h : Sourced reader snapshot st) {siteKey controllerId : Str}
    {values : List Json} (hvalues : ∀ port, Json.dict port ∈ values →
      reader.Described snapshot (.ofPort siteKey controllerId (reader.portId port))) :
    Sourced reader snapshot (values.foldl (reader.readPort siteKey controllerId) st) := by
  induction values generalizing st with
  | nil => exact h
  | cons value values ih =>
    refine ih ?_ fun port hport => hvalues port (List.mem_cons_of_mem _ hport)
    unfold readPort
    split
    · next port =>
      simp only
      split
      · exact h
      · exact h.insert (hvalues port List.mem_cons_self) rfl rfl rfl
    · exact h

theorem Sourced.reading {st st' : ReadState} (h : Sourced reader snapshot st) {r : Reading}
    {site : Record} (hsite : site ∈ snapshot.sites) (hkey : r.siteKey = identifier reader.rt site)
    (hrecord : Json.dict r.record ∈
      (snapshot.resources.get (identifier reader.rt site, r.resource)).getD [])
    (hkind : entityKind reader.rt r.resource r.record = some r.kind)
    (hst : reader.readReading st r = .ok st') : Sourced reader snapshot st' := by
  obtain ⟨active, -, hcases⟩ := readReading_cases hst
  have hself := Described.record hsite hrecord hkind
  have hports : ∀ port, Json.dict port ∈ portTable r.resource r.record →
      reader.Described snapshot (.ofPort r.siteKey (r.controllerId reader) (reader.portId port)) :=
    fun port hport => hkey ▸ .port hsite hrecord hkind hport
  rcases hcases with ⟨-, o, -, st₁, hst₁, rfl⟩ | ⟨-, rfl⟩
  · have hdevices : Sourced reader snapshot { st with devices := st.devices ++ [o] } := h.congr rfl rfl
    have hinsert := hdevices.insert (e := r.entity reader active (some o.id)) hself hkey rfl rfl
    have hsourced : Sourced reader snapshot st₁ := by
      rw [hst₁]
      refine Sourced.ports ?_ hports
      exact hinsert.congr rfl rfl
    exact hsourced.congr rfl rfl
  · have hinsert := h.insert (e := r.entity reader active none) hself hkey rfl rfl
    refine Sourced.ports ?_ hports
    exact hinsert.congr rfl rfl

theorem Sourced.site {st st' : ReadState} (h : Sourced reader snapshot st) {site : Record × Nat}
    (hsite : site.1 ∈ snapshot.sites) (hst : reader.readSite snapshot st site = .ok st') :
    Sourced reader snapshot st' := by
  unfold readSite at hst
  refine Except.foldlM_invariant (P := Sourced reader snapshot) ?_ ?_ hst
  · exact h.congr rfl rfl
  intro resource _ st st' hs hresource
  refine Except.foldlM_invariant (P := Sourced reader snapshot) hs ?_ hresource
  intro value hvalue st st' hs hrecord
  unfold readRecord at hrecord
  split at hrecord
  · next r hr =>
    obtain ⟨-, hkey, hresource', rfl, hkind, -⟩ := reading_eq_some hr
    exact hs.reading hsite hkey (hresource' ▸ hvalue) (hresource' ▸ hkind) hrecord
  · cases hrecord
    exact hs

theorem mem_record {done : List Reading} {raw : Raw} {r : Reading} (h : r ∈ done) :
    r ∈ reader.record done raw := by
  unfold Reader.record
  split
  · exact List.mem_append_left _ h
  · exact h

/-- The scoped ID of a record that was met is marked. -/
theorem marked_of_raw {raws : List Raw} {done : List Reading} {raw : Raw} (hraw : raw ∈ raws)
    {record : Record} (hvalue : raw.value = .dict record) {kind : EntityKind}
    (hkind : entityKind reader.rt raw.resource record = some kind) :
    Unifi.scopedId raw.siteKey kind (identifier reader.rt record) ∈
      (raws.foldl reader.record done).flatMap reader.marks := by
  have hmono : ∀ (raws : List Raw) (done : List Reading), ∀ s ∈ done.flatMap reader.marks,
      s ∈ (raws.foldl reader.record done).flatMap reader.marks := by
    intro raws
    induction raws with
    | nil => exact fun _ _ h => h
    | cons raw raws ih =>
      intro done s hs
      obtain ⟨r, hr, hs⟩ := List.mem_flatMap.mp hs
      exact ih _ s (List.mem_flatMap.mpr ⟨r, mem_record hr, hs⟩)
  induction raws generalizing done with
  | nil => cases hraw
  | cons raw' raws ih =>
    rw [List.foldl_cons]
    rcases List.mem_cons.mp hraw with rfl | hraw
    · refine hmono _ _ _ ?_
      by_cases hmarked : Unifi.scopedId raw.siteKey kind (identifier reader.rt record) ∈
          done.flatMap reader.marks
      · exact hmono [raw] done _ hmarked
      · have hread : reader.reading raw.visit raw.siteKey raw.resource (done.flatMap reader.marks)
            raw.value = some ⟨raw.visit, raw.siteKey, raw.resource, kind, record⟩ := by
          unfold reading
          rw [hvalue]
          simp only [hkind, Option.bind_some]
          exact if_neg hmarked
        unfold Reader.record
        rw [hread, List.flatMap_append, List.flatMap_singleton]
        exact List.mem_append_right _ List.mem_cons_self
    · exact ih hraw

/-- Every reading is a record of the snapshot. -/
theorem mem_readings {r : Reading} (h : r ∈ reader.readings snapshot) :
    ∃ site ∈ snapshot.sites, r.siteKey = identifier reader.rt site ∧
      Json.dict r.record ∈
        (snapshot.resources.get (identifier reader.rt site, r.resource)).getD [] ∧
      entityKind reader.rt r.resource r.record = some r.kind := by
  have hfold : ∀ (raws : List Raw) (done : List Reading), r ∈ raws.foldl reader.record done →
      r ∈ done ∨ ∃ raw ∈ raws, r.siteKey = raw.siteKey ∧ r.resource = raw.resource ∧
        raw.value = .dict r.record ∧ entityKind reader.rt r.resource r.record = some r.kind := by
    intro raws
    induction raws with
    | nil => exact fun _ h => .inl h
    | cons raw raws ih =>
      intro done hr
      rcases ih _ hr with hr | ⟨raw', hraw', hspec⟩
      · unfold Reader.record at hr
        split at hr
        · next r' hread =>
          rcases List.mem_append.mp hr with hr | hr
          · exact .inl hr
          · obtain rfl := List.mem_singleton.mp hr
            obtain ⟨-, hsite, hresource, hvalue, hkind, -⟩ := reading_eq_some hread
            exact .inr ⟨raw, List.mem_cons_self, hsite, hresource, hvalue, hresource ▸ hkind⟩
        · exact .inl hr
      · exact .inr ⟨raw', List.mem_cons_of_mem _ hraw', hspec⟩
  rcases hfold _ _ h with h | ⟨raw, hraw, hsite, hresource, hvalue, hkind⟩
  · cases h
  · obtain ⟨⟨site, visit⟩, hmem, hraw⟩ := List.mem_flatMap.mp hraw
    obtain ⟨resource, -, hraw⟩ := List.mem_flatMap.mp hraw
    obtain ⟨value, hrecord, rfl⟩ := List.mem_map.mp hraw
    cases hvalue
    refine ⟨site, List.fst_mem_of_mem_zipIdx hmem, hsite, ?_, hkind⟩
    rw [hresource]
    exact hrecord

/-- Without overlaps every record of a snapshot has its entity, and so has every port of a record
that is read. -/
theorem inventoried_of_distinct {rt : Runtime} {printable : CodePoint → Bool}
    {observedAt : Datetime} {staleAfter : Int} {inv : NormalizedUniFiInventory}
    (h : normalizeSnapshot rt printable snapshot (some observedAt) staleAfter = .ok inv)
    (hreader : reader = ⟨rt, printable, snapshot.controllerKey, observedAt, staleAfter⟩)
    (hdistinct : ∀ x y, reader.Described snapshot x → reader.Described snapshot y →
      x.scopedId = y.scopedId → x = y) :
    (∀ x, reader.Described snapshot x → x.kind ≠ .port → Inventoried inv x) ∧
      ∀ r ∈ reader.readings snapshot, ∀ port ∈ ports r, Inventoried inv
        (.ofPort r.siteKey (r.controllerId reader) (reader.portId port)) := by
  unfold normalizeSnapshot at h
  obtain ⟨st, hst, h⟩ := Except.bind_eq_ok.mp h
  obtain ⟨sites, -, h⟩ := Except.bind_eq_ok.mp h
  obtain rfl := Except.ok.inj h
  rw [← hreader] at hst
  obtain ⟨visit, hread⟩ := readSnapshot_spec hst
  have hsourced : Sourced reader snapshot st := by
    refine Except.foldlM_invariant (P := Sourced reader snapshot)
      ⟨fun e he => absurd he List.not_mem_nil, fun s hs => absurd hs List.not_mem_nil⟩ ?_ hst
    intro site hsite st st' hs hsiteRead
    exact hs.site (List.fst_mem_of_mem_zipIdx hsite) hsiteRead
  have hseen : ∀ x, reader.Described snapshot x → x.scopedId ∈ st.seenEntities → ∃ e ∈ st.entities,
      e.siteKey = x.siteKey ∧ e.kind = x.kind ∧ e.controllerId = x.controllerId := by
    intro x hx hmem
    obtain ⟨e, he, hid⟩ := hsourced.seen _ hmem
    obtain ⟨y, hy, hsite, hkind, hcontroller⟩ := hsourced.entities e he
    have hscoped : e.scopedId = y.scopedId := by
      unfold UniFiEntity.scopedId EntityIdentity.scopedId
      rw [hsite, hkind, hcontroller]
    obtain rfl := hdistinct y x hy hx (hscoped.symm.trans hid)
    exact ⟨e, he, hsite, hkind, hcontroller⟩
  refine ⟨fun x hx hport => ?_, fun r hr port hport => ?_⟩
  · have hmem : x.scopedId ∈ st.seenEntities := by
      rw [hread.seen]
      cases hx with
      | port hsite hrecord hkind hp => exact absurd rfl hport
      | @record site resource record kind hsite hrecord hkind =>
        obtain ⟨i, hi⟩ := List.mem_iff_getElem?.mp hsite
        let raw : Raw := ⟨i, identifier reader.rt site, resource, .dict record⟩
        refine @marked_of_raw reader _ _ raw ?_ record rfl kind hkind
        refine List.mem_flatMap.mpr ⟨(site, i), List.mem_zipIdx_iff_getElem?.mpr hi, ?_⟩
        refine List.mem_flatMap.mpr ⟨resource, ?_, List.mem_map_of_mem hrecord⟩
        cases resource <;> decide
    obtain ⟨e, he, hfields⟩ := hseen x hx hmem
    exact ⟨e, mem_sortedBy.mpr he, hfields⟩
  · obtain ⟨site, hsite, hkey, hrecord, hkind⟩ := mem_readings hr
    have hx : reader.Described snapshot
        (.ofPort r.siteKey (r.controllerId reader) (reader.portId port)) :=
      hkey ▸ .port hsite hrecord hkind (mem_ports.mp hport)
    have hmem : (EntityIdentity.ofPort r.siteKey (r.controllerId reader)
        (reader.portId port)).scopedId ∈ st.seenEntities := by
      rw [hread.seen]
      exact List.mem_flatMap.mpr ⟨r, hr, List.mem_cons_of_mem _ (List.mem_map_of_mem hport)⟩
    obtain ⟨e, he, hfields⟩ := hseen _ hx hmem
    exact ⟨e, mem_sortedBy.mpr he, hfields⟩

end Reader

/-! ## The rows -/

/-- The row under the kind and the ID of an entity, at the row of its site. -/
structure Writer.HasRow (w : Writer) (db : InventoryDb) (x : EntityIdentity) (row : Nat × EntityRow) :
    Prop where
  mem : row ∈ db.entities.rows
  site : db.sites.find (w.siteKeyOf x.siteKey) = some row.2.siteId
  key : row.2.key = some (w.entityKeyOf row.2.siteId x.kind x.controllerId)

/-- One row is of one scoped ID. -/
theorem Writer.HasRow.scopedId_eq {w : Writer} {db : InventoryDb} {x y : EntityIdentity}
    {row : Nat × EntityRow} (hx : w.HasRow db x row) (hy : w.HasRow db y row) :
    x.scopedId = y.scopedId := by
  have hsite := Sql.Table.find_inj hx.site hy.site
  have hkey := Option.some.inj (hx.key.symm.trans hy.key)
  unfold Writer.siteKeyOf at hsite
  unfold Writer.entityKeyOf at hkey
  simp only [Prod.mk.injEq] at hsite hkey
  unfold EntityIdentity.scopedId
  rw [hsite.2.2.1, EntityKind.value_injective hkey.2.1, hkey.2.2.1]

/-- Every entity of a stored inventory has its row. -/
theorem Reader.Inventoried.exists_row {rt : Runtime} {printable : CodePoint → Bool}
    {snapshot : UniFiSnapshot} {observedAt : Datetime} {staleAfter : Int}
    {inv : NormalizedUniFiInventory} {so : SetOrder} {redactor : Redaction.Redactor} {deploymentId : Nat}
    {db db' : InventoryDb} {count : Nat} {x : EntityIdentity} (hx : Reader.Inventoried inv x)
    (hnorm : normalizeSnapshot rt printable snapshot (some observedAt) staleAfter = .ok inv)
    (hstore : persistInventory rt so redactor deploymentId inv db = .ok (db', count)) :
    ∃ row, Writer.HasRow ⟨rt, redactor, deploymentId, inv.controllerKey, inv.observedAt.isoformat⟩
      db' x row := by
  obtain ⟨e, he, hsite, hkind, hid⟩ := hx
  obtain ⟨st, rfl, hst⟩ := persistInventory_spec hstore
  obtain ⟨visit, read, hread, hentities, -⟩ := (Reader.normalizeSnapshot_spec hnorm).state
  obtain ⟨row, hrow, hrowOf⟩ := hst.exists_row he fun e' he' hscoped => by
    rw [hentities, mem_sortedBy] at he he'
    exact List.inj_on_of_nodup_map hread.distinct.nodup he' he hscoped
  exact ⟨row, hrow, hsite ▸ hrowOf.site, hkind ▸ hid ▸ hrowOf.key⟩

/-! ## Source IDs -/

/-- A namespace and an ID after `strip` and `casefold`. -/
def sourcePair (rt : Runtime) (idNamespace : Option Str) (value : Str) : Str × Str :=
  (rt.casefold (strip (idNamespace.getD [])), rt.casefold (strip value))

theorem normalizeIdentifier_sourceId {rt : Runtime} {value : Str} {idNamespace : Option Str}
    {id : Str} (h : normalizeIdentifier rt .sourceId value idNamespace = .ok id) :
    id = joined (cp ':') (sourcePair rt idNamespace value) := by
  have hstrip : ∀ {s field : Str} {maximum : Nat} {t : BoundedText maximum},
      requireText s field maximum = .ok t → t.val = strip s := by
    intro s field maximum t ht
    unfold requireText at ht
    simp only at ht
    split at ht
    · cases ht
      rfl
    · cases ht
  unfold normalizeIdentifier at h
  obtain ⟨scope, hscope, h⟩ := Except.bind_eq_ok.mp h
  obtain ⟨identifier, hidentifier, h⟩ := Except.bind_eq_ok.mp h
  cases h
  rw [hstrip hscope, hstrip hidentifier, List.append_assoc]
  rfl

/-- Different pairs are told apart unless a piece has moved from the ID to the namespace. -/
theorem sourceId_distinct_iff {rt : Runtime} {value value' : Str} {idNamespace idNamespace' : Option Str}
    {id id' : Str} (h : normalizeIdentifier rt .sourceId value idNamespace = .ok id)
    (h' : normalizeIdentifier rt .sourceId value' idNamespace' = .ok id') :
    (sourcePair rt idNamespace value ≠ sourcePair rt idNamespace' value' → id ≠ id') ↔
      ¬ Shifts (cp ':') (sourcePair rt idNamespace value) (sourcePair rt idNamespace' value') ∧
      ¬ Shifts (cp ':') (sourcePair rt idNamespace' value')
        (sourcePair rt idNamespace value) := by
  rw [normalizeIdentifier_sourceId h, normalizeIdentifier_sourceId h']
  generalize sourcePair rt idNamespace value = p
  generalize sourcePair rt idNamespace' value' = q
  have hne : Shifts (cp ':') p q ∨ Shifts (cp ':') q p → p ≠ q := by
    rintro (hshift | hshift) rfl <;> exact absurd hshift.length_lt (lt_irrefl _)
  constructor
  · intro hdistinct
    rw [← not_or]
    exact fun hshift => hdistinct (hne hshift) (joined_eq_iff.mpr (.inr hshift))
  · rintro ⟨hpq, hqp⟩ hdifferent heq
    rcases joined_eq_iff.mp heq with h | h | h
    · exact hdifferent h
    · exact hpq h
    · exact hqp h

/-- The stable keys that an observation holds are those of one source ID. -/
def ScopedAs (rt : Runtime) (o : DeviceObservation) (value : Str) (idNamespace : Option Str) : Prop :=
  ∀ key, HoldsStable o key → ∃ id, normalizeIdentifier rt .sourceId value idNamespace = .ok id ∧
    key = IdentifierKind.sourceId.value ++ str ":" ++ id

/-- Observations that the correlation joins have the same scope, where no scopes overlap. -/
theorem sourcePair_eq_of_sameDevice {rt : Runtime} {so : SetOrder}
    {observations : List DeviceObservation} {r : CorrelationResult}
    {scope : DeviceObservation → Str × Option Str} (h : correlate rt so observations = .ok r)
    (hscope : ∀ o ∈ observations, ScopedAs rt o (scope o).1 (scope o).2)
    (hshift : ∀ a ∈ observations, ∀ b ∈ observations, ¬ Shifts (cp ':')
      (sourcePair rt (scope a).2 (scope a).1) (sourcePair rt (scope b).2 (scope b).1))
    {a b : DeviceObservation} (ha : a ∈ observations) (hb : b ∈ observations)
    (hsame : SameDevice r a.id b.id) :
    sourcePair rt (scope a).2 (scope a).1 = sourcePair rt (scope b).2 (scope b).1 := by
  have hlinked := ((correlate_accepted h).sameDevice_iff ha hb).mp hsame
  clear hsame hb
  induction hlinked with
  | refl => rfl
  | @tail m b _ hshares ih =>
    refine ih.trans ?_
    obtain ⟨hm, hb, key, hkeym, hkeyb⟩ := hshares
    obtain ⟨id, hid, hkey⟩ := hscope m hm key hkeym
    obtain ⟨id', hid', hkey'⟩ := hscope b hb key hkeyb
    have heq : id = id' := List.append_cancel_left (hkey.symm.trans hkey')
    rw [normalizeIdentifier_sourceId hid, normalizeIdentifier_sourceId hid'] at heq
    rcases joined_eq_iff.mp heq with heq | hpiece | hpiece
    · exact heq
    · exact absurd hpiece (hshift m hm b hb)
    · exact absurd hpiece (hshift b hb m hm)

/-! ## Main theorem -/

/-- The entities that a snapshot describes have different scoped IDs exactly when none of them
overlaps another; and then each of them is in the inventory, and is stored as a row of its own. The
same holds of source IDs, and observations of different source IDs are not put in one device. -/
theorem scopedIds_distinct_iff (rt : Runtime) (printable : CodePoint → Bool)
    (snapshot : UniFiSnapshot) (observedAt : Datetime) (staleAfter : Int) :
    let reader : Reader := ⟨rt, printable, snapshot.controllerKey, observedAt, staleAfter⟩
    ((∀ x y, reader.Described snapshot x → reader.Described snapshot y → x ≠ y →
        x.scopedId ≠ y.scopedId) ↔
      ∀ x y, reader.Described snapshot x → reader.Described snapshot y → ¬ x.Overlaps y) ∧
    (∀ inv, normalizeSnapshot rt printable snapshot (some observedAt) staleAfter = .ok inv →
      (∀ x y, reader.Described snapshot x → reader.Described snapshot y → ¬ x.Overlaps y) →
      (∀ x, reader.Described snapshot x → x.kind ≠ .port → Reader.Inventoried inv x) ∧
      (∀ r ∈ reader.readings snapshot, ∀ port ∈ Reader.ports r, Reader.Inventoried inv
        (.ofPort r.siteKey (r.controllerId reader) (reader.portId port))) ∧
      ∀ so redactor deploymentId db db' count,
        persistInventory rt so redactor deploymentId inv db = .ok (db', count) →
        let w : Writer := ⟨rt, redactor, deploymentId, inv.controllerKey, inv.observedAt.isoformat⟩
        (∀ x, Reader.Inventoried inv x → ∃ row, w.HasRow db' x row) ∧
        ∀ x y row, reader.Described snapshot x → reader.Described snapshot y →
          w.HasRow db' x row → w.HasRow db' y row → x = y) ∧
    (∀ value idNamespace value' idNamespace' id id',
      normalizeIdentifier rt .sourceId value idNamespace = .ok id →
      normalizeIdentifier rt .sourceId value' idNamespace' = .ok id' →
      ((sourcePair rt idNamespace value ≠ sourcePair rt idNamespace' value' → id ≠ id') ↔
        ¬ Shifts (cp ':') (sourcePair rt idNamespace value) (sourcePair rt idNamespace' value') ∧
        ¬ Shifts (cp ':') (sourcePair rt idNamespace' value')
          (sourcePair rt idNamespace value))) ∧
    ∀ so observations r (scope : DeviceObservation → Str × Option Str),
      correlate rt so observations = .ok r →
      (∀ o ∈ observations, ScopedAs rt o (scope o).1 (scope o).2) →
      (∀ a ∈ observations, ∀ b ∈ observations, ¬ Shifts (cp ':')
        (sourcePair rt (scope a).2 (scope a).1) (sourcePair rt (scope b).2 (scope b).1)) →
      ∀ a ∈ observations, ∀ b ∈ observations, SameDevice r a.id b.id →
        sourcePair rt (scope a).2 (scope a).1 = sourcePair rt (scope b).2 (scope b).1 := by
  intro reader
  have hdistinct : (∀ x y, reader.Described snapshot x → reader.Described snapshot y →
      ¬ x.Overlaps y) → ∀ x y, reader.Described snapshot x → reader.Described snapshot y →
      x.scopedId = y.scopedId → x = y := by
    intro h x y hx hy heq
    rcases EntityIdentity.scopedId_eq_iff.mp heq with heq | hoverlap | hoverlap
    · exact heq
    · exact absurd hoverlap (h x y hx hy)
    · exact absurd hoverlap (h y x hy hx)
  refine ⟨⟨fun h x y hx hy hoverlap => ?_, fun h x y hx hy hne heq => ?_⟩,
    fun inv hinv h => ?_, fun _ _ _ _ _ _ h h' => sourceId_distinct_iff h h',
    fun _ _ _ _ h hscope hshift _ ha _ hb => sourcePair_eq_of_sameDevice h hscope hshift ha hb⟩
  · exact h x y hx hy hoverlap.ne hoverlap.scopedId_eq
  · exact hne (hdistinct h x y hx hy heq)
  · obtain ⟨hrecords, hports⟩ := Reader.inventoried_of_distinct hinv rfl (hdistinct h)
    refine ⟨hrecords, hports, fun so redactor deploymentId db db' count hstore => ?_⟩
    refine ⟨fun x hx => hx.exists_row hinv hstore, fun x y row hx hy hrow hrow' => ?_⟩
    exact hdistinct h x y hx hy (hrow.scopedId_eq hrow')

/-! ## Two sites -/

/-- A client with an ID. -/
def clientRecord (id : String) : Json := .dict [(str "_id", .string (str id))]

/-- A switch with two ports. -/
def switchRecord (id : String) : Json :=
  .dict [(str "_id", .string (str id)), (str "type", .string (str "usw")),
    (str "port_table", .list [.dict [(str "port_idx", .int 1)], .dict [(str "port_idx", .int 2)]])]

/-- Two sites with a switch and clients of the same IDs. -/
def plainSnapshot : UniFiSnapshot where
  controllerKey := str "fixture:443"
  sites := [[(str "_id", .string (str "a"))], [(str "_id", .string (str "b"))]]
  resources :=
    [((str "a", .devices), [switchRecord "s"]),
      ((str "a", .clients), [clientRecord "c", clientRecord "d"]),
      ((str "b", .devices), [switchRecord "s"]), ((str "b", .clients), [clientRecord "c"])]

/-- Two sites with a client each; one site key is the other's and `:client:b`. -/
def collidingSnapshot : UniFiSnapshot where
  controllerKey := str "fixture:443"
  sites := [[(str "_id", .string (str "a"))], [(str "_id", .string (str "a:client:b"))]]
  resources :=
    [((str "a", .clients), [clientRecord "b:client:c"]),
      ((str "a:client:b", .clients), [clientRecord "c"])]

/-- The reader of both. -/
def plainReader : Reader :=
  ⟨Runtime.ofDigests [], fun _ => true, str "fixture:443",
    ⟨63000000000000000, 0, sample_inCalendar, zero_offset⟩, 7 * microsPerDay⟩

/-- `normalize_snapshot` at the default `stale_after`. -/
def normalizedBy (snapshot : UniFiSnapshot) : Except Exc NormalizedUniFiInventory :=
  normalizeSnapshot plainReader.rt plainReader.printable snapshot (some plainReader.observedAt)

/-- The writer of an inventory of the first deployment. -/
def plainWriter : Writer :=
  ⟨plainReader.rt, ⟨[], []⟩, 1, plainReader.controllerKey, plainReader.observedAt.isoformat⟩

/-- `persist_inventory` in a database that holds its deployment only. -/
def plainStored (inv : NormalizedUniFiInventory) : Except Exc (InventoryDb × Nat) :=
  persistInventory plainReader.rt .insertion plainWriter.redactor plainWriter.deploymentId inv
    { deployments := [1] }

/-- The length of the ID of a record. -/
def idLength : Json → Nat
  | .dict record => (identifier plainReader.rt record).length
  | _ => 0

theorem plainSnapshot_disjoint (x y : EntityIdentity) (hx : plainReader.Described plainSnapshot x)
    (hy : plainReader.Described plainSnapshot y) : ¬ x.Overlaps y := by
  have hsites : ∀ site ∈ plainSnapshot.sites, (identifier plainReader.rt site).length = 1 := by
    decide +kernel
  have hrecords : ∀ resource, ∀ site ∈ plainSnapshot.sites, ∀ value ∈ (plainSnapshot.resources.get
      (identifier plainReader.rt site, resource)).getD [], idLength value = 1 := by
    intro resource
    cases resource <;> decide +kernel
  -- all parts that a piece could move to are of one length
  have hlengths : ∀ x, plainReader.Described plainSnapshot x → x.siteKey.length = 1 ∧
      ∀ siteKey controllerId portId, x = .ofPort siteKey controllerId portId →
        controllerId.length = 1 := by
    intro x hx
    cases hx with
    | record hsite hrecord hkind => exact ⟨hsites _ hsite, by rintro _ _ _ ⟨⟩⟩
    | port hsite hrecord hkind hport =>
      refine ⟨hsites _ hsite, ?_⟩
      rintro _ _ _ ⟨⟩
      exact hrecords _ _ hsite _ hrecord
  intro h
  cases h with
  | site h => exact absurd h.length_lt (by rw [(hlengths x hx).1, (hlengths y hy).1]; decide)
  | port h =>
    have hlt := h.length_lt
    simp only [(hlengths _ hx).2 _ _ _ rfl, (hlengths _ hy).2 _ _ _ rfl] at hlt
    exact absurd hlt (lt_irrefl 1)

/-- An observation of a source ID. -/
def sourceObservation (observationId : BoundedText 512) (id : String) : DeviceObservation where
  observationId
  source := Sample.source
  observedAt := Sample.observedAt
  identifiers := [Sample.evidence .sourceId (str id)]
  interfaces := []
  facts := []

/-- One ID at two sites. -/
def sourceObservations : List DeviceObservation :=
  [sourceObservation ⟨str "x", by decide⟩ "a:1", sourceObservation ⟨str "y", by decide⟩ "b:1"]

theorem scopedIds_distinct_sample : ∃ inv db count r, normalizedBy plainSnapshot = .ok inv ∧
    plainStored inv = .ok (db, count) ∧
    correlate plainReader.rt .insertion sourceObservations = .ok r ∧
    (∀ x y, plainReader.Described plainSnapshot x → plainReader.Described plainSnapshot y → x ≠ y →
      x.scopedId ≠ y.scopedId) ∧
    (∀ x, plainReader.Described plainSnapshot x → x.kind ≠ .port →
      Reader.Inventoried inv x ∧ ∃ row, plainWriter.HasRow db x row) ∧
    (∃ row, plainWriter.HasRow db (.ofPort (str "b") (str "s") (str "2")) row) ∧
    (∃ id id', normalizeIdentifier plainReader.rt .sourceId (str "1") (some (str "a")) = .ok id ∧
      normalizeIdentifier plainReader.rt .sourceId (str "1") (some (str "b")) = .ok id' ∧
      id ≠ id') ∧
    ¬ SameDevice r (str "x") (str "y") := by
  obtain ⟨inv, hinv⟩ := Except.exists_of_isOk
    (by decide +kernel : (normalizedBy plainSnapshot).isOk = true)
  have hrun : (normalizedBy plainSnapshot >>= plainStored).isOk = true := by decide +kernel
  rw [hinv, Except.ok_bind] at hrun
  obtain ⟨⟨db, count⟩, hdb⟩ := Except.exists_of_isOk hrun
  obtain ⟨r, hr⟩ := Except.exists_of_isOk (by decide +kernel :
    (correlate plainReader.rt .insertion sourceObservations).isOk = true)
  obtain ⟨id, hid⟩ := Except.exists_of_isOk (by decide +kernel :
    (normalizeIdentifier plainReader.rt .sourceId (str "1") (some (str "a"))).isOk = true)
  obtain ⟨id', hid'⟩ := Except.exists_of_isOk (by decide +kernel :
    (normalizeIdentifier plainReader.rt .sourceId (str "1") (some (str "b"))).isOk = true)
  obtain ⟨hdistinct, hinventoried, hsource, hscopes⟩ := scopedIds_distinct_iff plainReader.rt
    plainReader.printable plainSnapshot plainReader.observedAt (7 * microsPerDay)
  obtain ⟨hrecords, hports, hstored⟩ := hinventoried inv hinv plainSnapshot_disjoint
  have hspec := Reader.normalizeSnapshot_spec hinv
  have hwriter := (hstored _ _ _ _ _ _ hdb).1
  rw [hspec.controllerKey, hspec.observedAt] at hwriter
  refine ⟨inv, db, count, r, hinv, hdb, hr, hdistinct.mpr plainSnapshot_disjoint,
    fun x hx hkind => ⟨hrecords x hx hkind, hwriter x (hrecords x hx hkind)⟩, ?_,
    ⟨id, id', hid, hid', (hsource _ _ _ _ _ _ hid hid').mpr ⟨?_, ?_⟩ (by decide +kernel)⟩,
    fun hsame => ?_⟩
  · obtain ⟨reading, hreading, port, hport, hsite, hid, hportId⟩ :
        ∃ reading ∈ plainReader.readings plainSnapshot, ∃ port ∈ Reader.ports reading,
          reading.siteKey = str "b" ∧ reading.controllerId plainReader = str "s" ∧
          plainReader.portId port = str "2" := by decide +kernel
    have hrow : ∃ row, plainWriter.HasRow db (.ofPort reading.siteKey
        (reading.controllerId plainReader) (plainReader.portId port)) row :=
      hwriter _ (hports reading hreading port hport)
    rwa [hsite, hid, hportId] at hrow
  · exact fun h => absurd h.length_lt (by decide +kernel)
  · exact fun h => absurd h.length_lt (by decide +kernel)
  · let scope := fun o : DeviceObservation =>
      (str "1", some (if o.id = str "x" then str "a" else str "b"))
    have hholds : ∀ o ∈ sourceObservations, ScopedAs plainReader.rt o (scope o).1 (scope o).2 := by
      intro o ho key hkey
      obtain ⟨e, he, -, rfl⟩ := holdsStable_iff.mp hkey
      rcases List.mem_pair.mp ho with rfl | rfl
      · rw [List.mem_singleton.mp he]
        exact ⟨str "a:1", by decide +kernel, rfl⟩
      · rw [List.mem_singleton.mp he]
        exact ⟨str "b:1", by decide +kernel, rfl⟩
    have hshift : ∀ a ∈ sourceObservations, ∀ b ∈ sourceObservations, ¬ Separated.Shifts (cp ':')
        (sourcePair plainReader.rt (scope a).2 (scope a).1)
        (sourcePair plainReader.rt (scope b).2 (scope b).1) := by
      have hlength : ∀ o ∈ sourceObservations,
          (sourcePair plainReader.rt (scope o).2 (scope o).1).1.length = 1 := by decide +kernel
      intro a ha b hb hshift
      have hlt := hshift.length_lt
      rw [hlength a ha, hlength b hb] at hlt
      exact absurd hlt (lt_irrefl 1)
    have hpair := hscopes _ _ _ scope hr hholds hshift _ (.head _) _ (.tail _ (.head _)) hsame
    exact absurd hpair (by decide +kernel)

/-- Two clients of two sites share their scoped ID, and the inventory has one entity. Two source IDs
of two namespaces are one identifier. -/
theorem scopedIds_not_distinct :
    (plainReader.Described collidingSnapshot
        (.ofRecord (str "a") .client (by decide) (str "b:client:c")) ∧
      plainReader.Described collidingSnapshot
        (.ofRecord (str "a:client:b") .client (by decide) (str "c")) ∧
      ¬ ∀ x y, plainReader.Described collidingSnapshot x →
        plainReader.Described collidingSnapshot y → x ≠ y → x.scopedId ≠ y.scopedId) ∧
    (normalizedBy collidingSnapshot).toOption.map (fun inv => inv.entities.length) = some 1 ∧
    ¬ ∀ rt value idNamespace value' idNamespace' id id',
      normalizeIdentifier rt .sourceId value idNamespace = .ok id →
      normalizeIdentifier rt .sourceId value' idNamespace' = .ok id' →
      sourcePair rt idNamespace value ≠ sourcePair rt idNamespace' value' → id ≠ id' := by
  have hfirst : plainReader.Described collidingSnapshot
      (.ofRecord (str "a") .client (by decide) (str "b:client:c")) :=
    @Reader.Described.record plainReader collidingSnapshot [(str "_id", .string (str "a"))] .clients
      [(str "_id", .string (str "b:client:c"))] .client List.mem_cons_self
      (List.mem_cons_self (l := [])) rfl
  have hsecond : plainReader.Described collidingSnapshot
      (.ofRecord (str "a:client:b") .client (by decide) (str "c")) :=
    @Reader.Described.record plainReader collidingSnapshot [(str "_id", .string (str "a:client:b"))] .clients
      [(str "_id", .string (str "c"))] .client
      (List.mem_cons_of_mem _ List.mem_cons_self) (List.mem_cons_self (l := [])) rfl
  refine ⟨⟨hfirst, hsecond, fun h => ?_⟩, by decide +kernel, fun h => ?_⟩
  · exact h _ _ hfirst hsecond (fun heq => by cases heq) rfl
  · refine h plainReader.rt (str "c") (some (str "a:b")) (str "b:c") (some (str "a")) (str "a:b:c")
      (str "a:b:c") (by decide +kernel) (by decide +kernel) (by decide +kernel) rfl

end FieldDiscovery.Unifi
