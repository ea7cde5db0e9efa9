import FieldDiscovery.ActiveDirectory.Persist
import FieldDiscovery.Lib.JsonText

/-!
# When a collection is kept

All records of a collection go into the database together. `_persist` stores them exactly when the
content of none of them is refused and no two of them clash (`records_kept_iff`); one record that is
refused loses the others. The records are reduced to the rows that they insert (`storeRecord_iff`), and
the rows to their constraints.
-/

namespace FieldDiscovery.ActiveDirectory

open Py Correlation Repository List

/-! ## Rows -/

/-- A row that a record inserts, with the `CHECK` of its JSON. -/
inductive DirectoryRow where
  | fact (row : ObservationRow) (valid : Bool)
  | entity (row : EntityRow) (valid : Bool)

/-- `INSERT` -/
def DirectoryDb.insertRow (db : DirectoryDb) : DirectoryRow → Except Exc DirectoryDb
  | .fact row valid => db.insertObservation row valid
  | .entity row valid => db.insertEntity row valid

/-- Two rows that no table holds together. -/
def DirectoryRow.Conflict : DirectoryRow → DirectoryRow → Prop
  | .fact row _, .fact row' _ => row = row'
  | .entity row _, .entity row' _ => row.key = row'.key
  | _, _ => False

section

variable (rt : Runtime) (printable : CodePoint → Bool) (run : CollectorRun)

/-- The rows of a record. -/
def rowsOf (domainId : Nat) (record : ADRecord) : List DirectoryRow :=
  let valid := (Json.dict record.attributes).isFinite
  if record.kind ∈ factKinds then [.fact (factRow run record) valid]
  else .entity (entityRow printable run domainId record) valid ::
    if record.kind = str "domain_controller" then
      (serverRoles rt record.attributes).map fun role =>
        .entity (roleRow run domainId record role) true
    else []

/-- The texts of a record that are bound to its statements. -/
def boundTexts (record : ADRecord) : List Str :=
  if record.kind ∈ factKinds then [attributesJson record]
  else
    let row := entityRow printable run 0 record
    [record.key, attributesJson record] ++ row.displayName.toList ++ row.dnsName.toList ++
      row.operatingSystem.toList

/-- The fact that a record is kept as. -/
def factsOf (record : ADRecord) : List ObservationRow :=
  if record.kind ∈ factKinds then [factRow run record] else []

/-- The keys of the entities that a record is kept as. -/
def entityKeys (record : ADRecord) : List Str :=
  if record.kind ∈ factKinds then []
  else record.key ::
    if record.kind = str "domain_controller" then
      (serverRoles rt record.attributes).map fun role => record.key ++ str ":" ++ role
    else []

/-- No content of a record is refused, and no two records clash. -/
structure Storable (records : List ADRecord) (db : DirectoryDb) : Prop where
  /-- The deployment is known. -/
  deployment : run.deploymentId ∈ db.deployments
  /-- No collection of the domain was kept under the same reading of the clock. -/
  domain : ∀ row ∈ db.domains.rows,
    row.2.key ≠ some (run.deploymentId, run.domain, ldapSource, run.observed)
  /-- The forest has a UTF-8 form. -/
  forest : ∀ root, records.find? (fun record => record.kind = str "root") = some root →
    ∀ name, (domainRow rt printable run root).forestName = some name → Encodable name
  /-- So have the texts of the records. -/
  texts : ∀ record ∈ records, ∀ text ∈ boundTexts printable run record, Encodable text
  /-- No number is infinite or not a number. -/
  finite : ∀ record ∈ records, (Json.dict record.attributes).isFinite = true
  /-- No fact is known already. -/
  known : ∀ fact ∈ records.flatMap (factsOf run), ∀ row ∈ db.observations.rows, row.2 ≠ fact
  /-- No fact is stated twice. -/
  facts : (records.flatMap (factsOf run)).Nodup
  /-- No two objects or roles have the same key. -/
  keys : (records.flatMap (entityKeys rt)).Nodup

/-- Every record has its row. -/
def Keeps (records : List ADRecord) (db : DirectoryDb) : Prop :=
  ∃ domain ∈ db.domains.rows, domain.2.domainKey = run.domain ∧ ∀ record ∈ records,
    if record.kind ∈ factKinds then
      ∃ row ∈ db.observations.rows, row.2 = factRow run record
    else ∃ row ∈ db.entities.rows, row.2 = entityRow printable run domain.1 record

end

/-! ## Inserting rows -/

theorem DirectoryDb.insertRow_fact {db : DirectoryDb} {row : ObservationRow} {valid : Bool} :
    (∃ db', db.insertRow (.fact row valid) = .ok db') ↔
      row.deploymentId ∈ db.deployments ∧ valid = true ∧ ¬ db.observations.Taken row := by
  simp only [insertRow, insertObservation]
  split
  · next h => exact iff_of_true ⟨_, rfl⟩ h
  · next h => exact iff_of_false (by rintro ⟨_, h⟩; cases h) h

theorem DirectoryDb.insertRow_entity {db : DirectoryDb} {row : EntityRow} {valid : Bool} :
    (∃ db', db.insertRow (.entity row valid) = .ok db') ↔ db.AcceptsEntity row valid := by
  simp only [insertRow, insertEntity]
  split
  · next h => exact iff_of_true ⟨_, rfl⟩ h
  · next h => exact iff_of_false (by rintro ⟨_, h⟩; cases h) h

/-- A row that went in refuses the rows that conflict with it, and no others. -/
theorem DirectoryDb.insertRow_keeps {db db' : DirectoryDb} {r : DirectoryRow}
    (h : db.insertRow r = .ok db') (r' : DirectoryRow) :
    (∃ db'', db'.insertRow r' = .ok db'') ↔
      (∃ db'', db.insertRow r' = .ok db'') ∧ ¬ r.Conflict r' := by
  cases r with
  | fact row valid =>
    simp only [insertRow, insertObservation] at h
    split at h
    · next hfree =>
      cases h
      cases r' with
      | fact row' valid' =>
        rw [insertRow_fact, insertRow_fact]
        simp only [Sql.Table.taken_push, DirectoryRow.Conflict, ObservationRow.key,
          Option.some.injEq, ne_eq, reduceCtorEq, not_false_eq_true, and_true, not_or, and_assoc]
      | entity row' valid' =>
        rw [insertRow_entity, insertRow_entity]
        exact (and_iff_left id).symm
    · cases h
  | entity row valid =>
    simp only [insertRow, insertEntity] at h
    split at h
    · next hfree =>
      cases h
      cases r' with
      | fact row' valid' =>
        rw [insertRow_fact, insertRow_fact]
        exact (and_iff_left id).symm
      | entity row' valid' =>
        rw [insertRow_entity, insertRow_entity]
        have hne : row'.key ≠ none := by simp [EntityRow.key]
        unfold AcceptsEntity DirectoryRow.Conflict
        simp only [Sql.Table.taken_push, hne, ne_eq, not_false_eq_true, and_true, not_or,
          and_assoc]
    · cases h

/-- What an inserted row leaves of the tables. -/
theorem DirectoryDb.insertRow_extends {db db' : DirectoryDb} {r : DirectoryRow}
    (h : db.insertRow r = .ok db') : db'.domains = db.domains ∧
      Sql.Table.Extends db.entities db'.entities ∧
      Sql.Table.Extends db.observations db'.observations ∧
      match r with
      | .fact row _ => ∃ row' ∈ db'.observations.rows, row'.2 = row
      | .entity row _ => ∃ row' ∈ db'.entities.rows, row'.2 = row := by
  cases r with
  | fact row valid =>
    simp only [insertRow, insertObservation] at h
    split at h
    · cases h
      exact ⟨rfl, .refl _, prefix_append _ _, _, mem_append_right _ (mem_singleton_self _), rfl⟩
    · cases h
  | entity row valid =>
    simp only [insertRow, insertEntity] at h
    split at h
    · cases h
      exact ⟨rfl, prefix_append _ _, .refl _, _, mem_append_right _ (mem_singleton_self _), rfl⟩
    · cases h

/-- All inserted rows are in the tables. -/
theorem foldlM_insertRow {rows : List DirectoryRow} {db db' : DirectoryDb}
    (h : rows.foldlM DirectoryDb.insertRow db = .ok db') : db'.domains = db.domains ∧
      Sql.Table.Extends db.entities db'.entities ∧
      Sql.Table.Extends db.observations db'.observations ∧
      ∀ r ∈ rows, match r with
        | .fact row _ => ∃ row' ∈ db'.observations.rows, row'.2 = row
        | .entity row _ => ∃ row' ∈ db'.entities.rows, row'.2 = row := by
  induction rows generalizing db with
  | nil =>
    cases h
    exact ⟨rfl, .refl _, .refl _, fun _ hmem => absurd hmem not_mem_nil⟩
  | cons r rows ih =>
    rw [foldlM_cons] at h
    obtain ⟨db₁, hdb₁, h⟩ := Except.bind_eq_ok.mp h
    obtain ⟨hdomains, hentities, hobservations, hrow⟩ := DirectoryDb.insertRow_extends hdb₁
    obtain ⟨hdomains', hentities', hobservations', hrows⟩ := ih h
    refine ⟨hdomains'.trans hdomains, hentities.trans hentities',
      hobservations.trans hobservations', fun r' hr' => ?_⟩
    rcases mem_cons.mp hr' with rfl | hr'
    · cases r' with
      | fact row valid =>
        obtain ⟨row', hmem, heq⟩ := hrow
        exact ⟨row', hobservations'.subset hmem, heq⟩
      | entity row valid =>
        obtain ⟨row', hmem, heq⟩ := hrow
        exact ⟨row', hentities'.subset hmem, heq⟩
    · exact hrows r' hr'

/-! ## Records as rows -/

section

variable {rt : Runtime} {printable : CodePoint → Bool} {run : CollectorRun}

theorem check_ofText {t : Option Str} :
    (Value.ofText t).check = .ok () ↔ ∀ s ∈ t.toList, Encodable s := by
  cases t with
  | none => simp [Value.ofText, Value.check]
  | some s => simp [Value.ofText, check_text]

/-- The names of roles are ASCII. -/
theorem encodable_role {attributes : Attributes} {role : Str}
    (h : role ∈ serverRoles rt attributes) : Encodable role := by
  unfold serverRoles at h
  rcases mem_cons.mp (mem_sortedSet.mp h) with rfl | h
  · decide +kernel
  · obtain ⟨value, -, hvalue⟩ := mem_filterMap.mp h
    cases value with
    | string item =>
      have hmem := mem_map_of_mem (f := Prod.snd) (Dict.mem_of_get hvalue)
      exact (by decide +kernel : ∀ role ∈ serviceRoles.map Prod.snd, Encodable role) role hmem
    | _ => cases hvalue

theorem storeEntity_iff {db db' : DirectoryDb} {row : EntityRow} {valid : Bool} :
    storeEntity db row valid = .ok db' ↔ (Encodable row.entityKey ∧ Encodable row.kind ∧
      (∀ s ∈ row.displayName.toList ++ row.dnsName.toList ++ row.operatingSystem.toList,
        Encodable s) ∧ Encodable row.attributesJson ∧ Encodable row.observedAt) ∧
      db.insertRow (.entity row valid) = .ok db' := by
  unfold storeEntity
  rw [Except.bind_eq_ok]
  constructor
  · rintro ⟨⟨⟩, hbind, hinsert⟩
    rw [Repository.bind_eq_ok] at hbind
    simp only [forall_mem_cons, check_text, check_ofText] at hbind
    obtain ⟨hkey, hkind, hdisplay, hdns, hos, hjson, hobserved, -⟩ := hbind
    refine ⟨⟨hkey, hkind, ?_, hjson, hobserved⟩, hinsert⟩
    exact forall_mem_append.mpr ⟨forall_mem_append.mpr ⟨hdisplay, hdns⟩, hos⟩
  · rintro ⟨⟨hkey, hkind, hnames, hjson, hobserved⟩, hinsert⟩
    obtain ⟨hnames, hos⟩ := forall_mem_append.mp hnames
    obtain ⟨hdisplay, hdns⟩ := forall_mem_append.mp hnames
    refine ⟨(), Repository.bind_eq_ok.mpr ?_, hinsert⟩
    simp only [forall_mem_cons, check_text, check_ofText]
    exact ⟨hkey, hkind, hdisplay, hdns, hos, hjson, hobserved, fun _ h => absurd h not_mem_nil⟩

/-- The texts of a role are those of its object. -/
theorem foldlM_storeRole {record : ADRecord} {domainId : Nat} (hkey : Encodable record.key)
    (roles : List Str) (hroles : ∀ role ∈ roles, Encodable role) {db db' : DirectoryDb} :
    roles.foldlM (fun db role => storeEntity db (roleRow run domainId record role) true) db =
        .ok db' ↔
      (roles.map fun role => DirectoryRow.entity (roleRow run domainId record role) true).foldlM
        DirectoryDb.insertRow db = .ok db' := by
  induction roles generalizing db with
  | nil => exact Iff.rfl
  | cons role roles ih =>
    have hrole := hroles role mem_cons_self
    have htexts : ∀ db₁, storeEntity db (roleRow run domainId record role) true = .ok db₁ ↔
        db.insertRow (.entity (roleRow run domainId record role) true) = .ok db₁ := by
      intro db₁
      rw [storeEntity_iff]
      refine and_iff_right ⟨?_, (by decide +kernel : Encodable (str "server_role")), ?_,
        (by decide +kernel : Encodable (str "\x7b\x7d")), run.observed_encodable⟩
      · exact (hkey.append (by decide +kernel : Encodable (str ":"))).append hrole
      · intro s hs
        rw [show s = role by simpa [roleRow] using hs]
        exact hrole
    rw [map_cons, foldlM_cons, foldlM_cons, Except.bind_eq_ok, Except.bind_eq_ok]
    exact exists_congr fun db₁ => and_congr (htexts db₁)
      (ih fun r hr => hroles r (mem_cons_of_mem _ hr))

/-- A record is stored when its texts can be bound and its rows go in. -/
theorem storeRecord_iff {record : ADRecord} {domainId : Nat}
    (hkind : record.kind ∈ factKinds ∨ record.kind ∈ entityKinds) {db db' : DirectoryDb} :
    storeRecord rt printable run domainId db record = .ok db' ↔
      (∀ text ∈ boundTexts printable run record, Encodable text) ∧
        (rowsOf rt printable run domainId record).foldlM DirectoryDb.insertRow db = .ok db' := by
  have hkind' : Encodable record.kind := by
    revert hkind
    generalize record.kind = kind
    revert kind
    simp only [or_imp, forall_and]
    decide +kernel
  unfold storeRecord boundTexts rowsOf
  simp only
  split
  · rw [Except.bind_eq_ok, foldlM_cons, Except.bind_eq_ok, forall_mem_singleton]
    have hbind : Repository.bind [.text (factRow run record).factType,
        .text (factRow run record).factValueJson, .text (factRow run record).observedAt] = .ok () ↔
        Encodable (attributesJson record) := by
      rw [Repository.bind_eq_ok]
      simp only [forall_mem_cons, check_text]
      have hfact : Encodable (factRow run record).factType :=
        (by decide +kernel : Encodable (str "ad.")).append hkind'
      exact ⟨fun h => h.2.1, fun h => ⟨hfact, h, run.observed_encodable,
        fun _ h => absurd h not_mem_nil⟩⟩
    constructor
    · rintro ⟨⟨⟩, htexts, hinsert⟩
      exact ⟨hbind.mp htexts, db', hinsert, rfl⟩
    · rintro ⟨htexts, db₁, hinsert, hrest⟩
      cases hrest
      exact ⟨(), hbind.mpr htexts, hinsert⟩
  · rw [Except.bind_eq_ok, foldlM_cons]
    simp only [storeEntity_iff, Except.bind_eq_ok]
    have htexts : (Encodable (entityRow printable run domainId record).entityKey ∧
        Encodable (entityRow printable run domainId record).kind ∧
        (∀ s ∈ (entityRow printable run domainId record).displayName.toList ++
          (entityRow printable run domainId record).dnsName.toList ++
          (entityRow printable run domainId record).operatingSystem.toList, Encodable s) ∧
        Encodable (entityRow printable run domainId record).attributesJson ∧
        Encodable (entityRow printable run domainId record).observedAt) ↔
        ∀ text ∈ [record.key, attributesJson record] ++
          (entityRow printable run 0 record).displayName.toList ++
          (entityRow printable run 0 record).dnsName.toList ++
          (entityRow printable run 0 record).operatingSystem.toList, Encodable text := by
      simp only [append_assoc, forall_mem_append, cons_append, nil_append, forall_mem_cons]
      exact ⟨fun ⟨hkey, _, hnames, hjson, _⟩ => ⟨hkey, hjson, hnames⟩,
        fun ⟨hkey, hjson, hnames⟩ => ⟨hkey, hkind', hnames, hjson, run.observed_encodable⟩⟩
    constructor
    · rintro ⟨db₁, ⟨htext, hinsert⟩, hroles⟩
      refine ⟨htexts.mp htext, db₁, hinsert, ?_⟩
      split at hroles
      · next hcontroller =>
        rw [if_pos hcontroller]
        exact (foldlM_storeRole htext.1 _ fun _ => encodable_role).mp hroles
      · next hother =>
        rw [if_neg hother]
        exact hroles
    · rintro ⟨htext, db₁, hinsert, hroles⟩
      refine ⟨db₁, ⟨htexts.mpr htext, hinsert⟩, ?_⟩
      split
      · next hcontroller =>
        rw [if_pos hcontroller] at hroles
        exact (foldlM_storeRole (htexts.mpr htext).1 _ fun _ => encodable_role).mpr hroles
      · next hother =>
        rw [if_neg hother] at hroles
        exact hroles

theorem foldlM_storeRecord {domainId : Nat} (records : List ADRecord)
    (hkinds : ∀ record ∈ records, record.kind ∈ factKinds ∨ record.kind ∈ entityKinds)
    {db db' : DirectoryDb} :
    records.foldlM (storeRecord rt printable run domainId) db = .ok db' ↔
      (∀ record ∈ records, ∀ text ∈ boundTexts printable run record, Encodable text) ∧
        (records.flatMap (rowsOf rt printable run domainId)).foldlM DirectoryDb.insertRow db =
          .ok db' := by
  induction records generalizing db with
  | nil => exact ⟨fun h => ⟨fun _ hmem => absurd hmem not_mem_nil, h⟩, fun h => h.2⟩
  | cons record records ih =>
    have ih := fun db₁ : DirectoryDb =>
      @ih (fun r hr => hkinds r (mem_cons_of_mem _ hr)) db₁
    rw [foldlM_cons, Except.bind_eq_ok, flatMap_cons, foldlM_append, Except.bind_eq_ok,
      forall_mem_cons]
    simp only [storeRecord_iff (hkinds record mem_cons_self), ih]
    constructor
    · rintro ⟨db₁, ⟨htext, hrows⟩, htexts, hrest⟩
      exact ⟨⟨htext, htexts⟩, db₁, hrows, hrest⟩
    · rintro ⟨⟨htext, htexts⟩, db₁, hrows, hrest⟩
      exact ⟨db₁, ⟨htext, hrows⟩, htexts, hrest⟩

/-! ## The constraints -/

/-- The fact of a row. -/
def DirectoryRow.fact? : DirectoryRow → Option ObservationRow
  | .fact row _ => some row
  | .entity _ _ => none

/-- The key of the entity of a row. -/
def DirectoryRow.entityKey? : DirectoryRow → Option Str
  | .fact _ _ => none
  | .entity row _ => some row.entityKey

theorem filterMap_fact (domainId : Nat) (record : ADRecord) :
    (rowsOf rt printable run domainId record).filterMap DirectoryRow.fact? =
      factsOf run record := by
  unfold rowsOf factsOf
  simp only
  split
  · rfl
  · split
    · simp [DirectoryRow.fact?]
    · rfl

theorem filterMap_entityKey (domainId : Nat) (record : ADRecord) :
    (rowsOf rt printable run domainId record).filterMap DirectoryRow.entityKey? =
      entityKeys rt record := by
  unfold rowsOf entityKeys
  simp only
  split
  · rfl
  · split
    · simp [DirectoryRow.entityKey?, filterMap_map, Function.comp_def, entityRow, roleRow]
    · rfl

/-- The entities of a collection differ in their keys only. -/
def DirectoryRow.Of (run : CollectorRun) (domainId : Nat) : DirectoryRow → Prop
  | .fact row _ => row.deploymentId = run.deploymentId
  | .entity row _ => row.key = some (domainId, row.entityKey, ldapSource, run.observed) ∧
      row.kind ∈ entityKinds

theorem rowsOf_of {domainId : Nat} {record : ADRecord}
    (hkind : record.kind ∈ factKinds ∨ record.kind ∈ entityKinds) :
    ∀ r ∈ rowsOf rt printable run domainId record, r.Of run domainId := by
  intro r hr
  unfold rowsOf at hr
  simp only at hr
  split at hr
  · rw [mem_singleton.mp hr]
    rfl
  · next hfact =>
    rcases mem_cons.mp hr with rfl | hr
    · exact ⟨rfl, hkind.resolve_left hfact⟩
    · split at hr
      · obtain ⟨role, -, rfl⟩ := mem_map.mp hr
        exact ⟨rfl, (by decide +kernel : str "server_role" ∈ entityKinds)⟩
      · cases hr

theorem conflict_iff {domainId : Nat} {r r' : DirectoryRow} (hr : r.Of run domainId)
    (hr' : r'.Of run domainId) : ¬ r.Conflict r' ↔
      (∀ fact, r.fact? = some fact → ∀ fact', r'.fact? = some fact' → fact ≠ fact') ∧
        ∀ key, r.entityKey? = some key → ∀ key', r'.entityKey? = some key' → key ≠ key' := by
  cases r with
  | fact row valid =>
    cases r' with
    | fact row' valid' => simp [DirectoryRow.Conflict, DirectoryRow.fact?, DirectoryRow.entityKey?]
    | entity row' valid' =>
      simp [DirectoryRow.Conflict, DirectoryRow.fact?, DirectoryRow.entityKey?]
  | entity row valid =>
    cases r' with
    | fact row' valid' => simp [DirectoryRow.Conflict, DirectoryRow.fact?, DirectoryRow.entityKey?]
    | entity row' valid' =>
      simp [DirectoryRow.Conflict, DirectoryRow.fact?, DirectoryRow.entityKey?, hr.1, hr'.1]

/-- What keeps a single record out. -/
theorem single_iff {domainId : Nat} {record : ADRecord} {db : DirectoryDb}
    (hkind : record.kind ∈ factKinds ∨ record.kind ∈ entityKinds)
    (hdeployment : run.deploymentId ∈ db.deployments)
    (hdomain : ∃ domain ∈ db.domains.rows, domain.1 = domainId)
    (hfresh : ∀ row ∈ db.entities.rows, row.2.adDomainId ≠ domainId) :
    (∀ r ∈ rowsOf rt printable run domainId record, ∃ db', db.insertRow r = .ok db') ↔
      (Json.dict record.attributes).isFinite = true ∧
        ∀ fact ∈ factsOf run record, ∀ row ∈ db.observations.rows, row.2 ≠ fact := by
  -- the domain is new, so no entity of it is there
  have haccepts : ∀ row valid, row.adDomainId = domainId → row.kind ∈ entityKinds →
      (db.AcceptsEntity row valid ↔ valid = true) := by
    intro row valid hid hentity
    have hfree : ¬ db.entities.Taken row := by
      rintro ⟨row', hmem, hkey, -⟩
      obtain ⟨hid', -⟩ := Prod.mk.inj (Option.some.inj hkey)
      exact hfresh row' hmem (hid'.trans hid)
    exact ⟨fun h => h.2.1, fun h => ⟨hid ▸ hdomain, h, hentity, hfree⟩⟩
  have htaken : ∀ row, db.observations.Taken row ↔ ∃ row' ∈ db.observations.rows, row'.2 = row := by
    intro row
    simp [Sql.Table.Taken, ObservationRow.key]
  unfold rowsOf factsOf
  simp only
  split
  · rw [forall_mem_singleton, forall_mem_singleton, DirectoryDb.insertRow_fact, htaken]
    simp only [not_exists, not_and]
    exact ⟨fun h => h.2, fun h => ⟨hdeployment, h⟩⟩
  · next hfact =>
    have hentity := hkind.resolve_left hfact
    rw [forall_mem_cons, DirectoryDb.insertRow_entity, haccepts (entityRow _ _ _ _) _ rfl hentity]
    refine and_congr_right fun _ => iff_of_true ?_ fun _ h => absurd h not_mem_nil
    split
    · intro r hr
      obtain ⟨role, -, rfl⟩ := mem_map.mp hr
      exact DirectoryDb.insertRow_entity.mpr
        ((haccepts (roleRow _ _ _ _) _ rfl
          (by decide +kernel : str "server_role" ∈ entityKinds)).mpr rfl)
    · exact fun _ h => absurd h not_mem_nil

/-- The constraints of all rows of the records, in terms of the records. -/
theorem insertable_iff {domainId : Nat} {records : List ADRecord} {db : DirectoryDb}
    (hkinds : ∀ record ∈ records, record.kind ∈ factKinds ∨ record.kind ∈ entityKinds)
    (hdeployment : run.deploymentId ∈ db.deployments)
    (hdomain : ∃ domain ∈ db.domains.rows, domain.1 = domainId)
    (hfresh : ∀ row ∈ db.entities.rows, row.2.adDomainId ≠ domainId) :
    (∃ db', (records.flatMap (rowsOf rt printable run domainId)).foldlM
        DirectoryDb.insertRow db = .ok db') ↔
      (∀ record ∈ records, (Json.dict record.attributes).isFinite = true) ∧
      (∀ fact ∈ records.flatMap (factsOf run), ∀ row ∈ db.observations.rows, row.2 ≠ fact) ∧
      (records.flatMap (factsOf run)).Nodup ∧ (records.flatMap (entityKeys rt)).Nodup := by
  have hof : ∀ r ∈ records.flatMap (rowsOf rt printable run domainId), r.Of run domainId := by
    intro r hr
    obtain ⟨record, hrecord, hr⟩ := mem_flatMap.mp hr
    exact rowsOf_of (hkinds record hrecord) r hr
  have hpairwise : (records.flatMap (rowsOf rt printable run domainId)).Pairwise
      (fun r r' => ¬ r.Conflict r') ↔
      (records.flatMap (factsOf run)).Nodup ∧ (records.flatMap (entityKeys rt)).Nodup := by
    rw [Pairwise.iff_of_mem fun hr hr' => conflict_iff (hof _ hr) (hof _ hr'), pairwise_and_iff,
      ← pairwise_filterMap, ← pairwise_filterMap, filterMap_flatMap, filterMap_flatMap]
    simp only [filterMap_fact, filterMap_entityKey]
    rfl
  have hsingle : (∀ r ∈ records.flatMap (rowsOf rt printable run domainId),
      ∃ db', db.insertRow r = .ok db') ↔
      (∀ record ∈ records, (Json.dict record.attributes).isFinite = true) ∧
      ∀ fact ∈ records.flatMap (factsOf run), ∀ row ∈ db.observations.rows, row.2 ≠ fact := by
    simp only [forall_mem_flatMap]
    rw [← forall₂_and]
    exact forall₂_congr fun record hrecord =>
      single_iff (hkinds record hrecord) hdeployment hdomain hfresh
  rw [Sql.foldlM_insert_iff (fun _ _ _ h => DirectoryDb.insertRow_keeps h), hpairwise, hsingle,
    and_assoc]

/-! ## The transaction -/

theorem insertDomain_iff {db : DirectoryDb} {row : DomainRow} :
    (∃ db' id, db.insertDomain row = .ok (db', id)) ↔
      row.deploymentId ∈ db.deployments ∧ ¬ db.domains.Taken row := by
  unfold DirectoryDb.insertDomain
  split
  · next h => exact iff_of_true ⟨_, _, rfl⟩ h
  · next h => exact iff_of_false (by rintro ⟨_, _, h⟩; cases h) h

/-- The domain of a collection is a new row, which no entity belongs to. -/
theorem insertDomain_spec {db db' : DirectoryDb} {row : DomainRow} {id : Nat}
    (h : db.insertDomain row = .ok (db', id)) : row.deploymentId ∈ db'.deployments ∧
      (id, row) ∈ db'.domains.rows ∧ db'.observations = db.observations ∧
      ∀ entity ∈ db'.entities.rows, entity.2.adDomainId ≠ id := by
  unfold DirectoryDb.insertDomain at h
  split at h
  · next hfree =>
    cases h
    refine ⟨hfree.1, mem_append_right _ (mem_singleton_self _), rfl, fun entity hentity hid => ?_⟩
    obtain ⟨domain, hdomain, hid'⟩ := db.entities_domain entity hentity
    exact (Sql.Table.lt_nextId hdomain).ne (hid'.trans hid)
  · cases h

variable {limits : Limits} {baseDn configurationDn : Str} {documentationGroups : List Str}

/-- What `_persist` stored, it stored completely. -/
theorem persist_keeps {records : List ADRecord} {db db' : DirectoryDb}
    (hkinds : ∀ record ∈ records, record.kind ∈ factKinds ∨ record.kind ∈ entityKinds)
    (h : persist rt printable run records db = .ok db') :
    Keeps printable run records db' := by
  unfold persist at h
  split at h
  · cases h
  · obtain ⟨⟨⟩, -, h⟩ := Except.bind_eq_ok.mp h
    obtain ⟨⟨db₁, domainId⟩, hdomain, h⟩ := Except.bind_eq_ok.mp h
    obtain ⟨-, hrow, -, -⟩ := insertDomain_spec hdomain
    obtain ⟨-, hrows⟩ := (foldlM_storeRecord records hkinds).mp h
    obtain ⟨hdomains, -, -, hall⟩ := foldlM_insertRow hrows
    refine ⟨_, hdomains ▸ hrow, rfl, fun record hrecord => ?_⟩
    split
    · next hfact =>
      have hmem : DirectoryRow.fact (factRow run record) (Json.dict record.attributes).isFinite ∈
          records.flatMap (rowsOf rt printable run domainId) := by
        refine mem_flatMap.mpr ⟨record, hrecord, ?_⟩
        unfold rowsOf
        simp only [if_pos hfact, mem_singleton]
      exact hall _ hmem
    · next hfact =>
      have hmem : DirectoryRow.entity (entityRow printable run domainId record)
          (Json.dict record.attributes).isFinite ∈
          records.flatMap (rowsOf rt printable run domainId) := by
        refine mem_flatMap.mpr ⟨record, hrecord, ?_⟩
        unfold rowsOf
        simp only [if_neg hfact, mem_cons, true_or]
      exact hall _ hmem

/-- The records that the queries of a collection gathered are all kept exactly when the content of
none is refused and no two of them clash. -/
theorem records_kept_iff {records : List ADRecord} (run : CollectorRun) (db : DirectoryDb)
    (h : Gathered rt printable limits baseDn configurationDn documentationGroups records) :
    (∃ db', persist rt printable run records db = .ok db' ∧ Keeps printable run records db') ↔
      Storable rt printable run records db := by
  obtain ⟨⟨root, hroot, hkind⟩, hkinds⟩ := h.kinds
  have hfind : ∃ root, records.find? (fun record => record.kind = str "root") = some root := by
    rw [← Option.isSome_iff_exists, find?_isSome]
    exact ⟨root, hroot, by simpa using hkind⟩
  obtain ⟨root, hfind⟩ := hfind
  let row := domainRow rt printable run root
  have hbind : Repository.bind [.text row.domainKey, .text row.dnsName, .ofText row.forestName,
      .text row.observedAt] = .ok () ↔ ∀ name, row.forestName = some name → Encodable name := by
    rw [Repository.bind_eq_ok]
    simp only [forall_mem_cons, check_text, check_ofText, Option.mem_toList]
    exact ⟨fun h => h.2.2.1, fun h => ⟨run.domain_encodable, run.domain_encodable, h,
      run.observed_encodable, fun _ h => absurd h not_mem_nil⟩⟩
  have htaken : db.domains.Taken row ↔ ∃ row' ∈ db.domains.rows,
      row'.2.key = some (run.deploymentId, run.domain, ldapSource, run.observed) := by
    unfold Sql.Table.Taken
    have hkey : row.key = some (run.deploymentId, run.domain, ldapSource, run.observed) := rfl
    simp [hkey]
  have hiff : (∃ db', persist rt printable run records db = .ok db') ↔
      Storable rt printable run records db := by
    unfold persist
    rw [hfind]
    simp only [Except.bind_eq_ok, foldlM_storeRecord records hkinds]
    constructor
    · rintro ⟨db', ⟨⟩, hforest, ⟨db₁, domainId⟩, hdomain, htexts, hrows⟩
      obtain ⟨hdeployment, hfree⟩ := insertDomain_iff.mp ⟨db₁, domainId, hdomain⟩
      obtain ⟨hdeployment', hrow, hsame, hfresh⟩ := insertDomain_spec hdomain
      obtain ⟨hfinite, hknown, hfacts, hkeys⟩ :=
        (insertable_iff hkinds hdeployment' ⟨_, hrow, rfl⟩ hfresh).mp ⟨db', hrows⟩
      refine ⟨hdeployment, fun row' hrow' hkey => hfree (htaken.mpr ⟨row', hrow', hkey⟩), ?_,
        htexts, hfinite, hsame ▸ hknown, hfacts, hkeys⟩
      intro root' hroot'
      cases hfind.symm.trans hroot'
      exact hbind.mp hforest
    · intro hs
      have hfree : ¬ db.domains.Taken row := fun htake =>
        let ⟨row', hrow', hkey⟩ := htaken.mp htake
        hs.domain row' hrow' hkey
      obtain ⟨db₁, domainId, hdomain⟩ := insertDomain_iff.mpr ⟨hs.deployment, hfree⟩
      obtain ⟨hdeployment', hrow, hsame, hfresh⟩ := insertDomain_spec hdomain
      obtain ⟨db', hrows⟩ := (@insertable_iff rt printable run domainId records db₁ hkinds
        hdeployment' ⟨_, hrow, rfl⟩ hfresh).mpr ⟨hs.finite, hsame ▸ hs.known, hs.facts, hs.keys⟩
      exact ⟨db', (), hbind.mpr (hs.forest root hfind), (db₁, domainId), hdomain, hs.texts, hrows⟩
  rw [← hiff]
  exact exists_congr fun db' => and_iff_left_of_imp (persist_keeps hkinds)

/-- A query that the server answers with one page. -/
theorem queryReturns_page (limits : Limits) (spec : QuerySpec) (entries : List Entry) :
    QueryReturns rt printable limits spec
      (readEntries rt printable limits spec entries {}).records := by
  let q := readEntries rt printable limits spec entries {}
  have hpage : readPage rt printable limits spec {} { entries, cookie := [] } =
      finishQuery spec q := by
    unfold readPage
    simp only [true_or, if_pos]
    rfl
  exact ⟨fun _ => .page { entries, cookie := [] }, 1, _, hpage⟩

end

/-! ## A server that is demoted between two queries -/

namespace Demoted

def rt : Runtime := .ofDigests []

def limits : Limits := ⟨100, by decide, by decide⟩

def baseDn : Str := str "DC=example,DC=test"

def configurationDn : Str := str "CN=Configuration,DC=example,DC=test"

def run : CollectorRun where
  deploymentId := 1
  domain := str "example.test"
  observed := str "2026-07-15T03:04:05+00:00"
  domain_encodable := by decide +kernel
  observed_encodable := by decide +kernel

def db : DirectoryDb where
  deployments := [1]
  entities_domain := by decide

/-- What the server answers to the first query. -/
def rootEntry : Entry := [(str "defaultNamingContext", .text baseDn)]

/-- What it answers both for the domain controllers and for the computers. -/
def serverEntry : Entry := [(str "objectGUID", .text (str "8f6a"))]

def recordsOf (spec : QuerySpec) (entry : Entry) : List ADRecord :=
  (readEntries rt isAscii limits spec [entry] {}).records

def queries : List QuerySpec := querySpecs baseDn configurationDn []

def rootRecords : List ADRecord := recordsOf rootQuery rootEntry

def records : List ADRecord :=
  rootRecords ++ recordsOf queries[1] serverEntry ++ recordsOf queries[2] serverEntry

theorem gathered_rootRecords :
    Gathered rt isAscii limits baseDn configurationDn [] rootRecords :=
  .root (queryReturns_page _ _ _) (List.ne_nil_of_length_pos (by decide +kernel))

theorem gathered_records : Gathered rt isAscii limits baseDn configurationDn [] records :=
  .query (.query gathered_rootRecords (List.getElem_mem (by decide : 1 < queries.length))
      (queryReturns_page _ queries[1] _))
    (List.getElem_mem (by decide : 2 < queries.length)) (queryReturns_page _ queries[2] _)

end Demoted

/-- The record of the first query alone is kept. -/
theorem records_kept_iff_root : ∃ db',
    persist Demoted.rt isAscii Demoted.run Demoted.rootRecords Demoted.db = .ok db' ∧
      Keeps isAscii Demoted.run Demoted.rootRecords db' := by
  refine (records_kept_iff Demoted.run Demoted.db Demoted.gathered_rootRecords).mpr {
    deployment := by decide
    domain := fun row hrow => absurd hrow not_mem_nil
    forest := ?_
    texts := ?_
    finite := ?_
    known := fun fact _ row hrow => absurd hrow not_mem_nil
    facts := ?_
    keys := by decide +kernel }
  · intro root hroot name hname
    have hnone : (Demoted.rootRecords.find? (fun record => record.kind = str "root")).all (fun root =>
        (domainRow Demoted.rt isAscii Demoted.run root).forestName.all fun name =>
          decide (Encodable name)) = true := by decide +kernel
    rw [hroot, Option.all_some, hname, Option.all_some] at hnone
    exact of_decide_eq_true hnone
  · have hall : (Demoted.rootRecords.all fun record => (boundTexts isAscii Demoted.run record).all
        fun text => decide (Encodable text)) = true := by decide +kernel
    exact fun record hrecord text htext =>
      of_decide_eq_true (all_eq_true.mp (all_eq_true.mp hall record hrecord) text htext)
  · have hall : (Demoted.rootRecords.all fun record => (Json.dict record.attributes).isFinite) =
        true := by decide +kernel
    exact all_eq_true.mp hall
  · obtain ⟨fact, hfact⟩ := length_eq_one_iff.mp
      (by decide +kernel : (Demoted.rootRecords.flatMap (factsOf Demoted.run)).length = 1)
    rw [hfact]
    exact nodup_singleton fact

theorem not_records_kept : ¬ ∀ rt printable limits baseDn configurationDn documentationGroups
    records (run : CollectorRun) (db : DirectoryDb),
    Gathered rt printable limits baseDn configurationDn documentationGroups records →
    run.deploymentId ∈ db.deployments → db.domains.rows = [] →
    ∃ db', persist rt printable run records db = .ok db' ∧ Keeps printable run records db' := by
  intro h
  obtain ⟨db', hpersist, -⟩ := h _ _ _ _ _ _ _ Demoted.run Demoted.db Demoted.gathered_records
    (by decide) rfl
  have hfails : (persist Demoted.rt isAscii Demoted.run Demoted.records Demoted.db).isOk = false :=
    by decide +kernel
  rw [hpersist] at hfails
  cases hfails

end FieldDiscovery.ActiveDirectory
