import FieldDiscovery.ActiveDirectory.Collect
import FieldDiscovery.Repository.Facts

/-!
# Persistence of a collection

`_persist` of `ad_collection.py`: one transaction with a plain `INSERT` for every record. A violated
constraint or a text without a UTF-8 form raises, and the transaction leaves the database as it was, so
a failure returns no database.
-/

namespace FieldDiscovery.ActiveDirectory

open Py Correlation Repository

/-! ## Tables -/

/-- A row of `ad_domains`. -/
structure DomainRow where
  deploymentId : Nat
  domainKey : Str
  dnsName : Str
  forestName : Option Str
  source : Str
  observedAt : Str

def DomainRow.key (r : DomainRow) : Option (Nat × Str × Str × Str) :=
  some (r.deploymentId, r.domainKey, r.source, r.observedAt)

/-- A row of `ad_entities`. -/
structure EntityRow where
  adDomainId : Nat
  entityKey : Str
  kind : Str
  displayName : Option Str
  dnsName : Option Str
  operatingSystem : Option Str
  attributesJson : Str
  source : Str
  observedAt : Str
  deriving DecidableEq

def EntityRow.key (r : EntityRow) : Option (Nat × Str × Str × Str) :=
  some (r.adDomainId, r.entityKey, r.source, r.observedAt)

/-- The part of the database that a collection is kept in. Its foreign keys hold. -/
structure DirectoryDb where
  /-- The ids of `deployments`. -/
  deployments : List Nat
  domains : Sql.Table DomainRow.key := .empty
  entities : Sql.Table EntityRow.key := .empty
  observations : Sql.Table ObservationRow.key := .empty
  entities_domain : ∀ row ∈ entities.rows, ∃ domain ∈ domains.rows, domain.1 = row.2.adDomainId

/-! ## Statements -/

namespace DirectoryDb

/-- `INSERT INTO ad_domains`, with `cursor.lastrowid`. -/
def insertDomain (db : DirectoryDb) (row : DomainRow) : Except Exc (DirectoryDb × Nat) :=
  if h : row.deploymentId ∈ db.deployments ∧ ¬ db.domains.Taken row then
    .ok ({ db with
      domains := db.domains.push row h.2
      entities_domain := fun entity hentity =>
        let ⟨domain, hdomain, hid⟩ := db.entities_domain entity hentity
        ⟨domain, List.mem_append_left _ hdomain, hid⟩ }, db.domains.nextId)
  else .error .sqlite

/-- `INSERT INTO observations`; `valid` is the `CHECK` of its JSON. -/
def insertObservation (db : DirectoryDb) (row : ObservationRow) (valid : Bool) :
    Except Exc DirectoryDb :=
  if h : row.deploymentId ∈ db.deployments ∧ valid = true ∧ ¬ db.observations.Taken row then
    .ok { db with observations := db.observations.push row h.2.2 }
  else .error .sqlite

/-- What `INSERT INTO ad_entities` asks of a row; `valid` is the `CHECK` of its JSON. -/
def AcceptsEntity (db : DirectoryDb) (row : EntityRow) (valid : Bool) : Prop :=
  (∃ domain ∈ db.domains.rows, domain.1 = row.adDomainId) ∧ valid = true ∧
    row.kind ∈ entityKinds ∧ ¬ db.entities.Taken row

instance (db : DirectoryDb) (row : EntityRow) (valid : Bool) :
    Decidable (db.AcceptsEntity row valid) :=
  inferInstanceAs (Decidable (_ ∧ _))

/-- `INSERT INTO ad_entities` -/
def insertEntity (db : DirectoryDb) (row : EntityRow) (valid : Bool) : Except Exc DirectoryDb :=
  if h : db.AcceptsEntity row valid then
    .ok { db with
      entities := db.entities.push row h.2.2.2
      entities_domain := fun entity hentity => by
        rcases List.mem_append.mp hentity with hentity | hentity
        · exact db.entities_domain entity hentity
        · rw [List.mem_singleton.mp hentity]
          exact h.1 }
  else .error .sqlite

end DirectoryDb

/-! ## The transaction -/

/-- What stays fixed while a collection is stored: the domain of the collector and a reading of its
clock, whose texts have UTF-8 forms. -/
structure CollectorRun where
  deploymentId : Nat
  domain : Str
  observed : Str
  domain_encodable : Encodable domain
  observed_encodable : Encodable observed

section

variable (rt : Runtime) (printable : CodePoint → Bool)

/-- `_dn_to_domain` -/
def dnToDomain (value : Str) : Option Str :=
  let labels := (value.splitOn (cp ',')).filterMap fun component =>
    if str "dc=" <+: rt.casefold (strip component) then
      some (component.dropWhile (· != cp '=')).tail
    else none
  if labels = [] then none else some (rt.casefold (join (str ".") labels))

/-- The role that a service stands for. -/
def serviceRoles : Dict Str Str :=
  [(str "dns", str "dns_server"), (str "gc", str "global_catalog"),
    (str "ldap", str "ldap_server"), (str "kadmin", str "kerberos_admin")]

/-- `_server_roles` -/
def serverRoles (attributes : Attributes) : List Str :=
  let values := match Json.field attributes "servicePrincipalName" with
    | .list values => values
    | value => [value]
  sortedSet (str "domain_controller" :: values.filterMap fun
    | .string item => serviceRoles.get (rt.casefold (item.takeWhile (· != cp '/')))
    | _ => none)

/-- `source` of every row. -/
def ldapSource : Str := str "ad_ldap"

/-- `json.dumps(record.attributes, sort_keys=True, separators=(",", ":"))`. It writes no integer of
more than 4300 digits, and there is none: those of a server were read from text under that bound. -/
def attributesJson (record : ADRecord) : Str := (Json.dict record.attributes).dumps (.compact true)

/-- The row of a record that is kept as a fact. -/
def factRow (run : CollectorRun) (record : ADRecord) : ObservationRow where
  deploymentId := run.deploymentId
  subjectType := str "ad_directory"
  subjectId := none
  factType := str "ad." ++ record.kind
  factValueJson := attributesJson record
  confidence := ⟨1, one_isConfidence⟩
  inferred := false
  source := ldapSource
  observedAt := run.observed

/-- The row of a record that is kept as an entity. -/
def entityRow (run : CollectorRun) (domainId : Nat) (record : ADRecord) : EntityRow where
  adDomainId := domainId
  entityKey := record.key
  kind := record.kind
  displayName := ((first printable record.attributes "displayName").or
    (first printable record.attributes "name")).or
    (first printable record.attributes "sAMAccountName")
  dnsName := first printable record.attributes "dNSHostName"
  operatingSystem := first printable record.attributes "operatingSystem"
  attributesJson := attributesJson record
  source := ldapSource
  observedAt := run.observed

/-- The row of a role of a domain controller. -/
def roleRow (run : CollectorRun) (domainId : Nat) (record : ADRecord) (role : Str) : EntityRow where
  adDomainId := domainId
  entityKey := record.key ++ str ":" ++ role
  kind := str "server_role"
  displayName := some role
  dnsName := none
  operatingSystem := none
  attributesJson := str "\x7b\x7d"
  source := ldapSource
  observedAt := run.observed

/-- `INSERT INTO ad_entities` with its parameters. -/
def storeEntity (db : DirectoryDb) (row : EntityRow) (valid : Bool) : Except Exc DirectoryDb := do
  Repository.bind [.text row.entityKey, .text row.kind, .ofText row.displayName,
    .ofText row.dnsName, .ofText row.operatingSystem, .text row.attributesJson,
    .text row.observedAt]
  db.insertEntity row valid

/-- The body of `for record in records`. -/
def storeRecord (run : CollectorRun) (domainId : Nat) (db : DirectoryDb) (record : ADRecord) :
    Except Exc DirectoryDb := do
  let valid := (Json.dict record.attributes).isFinite
  if record.kind ∈ factKinds then
    let row := factRow run record
    Repository.bind [.text row.factType, .text row.factValueJson, .text row.observedAt]
    db.insertObservation row valid
  else
    let db ← storeEntity db (entityRow printable run domainId record) valid
    if record.kind = str "domain_controller" then
      (serverRoles rt record.attributes).foldlM
        (fun db role => storeEntity db (roleRow run domainId record role) true) db
    else .ok db

/-- The row of the domain, with the forest that the root record names. -/
def domainRow (run : CollectorRun) (root : ADRecord) : DomainRow where
  deploymentId := run.deploymentId
  domainKey := run.domain
  dnsName := run.domain
  forestName := (first printable root.attributes "rootDomainNamingContext").bind (dnToDomain rt)
  source := ldapSource
  observedAt := run.observed

/-- `_persist`, with the database it leaves. -/
def persist (run : CollectorRun) (records : List ADRecord) (db : DirectoryDb) :
    Except Exc DirectoryDb :=
  match records.find? fun record => record.kind = str "root" with
  | none => .error .stopIteration
  | some root => do
    let row := domainRow rt printable run root
    Repository.bind [.text row.domainKey, .text row.dnsName, .ofText row.forestName,
      .text row.observedAt]
    let (db, domainId) ← db.insertDomain row
    records.foldlM (storeRecord rt printable run domainId) db

end

end FieldDiscovery.ActiveDirectory
