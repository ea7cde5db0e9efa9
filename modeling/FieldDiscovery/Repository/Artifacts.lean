import FieldDiscovery.Lib.PosixPath
import FieldDiscovery.Lib.Settles
import FieldDiscovery.Repository.Observations
import FieldDiscovery.Repository.Recovery

/-!
# Registering an artifact

`Repository.register_artifact` refuses a path that is not confined or that redaction would change, and
a digest that is none, and then writes one row unless one stands under the path and the digest. A call
that raises leaves the database as it was, and so does a raising `record_observation`: where nothing
was written there is no id to return, and nothing else raises after the commit.
-/

namespace FieldDiscovery.Repository

open Py Redaction

/-! ## The table -/

/-- A row of `artifacts`. -/
structure ArtifactRow where
  deploymentId : Option Int
  collectorRunId : Option Int
  relativePath : Str
  sha256Digest : Str
  mediaType : Str
  sizeBytes : Int
  collectedAt : Str
  importedAt : Option Str
  source : Str
  observedAt : Str

namespace ArtifactRow

/-- The columns of `UNIQUE(relative_path, sha256_digest)`. -/
def key (row : ArtifactRow) : Option (Str × Str) := some (row.relativePath, row.sha256Digest)

/-- The `CHECK` constraints. -/
def Checks (row : ArtifactRow) : Prop := row.sha256Digest.length = 64 ∧ 0 ≤ row.sizeBytes

instance (row : ArtifactRow) : Decidable row.Checks := inferInstanceAs (Decidable (_ ∧ _))

def parameters (row : ArtifactRow) : List Value :=
  [(match row.deploymentId with | some id => .integer id | none => .null),
    (match row.collectorRunId with | some id => .integer id | none => .null),
    .text row.relativePath, .text row.sha256Digest, .text row.mediaType, .integer row.sizeBytes,
    .text row.collectedAt, .ofText row.importedAt, .text row.source, .text row.observedAt]

end ArtifactRow

/-- The ids of `collector_runs`, and the rows of `artifacts`. -/
structure ArtifactTables where
  collectorRuns : List Int
  artifacts : Sql.Table ArtifactRow.key

/-- A database of observations and artifacts. -/
abbrev StoredDb := FactDb ArtifactTables

namespace StoredDb

/-- The rows that the columns of an artifact refer to. -/
def Refers (db : StoredDb) (row : ArtifactRow) : Prop :=
  (∀ id ∈ row.deploymentId, id ∈ db.deployments) ∧
    ∀ id ∈ row.collectorRunId, id ∈ db.others.collectorRuns

instance (db : StoredDb) (row : ArtifactRow) : Decidable (db.Refers row) :=
  inferInstanceAs (Decidable (_ ∧ _))

/-- `INSERT OR IGNORE INTO artifacts`, with `cursor.rowcount == 1`. -/
def insertArtifact (row : ArtifactRow) (db : StoredDb) : Except Exc (Bool × StoredDb) := do
  bind row.parameters
  if ¬ row.Checks ∨ db.others.artifacts.Taken row then .ok (false, db)
  else if db.Refers row then
    .ok (true, { db with
      others := { db.others with artifacts := db.others.artifacts.insertOrIgnore row } })
  else .error .sqlite

/-- `SELECT id FROM artifacts WHERE relative_path = ? AND sha256_digest = ?` -/
def selectArtifact (row : ArtifactRow) (db : StoredDb) : Except Exc (Option Nat × StoredDb) := do
  bind [.text row.relativePath, .text row.sha256Digest]
  .ok (db.others.artifacts.find (row.relativePath, row.sha256Digest), db)

end StoredDb

/-! ## The call -/

/-- `path.is_absolute() or not path.parts or any(part in {"", ".", ".."} for part in path.parts)` -/
def isUnconfined (path : PurePath) : Bool :=
  path.root ≠ [] || path.parts = [] || path.parts.any (· ∈ [[], str ".", parentStep])

/-- Lowercase SHA-256. -/
def isDigest (s : Str) : Bool := s.length = 64 && s.all fun c => isHex c && !isUpper c

section Calls

variable (rt : Runtime) (r : Redactor)

/-- The two statements of the transaction. -/
def insertAndFind (row : ArtifactRow) :
    Call (Sql.Connection StoredDb) Exc (Bool × Option Nat) := do
  let created ← Sql.execute none (StoredDb.insertArtifact row)
  let found ← Sql.execute none (StoredDb.selectArtifact row)
  pure (created, found)

/-- What `register_artifact` checks, and the row with its source redacted. -/
def ArtifactRow.checked (row : ArtifactRow) : Except Exc ArtifactRow := do
  if isUnconfined (.of row.relativePath) then
    .error (.repository (str "artifact path must be a confined relative path"))
  else
    let path ← r.text rt row.relativePath
    if path ≠ row.relativePath then
      .error (.repository (str "artifact path contains sensitive data"))
    else
      let source ← r.text rt row.source
      if isDigest row.sha256Digest then .ok { row with source }
      else .error (.repository (str "artifact digest must be lowercase SHA-256"))

/-- `register_artifact` -/
def registerArtifact (row : ArtifactRow) : Call (Sql.Connection StoredDb) Exc (Nat × Bool) := do
  let row ← Call.ofExcept (row.checked rt r)
  let (created, found) ← transaction (insertAndFind row)
  let id ← rowId found
  pure (id, created)

end Calls

/-! ## What the calls leave -/

/-- Rows were added to the two tables, all of these kinds. -/
structure Adds (IsArtifact : ArtifactRow → Prop) (IsFact : FactRow → Prop) (db db' : StoredDb) :
    Prop where
  artifacts : ∃ added, db'.others.artifacts.rows = db.others.artifacts.rows ++ added ∧
    ∀ row ∈ added, IsArtifact row.2
  facts : ∃ added, db'.observations.rows = db.observations.rows ++ added ∧ ∀ row ∈ added, IsFact row.2

namespace Adds

variable {P P' : ArtifactRow → Prop} {Q Q' : FactRow → Prop} {db db' db'' : StoredDb}

theorem refl (db : StoredDb) : Adds P Q db db :=
  ⟨⟨[], (List.append_nil _).symm, fun _ h => absurd h List.not_mem_nil⟩,
    ⟨[], (List.append_nil _).symm, fun _ h => absurd h List.not_mem_nil⟩⟩

theorem trans (h : Adds P Q db db') (h' : Adds P Q db' db'') : Adds P Q db db'' := by
  obtain ⟨added, hadded, hmem⟩ := h.artifacts
  obtain ⟨added', hadded', hmem'⟩ := h'.artifacts
  obtain ⟨facts, hfacts, hfact⟩ := h.facts
  obtain ⟨facts', hfacts', hfact'⟩ := h'.facts
  refine ⟨⟨added ++ added', ?_, ?_⟩, ⟨facts ++ facts', ?_, ?_⟩⟩
  · rw [hadded', hadded, List.append_assoc]
  · exact List.forall_mem_append.mpr ⟨hmem, hmem'⟩
  · rw [hfacts', hfacts, List.append_assoc]
  · exact List.forall_mem_append.mpr ⟨hfact, hfact'⟩

theorem mono (h : Adds P Q db db') (hP : ∀ row, P row → P' row) (hQ : ∀ row, Q row → Q' row) :
    Adds P' Q' db db' := by
  obtain ⟨added, hadded, hmem⟩ := h.artifacts
  obtain ⟨facts, hfacts, hfact⟩ := h.facts
  exact ⟨⟨added, hadded, fun row hrow => hP row.2 (hmem row hrow)⟩,
    ⟨facts, hfacts, fun row hrow => hQ row.2 (hfact row hrow)⟩⟩

/-- The rows from before are all there. -/
theorem find (h : Adds P Q db db') {k : Str × Str} {id : Nat}
    (hk : db.others.artifacts.find k = some id) : db'.others.artifacts.find k = some id := by
  obtain ⟨added, hadded, -⟩ := h.artifacts
  have hextends : db.others.artifacts.Extends db'.others.artifacts := by
    rw [Sql.Table.Extends, hadded]
    exact List.prefix_append _ _
  exact hextends.find hk

end Adds

/-- What a statement inside a transaction leaves. -/
theorem exists_of_execute {σ α : Type} {statement : σ → Except Exc (α × σ)} {db₀ db : σ} {a : α}
    {c : Sql.Connection σ} (h : Sql.execute none statement ⟨db₀, some db⟩ = (.ok a, c)) :
    ∃ db', statement db = .ok (a, db') ∧ c = ⟨db₀, some db'⟩ := by
  obtain ⟨x, db', hrun⟩ := Sql.Inside.execute none statement db₀ db
  obtain ⟨rfl, rfl⟩ := Prod.mk.inj (hrun.symm.trans h)
  exact ⟨db', execute_eq_ok hrun, rfl⟩

/-- A table with a row that may have been refused. -/
theorem rows_insertOrIgnore {α κ : Type} [DecidableEq κ] {key : α → Option κ} (t : Sql.Table key)
    (a : α) : ∃ added, (t.insertOrIgnore a).rows = t.rows ++ added ∧ ∀ row ∈ added, row.2 = a := by
  unfold Sql.Table.insertOrIgnore
  split
  · exact ⟨[], (List.append_nil _).symm, fun _ h => absurd h List.not_mem_nil⟩
  · exact ⟨[(t.nextId, a)], rfl, fun row h => by rw [List.mem_singleton.mp h]⟩

section

variable {rt : Runtime} {r : Redactor} {row : ArtifactRow} {db db' : StoredDb}

theorem checked_eq_ok {row' : ArtifactRow} (h : row.checked rt r = .ok row') :
    isDigest row.sha256Digest = true ∧ ∃ source, row' = { row with source } := by
  unfold ArtifactRow.checked at h
  split at h
  · cases h
  · obtain ⟨path, -, h⟩ := Except.bind_eq_ok.mp h
    split at h
    · cases h
    · obtain ⟨source, -, h⟩ := Except.bind_eq_ok.mp h
      split at h
      · next hdigest =>
        cases h
        exact ⟨hdigest, source, rfl⟩
      · cases h

/-- A row that passes the checks of the table stands in it afterwards. -/
theorem insertArtifact_adds {created : Bool} (hchecks : row.Checks)
    (h : db.insertArtifact row = .ok (created, db')) :
    Adds (· = row) (fun _ => False) db db' ∧
      ∃ id, db'.others.artifacts.find (row.relativePath, row.sha256Digest) = some id := by
  have hkey : row.key = some (row.relativePath, row.sha256Digest) := rfl
  unfold StoredDb.insertArtifact at h
  obtain ⟨-, -, h⟩ := Except.bind_eq_ok.mp h
  split at h
  · next hrefused =>
    cases h
    have htaken := hrefused.resolve_left (not_not.mpr hchecks)
    exact ⟨.refl db, (Sql.Table.taken_iff hkey).mp htaken⟩
  · split at h
    · cases h
      exact ⟨⟨rows_insertOrIgnore _ row, ⟨[], (List.append_nil _).symm,
        fun _ h => absurd h List.not_mem_nil⟩⟩, Sql.Table.exists_find_insertOrIgnore _ hkey⟩
    · cases h

theorem insertAndFind_settles (hchecks : row.Checks) :
    Sql.Settles (transaction (insertAndFind row)) (fun result db db' =>
      Adds (· = row) (fun _ => False) db db' ∧ ∃ id, result.2 = some id ∧
        db'.others.artifacts.find (row.relativePath, row.sha256Digest) = some id) Eq := by
  refine .transaction (.bind (.execute _ _) fun _ => .bind (.execute _ _) fun _ => .pure _)
    fun db result db' hrun => ?_
  obtain ⟨created, c, hinsert, hrun⟩ := Call.bind_eq_ok hrun
  obtain ⟨db₁, hinserted, rfl⟩ := exists_of_execute hinsert
  obtain ⟨found, c', hselect, hrun⟩ := Call.bind_eq_ok hrun
  obtain ⟨db₂, hselected, rfl⟩ := exists_of_execute hselect
  cases hrun
  obtain ⟨-, -, hfound⟩ := Except.bind_eq_ok.mp hselected
  obtain ⟨rfl, rfl⟩ := Prod.mk.inj (Except.ok.inj hfound)
  obtain ⟨hadds, id, hid⟩ := insertArtifact_adds hchecks hinserted
  exact ⟨hadds, id, hid, hid⟩

/-- The row is written, or one stands under its path and digest. -/
theorem registerArtifact_settles (hsize : 0 ≤ row.sizeBytes) :
    Sql.Settles (registerArtifact rt r row) (fun _ db db' =>
      Adds (fun row' => ∃ source, row' = { row with source }) (fun _ => False) db db' ∧
        ∃ id, db'.others.artifacts.find (row.relativePath, row.sha256Digest) = some id) Eq := by
  unfold registerArtifact
  refine .ofExcept (fun _ => rfl) fun row' hrow => ?_
  obtain ⟨hdigest, source, rfl⟩ := checked_eq_ok hrow
  have hlength : row.sha256Digest.length = 64 := by
    simpa using (Bool.and_eq_true_iff.mp hdigest).1
  have hchecks : { row with source }.Checks := ⟨hlength, hsize⟩
  intro db
  rcases insertAndFind_settles hchecks db with
    ⟨⟨created, found⟩, db', hrun, hadds, id, hfound, hid⟩ | ⟨e, db', hrun, rfl⟩
  · subst hfound
    exact .inl ⟨_, db', Call.bind_ok hrun, hadds.mono (fun row' h => ⟨source, h⟩) fun _ h => h,
      id, hid⟩
  · exact .inr ⟨e, db, Call.bind_error hrun, rfl⟩

end

section

variable {rt : Runtime} {r : Redactor} {jsonValid : Str → Bool} {a : FactArguments} {row : FactRow}

/-- A row that was not refused is found, and what is found is the row. -/
theorem insertAndSelect_settles :
    Sql.Settles (transaction (insertAndSelect jsonValid row)) (fun found db db' =>
      Adds (fun _ => False) (· = row) db db' ∧ (found = none → db = db') ∧
        ∀ id, found = some id → (id, row) ∈ db'.observations.rows) Eq := by
  refine .transaction (.bind (.execute _ _) fun _ => .execute _ _) fun db found db' hrun => ?_
  obtain ⟨_, c, hinsert, hselect⟩ := Call.bind_eq_ok hrun
  obtain ⟨db₁, hinserted, rfl⟩ := exists_of_execute hinsert
  obtain ⟨db₂, hselected, hc⟩ := exists_of_execute hselect
  obtain ⟨-, -, hfound⟩ := Except.bind_eq_ok.mp hselected
  obtain ⟨rfl, rfl⟩ := Prod.mk.inj (Except.ok.inj hfound)
  cases hc
  rw [← and_assoc]
  refine ⟨?_, fun id hid => ?_⟩
  swap
  · obtain ⟨other, hother, rfl⟩ := Option.map_eq_some_iff.mp hid
    have hrow : other.2 = row := by simpa using List.find?_some hother
    rw [← hrow]
    exact List.mem_of_find?_eq_some hother
  unfold FactDb.insertOrIgnore at hinserted
  obtain ⟨-, -, hinserted⟩ := Except.bind_eq_ok.mp hinserted
  split at hinserted
  · cases hinserted
    exact ⟨.refl db, fun _ => rfl⟩
  · next hnew =>
    split at hinserted
    · cases hinserted
      refine ⟨⟨⟨[], (List.append_nil _).symm, fun _ h => absurd h List.not_mem_nil⟩,
        rows_insertOrIgnore _ row⟩, fun hnone => ?_⟩
      have hrows : (db.observations.insertOrIgnore row).rows =
          db.observations.rows ++ [(db.observations.nextId, row)] := by
        rw [Sql.Table.insertOrIgnore, dif_neg fun htaken => hnew (.inr htaken)]
        rfl
      rw [Option.map_eq_none_iff, hrows, List.find?_eq_none] at hnone
      have hmiss := hnone (db.observations.nextId, row)
        (List.mem_append_right _ (List.mem_singleton_self _))
      exact absurd rfl (of_decide_eq_false (Bool.not_eq_true _ ▸ hmiss))
    · cases hinserted

/-- Afterwards the fact stands in the table. -/
theorem recordObservation_settles :
    Sql.Settles (recordObservation rt r jsonValid a) (fun _ db db' =>
      Adds (fun _ => False) (fun row => a.row rt r = .ok row) db db' ∧
        ∃ row id, a.row rt r = .ok row ∧ (id, row) ∈ db'.observations.rows) Eq := by
  unfold recordObservation
  refine .ofExcept (fun _ => rfl) fun row hrow => ?_
  intro db
  rcases insertAndSelect_settles db with ⟨found, db', hrun, hadds, hnone, hfound⟩ |
    ⟨e, db', hrun, rfl⟩
  · cases found with
    | none => exact .inr ⟨.type, db', Call.bind_ok hrun, hnone rfl⟩
    | some id =>
      refine .inl ⟨id, db', Call.bind_ok hrun, hadds.mono (fun _ h => h) ?_,
        row, id, hrow, hfound id rfl⟩
      rintro _ rfl
      exact hrow
  · exact .inr ⟨e, db, Call.bind_error hrun, rfl⟩

end

end FieldDiscovery.Repository
