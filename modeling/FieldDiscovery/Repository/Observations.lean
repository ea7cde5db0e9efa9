import FieldDiscovery.Lib.Table
import FieldDiscovery.Redaction.Value
import FieldDiscovery.Repository.Sqlite
import FieldDiscovery.Lib.Json

/-!
# Recording an observation

`Repository.record_observation`: `INSERT OR IGNORE` under the index `observations_exact_fact`, then
a `SELECT` of the row. The index folds a missing subject into `-1`, and the `SELECT` does not. So
the two identify rows alike unless the database holds the same fact about the subject `-1`
(`recordsExactly_iff`).
-/

namespace FieldDiscovery.Repository

open Py Redaction

/-! ## The table -/

/-- A row of `observations`. -/
structure FactRow where
  deploymentId : Int
  subjectType : Str
  subjectId : Option Int
  factType : Str
  factValueJson : Str
  confidence : ℚ
  inferred : Bool
  source : Str
  observedAt : Str
  deriving DecidableEq

namespace FactRow

/-- The columns of `observations_exact_fact`, with `ifnull(subject_id, -1)`. -/
def indexKey (row : FactRow) : Option FactRow :=
  some { row with subjectId := some (row.subjectId.getD (-1)) }

/-- The `CHECK` constraints, with SQLite's `json_valid`. -/
def Checks (jsonValid : Str → Bool) (row : FactRow) : Prop :=
  jsonValid row.factValueJson = true ∧ 0 ≤ row.confidence ∧ row.confidence ≤ 1

instance (jsonValid : Str → Bool) (row : FactRow) : Decidable (row.Checks jsonValid) :=
  inferInstanceAs (Decidable (_ ∧ _))

/-- The parameters of the statements. -/
def parameters (row : FactRow) : List Value :=
  [.integer row.deploymentId, .text row.subjectType,
    (match row.subjectId with | some id => .integer id | none => .null), .text row.factType,
    .text row.factValueJson, .real row.confidence, .integer (if row.inferred then 1 else 0),
    .text row.source, .text row.observedAt]

end FactRow

/-- A database: the ids of `deployments`, the rows of `observations`, and all other content. -/
structure FactDb (σ : Type) where
  deployments : List Int
  observations : Sql.Table FactRow.indexKey
  others : σ

namespace FactDb

variable {σ : Type}

/-- `INSERT OR IGNORE INTO observations`: a row that a `CHECK` or the index refuses is skipped, and
a missing deployment raises. -/
def insertOrIgnore (jsonValid : Str → Bool) (row : FactRow) (db : FactDb σ) :
    Except Exc (Unit × FactDb σ) := do
  bind row.parameters
  if ¬ row.Checks jsonValid ∨ db.observations.Taken row then .ok ((), db)
  else if row.deploymentId ∈ db.deployments then
    .ok ((), { db with observations := db.observations.insertOrIgnore row })
  else .error .sqlite

/-- `SELECT id FROM observations WHERE … AND subject_id IS ? AND …` -/
def selectId (row : FactRow) (db : FactDb σ) : Except Exc (Option Nat × FactDb σ) := do
  bind row.parameters
  .ok ((db.observations.rows.find? fun r => r.2 = row).map Prod.fst, db)

end FactDb

/-! ## The call -/

/-- The arguments of `record_observation`. -/
structure FactArguments where
  deploymentId : Int
  subjectType : Str
  subjectId : Option Int
  factType : Str
  factValue : Redaction.Value
  confidence : ℚ
  inferred : Bool
  source : Str
  observedAt : Str

mutual

/-- The document that `json.dumps` writes: a tuple as a list, and a number or a constant as it is
rendered. -/
def document : Redaction.Value → Json
  | .str s => .string s
  | .list items => .list (documents items)
  | .tuple items => .list (documents items)
  | .mapping items => .dict (documentFields items)
  | .other rendering => .float rendering

def documents : List Redaction.Value → List Json
  | [] => []
  | v :: vs => document v :: documents vs

def documentFields : List (Str × Redaction.Value) → List (Str × Json)
  | [] => []
  | (key, child) :: rest => (key, document child) :: documentFields rest

end

section Calls

variable {σ : Type} (rt : Runtime) (r : Redactor) (jsonValid : Str → Bool)

/-- The arguments in the form in which they are stored: redacted, with the value as canonical
JSON. -/
def FactArguments.row (a : FactArguments) : Except Exc FactRow := do
  let subjectType ← r.text rt a.subjectType
  let factType ← r.text rt a.factType
  let source ← r.text rt a.source
  let factValue ← r.value rt a.factValue
  .ok
    { deploymentId := a.deploymentId, subjectType, subjectId := a.subjectId, factType
      factValueJson := (document factValue).dumps (.compact false)
      confidence := a.confidence, inferred := a.inferred, source, observedAt := a.observedAt }

/-- `int(row[0])` -/
def rowId : Option Nat → Call (Sql.Connection (FactDb σ)) Exc Nat
  | some id => Call.ret id
  | none => Call.raise .type

/-- The two statements of the transaction. -/
def insertAndSelect (row : FactRow) : Call (Sql.Connection (FactDb σ)) Exc (Option Nat) := do
  Sql.execute none (FactDb.insertOrIgnore jsonValid row)
  Sql.execute none (FactDb.selectId row)

/-- `record_observation` -/
def recordObservation (a : FactArguments) : Call (Sql.Connection (FactDb σ)) Exc Nat := do
  let row ← Call.ofExcept (a.row rt r)
  let found ← transaction (insertAndSelect jsonValid row)
  rowId found

end Calls

/-! ## What one call does -/

section

variable {σ : Type} {rt : Runtime} {r : Redactor} {jsonValid : Str → Bool} {db : FactDb σ}
  {a : FactArguments} {row : FactRow}

/-- What the table asks of a row: the checks, the reference, and that SQLite can hold the columns;
with no subject, or a positive one. -/
structure Admitted (jsonValid : Str → Bool) (db : FactDb σ) (row : FactRow) : Prop where
  checks : row.Checks jsonValid
  deployment : row.deploymentId ∈ db.deployments
  bound : bind row.parameters = .ok ()
  subject : ∀ id ∈ row.subjectId, 0 < id

/-- The database holds the fact about the subject `-1`, and the row is the fact about no subject. -/
def Shadowed (db : FactDb σ) (row : FactRow) : Prop :=
  row.subjectId = none ∧
    ∃ id, (id, { row with subjectId := some (-1) }) ∈ db.observations.rows

/-- The index takes a row for one that is there exactly when it is there, or is shadowed. -/
theorem taken_iff_mem (hsubject : ∀ id ∈ row.subjectId, 0 < id) :
    db.observations.Taken row ↔ (∃ id, (id, row) ∈ db.observations.rows) ∨ Shadowed db row := by
  have hfold : ∀ other : FactRow, other.indexKey = row.indexKey ↔
      other = row ∨ (row.subjectId = none ∧ other = { row with subjectId := some (-1) }) := by
    intro other
    obtain ⟨d, t, s, f, v, c, i, o, w⟩ := row
    obtain ⟨d', t', s', f', v', c', i', o', w'⟩ := other
    simp only [FactRow.indexKey, Option.some.injEq, FactRow.mk.injEq]
    simp only [Option.mem_def] at hsubject
    cases s with
    | none =>
      cases s' with
      | none => simp
      | some n => simp
    | some n =>
      have hpos := hsubject n rfl
      cases s' with
      | none =>
        simp only [Option.getD_none, Option.getD_some, reduceCtorEq, false_and, and_false, or_false,
          iff_false]
        omega
      | some m => simp
  unfold Sql.Table.Taken Shadowed
  constructor
  · rintro ⟨⟨id, other⟩, hmem, hkey, -⟩
    rcases (hfold other).mp hkey with rfl | ⟨hnone, rfl⟩
    · exact Or.inl ⟨id, hmem⟩
    · exact Or.inr ⟨hnone, id, hmem⟩
  · rintro (⟨id, hmem⟩ | ⟨hnone, id, hmem⟩)
    · exact ⟨_, hmem, rfl, Option.some_ne_none _⟩
    · exact ⟨_, hmem, (hfold _).mpr (Or.inr ⟨hnone, rfl⟩), Option.some_ne_none _⟩

/-- A row stands in the table once. -/
theorem id_unique {id id' : Nat} (h : (id, row) ∈ db.observations.rows)
    (h' : (id', row) ∈ db.observations.rows) : id = id' :=
  congrArg Prod.fst (Sql.Table.row_eq_of_key h h' rfl rfl)

theorem selectId_eq (hbound : bind row.parameters = .ok ()) {id : Nat}
    (h : (id, row) ∈ db.observations.rows) : db.selectId row = .ok (some id, db) := by
  unfold FactDb.selectId
  rw [hbound]
  cases hfind : db.observations.rows.find? fun r => r.2 = row with
  | none => exact absurd (List.find?_eq_none.mp hfind _ h) (by simp)
  | some found =>
    have hrow : found.2 = row := by simpa using List.find?_some hfind
    have hmem : (found.1, row) ∈ db.observations.rows := by
      rw [← hrow]
      exact List.mem_of_find?_eq_some hfind
    simp [id_unique hmem h, Bind.bind, Except.bind]

/-- The statements inside a transaction. -/
theorem insertAndSelect_run {db' : FactDb σ} {found : Option Nat}
    (hinsert : db.insertOrIgnore jsonValid row = .ok ((), db'))
    (hselect : db'.selectId row = .ok (found, db')) :
    insertAndSelect jsonValid row ⟨db, some db⟩ = (.ok found, ⟨db, some db'⟩) := by
  have hfirst : Sql.execute (none : Option Exc) (FactDb.insertOrIgnore jsonValid row)
      ⟨db, some db⟩ = (.ok (), ⟨db, some db'⟩) := by
    simp [Sql.execute, Sql.Connection.view, Sql.Connection.write, hinsert]
  have hsecond : Sql.execute (none : Option Exc) (FactDb.selectId row)
      (⟨db, some db'⟩ : Sql.Connection (FactDb σ)) = (.ok found, ⟨db, some db'⟩) := by
    simp [Sql.execute, Sql.Connection.view, Sql.Connection.write, hselect]
  exact (Call.bind_ok hfirst).trans hsecond

theorem recordObservation_run {db' : FactDb σ} {found : Option Nat} (hrow : a.row rt r = .ok row)
    (hinsert : db.insertOrIgnore jsonValid row = .ok ((), db'))
    (hselect : db'.selectId row = .ok (found, db')) :
    recordObservation rt r jsonValid a ⟨db, none⟩ = rowId found ⟨db', none⟩ := by
  have hform : Call.ofExcept (a.row rt r) (⟨db, none⟩ : Sql.Connection (FactDb σ)) =
      (.ok row, ⟨db, none⟩) := by
    rw [hrow]
    rfl
  have htransaction : transaction (insertAndSelect jsonValid row) ⟨db, none⟩ =
      (.ok found, ⟨db', none⟩) :=
    Sql.transaction_commits (insertAndSelect_run hinsert hselect)
  exact (Call.bind_ok hform).trans (Call.bind_ok htransaction)

/-- A row that is there is found, and nothing changes. -/
theorem recordObservation_found (hrow : a.row rt r = .ok row) (h : Admitted jsonValid db row)
    {id : Nat} (hmem : (id, row) ∈ db.observations.rows) :
    recordObservation rt r jsonValid a ⟨db, none⟩ = (.ok id, ⟨db, none⟩) := by
  have hinsert : db.insertOrIgnore jsonValid row = .ok ((), db) := by
    unfold FactDb.insertOrIgnore
    rw [h.bound]
    simp only [Bind.bind, Except.bind]
    rw [if_pos (Or.inr ((taken_iff_mem h.subject).mpr (Or.inl ⟨id, hmem⟩)))]
  exact recordObservation_run hrow hinsert (selectId_eq h.bound hmem)

/-- A row that the index does not refuse is added behind the others. -/
theorem recordObservation_free (hrow : a.row rt r = .ok row) (hchecks : row.Checks jsonValid)
    (hdeployment : row.deploymentId ∈ db.deployments) (hbound : bind row.parameters = .ok ())
    (hfree : ¬ db.observations.Taken row) :
    ∃ observations, observations.rows =
        db.observations.rows ++ [(db.observations.nextId, row)] ∧
      recordObservation rt r jsonValid a ⟨db, none⟩ =
        (.ok db.observations.nextId, ⟨{ db with observations }, none⟩) := by
  have hrows : (db.observations.insertOrIgnore row).rows =
      db.observations.rows ++ [(db.observations.nextId, row)] := by
    rw [Sql.Table.insertOrIgnore, dif_neg hfree]
    rfl
  have hinsert : db.insertOrIgnore jsonValid row =
      .ok ((), { db with observations := db.observations.insertOrIgnore row }) := by
    unfold FactDb.insertOrIgnore
    rw [hbound]
    simp only [Bind.bind, Except.bind]
    rw [if_neg (not_or.mpr ⟨not_not.mpr hchecks, hfree⟩), if_pos hdeployment]
  refine ⟨_, hrows, recordObservation_run hrow hinsert (selectId_eq hbound ?_)⟩
  rw [hrows]
  exact List.mem_append_right _ (List.mem_singleton_self _)

/-- A row that is not there is added, unless it is shadowed. -/
theorem recordObservation_new (hrow : a.row rt r = .ok row) (h : Admitted jsonValid db row)
    (hnew : ∀ id, (id, row) ∉ db.observations.rows) (hshadow : ¬ Shadowed db row) :
    ∃ observations, observations.rows =
        db.observations.rows ++ [(db.observations.nextId, row)] ∧
      recordObservation rt r jsonValid a ⟨db, none⟩ =
        (.ok db.observations.nextId, ⟨{ db with observations }, none⟩) := by
  refine recordObservation_free hrow h.checks h.deployment h.bound ?_
  rw [taken_iff_mem h.subject, not_or, not_exists]
  exact ⟨hnew, hshadow⟩

/-- A shadowed row is neither added nor found. -/
theorem recordObservation_shadowed (hrow : a.row rt r = .ok row) (h : Admitted jsonValid db row)
    (hshadow : Shadowed db row) :
    recordObservation rt r jsonValid a ⟨db, none⟩ = (.error .type, ⟨db, none⟩) := by
  obtain ⟨hnone, id, hmem⟩ := hshadow
  have hinsert : db.insertOrIgnore jsonValid row = .ok ((), db) := by
    unfold FactDb.insertOrIgnore
    rw [h.bound]
    simp only [Bind.bind, Except.bind]
    rw [if_pos (Or.inr ((taken_iff_mem h.subject).mpr (Or.inr ⟨hnone, id, hmem⟩)))]
  have hselect : db.selectId row = .ok (none, db) := by
    unfold FactDb.selectId
    rw [h.bound]
    have hfind : (db.observations.rows.find? fun r => r.2 = row) = none := by
      rw [List.find?_eq_none]
      rintro ⟨id', other⟩ hmem'
      rw [decide_eq_true_eq]
      intro hother
      have hkey : other.indexKey = FactRow.indexKey { row with subjectId := some (-1) } := by
        rw [← hother] at hnone ⊢
        simp only at hnone
        simp [FactRow.indexKey, hnone]
      have hsame := Sql.Table.row_eq_of_key hmem hmem' rfl hkey
      have hsubject := congrArg (fun x => x.2.subjectId) hsame
      rw [← hother] at hnone
      simp only at hnone hsubject
      rw [hnone] at hsubject
      cases hsubject
    simp [hfind, Bind.bind, Except.bind]
  exact recordObservation_run hrow hinsert hselect

end

/-! ## Exact insertion -/

section

variable {σ : Type} (rt : Runtime) (r : Redactor) (jsonValid : Str → Bool)

/-- What `record_observation` does for some arguments, and then for others, when it inserts into a
set: it returns the id of the only row that equals the redacted arguments, leaves all else as it
was, and returns the same id again exactly for the same row. -/
def RecordsExactly (db : FactDb σ) (a : FactArguments) (row : FactRow) (a' : FactArguments)
    (row' : FactRow) : Prop :=
  ∃ id db', recordObservation rt r jsonValid a ⟨db, none⟩ = (.ok id, ⟨db', none⟩) ∧
    (∀ n, (n, row) ∈ db'.observations.rows ↔ n = id) ∧
    (∀ x, x ∈ db'.observations.rows ↔ x ∈ db.observations.rows ∨ x = (id, row)) ∧
    db'.deployments = db.deployments ∧ db'.others = db.others ∧
    ∃ id' db'', recordObservation rt r jsonValid a' ⟨db', none⟩ = (.ok id', ⟨db'', none⟩) ∧
      (row' = row → id' = id ∧ db'' = db') ∧ (row' ≠ row → id' ≠ id)

variable {rt r jsonValid}

/-- The first call: a set insertion, of a row that is not shadowed. -/
theorem recordObservation_exact {db : FactDb σ} {a : FactArguments} {row : FactRow}
    (hrow : a.row rt r = .ok row) (h : Admitted jsonValid db row) (hshadow : ¬ Shadowed db row) :
    ∃ id db', recordObservation rt r jsonValid a ⟨db, none⟩ = (.ok id, ⟨db', none⟩) ∧
      (∀ n, (n, row) ∈ db'.observations.rows ↔ n = id) ∧
      (∀ x, x ∈ db'.observations.rows ↔ x ∈ db.observations.rows ∨ x = (id, row)) ∧
      db'.deployments = db.deployments ∧ db'.others = db.others := by
  by_cases hmem : ∃ id, (id, row) ∈ db.observations.rows
  · obtain ⟨id, hmem⟩ := hmem
    refine ⟨id, db, recordObservation_found hrow h hmem, fun n => ?_, fun x => ?_, rfl, rfl⟩
    · exact ⟨fun hn => id_unique hn hmem, fun hn => hn ▸ hmem⟩
    · exact ⟨Or.inl, fun hx => hx.elim (fun hx => hx) fun hx => hx ▸ hmem⟩
  · rw [not_exists] at hmem
    obtain ⟨observations, hrows, hrun⟩ := recordObservation_new hrow h hmem hshadow
    refine ⟨_, _, hrun, fun n => ?_, fun x => ?_, rfl, rfl⟩
    · rw [hrows, List.mem_append, List.mem_singleton]
      exact ⟨fun hn => hn.elim (fun hn => absurd hn (hmem n)) fun hn => congrArg Prod.fst hn,
        fun hn => Or.inr (hn ▸ rfl)⟩
    · rw [hrows, List.mem_append, List.mem_singleton]

/-! ## Main theorem -/

/-- For arguments that the table admits, the call is an exact set insertion unless the database
holds the same fact about the subject `-1`, for the one row or the other. -/
theorem recordsExactly_iff {db : FactDb σ} {a a' : FactArguments} {row row' : FactRow}
    (hrow : a.row rt r = .ok row) (hrow' : a'.row rt r = .ok row')
    (h : Admitted jsonValid db row) (h' : Admitted jsonValid db row') :
    RecordsExactly rt r jsonValid db a row a' row' ↔ ¬ Shadowed db row ∧ ¬ Shadowed db row' := by
  constructor
  · rintro ⟨id, db', hrun, -, hrows, hdeployments, -, id', db'', hrun', -⟩
    constructor
    · intro hshadow
      rw [recordObservation_shadowed hrow h hshadow] at hrun
      cases hrun
    · rintro ⟨hnone, n, hmem⟩
      have hshadow' : Shadowed db' row' := ⟨hnone, n, (hrows _).mpr (Or.inl hmem)⟩
      have hadmitted : Admitted jsonValid db' row' :=
        ⟨h'.checks, hdeployments ▸ h'.deployment, h'.bound, h'.subject⟩
      rw [recordObservation_shadowed hrow' hadmitted hshadow'] at hrun'
      cases hrun'
  · rintro ⟨hshadow, hshadow'⟩
    obtain ⟨id, db', hrun, hid, hrows, hdeployments, hothers⟩ :=
      recordObservation_exact hrow h hshadow
    have hadmitted : Admitted jsonValid db' row' :=
      ⟨h'.checks, hdeployments ▸ h'.deployment, h'.bound, h'.subject⟩
    refine ⟨id, db', hrun, hid, hrows, hdeployments, hothers, ?_⟩
    by_cases hsame : row' = row
    · subst hsame
      exact ⟨id, db', recordObservation_found hrow' hadmitted ((hid id).mpr rfl),
        fun _ => ⟨rfl, rfl⟩, fun hne => absurd rfl hne⟩
    · -- a row about the subject `-1` is not the first one, whose subject is positive
      have hshadow'' : ¬ Shadowed db' row' := by
        rintro ⟨hnone, n, hmem⟩
        rcases (hrows _).mp hmem with hmem | heq
        · exact hshadow' ⟨hnone, n, hmem⟩
        · have hsubject : row.subjectId = some (-1) :=
            (congrArg (fun x => x.2.subjectId) heq).symm
          have := h.subject (-1) hsubject
          omega
      obtain ⟨id', db'', hrun', hid', hrows', -⟩ :=
        recordObservation_exact hrow' hadmitted hshadow''
      refine ⟨id', db'', hrun', fun heq => absurd heq hsame, fun _ heq => ?_⟩
      subst heq
      have hfirst : (id', row) ∈ db''.observations.rows :=
        (hrows' _).mpr (Or.inl ((hid id').mpr rfl))
      have hsecond : (id', row') ∈ db''.observations.rows := (hid' id').mpr rfl
      exact hsame (congrArg Prod.snd (Sql.Table.row_eq_of_id hsecond hfirst rfl))

end

namespace Sample

/-- A redactor without secrets. -/
def redactor : Redactor := ⟨[], []⟩

/-- A fact about a subject of deployment `1`. -/
def fact (subjectId : Option Int) : FactArguments where
  deploymentId := 1
  subjectType := str "device"
  subjectId
  factType := str "model"
  factValue := .str (str "x")
  confidence := 1
  inferred := false
  source := str "snmp"
  observedAt := str "2024-01-01T00:00:00+00:00"

/-- The fact as a row. -/
def row (subjectId : Option Int) : FactRow where
  deploymentId := 1
  subjectType := str "device"
  subjectId
  factType := str "model"
  factValueJson := str "\"x\""
  confidence := 1
  inferred := false
  source := str "snmp"
  observedAt := str "2024-01-01T00:00:00+00:00"

/-- `json_valid` on the one document of the facts. -/
def jsonValid (s : Str) : Bool := s = str "\"x\""

/-- A database without observations. -/
def db : FactDb Unit := ⟨[1], .empty, ()⟩

theorem fact_row (subjectId : Option Int) :
    (fact subjectId).row (.ofDigests []) redactor = .ok (row subjectId) := by
  have htext : ∀ s ∈ [str "device", str "model", str "snmp", str "x"],
      redactor.text (.ofDigests []) s = .ok s := by decide +kernel
  simp only [List.forall_mem_cons] at htext
  obtain ⟨hdevice, hmodel, hsnmp, hx, -⟩ := htext
  unfold FactArguments.row
  simp only [fact, hdevice, hmodel, hsnmp, Redactor.value, hx, Bind.bind, Except.bind]
  rfl

theorem row_checks (subjectId : Option Int) : (row subjectId).Checks jsonValid := by
  have hvalid : jsonValid (str "\"x\"") = true := by decide
  exact ⟨hvalid, by norm_num [row], by norm_num [row]⟩

theorem row_admitted {subjectId : Option Int} (hsubject : ∀ id ∈ subjectId, 0 < id)
    (hbound : bind (row subjectId).parameters = .ok ()) :
    Admitted jsonValid db (row subjectId) :=
  ⟨row_checks subjectId, List.mem_singleton_self 1, hbound, hsubject⟩

end Sample

theorem recordsExactly_sample : RecordsExactly (.ofDigests []) Sample.redactor Sample.jsonValid
    Sample.db (Sample.fact none) (Sample.row none) (Sample.fact (some 7)) (Sample.row (some 7)) :=
  (recordsExactly_iff (Sample.fact_row none) (Sample.fact_row (some 7))
    (Sample.row_admitted (by simp) (by decide +kernel))
    (Sample.row_admitted (by simp) (by decide +kernel))).mpr
      ⟨fun h => absurd h.2.choose_spec List.not_mem_nil,
        fun h => absurd h.1 (Option.some_ne_none _)⟩

/-- After the fact was recorded about the subject `-1`, recording it about no subject fails. -/
theorem not_recordsExactly : ∃ db, recordObservation (.ofDigests []) Sample.redactor
    Sample.jsonValid (Sample.fact (some (-1))) ⟨Sample.db, none⟩ = (.ok 1, ⟨db, none⟩) ∧
      ¬ RecordsExactly (.ofDigests []) Sample.redactor Sample.jsonValid db (Sample.fact none)
        (Sample.row none) (Sample.fact none) (Sample.row none) := by
  have hfree : ¬ Sample.db.observations.Taken (Sample.row (some (-1))) := by
    rintro ⟨x, hx, -⟩
    exact absurd hx List.not_mem_nil
  obtain ⟨observations, hrows, hrun⟩ := recordObservation_free (Sample.fact_row (some (-1)))
    (Sample.row_checks _) (List.mem_singleton_self 1) (by decide +kernel) hfree
  refine ⟨_, hrun, ?_⟩
  have hshadow : Shadowed { Sample.db with observations } (Sample.row none) := by
    refine ⟨rfl, 1, ?_⟩
    show _ ∈ observations.rows
    rw [hrows]
    exact List.mem_singleton_self _
  have hadmitted : Admitted Sample.jsonValid { Sample.db with observations } (Sample.row none) :=
    ⟨Sample.row_checks none, List.mem_singleton_self 1, by decide +kernel, by simp [Sample.row]⟩
  rintro ⟨id, db', hfound, -⟩
  rw [recordObservation_shadowed (Sample.fact_row none) hadmitted hshadow] at hfound
  cases hfound

end FieldDiscovery.Repository
