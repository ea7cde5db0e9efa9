import FieldDiscovery.Lib.Call
import FieldDiscovery.Reporting.Filename

/-!
# Publishing a report

`generate_reports`: the DOCX file, then the JSON file, then two rows of `report_history`, with a
clean-up that unlinks both files when a later step raises.

Every call that can raise has its faults in `Environment`, and an unlink can be among them. What
one call leaves under a name is a function of what was there (`PublishFaults.left`, `unlinked`), so
a run is described by what it leaves under the two names.
-/

namespace FieldDiscovery.Reporting

open Py Redaction

/-! ## The directory -/

/-- What a name of the output directory refers to. -/
inductive Entry where
  | file (content : List Byte)
  /-- A symbolic link, a socket, or anything else that `unlink` removes. -/
  | other
  | directory
  deriving DecidableEq

/-- A row of `report_history`. -/
structure ReportRow where
  deploymentId : Int
  format : Str
  relativePath : Str
  sha256Digest : Str
  documentVersion : Str
  generatedAt : Str
  source : Str
  observedAt : Str
  deriving DecidableEq

/-- The output directory and the database. -/
structure World where
  dir : Str → Option Entry
  db : Sql.Connection (List ReportRow)

/-- The world with another entry under a name. -/
def World.put (w : World) (name : Str) (entry : Option Entry) : World :=
  { w with dir := Function.update w.dir name entry }

/-- What a call of a run may raise. The calls are synchronous, so none of them is cancelled, and
`except Exception` catches what they raise. -/
abbrev CallError := { e : Exc // e ≠ .cancelled }

/-- What a call returns or raises, among all exceptions. -/
def called {α : Type} (x : Except CallError α) : Except Exc α := x.mapError Subtype.val

/-- The fault of a call, among all exceptions. -/
def faultOf (fault : Option CallError) : Option Exc := fault.map Subtype.val

/-- The faults of one publication. -/
structure PublishFaults where
  /-- `os.open` raises although the name is free. -/
  opening : Option CallError := none
  /-- Writing, flushing or syncing raises, when this much has been written. -/
  writing : Option (List Byte × CallError) := none
  /-- The unlink after a failed write raises. -/
  unlinking : Option CallError := none
  /-- `os.close` raises. -/
  closing : Option CallError := none

/-- `os.open(path, O_WRONLY | O_CREAT | O_EXCL | O_NOFOLLOW)` -/
def openNew (name : Str) (fault : Option CallError) : Call World Exc Unit := fun w =>
  if w.dir name ≠ none ∨ fault ≠ none then
    (.error (.report (str "report output must be a new regular file")), w)
  else (.ok (), w.put name (some (.file [])))

/-- Write, flush and sync. -/
def writeFile (name : Str) (payload : List Byte) (fault : Option (List Byte × CallError)) :
    Call World Exc Unit := fun w =>
  match fault with
  | some (written, e) => (.error e.val, w.put name (some (.file written)))
  | none => (.ok (), w.put name (some (.file payload)))

/-- `path.unlink(missing_ok=True)` -/
def unlink (name : Str) (fault : Option CallError) : Call World Exc Unit := fun w =>
  match fault with
  | some e => (.error e.val, w)
  | none =>
    match w.dir name with
    | some .directory => (.error .os, w)
    | _ => (.ok (), w.put name none)

/-- `_publish` -/
def publish (name : Str) (payload : List Byte) (faults : PublishFaults) : Call World Exc Unit := do
  openNew name faults.opening
  Call.tryFinally
    (Call.onError (writeFile name payload faults.writing) (unlink name faults.unlinking))
    (Call.guardFault (faultOf faults.closing))

/-! ## The report -/

/-- The arguments of `generate_reports` that the publication reads. -/
structure Request where
  deploymentId : Int
  generatedAt : Datetime
  customerName : Str
  siteName : Str
  documentVersion : Str

/-- What the calls of one run return or raise. Rendering and validating the report are not
modelled: whatever they do, they write neither to the directory nor to the database. -/
structure Environment (Model : Type) where
  buildReportModel : Except CallError Model
  deterministicJson : Model → Except CallError (List Byte)
  deterministicDocx : Model → Except CallError (List Byte)
  safeOutputRoot : Except CallError Unit
  docx : PublishFaults
  json : PublishFaults
  /-- `validate_docx` on the entry it finds under the name. -/
  validateDocx : Str → Option Entry → Except CallError Unit
  /-- The clean-up's unlink of the DOCX file raises. -/
  cleanDocx : Option CallError
  /-- The clean-up's unlink of the JSON file raises. -/
  cleanJson : Option CallError
  transaction : Sql.TransactionFaults CallError
  insertDocx : Option CallError
  insertJson : Option CallError

/-- What is fixed before the first file is written. -/
structure Prepared where
  basename : Str
  docxPayload : List Byte
  jsonPayload : List Byte

/-- `generated_at.astimezone(UTC)` -/
def astimezoneUtc (d : Datetime) : Except Exc Datetime :=
  match Datetime.ofEpochMicros (d.instant - (epochDay * microsPerDay : Nat)) with
  | some utc => .ok utc
  | none => .error .overflow

variable {Model : Type} (rt : Runtime) (r : Redactor) (request : Request) (env : Environment Model)

/-- `generate_reports` up to the first publication. `build_report_model` converts the time of the
report to UTC before anything else. -/
def prepare : Except Exc Prepared := do
  let _ ← astimezoneUtc request.generatedAt
  let model ← called env.buildReportModel
  let jsonPayload ← called (env.deterministicJson model)
  let docxPayload ← called (env.deterministicDocx model)
  called env.safeOutputRoot
  let basename ← reportBasename rt r request.customerName request.siteName request.generatedAt
  .ok ⟨basename, docxPayload, jsonPayload⟩

/-- `docx_path.unlink(missing_ok=True); json_path.unlink(missing_ok=True)` -/
def cleanUp (basename : Str) : Call World Exc Unit := do
  unlink (docxName basename) env.cleanDocx
  unlink (jsonName basename) env.cleanJson

/-- `validate_docx(docx_path)` -/
def validatePublished (p : Prepared) : Call World Exc Unit := fun w =>
  (called (env.validateDocx (docxName p.basename) (w.dir (docxName p.basename))), w)

/-- `_publish(json_path, json_payload); validate_docx(docx_path)` -/
def publishJson (p : Prepared) : Call World Exc Unit := do
  publish (jsonName p.basename) p.jsonPayload env.json
  validatePublished env p

/-- The row of one format. -/
def reportRow (format path digest timestamp : Str) : ReportRow where
  deploymentId := request.deploymentId
  format := format
  relativePath := path
  sha256Digest := digest
  documentVersion := request.documentVersion
  generatedAt := timestamp
  source := str "report"
  observedAt := timestamp

/-- The `INSERT` with the constraints of `report_history`. -/
def insertReport (row : ReportRow) (rows : List ReportRow) :
    Except Exc (Unit × List ReportRow) :=
  if (row.format ≠ str "docx" ∧ row.format ≠ str "json") ∨ row.sha256Digest.length ≠ 64 ∨
      rows.any fun old =>
        old.relativePath = row.relativePath && old.sha256Digest = row.sha256Digest then
    .error .sqlite
  else .ok ((), rows ++ [row])

/-- The transaction of the two rows. -/
def recordReports (p : Prepared) (timestamp : Str) :
    Call (Sql.Connection (List ReportRow)) Exc Unit :=
  Sql.transaction (.repository (str "nested repository transactions are not supported"))
    ⟨faultOf env.transaction.begin, faultOf env.transaction.commit⟩ do
      Sql.execute (faultOf env.insertDocx)
        (insertReport (reportRow request (str "docx") (docxName p.basename)
          (rt.sha256 p.docxPayload) timestamp))
      Sql.execute (faultOf env.insertJson)
        (insertReport (reportRow request (str "json") (jsonName p.basename)
          (rt.sha256 p.jsonPayload) timestamp))

/-- A call on the database alone. -/
def onDb {α : Type} (m : Call (Sql.Connection (List ReportRow)) Exc α) : Call World Exc α :=
  fun w => ((m w.db).1, { w with db := (m w.db).2 })

/-- `ReportOutputs` -/
structure ReportOutputs where
  docxPath : Str
  jsonPath : Str
  docxSha256 : Str
  jsonSha256 : Str

/-- `generate_reports` -/
def generateReports : Call World Exc ReportOutputs := do
  let p ← Call.ofExcept (prepare rt r request env)
  publish (docxName p.basename) p.docxPayload env.docx
  Call.onError (publishJson env p) (cleanUp env p.basename)
  let utc ← Call.ofExcept (astimezoneUtc request.generatedAt)
  Call.onError (onDb (recordReports rt request env p utc.isoformat)) (cleanUp env p.basename)
  return ⟨docxName p.basename, jsonName p.basename, rt.sha256 p.docxPayload,
    rt.sha256 p.jsonPayload⟩

/-! ## What one call leaves -/

/-- The file is created. -/
def PublishFaults.Opens (f : PublishFaults) (before : Option Entry) : Prop :=
  before = none ∧ f.opening = none

/-- The file is published. -/
structure PublishFaults.Publishes (f : PublishFaults) (before : Option Entry) : Prop where
  opens : f.Opens before
  writes : f.writing = none
  closes : f.closing = none

instance (f : PublishFaults) (before : Option Entry) : Decidable (f.Opens before) :=
  inferInstanceAs (Decidable (_ ∧ _))

/-- What `_publish` leaves under the name. -/
def PublishFaults.left (f : PublishFaults) (payload : List Byte) (before : Option Entry) :
    Option Entry :=
  if f.Opens before then
    match f.writing with
    | none => some (.file payload)
    | some (written, _) => if f.unlinking.isSome then some (.file written) else none
  else before

/-- What an unlink leaves under the name. -/
def unlinked (fault : Option CallError) (before : Option Entry) : Option Entry :=
  if fault.isSome ∨ before = some .directory then before else none

section

variable {name other : Str} {w : World} {entry entry' : Option Entry}

@[simp] theorem World.put_dir_self : (w.put name entry).dir name = entry :=
  Function.update_self _ _ _

@[simp] theorem World.put_dir_of_ne (h : other ≠ name) : (w.put name entry).dir other = w.dir other :=
  Function.update_of_ne h _ _

@[simp] theorem World.put_put : (w.put name entry).put name entry' = w.put name entry' := by
  simp [World.put]

theorem World.put_put_of_ne (h : name ≠ other) :
    ((w.put name entry).put other entry').put name none =
      ((w.put name entry).put name none).put other entry' := by
  simp only [World.put, Function.update_comm h]

theorem World.put_eq_self (h : w.dir name = entry) : w.put name entry = w := by
  subst h
  simp [World.put]

variable (name w)

theorem unlink_run (fault : Option CallError) : ∃ x,
    unlink name fault w = (x, w.put name (unlinked fault (w.dir name))) ∧
      (x = .ok () ↔ fault = none ∧ w.dir name ≠ some .directory) := by
  cases fault with
  | some e => exact ⟨.error e.val, by simp [unlink, unlinked, World.put_eq_self], by simp⟩
  | none =>
    by_cases hdir : w.dir name = some .directory
    · refine ⟨.error .os, ?_, by simp [hdir]⟩
      simp [unlink, unlinked, hdir, World.put_eq_self hdir]
    · refine ⟨.ok (), ?_, by simp [hdir]⟩
      simp only [unlink, unlinked, hdir, Option.isSome_none, Bool.false_eq_true, or_self, if_false]

theorem writeFile_run (payload : List Byte) (fault : Option (List Byte × CallError)) : ∃ x,
    writeFile name payload fault w = (x, w.put name (some (.file (fault.elim payload Prod.fst)))) ∧
      (x = .ok () ↔ fault = none) := by
  cases fault with
  | none => exact ⟨.ok (), rfl, by simp⟩
  | some f => exact ⟨.error f.2.val, rfl, by simp⟩

theorem publish_run (payload : List Byte) (f : PublishFaults) : ∃ x,
    publish name payload f w = (x, w.put name (f.left payload (w.dir name))) ∧
      (x = .ok () ↔ f.Publishes (w.dir name)) := by
  by_cases hopen : f.Opens (w.dir name)
  · have hopened : openNew name f.opening w = (.ok (), w.put name (some (.file []))) := by
      simp [openNew, hopen.1, hopen.2]
    obtain ⟨x, hwritten, hx⟩ :
        ∃ x, Call.onError (writeFile name payload f.writing) (unlink name f.unlinking)
          (w.put name (some (.file []))) = (x, w.put name (f.left payload (w.dir name))) ∧
          ((∃ u, x = .ok u) ↔ f.writing = none) := by
      obtain ⟨x, hwrite, hx⟩ := writeFile_run name (w.put name (some (.file [])))
        payload f.writing
      rw [World.put_put] at hwrite
      cases hf : f.writing with
      | none =>
        rw [hf] at hwrite hx
        rw [hx.mpr rfl] at hwrite
        exact ⟨.ok (), by rw [Call.onError_ok hwrite]; simp [PublishFaults.left, hopen, hf], by simp⟩
      | some fault =>
        rw [hf] at hwrite hx
        cases x with
        | ok u => simp at hx
        | error e =>
          obtain ⟨e', herror⟩ := Call.onError_error (unlink name f.unlinking) hwrite
          obtain ⟨y, hunlink, -⟩ := unlink_run name
            (w.put name (some (.file fault.1))) f.unlinking
          refine ⟨.error e', ?_, by simp⟩
          rw [herror, Option.elim_some, hunlink]
          simp [PublishFaults.left, unlinked, hopen, hf]
    obtain ⟨y, hclosed, hy⟩ := Call.tryFinally_guardFault (faultOf f.closing) hwritten
    rw [faultOf, Option.map_eq_none_iff] at hy
    refine ⟨y, (Call.bind_ok hopened).trans hclosed, ?_⟩
    constructor
    · rintro rfl
      obtain ⟨hok, hclose⟩ := hy.mp ⟨(), rfl⟩
      exact ⟨hopen, hx.mp hok, hclose⟩
    · intro h
      obtain ⟨u, hu⟩ := hy.mpr ⟨hx.mpr h.writes, h.closes⟩
      exact hu
  · refine ⟨.error (.report (str "report output must be a new regular file")), ?_, ?_⟩
    · have hrefused : openNew name f.opening w =
          (.error (.report (str "report output must be a new regular file")), w) := by
        rw [openNew, if_pos]
        rw [PublishFaults.Opens] at hopen
        tauto
      rw [publish, Call.bind_error hrefused, PublishFaults.left, if_neg hopen,
        World.put_eq_self rfl]
    · exact iff_of_false (by simp) fun h => hopen h.opens

end

theorem docxName_ne_jsonName (basename : Str) : docxName basename ≠ jsonName basename := by
  intro h
  have hextension : str ".docx" = str ".json" := List.append_cancel_left h
  exact absurd hextension (by decide)

/-- What the clean-up leaves. -/
theorem cleanUp_run (basename : Str) (w : World) : (cleanUp env basename w).2 =
    if env.cleanDocx = none ∧ w.dir (docxName basename) ≠ some .directory then
      (w.put (docxName basename) none).put (jsonName basename)
        (unlinked env.cleanJson (w.dir (jsonName basename)))
    else w := by
  obtain ⟨x, hdocx, hx⟩ := unlink_run (docxName basename) w env.cleanDocx
  by_cases hclean : env.cleanDocx = none ∧ w.dir (docxName basename) ≠ some .directory
  · have hgone : unlinked env.cleanDocx (w.dir (docxName basename)) = none := by
      simp [unlinked, hclean.1, hclean.2]
    rw [hx.mpr hclean, hgone] at hdocx
    obtain ⟨y, hjson, -⟩ := unlink_run (jsonName basename)
      (w.put (docxName basename) none) env.cleanJson
    rw [if_pos hclean, cleanUp, Call.bind_ok hdocx, hjson,
      World.put_dir_of_ne (docxName_ne_jsonName basename).symm]
  · have hkept : unlinked env.cleanDocx (w.dir (docxName basename)) =
        w.dir (docxName basename) := by
      rw [unlinked, if_pos]
      cases hf : env.cleanDocx with
      | none => exact Or.inr (by simpa [hf] using hclean)
      | some e => exact Or.inl rfl
    rw [hkept, World.put_eq_self rfl] at hdocx
    cases x with
    | ok u => exact absurd (hx.mp rfl) hclean
    | error e => rw [if_neg hclean, cleanUp, Call.bind_error hdocx]

/-- The rows are recorded together or not at all. -/
theorem recordReports_error {p : Prepared} {timestamp : Str}
    {db db' : Sql.Connection (List ReportRow)} {e : Exc}
    (h : recordReports rt request env p timestamp db = (.error e, db')) : db' = db := by
  obtain ⟨rows, pending⟩ := db
  cases pending with
  | none => exact Sql.transaction_error (.bind (.execute _ _) fun _ => .execute _ _) h
  | some open_ =>
    cases h
    rfl

/-! ## All or nothing -/

/-- After an exception the directory and the database are as they were. -/
def AllOrNothing (w : World) : Prop :=
  ∀ e w', generateReports rt r request env w = (.error e, w') → w' = w

/-- Every step from the first publication on goes well. -/
structure Completes (p : Prepared) (w : World) : Prop where
  docx : env.docx.Publishes (w.dir (docxName p.basename))
  json : env.json.Publishes (w.dir (jsonName p.basename))
  valid : env.validateDocx (docxName p.basename) (some (.file p.docxPayload)) = .ok ()
  recorded : ∃ utc db, astimezoneUtc request.generatedAt = .ok utc ∧
    recordReports rt request env p utc.isoformat w.db = (.ok (), db)

/-- What went wrong can be undone. -/
structure Undoable (p : Prepared) (w : World) : Prop where
  /-- A DOCX file that could not be written is unlinked. -/
  docx_writing : env.docx.Opens (w.dir (docxName p.basename)) → env.docx.writing ≠ none →
    env.docx.unlinking = none
  /-- The descriptor of a DOCX file that was written closes. -/
  docx_closing : env.docx.Opens (w.dir (docxName p.basename)) → env.docx.writing = none →
    env.docx.closing = none
  /-- The clean-up after a published DOCX file unlinks it. -/
  docx_cleaning : env.docx.Publishes (w.dir (docxName p.basename)) →
    ¬ Completes rt request env p w → env.cleanDocx = none
  /-- It finds no JSON file that was there before, or cannot unlink it. -/
  json_foreign : env.docx.Publishes (w.dir (docxName p.basename)) →
    ¬ Completes rt request env p w → ¬ env.json.Opens (w.dir (jsonName p.basename)) →
    w.dir (jsonName p.basename) = none ∨ w.dir (jsonName p.basename) = some .directory ∨
      env.cleanJson ≠ none
  /-- It unlinks the JSON file of this run. -/
  json_own : env.docx.Publishes (w.dir (docxName p.basename)) →
    ¬ Completes rt request env p w → env.json.Opens (w.dir (jsonName p.basename)) →
    env.cleanJson = none ∨ env.json.writing ≠ none ∧ env.json.unlinking = none

section

variable {rt r request env} {p : Prepared} {w : World}

theorem generateReports_prepare_error {e : Exc} (h : prepare rt r request env = .error e) :
    generateReports rt r request env w = (.error e, w) := by
  rw [generateReports, h]
  exact Call.bind_error rfl

/-- The world once the DOCX file is published and the JSON file has been tried. -/
def tried (env : Environment Model) (p : Prepared) (w : World) : World :=
  (w.put (docxName p.basename) (some (.file p.docxPayload))).put (jsonName p.basename)
    (env.json.left p.jsonPayload (w.dir (jsonName p.basename)))

theorem generateReports_unpublished (h : prepare rt r request env = .ok p)
    (hdocx : ¬ env.docx.Publishes (w.dir (docxName p.basename))) : ∃ e,
    generateReports rt r request env w = (.error e, w.put (docxName p.basename)
      (env.docx.left p.docxPayload (w.dir (docxName p.basename)))) := by
  obtain ⟨x, hpublish, hx⟩ := publish_run (docxName p.basename) w p.docxPayload env.docx
  cases x with
  | ok u => exact absurd (hx.mp rfl) hdocx
  | error e =>
    refine ⟨e, ?_⟩
    rw [generateReports, h]
    exact (Call.bind_ok rfl).trans (Call.bind_error hpublish)

/-- The JSON file and the validation succeed together, or what they leave is cleaned up. -/
theorem publishJson_run (env : Environment Model) (p : Prepared) (w : World) : ∃ x,
    publishJson env p (w.put (docxName p.basename) (some (.file p.docxPayload))) =
      (x, tried env p w) ∧ (x = .ok () ↔ env.json.Publishes (w.dir (jsonName p.basename)) ∧
        env.validateDocx (docxName p.basename) (some (.file p.docxPayload)) = .ok ()) := by
  have hne := docxName_ne_jsonName p.basename
  obtain ⟨x, hpublish, hx⟩ := publish_run (jsonName p.basename)
    (w.put (docxName p.basename) (some (.file p.docxPayload))) p.jsonPayload env.json
  rw [World.put_dir_of_ne hne.symm] at hpublish hx
  cases x with
  | error e =>
    refine ⟨.error e, Call.bind_error hpublish, ?_⟩
    exact iff_of_false (by simp) fun h => by simpa using hx.mpr h.1
  | ok u =>
    refine ⟨called (env.validateDocx (docxName p.basename) (some (.file p.docxPayload))), ?_, ?_⟩
    · rw [publishJson, Call.bind_ok hpublish, validatePublished, World.put_dir_of_ne hne,
        World.put_dir_self]
      rfl
    · rw [and_iff_right (hx.mp rfl)]
      exact Except.mapError_eq_ok

/-- A run that fails after the DOCX file was published ends with the clean-up. -/
theorem generateReports_cleaned (h : prepare rt r request env = .ok p)
    (hdocx : env.docx.Publishes (w.dir (docxName p.basename)))
    (hfail : ¬ Completes rt request env p w) : ∃ e,
    generateReports rt r request env w =
      (.error e, (cleanUp env p.basename (tried env p w)).2) := by
  obtain ⟨x, hpublish, hx⟩ := publish_run (docxName p.basename) w p.docxPayload env.docx
  have hleft : env.docx.left p.docxPayload (w.dir (docxName p.basename)) =
      some (.file p.docxPayload) := by
    simp [PublishFaults.left, hdocx.opens, hdocx.writes]
  rw [hx.mpr hdocx, hleft] at hpublish
  have hstart : generateReports rt r request env w =
      (do
        Call.onError (publishJson env p) (cleanUp env p.basename)
        let utc ← Call.ofExcept (astimezoneUtc request.generatedAt)
        Call.onError (onDb (recordReports rt request env p utc.isoformat)) (cleanUp env p.basename)
        return ⟨docxName p.basename, jsonName p.basename, rt.sha256 p.docxPayload,
          rt.sha256 p.jsonPayload⟩ : Call World Exc ReportOutputs)
        (w.put (docxName p.basename) (some (.file p.docxPayload))) := by
    rw [generateReports, h]
    exact (Call.bind_ok rfl).trans (Call.bind_ok hpublish)
  rw [hstart]
  obtain ⟨y, hjson, hy⟩ := publishJson_run env p w
  cases y with
  | error e =>
    obtain ⟨e', herror⟩ := Call.onError_error (cleanUp env p.basename) hjson
    exact ⟨e', Call.bind_error herror⟩
  | ok u =>
    rw [Call.bind_ok (Call.onError_ok hjson)]
    obtain ⟨utc, hutc⟩ : ∃ utc, astimezoneUtc request.generatedAt = .ok utc := by
      obtain ⟨utc, hutc, -⟩ := Except.bind_eq_ok.mp h
      exact ⟨utc, hutc⟩
    rw [hutc, Call.bind_ok Call.ofExcept_run]
    cases hrecord : recordReports rt request env p utc.isoformat w.db with
    | mk z db =>
      cases z with
      | ok u' =>
        have hvalid := hy.mp rfl
        exact absurd ⟨hdocx, hvalid.1, hvalid.2, utc, db, hutc, hrecord⟩ hfail
      | error e =>
        have hsame := recordReports_error rt request env hrecord
        have hdb : onDb (recordReports rt request env p utc.isoformat) (tried env p w) =
            (.error e, tried env p w) := by
          have htried : (tried env p w).db = w.db := rfl
          rw [onDb, htried, hrecord, hsame]
          rfl
        obtain ⟨e', herror⟩ := Call.onError_error (cleanUp env p.basename) hdb
        exact ⟨e', Call.bind_error herror⟩

theorem generateReports_completes (h : prepare rt r request env = .ok p)
    (hc : Completes rt request env p w) : ∃ outputs w',
    generateReports rt r request env w = (.ok outputs, w') := by
  obtain ⟨utc, db, hutc, hrecord⟩ := hc.recorded
  obtain ⟨x, hpublish, hx⟩ := publish_run (docxName p.basename) w p.docxPayload env.docx
  have hleft : env.docx.left p.docxPayload (w.dir (docxName p.basename)) =
      some (.file p.docxPayload) := by
    simp [PublishFaults.left, hc.docx.opens, hc.docx.writes]
  rw [hx.mpr hc.docx, hleft] at hpublish
  obtain ⟨y, hjson, hy⟩ := publishJson_run env p w
  rw [hy.mpr ⟨hc.json, hc.valid⟩] at hjson
  have hdb : onDb (recordReports rt request env p utc.isoformat) (tried env p w) =
      (.ok (), { tried env p w with db := db }) := by
    have htried : (tried env p w).db = w.db := rfl
    rw [onDb, htried, hrecord]
  rw [generateReports, h, Call.bind_ok Call.ofExcept_run, Call.bind_ok hpublish,
    Call.bind_ok (Call.onError_ok hjson), hutc, Call.bind_ok Call.ofExcept_run,
    Call.bind_ok (Call.onError_ok hdb)]
  exact ⟨_, _, rfl⟩

end

theorem World.put_eq_iff {w : World} {name : Str} {entry : Option Entry} :
    w.put name entry = w ↔ entry = w.dir name := by
  constructor
  · intro h
    have := congrFun (congrArg World.dir h) name
    rwa [World.put_dir_self] at this
  · exact fun h => World.put_eq_self h.symm

theorem World.put_put_eq_iff {w : World} {name other : Str} {entry entry' : Option Entry}
    (h : name ≠ other) : (w.put name entry).put other entry' = w ↔
      entry = w.dir name ∧ entry' = w.dir other := by
  constructor
  · intro heq
    have hname := congrFun (congrArg World.dir heq) name
    have hother := congrFun (congrArg World.dir heq) other
    rw [World.put_dir_of_ne h, World.put_dir_self] at hname
    rw [World.put_dir_self] at hother
    exact ⟨hname, hother⟩
  · rintro ⟨rfl, rfl⟩
    rw [World.put_eq_self rfl, World.put_eq_self rfl]

/-- A publication that fails leaves the name as it was when it unlinks what it wrote. -/
theorem left_eq_before {f : PublishFaults} (payload : List Byte) {before : Option Entry}
    (hf : ¬ f.Publishes before) : f.left payload before = before ↔
      (f.Opens before → f.writing ≠ none → f.unlinking = none) ∧
        (f.Opens before → f.writing = none → f.closing = none) := by
  by_cases hopen : f.Opens before
  · have hbefore : before = none := hopen.1
    cases hw : f.writing with
    | none =>
      have hclose : f.closing ≠ none := fun hc => hf ⟨hopen, hw, hc⟩
      simp [PublishFaults.left, hw, hclose, hbefore]
    | some fault =>
      cases hu : f.unlinking with
      | none => simp [PublishFaults.left, hw, hu, hbefore]
      | some e => simp [PublishFaults.left, hw, hu, hbefore]
  · simp [PublishFaults.left, hopen]

/-- Unlinking restores a name exactly when its file was made by the publication. -/
theorem unlinked_left_eq_before {f : PublishFaults} {payload : List Byte} {before : Option Entry}
    {fault : Option CallError} : unlinked fault (f.left payload before) = before ↔
      (¬ f.Opens before → before = none ∨ before = some .directory ∨ fault ≠ none) ∧
        (f.Opens before → fault = none ∨ f.writing ≠ none ∧ f.unlinking = none) := by
  by_cases hopen : f.Opens before
  · have hbefore : before = none := hopen.1
    cases hw : f.writing with
    | none => cases fault <;> simp [unlinked, PublishFaults.left, hw, hbefore]
    | some written =>
      cases hu : f.unlinking with
      | none => simp [unlinked, PublishFaults.left, hw, hu, hbefore]
      | some e => cases fault <;> simp [unlinked, PublishFaults.left, hw, hu, hbefore]
  · rw [PublishFaults.left, if_neg hopen]
    cases fault with
    | none =>
      by_cases hdir : before = some .directory
      · simp [unlinked, hdir]
      · simp [unlinked, hopen, hdir, eq_comm]
    | some e => simp [unlinked, hopen]

theorem cleaned_eq_iff (env : Environment Model) {p : Prepared} {w : World}
    (hdocx : w.dir (docxName p.basename) = none) :
    (cleanUp env p.basename (tried env p w)).2 = w ↔ env.cleanDocx = none ∧
      unlinked env.cleanJson (env.json.left p.jsonPayload (w.dir (jsonName p.basename))) =
        w.dir (jsonName p.basename) := by
  have hne := docxName_ne_jsonName p.basename
  have hfile : (tried env p w).dir (docxName p.basename) = some (.file p.docxPayload) := by
    rw [tried, World.put_dir_of_ne hne, World.put_dir_self]
  have hjson : (tried env p w).dir (jsonName p.basename) =
      env.json.left p.jsonPayload (w.dir (jsonName p.basename)) := World.put_dir_self
  rw [cleanUp_run, hfile, hjson]
  by_cases hclean : env.cleanDocx = none
  · rw [if_pos ⟨hclean, by simp⟩, and_iff_right hclean, tried, World.put_put_of_ne hne]
    rw [World.put_put, World.put_put, World.put_put_eq_iff hne, hdocx]
    exact and_iff_right rfl
  · rw [if_neg fun h => hclean h.1, tried, World.put_put_eq_iff hne, hdocx]
    simp [hclean]

/-- A failing run leaves everything as it was exactly when what went wrong can be undone. -/
theorem generateReports_allOrNothing_iff (w : World) :
    AllOrNothing rt r request env w ↔
      ∀ p, prepare rt r request env = .ok p → Undoable rt request env p w := by
  cases hprepare : prepare rt r request env with
  | error e =>
    refine iff_of_true ?_ (by simp)
    intro e' w' hrun
    rw [generateReports_prepare_error hprepare] at hrun
    cases hrun
    rfl
  | ok p =>
    have hall : (∀ q, Except.ok p = (.ok q : Except Exc Prepared) → Undoable rt request env q w) ↔
        Undoable rt request env p w := by simp
    rw [hall]
    -- the run is determined by whether the DOCX file is published, and by the steps after it
    by_cases hdocx : env.docx.Publishes (w.dir (docxName p.basename))
    · by_cases hc : Completes rt request env p w
      · obtain ⟨outputs, w', hrun⟩ := generateReports_completes hprepare hc
        refine iff_of_true ?_ ⟨?_, ?_, ?_, ?_, ?_⟩
        · intro e' w'' hrun'
          rw [hrun] at hrun'
          cases hrun'
        · exact fun _ h => absurd hdocx.writes h
        · exact fun _ _ => hdocx.closes
        · exact fun _ h => absurd hc h
        · exact fun _ h => absurd hc h
        · exact fun _ h => absurd hc h
      · obtain ⟨e, hrun⟩ := generateReports_cleaned hprepare hdocx hc
        have hrestored := cleaned_eq_iff env hdocx.opens.1
        rw [unlinked_left_eq_before] at hrestored
        constructor
        · intro h
          obtain ⟨hclean, hforeign, hown⟩ := hrestored.mp (h _ _ hrun)
          exact ⟨fun _ h => absurd hdocx.writes h, fun _ _ => hdocx.closes, fun _ _ => hclean,
            fun _ _ => hforeign, fun _ _ => hown⟩
        · intro h e' w' hrun'
          rw [hrun] at hrun'
          cases hrun'
          exact hrestored.mpr ⟨h.docx_cleaning hdocx hc, h.json_foreign hdocx hc,
            h.json_own hdocx hc⟩
    · obtain ⟨e, hrun⟩ := generateReports_unpublished hprepare hdocx
      have hleft := left_eq_before p.docxPayload hdocx
      constructor
      · intro h
        have hsame := hleft.mp (World.put_eq_iff.mp (h _ _ hrun))
        exact ⟨hsame.1, hsame.2, fun h => absurd h hdocx, fun h => absurd h hdocx,
          fun h => absurd h hdocx⟩
      · intro h e' w' hrun'
        rw [hrun] at hrun'
        cases hrun'
        exact World.put_eq_iff.mpr (hleft.mpr ⟨h.docx_writing, h.docx_closing⟩)

/-- An environment in which every call succeeds. -/
def Environment.faultless (docxPayload jsonPayload : List Byte) : Environment Unit where
  buildReportModel := .ok ()
  deterministicJson _ := .ok jsonPayload
  deterministicDocx _ := .ok docxPayload
  safeOutputRoot := .ok ()
  docx := {}
  json := {}
  validateDocx _ _ := .ok ()
  cleanDocx := none
  cleanJson := none
  transaction := {}
  insertDocx := none
  insertJson := none

/-- A JSON file whose DOCX file is gone. -/
def staleJson : World where
  dir name :=
    if name = str "Acme-HQ-Network-Discovery-20260101.json" then some (.file [7]) else none
  db := ⟨[], none⟩

def acmeRequest : Request where
  deploymentId := 1
  generatedAt := Sample.generatedAt
  customerName := str "Acme"
  siteName := str "HQ"
  documentVersion := str "1.0"

/-- Making the report again fails, and removes the JSON file. -/
theorem staleJson_lost : ¬ AllOrNothing (.ofDigests []) ⟨[], []⟩ acmeRequest
    (.faultless [2] [1]) staleJson := by
  intro h
  have hfails : (generateReports (.ofDigests []) ⟨[], []⟩ acmeRequest (.faultless [2] [1])
      staleJson).1.isOk = false := by decide +kernel
  have hgone : (generateReports (.ofDigests []) ⟨[], []⟩ acmeRequest (.faultless [2] [1])
      staleJson).2.dir (str "Acme-HQ-Network-Discovery-20260101.json") = none := by
    decide +kernel
  cases hrun : generateReports (.ofDigests []) ⟨[], []⟩ acmeRequest (.faultless [2] [1])
      staleJson with
  | mk x w =>
    rw [hrun] at hfails hgone
    cases x with
    | ok outputs => exact Bool.noConfusion hfails
    | error e =>
      obtain rfl := h e w hrun
      have hthere : staleJson.dir (str "Acme-HQ-Network-Discovery-20260101.json") ≠ none := by
        decide +kernel
      exact hthere hgone

end FieldDiscovery.Reporting
