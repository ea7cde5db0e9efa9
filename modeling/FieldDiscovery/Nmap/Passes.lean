import FieldDiscovery.Nmap.Pass

/-!
# Import passes

A file that a pass has imported or skipped is recorded: its artifact is stored under its path and
digest (`Candidate.Recorded`). No later pass takes it away, so every later pass skips the file
(`passes_idempotent`). A pass that returns has counted every file once, and has made of the database
what the files that could be imported make of it on their own (`pass_accounted`). Two files of a tree
are told apart by the names on their paths, so no file is found twice (`gather_nodup`).
-/

namespace FieldDiscovery.Nmap

open Py Correlation Redaction Repository

/-! ## Databases -/

/-- The evidence and the artifacts of the first database are in the second. -/
structure ScanDb.Extends (db db' : ScanDb) : Prop where
  evidence : db.evidence ≤ db'.evidence
  artifacts : db.artifacts.Extends db'.artifacts

theorem ScanDb.Extends.refl (db : ScanDb) : db.Extends db := ⟨le_rfl, .refl _⟩

theorem ScanDb.Extends.trans {db db' db'' : ScanDb} (h : db.Extends db') (h' : db'.Extends db'') :
    db.Extends db'' := ⟨h.evidence.trans h'.evidence, h.artifacts.trans h'.artifacts⟩

section

variable {imp : Importer} {so : SetOrder} {pass : ImportPass} {file : ScanFile}

theorem storeEvidence_grows {importedAt digest : Str} {hosts : List NmapHost}
    {observations : List DeviceObservation} {devices : List CanonicalDevice} {db db' : EvidenceDb}
    (h : imp.storeEvidence importedAt digest hosts observations devices db = .ok db') : db ≤ db' := by
  obtain ⟨⟨db₁, deviceIds⟩, hdevices, h⟩ := Except.bind_eq_ok.mp h
  obtain ⟨ids, -, hhosts⟩ := Except.bind_eq_ok.mp h
  have hgrows := Grows.foldlM (fun device _ => imp.storeDevice_grows importedAt device) _ _ hdevices
  exact hgrows.trans
    (Grows.foldlM (fun item _ => imp.storeHost_grows digest observations ids item) _ _ hhosts)

/-- What a file leaves in the database when `_persist` returns. -/
theorem persist_cases {observations : List DeviceObservation} {db db' : ScanDb} {created : Bool}
    (h : imp.persist so pass file observations db = .ok (db', created)) :
    (∃ id, db'.artifacts.find (file.relativePath, file.digest) = some id) ∧
      (created = false ∧ db' = db ∨ created = true ∧ db.evidence ≤ db'.evidence ∧
        db'.artifacts.rows = db.artifacts.rows ++
          [(db.artifacts.nextId, imp.artifactRow pass file)]) := by
  obtain ⟨result, -, h⟩ := Except.bind_eq_ok.mp h
  obtain ⟨pathValue, -, h⟩ := Except.bind_eq_ok.mp h
  split at h
  · cases h
  · obtain ⟨⟨⟩, -, h⟩ := Except.bind_eq_ok.mp h
    split at h
    · next id hfind =>
      cases h
      exact ⟨⟨id, hfind⟩, .inl ⟨rfl, rfl⟩⟩
    · obtain ⟨evidence, hevidence, h⟩ := Except.bind_eq_ok.mp h
      obtain ⟨db₁, hartifact, h⟩ := Except.bind_eq_ok.mp h
      cases h
      obtain ⟨-, -, hsame, hrows⟩ := Importer.storeArtifact_cases hartifact
      have hgrows := storeEvidence_grows hevidence
      refine ⟨⟨db.artifacts.nextId, ?_⟩, .inr ⟨rfl, hsame ▸ hgrows, hrows⟩⟩
      exact Sql.Table.find_eq_some.mpr ⟨imp.artifactRow pass file,
        hrows ▸ List.mem_append_right _ (List.mem_singleton_self _), rfl⟩

end

/-! ## One file -/

section

variable {tools : ImportTools} {call call' : ImportCall} {c : Candidate} {db db' : ScanDb}
  {outcome : Outcome}

/-- The file can be read, and its artifact is stored. -/
structure Candidate.Recorded (tools : ImportTools) (c : Candidate) (db : ScanDb) : Prop where
  opened : c.reading.opened = .ok ()
  regular : ∃ status, c.reading.status = .ok status ∧ status.regular = true
  stored : ∃ content, c.reading.content = .ok content ∧
    Repository.bind [.text c.relativePath, .text (tools.rt.sha256 content)] = .ok () ∧
    ∃ id, db.artifacts.find (c.relativePath, tools.rt.sha256 content) = some id

/-- The file is old enough for the call. -/
def Candidate.Settled (call : ImportCall) (c : Candidate) : Prop :=
  ∃ before, c.reading.before = .ok before ∧ call.isFresh before = false

/-- The row of the artifact of the file. -/
def Candidate.IsArtifact (tools : ImportTools) (c : Candidate) (row : Nat × ArtifactRow) : Prop :=
  ∃ content, c.reading.content = .ok content ∧ row.2.relativePath = c.relativePath ∧
    row.2.sha256Digest = tools.rt.sha256 content

theorem system_ok {α : Type} (a : α) : system (.ok a : Except OsError α) = .ok a := rfl

theorem system_eq_ok {α : Type} {x : Except OsError α} {a : α} : system x = .ok a ↔ x = .ok a :=
  Except.mapError_eq_ok

theorem Candidate.Recorded.mono (h : c.Recorded tools db) (hdb : db.Extends db') :
    c.Recorded tools db' := by
  obtain ⟨content, hcontent, hbind, id, hid⟩ := h.stored
  exact ⟨h.opened, h.regular, content, hcontent, hbind, id, hdb.artifacts.find hid⟩

/-- A recorded file is skipped. -/
theorem importCandidate_of_recorded (h : c.Recorded tools db) (hsettled : c.Settled call) :
    importCandidate tools call c db = .ok (db, .skipped) := by
  obtain ⟨status, hstatus, hregular⟩ := h.regular
  obtain ⟨content, hcontent, hbind, id, hid⟩ := h.stored
  obtain ⟨before, hbefore, hfresh⟩ := hsettled
  simp only [importCandidate, h.opened, hstatus, hbefore, hcontent, system_ok, Except.ok_bind,
    hregular, hfresh, hbind, hid, Option.isSome_some, if_true, Bool.true_eq_false,
    Bool.false_eq_true, if_false]

theorem importScan_cases {digest : Str} {before : Stat} {scan : NmapScan}
    (h : importScan tools call c digest before scan db = .ok (db', outcome)) :
    (∃ id, db'.artifacts.find (c.relativePath, digest) = some id) ∧
      (outcome = .skipped ∧ db' = db ∨ (∃ hosts, outcome = .imported hosts) ∧
        db.evidence ≤ db'.evidence ∧ ∃ row, db'.artifacts.rows = db.artifacts.rows ++ [row] ∧
          row.2.relativePath = c.relativePath ∧ row.2.sha256Digest = digest) := by
  obtain ⟨observedAt, -, h⟩ := Except.bind_eq_ok.mp h
  obtain ⟨observations, -, h⟩ := Except.bind_eq_ok.mp h
  obtain ⟨modified, -, h⟩ := Except.bind_eq_ok.mp h
  obtain ⟨⟨db₁, created⟩, hpersist, h⟩ := Except.bind_eq_ok.mp h
  obtain ⟨hfind, hcases⟩ := persist_cases hpersist
  cases h
  refine ⟨hfind, ?_⟩
  rcases hcases with ⟨rfl, rfl⟩ | ⟨rfl, hevidence, hrows⟩
  · exact .inl ⟨rfl, rfl⟩
  · exact .inr ⟨⟨_, rfl⟩, hevidence, _, hrows, rfl, rfl⟩

/-- What a file that raises nothing leaves: a deferred file nothing, any other one its record. -/
theorem importCandidate_cases (h : importCandidate tools call c db = .ok (db', outcome)) :
    outcome = .deferred ∧ db' = db ∨ c.Recorded tools db' ∧ c.Settled call ∧
      (outcome = .skipped ∧ db' = db ∨ (∃ hosts, outcome = .imported hosts) ∧
        db.evidence ≤ db'.evidence ∧
        ∃ row, db'.artifacts.rows = db.artifacts.rows ++ [row] ∧ c.IsArtifact tools row) := by
  obtain ⟨⟨⟩, hopened, h⟩ := Except.bind_eq_ok.mp h
  obtain ⟨status, hstatus, h⟩ := Except.bind_eq_ok.mp h
  have hopened := system_eq_ok.mp hopened
  have hstatus := system_eq_ok.mp hstatus
  split at h
  · cases h
  next hregular =>
  have hregular : ∃ status, c.reading.status = .ok status ∧ status.regular = true :=
    ⟨status, hstatus, Bool.not_eq_false _ |>.mp hregular⟩
  obtain ⟨before, hbefore, h⟩ := Except.bind_eq_ok.mp h
  split at h
  · cases h
    exact .inl ⟨rfl, rfl⟩
  next hfresh =>
  have hsettled : c.Settled call :=
    ⟨before, system_eq_ok.mp hbefore, Bool.eq_false_iff.mpr hfresh⟩
  obtain ⟨content, hcontent, h⟩ := Except.bind_eq_ok.mp h
  obtain ⟨⟨⟩, hbind, h⟩ := Except.bind_eq_ok.mp h
  have hcontent := system_eq_ok.mp hcontent
  split at h
  · next hfound =>
    cases h
    obtain ⟨id, hid⟩ := Option.isSome_iff_exists.mp hfound
    exact .inr ⟨⟨hopened, hregular, content, hcontent, hbind, id, hid⟩, hsettled, .inl ⟨rfl, rfl⟩⟩
  · split at h
    · split at h
      · cases h
        exact .inl ⟨rfl, rfl⟩
      · cases h
    · cases h
    · next scan _ =>
      obtain ⟨verified, -, h⟩ := Except.bind_eq_ok.mp h
      obtain ⟨after, -, h⟩ := Except.bind_eq_ok.mp h
      split at h
      · cases h
        exact .inl ⟨rfl, rfl⟩
      · split at h
        · cases h
          exact .inl ⟨rfl, rfl⟩
        · obtain ⟨⟨id, hid⟩, hcases⟩ := importScan_cases h
          refine .inr ⟨⟨hopened, hregular, content, hcontent, hbind, id, hid⟩, hsettled, ?_⟩
          refine hcases.imp_right ?_
          rintro ⟨hhosts, hevidence, row, hrows, hpath, hdigest⟩
          exact ⟨hhosts, hevidence, row, hrows, content, hcontent, hpath, hdigest⟩

theorem importCandidate_extends (h : importCandidate tools call c db = .ok (db', outcome)) :
    db.Extends db' := by
  rcases importCandidate_cases h with ⟨-, rfl⟩ | ⟨-, -, ⟨-, rfl⟩ | ⟨-, hevidence, row, hrows, -⟩⟩
  · exact .refl _
  · exact .refl _
  · exact ⟨hevidence, [row], hrows.symm⟩

end

/-! ## The loop -/

section

variable {tools : ImportTools} {call call' : ImportCall} {db db' : ScanDb} {tally tally' : Tally}
  {candidates : List Candidate}

/-- What the loop does with its first file. -/
theorem importCandidates_cons (tools : ImportTools) (call : ImportCall) (db : ScanDb) (tally : Tally)
    (c : Candidate) (candidates : List Candidate) :
    (∃ db₁ outcome, importCandidate tools call c db = .ok (db₁, outcome) ∧
      importCandidates tools call db tally (c :: candidates) =
        importCandidates tools call db₁ (tally.add outcome) candidates) ∨
    ∃ e, importCandidate tools call c db = .error e ∧
      (isIsolated e = true ∧ importCandidates tools call db tally (c :: candidates) =
        importCandidates tools call db (tally.report (fileIssue tools c.relativePath e)) candidates ∨
      importCandidates tools call db tally (c :: candidates) = (db, .error e)) := by
  cases hc : importCandidate tools call c db with
  | ok result =>
    obtain ⟨db₁, outcome⟩ := result
    refine .inl ⟨db₁, outcome, rfl, ?_⟩
    rw [importCandidates, hc]
  | error e =>
    refine .inr ⟨e, rfl, ?_⟩
    rw [importCandidates, hc]
    by_cases he : isIsolated e = true
    · exact .inl ⟨he, if_pos he⟩
    · exact .inr (if_neg he)

/-- Returning or raising, the loop keeps what was stored. -/
theorem importCandidates_extends (tools : ImportTools) (call : ImportCall) (db : ScanDb)
    (tally : Tally) (candidates : List Candidate) :
    db.Extends (importCandidates tools call db tally candidates).1 := by
  induction candidates generalizing db tally with
  | nil => exact .refl db
  | cons c candidates ih =>
    rcases importCandidates_cons tools call db tally c candidates with
      ⟨db₁, outcome, hc, heq⟩ | ⟨e, -, ⟨-, heq⟩ | heq⟩
    · rw [heq]
      exact (importCandidate_extends hc).trans (ih db₁ _)
    · rw [heq]
      exact ih db _
    · rw [heq]
      exact .refl db

/-- The files that a pass has counted. -/
def Tally.counted (tally : Tally) : Nat := tally.imported + tally.skipped + tally.deferred

theorem Tally.counted_add (tally : Tally) (outcome : Outcome) :
    (tally.add outcome).counted = tally.counted + 1 := by
  cases outcome <;> simp only [Tally.add, Tally.counted] <;> omega

theorem permission_ne_discovery : str "permission" ≠ str "discovery" := by decide

theorem artifact_ne_discovery : str "artifact" ≠ str "discovery" := by decide

/-- The files that fail leave the issues, and the others do what they do without them. -/
theorem importCandidates_isolated
    (h : importCandidates tools call db tally candidates = (db', .ok tally')) :
    ∃ good failures, good.Sublist candidates ∧ good.length + failures.length = candidates.length ∧
      tally'.counted = tally.counted + good.length ∧ tally'.issues = tally.issues ++ failures ∧
      (∀ issue ∈ failures, issue.category ≠ str "discovery") ∧ ∀ issues,
        importCandidates tools call db { tally with issues } good =
          (db', .ok { tally' with issues }) := by
  induction candidates generalizing db tally with
  | nil =>
    cases h
    exact ⟨[], [], .refl _, rfl, rfl, (List.append_nil _).symm,
      fun _ h => absurd h List.not_mem_nil, fun _ => rfl⟩
  | cons c candidates ih =>
    rcases importCandidates_cons tools call db tally c candidates with
      ⟨db₁, outcome, hc, heq⟩ | ⟨e, -, ⟨-, heq⟩ | heq⟩
    · rw [heq] at h
      obtain ⟨good, failures, hsub, hlength, hcounted, hissues, hcategory, hgood⟩ := ih h
      refine ⟨c :: good, failures, hsub.cons_cons c, ?_, ?_, ?_, hcategory, fun issues => ?_⟩
      · rw [List.length_cons, List.length_cons]
        omega
      · rw [hcounted, Tally.counted_add, List.length_cons]
        omega
      · rw [hissues]
        cases outcome <;> rfl
      · rw [importCandidates, hc, ← hgood issues]
        cases outcome <;> rfl
    · rw [heq] at h
      obtain ⟨good, failures, hsub, hlength, hcounted, hissues, hcategory, hgood⟩ := ih h
      refine ⟨good, fileIssue tools c.relativePath e :: failures, hsub.cons c, ?_, hcounted, ?_,
        ?_, hgood⟩
      · rw [List.length_cons, List.length_cons]
        omega
      · rw [hissues, Tally.report, List.append_assoc, List.singleton_append]
      · refine List.forall_mem_cons.mpr ⟨?_, hcategory⟩
        simp only [fileIssue]
        split
        · exact permission_ne_discovery
        · exact artifact_ne_discovery
    · rw [heq] at h
      cases h

/-- The artifacts that the loop adds are those of the files it has imported. -/
theorem importCandidates_artifacts
    (h : importCandidates tools call db tally candidates = (db', .ok tally')) :
    ∃ added, db'.artifacts.rows = db.artifacts.rows ++ added ∧
      tally'.imported = tally.imported + added.length ∧
      ∀ row ∈ added, ∃ c ∈ candidates, c.IsArtifact tools row := by
  induction candidates generalizing db tally with
  | nil =>
    cases h
    exact ⟨[], (List.append_nil _).symm, rfl, fun _ h => absurd h List.not_mem_nil⟩
  | cons c candidates ih =>
    have htail : ∀ {added : List (Nat × ArtifactRow)},
        (∀ row ∈ added, ∃ c ∈ candidates, c.IsArtifact tools row) →
          ∀ row ∈ added, ∃ c' ∈ c :: candidates, c'.IsArtifact tools row :=
      fun hall row hrow => (hall row hrow).imp fun _ h => ⟨List.mem_cons_of_mem _ h.1, h.2⟩
    rcases importCandidates_cons tools call db tally c candidates with
      ⟨db₁, outcome, hc, heq⟩ | ⟨e, -, ⟨-, heq⟩ | heq⟩
    · rw [heq] at h
      obtain ⟨added, hrows, hcount, hall⟩ := ih h
      rcases importCandidate_cases hc with
        ⟨rfl, rfl⟩ | ⟨-, -, ⟨rfl, rfl⟩ | ⟨⟨hosts, rfl⟩, -, row, hrow, hartifact⟩⟩
      · exact ⟨added, hrows, hcount, htail hall⟩
      · exact ⟨added, hrows, hcount, htail hall⟩
      · refine ⟨row :: added, ?_, ?_, ?_⟩
        · rw [hrows, hrow, List.append_assoc, List.singleton_append]
        · simp only [hcount, Tally.add, List.length_cons]
          omega
        · exact List.forall_mem_cons.mpr ⟨⟨c, List.mem_cons_self, hartifact⟩, htail hall⟩
    · rw [heq] at h
      obtain ⟨added, hrows, hcount, hall⟩ := ih h
      exact ⟨added, hrows, hcount, htail hall⟩
    · rw [heq] at h
      cases h

theorem importCandidates_le
    (h : importCandidates tools call db tally candidates = (db', .ok tally')) :
    tally'.imported + tally'.skipped ≤ tally.imported + tally.skipped + candidates.length := by
  induction candidates generalizing db tally with
  | nil =>
    cases h
    exact le_rfl
  | cons c candidates ih =>
    rcases importCandidates_cons tools call db tally c candidates with
      ⟨db₁, outcome, -, heq⟩ | ⟨e, -, ⟨-, heq⟩ | heq⟩
    · rw [heq] at h
      have hrest := ih h
      rw [List.length_cons]
      cases outcome <;> simp only [Tally.add] at hrest <;> omega
    · rw [heq] at h
      have hrest := ih h
      rw [List.length_cons]
      exact hrest.trans (Nat.le_succ _)
    · rw [heq] at h
      cases h

/-- When no file was deferred or failed, every file is recorded. -/
theorem importCandidates_recorded
    (h : importCandidates tools call db tally candidates = (db', .ok tally'))
    (hall : tally'.imported + tally'.skipped = tally.imported + tally.skipped + candidates.length) :
    ∀ c ∈ candidates, c.Recorded tools db' ∧ c.Settled call := by
  induction candidates generalizing db tally with
  | nil => exact fun _ h => absurd h List.not_mem_nil
  | cons c candidates ih =>
    rw [List.length_cons] at hall
    rcases importCandidates_cons tools call db tally c candidates with
      ⟨db₁, outcome, hc, heq⟩ | ⟨e, -, ⟨-, heq⟩ | heq⟩
    · rw [heq] at h
      have hle := importCandidates_le h
      have hkept : db₁.Extends db' := by
        have hkept := importCandidates_extends tools call db₁ (tally.add outcome) candidates
        rwa [h] at hkept
      rcases importCandidate_cases hc with ⟨rfl, rfl⟩ | ⟨hrecorded, hsettled, hcases⟩
      · -- a deferred file is missing among the others
        simp only [Tally.add] at hle
        omega
      · refine List.forall_mem_cons.mpr ⟨⟨hrecorded.mono hkept, hsettled⟩, ih h ?_⟩
        rcases hcases with ⟨rfl, -⟩ | ⟨⟨hosts, rfl⟩, -⟩ <;> simp only [Tally.add] <;> omega
    · rw [heq] at h
      have hle := importCandidates_le h
      simp only [Tally.report] at hle
      omega
    · rw [heq] at h
      cases h

theorem importCandidates_skip
    (h : ∀ c ∈ candidates, c.Recorded tools db ∧ c.Settled call) :
    importCandidates tools call db tally candidates =
      (db, .ok { tally with skipped := tally.skipped + candidates.length }) := by
  induction candidates generalizing tally with
  | nil => rfl
  | cons c candidates ih =>
    obtain ⟨⟨hrecorded, hsettled⟩, hrest⟩ := List.forall_mem_cons.mp h
    rw [importCandidates, importCandidate_of_recorded hrecorded hsettled]
    simp only [ih hrest, Tally.add, List.length_cons]
    rw [Nat.add_assoc, Nat.add_comm 1]

end

/-! ## Discovery -/

/-- The XML files in a directory and below it. -/
inductive Reaches (tools : ImportTools) : Str → List (Str × Node) → Candidate → Prop
  | file {directory name : Str} {entries : List (Str × Node)} {reading : Reading}
      (h : (name, .file reading) ∈ entries) (hname : isXmlName tools name = true) :
      Reaches tools directory entries ⟨entryPath directory name, reading⟩
  | nested {directory name : Str} {entries inner : List (Str × Node)} {c : Candidate}
      (h : (name, .directory inner) ∈ entries)
      (hc : Reaches tools (entryPath directory name) inner c) : Reaches tools directory entries c

/-- The files that a pass has to account for. -/
def Source.Holds (tools : ImportTools) (source : Source) (c : Candidate) : Prop :=
  match source.target with
  | .file reading => c = ⟨source.name, reading⟩
  | .directory (.ok entries) => Reaches tools [] entries c
  | _ => False

/-- The entries of a directory have different names, which are not empty and have no slash, and so
have the entries of the directories in it. -/
inductive Named : List (Str × Node) → Prop
  | intro {entries : List (Str × Node)} (hdistinct : (entries.map Prod.fst).Nodup)
      (hname : ∀ entry ∈ entries, entry.1 ≠ [] ∧ cp '/' ∉ entry.1)
      (hinner : ∀ name inner, (name, Node.directory inner) ∈ entries → Named inner) : Named entries

/-- If the source is a directory, its entries are named as a file system names them. -/
def Source.Named (source : Source) : Prop :=
  ∀ entries, source.target = .directory (.ok entries) → Nmap.Named entries

section

variable {tools : ImportTools} {directory : Str} {entries : List (Str × Node)} {c : Candidate}

/-- Induction over the directories of a tree. -/
theorem nodes_induction {P : Node → Prop}
    (hdirectory : ∀ entries : List (Str × Node), (∀ entry ∈ entries, P entry.2) →
      P (.directory entries))
    (hunlisted : ∀ e, P (.unlisted e)) (hfile : ∀ reading, P (.file reading)) (hother : P .other)
    (hunknown : ∀ e, P (.unknown e)) : ∀ node, P node := by
  refine @Node.rec P (fun entries => ∀ entry ∈ entries, P entry.2) (fun entry => P entry.2)
    hdirectory hunlisted hfile hother hunknown ?_ ?_ ?_
  · exact fun _ h => absurd h List.not_mem_nil
  · exact fun head tail hhead htail => List.forall_mem_cons.mpr ⟨hhead, htail⟩
  · exact fun _ _ ih => ih

theorem walkEntries_eq : walkEntries tools directory entries = entries.map fun entry =>
    (entry.1, walk tools (entryPath directory entry.1) entry.1 entry.2) := by
  induction entries with
  | nil => rfl
  | cons entry entries ih =>
    obtain ⟨name, node⟩ := entry
    rw [walkEntries, ih, List.map_cons]

theorem mem_candidates_gather : c ∈ (gather (walkEntries tools directory entries)).1 ↔
    ∃ entry ∈ entries, c ∈ (walk tools (entryPath directory entry.1) entry.1 entry.2).1 := by
  rw [gather, walkEntries_eq, List.mem_flatMap]
  constructor
  · rintro ⟨found, hfound, hc⟩
    obtain ⟨entry, hentry, rfl⟩ := List.mem_map.mp (mem_sortedBy.mp hfound)
    exact ⟨entry, hentry, hc⟩
  · rintro ⟨entry, hentry, hc⟩
    exact ⟨_, mem_sortedBy.mpr (List.mem_map_of_mem hentry), hc⟩

theorem mem_issues_gather {issue : NmapImportIssue} :
    issue ∈ (gather (walkEntries tools directory entries)).2 ↔
      ∃ entry ∈ entries, issue ∈ (walk tools (entryPath directory entry.1) entry.1 entry.2).2 := by
  rw [gather, walkEntries_eq, List.mem_flatMap]
  constructor
  · rintro ⟨found, hfound, hissue⟩
    obtain ⟨entry, hentry, rfl⟩ := List.mem_map.mp (mem_sortedBy.mp hfound)
    exact ⟨entry, hentry, hissue⟩
  · rintro ⟨entry, hentry, hissue⟩
    exact ⟨_, mem_sortedBy.mpr (List.mem_map_of_mem hentry), hissue⟩

/-- A walk finds the XML files. -/
theorem mem_walk (tools : ImportTools) (c : Candidate) (node : Node) :
    ∀ path name : Str, c ∈ (walk tools path name node).1 ↔
    (∃ reading, node = .file reading ∧ isXmlName tools name = true ∧ c = ⟨path, reading⟩) ∨
      ∃ entries, node = .directory entries ∧ Reaches tools path entries c := by
  induction node using nodes_induction with
  | hdirectory entries ih =>
    intro path name
    rw [walk, mem_candidates_gather]
    constructor
    · rintro ⟨⟨name', node⟩, hentry, hc⟩
      refine .inr ⟨entries, rfl, ?_⟩
      rcases (ih _ hentry _ _).mp hc with ⟨reading, rfl, hname, rfl⟩ | ⟨inner, rfl, hinner⟩
      · exact .file hentry hname
      · exact .nested hentry hinner
    · rintro (⟨reading, heq, -⟩ | ⟨entries', heq, hreaches⟩)
      · cases heq
      · cases heq
        cases hreaches with
        | file h hname => exact ⟨_, h, (ih _ h _ _).mpr (.inl ⟨_, rfl, hname, rfl⟩)⟩
        | nested h hc => exact ⟨_, h, (ih _ h _ _).mpr (.inr ⟨_, rfl, hc⟩)⟩
  | hfile reading =>
    intro path name
    rw [walk]
    split
    · next hname =>
      rw [List.mem_singleton]
      constructor
      · exact fun hc => .inl ⟨reading, rfl, hname, hc⟩
      · rintro (⟨_, heq, -, rfl⟩ | ⟨_, heq, -⟩)
        · cases heq
          rfl
        · cases heq
    · next hname =>
      refine iff_of_false List.not_mem_nil ?_
      rintro (⟨_, -, hname', -⟩ | ⟨_, heq, -⟩)
      · exact hname hname'
      · cases heq
  | hunlisted e | hunknown e =>
    intro path name
    refine iff_of_false List.not_mem_nil ?_
    rintro (⟨_, heq, -⟩ | ⟨_, heq, -⟩) <;> cases heq
  | hother =>
    intro path name
    refine iff_of_false List.not_mem_nil ?_
    rintro (⟨_, heq, -⟩ | ⟨_, heq, -⟩) <;> cases heq

theorem Reaches.path (h : Reaches tools directory entries c) (hdirectory : directory ≠ []) :
    ∃ rest, c.relativePath = directory ++ cp '/' :: rest := by
  induction h with
  | file h hname =>
    rw [entryPath, if_neg hdirectory, List.append_assoc]
    exact ⟨_, rfl⟩
  | nested h hc ih =>
    rw [entryPath, if_neg hdirectory] at ih
    obtain ⟨rest, hrest⟩ := ih (List.append_ne_nil_of_left_ne_nil
      (List.append_ne_nil_of_left_ne_nil hdirectory _) _)
    rw [hrest, List.append_assoc, List.append_assoc]
    exact ⟨_, rfl⟩

/-- What is found under an entry of a directory has the path of the entry, or a path below it. -/
theorem walk_path {name : Str} {node : Node} (hname : name ≠ [])
    (hc : c ∈ (walk tools (entryPath directory name) name node).1) : ∃ rest,
    c.relativePath = entryPath directory name ++ rest ∧ ∀ char ∈ rest.head?, char = cp '/' := by
  have hpath : entryPath directory name ≠ [] := by
    unfold entryPath
    split
    · exact hname
    · exact List.append_ne_nil_of_right_ne_nil _ hname
  rcases (mem_walk tools c node _ _).mp hc with ⟨reading, -, -, rfl⟩ | ⟨inner, -, hreaches⟩
  · exact ⟨[], (List.append_nil _).symm, fun _ h => by cases h⟩
  · obtain ⟨rest, hrest⟩ := hreaches.path hpath
    exact ⟨cp '/' :: rest, hrest, fun _ h => (Option.some.inj h).symm⟩

/-- Paths under two entries of a directory differ where their names do. -/
theorem entryPath_inj {name name' rest rest' : Str} (hslash : cp '/' ∉ name)
    (hslash' : cp '/' ∉ name') (hrest : ∀ char ∈ rest.head?, char = cp '/')
    (hrest' : ∀ char ∈ rest'.head?, char = cp '/')
    (h : entryPath directory name ++ rest = entryPath directory name' ++ rest') : name = name' := by
  have hname : ∀ {n r : Str}, cp '/' ∉ n → (∀ char ∈ r.head?, char = cp '/') →
      (n ++ r).takeWhile (· ≠ cp '/') = n := fun hn hr =>
    takeWhile_append_eq (List.all_eq_true.mpr fun char hchar =>
      decide_eq_true fun heq => hn (heq ▸ hchar))
      fun char hchar => decide_eq_false (not_not_intro (hr char hchar))
  have hsame : name ++ rest = name' ++ rest' := by
    unfold entryPath at h
    split at h
    · exact h
    · simp only [List.append_assoc] at h
      exact List.append_cancel_left (List.append_cancel_left h)
  rw [← hname hslash hrest, hsame, hname hslash' hrest']

/-- No two files that are found in a directory have one path, when no two below one of its entries
have. -/
theorem gather_nodup (hnamed : Named entries) (hinner : ∀ entry ∈ entries,
      ((walk tools (entryPath directory entry.1) entry.1 entry.2).1.map
        Candidate.relativePath).Nodup) :
    ((gather (walkEntries tools directory entries)).1.map Candidate.relativePath).Nodup := by
  obtain ⟨hdistinct, hname, -⟩ := hnamed
  rw [gather, List.map_flatMap, walkEntries_eq]
  have hperm := sortedBy_perm Prod.fst (entries.map fun entry =>
    (entry.1, walk tools (entryPath directory entry.1) entry.1 entry.2))
  rw [(hperm.flatMap_right _).nodup_iff, List.flatMap_map, List.nodup_flatMap]
  refine ⟨hinner, (List.pairwise_map.mp hdistinct).imp_of_mem fun {a b} ha hb hne => ?_⟩
  rw [Function.onFun, List.disjoint_left]
  rintro path hpath hpath'
  obtain ⟨c, hc, rfl⟩ := List.mem_map.mp hpath
  obtain ⟨c', hc', heq⟩ := List.mem_map.mp hpath'
  obtain ⟨rest, hrest, hhead⟩ := walk_path (hname a ha).1 hc
  obtain ⟨rest', hrest', hhead'⟩ := walk_path (hname b hb).1 hc'
  rw [hrest, hrest'] at heq
  exact hne (entryPath_inj (hname a ha).2 (hname b hb).2 hhead hhead' heq.symm)

/-- A walk finds no file twice. -/
theorem walk_nodup (node : Node) : ∀ path name : Str,
    (∀ entries, node = .directory entries → Named entries) →
      ((walk tools path name node).1.map Candidate.relativePath).Nodup := by
  induction node using nodes_induction with
  | hdirectory entries ih =>
    intro path name hnamed
    have hnamed := hnamed entries rfl
    rw [walk]
    refine gather_nodup hnamed fun entry hentry => ih entry hentry _ _ ?_
    rintro inner hinner
    obtain ⟨-, -, hnested⟩ := hnamed
    exact hnested entry.1 inner (hinner ▸ hentry)
  | hfile reading =>
    intro path name hnamed
    rw [walk]
    split
    · exact List.nodup_singleton _
    · exact List.nodup_nil
  | hunlisted e | hunknown e | hother => exact fun _ _ _ => List.nodup_nil

/-- The issues of a walk are about paths that it could not read. -/
theorem walk_issues (tools : ImportTools) (node : Node) :
    ∀ path name : Str, ∀ issue ∈ (walk tools path name node).2,
    issue.category = str "discovery" := by
  induction node using nodes_induction with
  | hdirectory entries ih =>
    intro path name issue hissue
    rw [walk] at hissue
    obtain ⟨entry, hentry, hissue⟩ := mem_issues_gather.mp hissue
    exact ih entry hentry _ _ issue hissue
  | hfile reading =>
    intro path name issue hissue
    rw [walk] at hissue
    split at hissue <;> cases hissue
  | hunlisted e | hunknown e =>
    intro path name issue hissue
    rw [walk] at hissue
    rw [List.mem_singleton.mp hissue]
    rfl
  | hother =>
    intro path name issue hissue
    cases hissue

theorem discover_ok {source : Source} {candidates : List Candidate} {issues : List NmapImportIssue}
    (h : discover tools source = .ok (candidates, issues)) :
    (∀ c, c ∈ candidates ↔ source.Holds tools c) ∧
      (source.Named → (candidates.map Candidate.relativePath).Nodup) ∧
      ∀ issue ∈ issues, issue.category = str "discovery" := by
  unfold discover at h
  unfold Source.Holds Source.Named
  split at h
  · cases h
  cases htarget : source.target with
  | missing | symlink | other =>
    rw [htarget] at h
    cases h
  | file reading =>
    rw [htarget] at h
    simp only at h
    split at h
    · cases h
      exact ⟨fun c => List.mem_singleton, fun _ => List.nodup_singleton _,
        fun _ h => absurd h List.not_mem_nil⟩
    · cases h
  | directory listing =>
    rw [htarget] at h
    cases listing with
    | error e =>
      cases h
      refine ⟨fun c => iff_of_false List.not_mem_nil id, fun _ => List.nodup_nil,
        fun issue hissue => ?_⟩
      rw [List.mem_singleton.mp hissue]
      rfl
    | ok entries =>
      have hfound := Except.ok.inj h
      have hcandidates : (gather (walkEntries tools [] entries)).1 = candidates :=
        congrArg Prod.fst hfound
      have hissues : (gather (walkEntries tools [] entries)).2 = issues := congrArg Prod.snd hfound
      refine ⟨?_, ?_, ?_⟩
      · intro c
        have hwalk := mem_walk tools c (.directory entries) [] []
        rw [← hcandidates]
        rw [walk] at hwalk
        rw [hwalk]
        constructor
        · rintro (⟨_, heq, -⟩ | ⟨_, heq, hreaches⟩)
          · cases heq
          · cases heq
            exact hreaches
        · exact fun hreaches => .inr ⟨entries, rfl, hreaches⟩
      · intro hnamed
        have hwalk := @walk_nodup tools (.directory entries) [] [] fun inner heq =>
          hnamed inner (congrArg (Target.directory ∘ Except.ok) (Node.directory.inj heq))
        rwa [walk, hcandidates] at hwalk
      · intro issue hissue
        have hwalk := walk_issues tools (.directory entries) [] [] issue
        rw [walk] at hwalk
        exact hwalk (hissues ▸ hissue)

end

/-! ## A directory that is imported twice -/

def sampleTools : ImportTools where
  rt := .ofDigests []
  redactor := ⟨[], []⟩
  deploymentId := 1
  parser := .ofDocument webServerDocument webServerRoot
  className _ := str "OSError"

/-- A file of 1970. -/
def sampleStat (content : List Byte) : Stat := ⟨true, 0, 0, 1, 1, content.length⟩

/-- A file that stays as it is. -/
def sampleReading (content : List Byte) : Reading where
  opened := .ok ()
  status := .ok (sampleStat content)
  before := .ok (sampleStat content)
  content := .ok content
  chunks := [.ok content, .ok []]
  verified := .ok content
  after := .ok (sampleStat content)
  order := .insertion

/-- A directory with a file that is no scan, a scan, and a directory that cannot be listed. -/
def sampleSource : Source where
  absolute := true
  name := str "nmap"
  target := .directory (.ok [(str "notes.txt", .file (sampleReading (bytes "notes"))),
    (str "lan", .directory [(str "web.XML", .file (sampleReading webServerDocument))]),
    (str "dmz", .unlisted .permission)])

def sampleCall : ImportCall :=
  { stabilitySeconds := some 5
    currentTime := ⟨63000000000000000, 0, sample_inCalendar, zero_offset⟩ }

/-- A call whose bound is not finite. -/
def refusedCall : ImportCall := { sampleCall with stabilitySeconds := none }

def sampleDb : ScanDb := { evidence := { deployments := [1] } }

theorem samplePass : ∃ db summary,
    importNmapArtifacts sampleTools sampleCall sampleSource sampleDb = (db, .ok summary) ∧
      summary.discovered = 1 ∧ summary.imported = 1 ∧ summary.skipped = 0 := by
  have hcounts : (importNmapArtifacts sampleTools sampleCall sampleSource sampleDb).2.toOption.any
      (fun summary => summary.discovered = 1 ∧ summary.imported = 1 ∧ summary.skipped = 0) =
        true := by
    decide +kernel
  obtain ⟨summary, hsummary, hcounts⟩ := (Option.any_eq_true _ _).mp hcounts
  exact ⟨_, summary, Prod.ext rfl (Except.toOption_eq_some.mp hsummary), of_decide_eq_true hcounts⟩

/-! ## Passes -/

section

variable {tools : ImportTools} {call call' : ImportCall} {source : Source} {db db' : ScanDb}
  {summary : NmapImportSummary}

theorem importNmapArtifacts_ok (h : importNmapArtifacts tools call source db = (db', .ok summary)) :
    ∃ candidates issues tally, call.stabilitySeconds.all (· < 0) = false ∧
      discover tools source = .ok (candidates, issues) ∧
      importCandidates tools call db { issues } candidates = (db', .ok tally) ∧
      summary = tally.summary candidates.length := by
  unfold importNmapArtifacts at h
  split at h
  · cases h
  next hstability =>
  split at h
  · cases h
  next candidates issues hdiscover =>
  have hloop : importCandidates tools call db { issues } candidates =
      ((importCandidates tools call db { issues } candidates).1,
        (importCandidates tools call db { issues } candidates).2) := rfl
  simp only [Prod.mk.injEq] at h
  cases hresult : (importCandidates tools call db { issues } candidates).2 with
  | error e =>
    rw [hresult] at h
    cases h.2
  | ok tally =>
    rw [hresult] at h hloop
    rw [h.1] at hloop
    exact ⟨candidates, issues, tally, Bool.eq_false_iff.mpr hstability, hdiscover, hloop,
      (Except.ok.inj h.2).symm⟩

theorem importNmapArtifacts_extends (tools : ImportTools) (call : ImportCall) (source : Source)
    (db : ScanDb) : db.Extends (importNmapArtifacts tools call source db).1 := by
  unfold importNmapArtifacts
  split
  · exact .refl db
  · split
    · exact .refl db
    · exact importCandidates_extends tools call db _ _

/-- The second call is not earlier, and asks for no older files. -/
structure ImportCall.Before (call call' : ImportCall) : Prop where
  time : call.currentTime.instant ≤ call'.currentTime.instant
  stability : ∃ s s', call.stabilitySeconds = some s ∧ call'.stabilitySeconds = some s' ∧ 0 ≤ s' ∧
    s' ≤ s

theorem isFresh_later (h : call.Before call') {before : Stat} (hfresh : call.isFresh before = false) :
    call'.isFresh before = false := by
  obtain ⟨s, s', hs, hs', -, hle⟩ := h.stability
  have htime : timestampOf call.currentTime ≤ timestampOf call'.currentTime := by
    have hinstant := h.time
    refine roundDouble_mono (div_le_div_of_nonneg_right (Int.cast_le.mpr ?_) (by norm_num))
    omega
  have hage : roundDouble (timestampOf call.currentTime - before.mtime) ≤
      roundDouble (timestampOf call'.currentTime - before.mtime) :=
    roundDouble_mono (sub_le_sub_right htime _)
  unfold ImportCall.isFresh at hfresh ⊢
  rw [hs, Option.any_some, decide_eq_false_iff_not, not_lt] at hfresh
  rw [hs', Option.any_some, decide_eq_false_iff_not, not_lt]
  exact (hle.trans hfresh).trans hage

/-- What a pass over some files has to show for them. -/
structure Accounts (tools : ImportTools) (call : ImportCall) (candidates : List Candidate)
    (db db' : ScanDb) (summary : NmapImportSummary) : Prop where
  discovered : summary.discovered = candidates.length
  /-- Every file is counted once, as imported, skipped or deferred or by its issue. -/
  partition : summary.imported + summary.skipped + summary.deferred +
    (summary.issues.filter fun issue => issue.category ≠ str "discovery").length =
      summary.discovered
  extends_ : db.Extends db'
  /-- The artifacts that are new are those of the imported files. -/
  artifacts : ∃ added, db'.artifacts.rows = db.artifacts.rows ++ added ∧
    added.length = summary.imported ∧ ∀ row ∈ added, ∃ c ∈ candidates, c.IsArtifact tools row
  /-- A pass over the files without an issue leaves the same database and the same counts. -/
  isolated : ∃ good, good.Sublist candidates ∧ importCandidates tools call db {} good =
    (db', .ok ⟨summary.imported, summary.skipped, summary.deferred, summary.hosts, []⟩)

/-- A pass that returns has found every XML file, has counted each of them once, and was not disturbed
by those that failed. -/
theorem pass_accounted (h : importNmapArtifacts tools call source db = (db', .ok summary)) :
    ∃ candidates, (∀ c, c ∈ candidates ↔ source.Holds tools c) ∧
      (source.Named → (candidates.map Candidate.relativePath).Nodup) ∧
      Accounts tools call candidates db db' summary := by
  obtain ⟨candidates, issues, tally, -, hdiscover, hloop, rfl⟩ := importNmapArtifacts_ok h
  obtain ⟨hholds, hnodup, hdiscovery⟩ := discover_ok hdiscover
  obtain ⟨good, failures, hsub, hlength, hcounted, hissues, hcategory, hgood⟩ :=
    importCandidates_isolated hloop
  obtain ⟨added, hrows, himported, hartifacts⟩ := importCandidates_artifacts hloop
  have hextends := importCandidates_extends tools call db { issues } candidates
  rw [hloop] at hextends
  refine ⟨candidates, hholds, hnodup, rfl, ?_, hextends,
    ⟨added, hrows, (himported.trans (Nat.zero_add _)).symm, hartifacts⟩,
    good, hsub, hgood []⟩
  have hperm := sortedBy_perm (fun issue => toLex (issue.relativePath, issue.category)) tally.issues
  have hfailures : (tally.issues.filter fun issue => issue.category ≠ str "discovery").length =
      failures.length := by
    rw [hissues, List.filter_append, List.filter_eq_nil_iff.mpr, List.nil_append,
      List.filter_eq_self.mpr]
    · exact fun issue hissue => decide_eq_true (hcategory issue hissue)
    · exact fun issue hissue => by simpa using hdiscovery issue hissue
  show tally.counted + _ = candidates.length
  rw [Tally.summary, (hperm.filter _).length_eq, hfailures, hcounted, ← hlength]
  exact congrArg (· + failures.length) (Nat.zero_add _)

/-- The names in the sample are those of a file system. -/
theorem sampleSource_named : sampleSource.Named := by
  intro entries hentries
  obtain rfl := Except.ok.inj (Target.directory.inj hentries)
  refine ⟨by decide, by decide, fun name inner hinner => ?_⟩
  simp only [List.mem_cons, Prod.mk.injEq, reduceCtorEq, and_false, false_or, or_false,
    List.not_mem_nil, Node.directory.injEq] at hinner
  obtain ⟨-, rfl⟩ := hinner
  refine ⟨by decide, by decide, fun name inner hinner => ?_⟩
  simp only [List.mem_singleton, Prod.mk.injEq, reduceCtorEq, and_false] at hinner

theorem pass_accounted_sample : ∃ db summary candidates,
    importNmapArtifacts sampleTools sampleCall sampleSource sampleDb = (db, .ok summary) ∧
      summary.discovered = 1 ∧ summary.imported = 1 ∧
      (∀ c, c ∈ candidates ↔ sampleSource.Holds sampleTools c) ∧
      (candidates.map Candidate.relativePath).Nodup ∧
      Accounts sampleTools sampleCall candidates sampleDb db summary := by
  obtain ⟨db, summary, hpass, hdiscovered, himported, -⟩ := samplePass
  obtain ⟨candidates, hholds, hnodup, haccounts⟩ := pass_accounted hpass
  exact ⟨db, summary, candidates, hpass, hdiscovered, himported, hholds,
    hnodup sampleSource_named, haccounts⟩

/-- The database after some passes, returning or raising. -/
def afterPasses (tools : ImportTools) (db : ScanDb) (passes : List (ImportCall × Source)) : ScanDb :=
  passes.foldl (fun db pass => (importNmapArtifacts tools pass.1 pass.2 db).1) db

theorem afterPasses_extends (tools : ImportTools) (db : ScanDb)
    (passes : List (ImportCall × Source)) : db.Extends (afterPasses tools db passes) := by
  induction passes generalizing db with
  | nil => exact .refl db
  | cons pass passes ih =>
    exact (importNmapArtifacts_extends tools pass.1 pass.2 db).trans (ih _)

/-- After a pass that imported or skipped every file, and any other passes after it, a pass over the
same files skips them all and changes nothing. -/
theorem passes_idempotent (h : importNmapArtifacts tools call source db = (db', .ok summary))
    (hall : summary.imported + summary.skipped = summary.discovered)
    (passes : List (ImportCall × Source)) (hlater : call.Before call') :
    importNmapArtifacts tools call' source (afterPasses tools db' passes) =
      (afterPasses tools db' passes, .ok { summary with
        imported := 0, skipped := summary.discovered, deferred := 0, hosts := 0 }) := by
  obtain ⟨candidates, issues, tally, -, hdiscover, hloop, rfl⟩ := importNmapArtifacts_ok h
  have hall : tally.imported + tally.skipped = candidates.length := hall
  have hrecorded := importCandidates_recorded hloop (by simpa using hall)
  obtain ⟨good, failures, -, hlength, hcounted, hissues, -⟩ := importCandidates_isolated hloop
  have hfailures : failures = [] := by
    have hcounted : tally.counted = 0 + good.length := hcounted
    unfold Tally.counted at hcounted
    exact List.eq_nil_of_length_eq_zero (by omega)
  have hskip : importCandidates tools call' (afterPasses tools db' passes) { issues } candidates =
      (afterPasses tools db' passes, .ok { issues, skipped := 0 + candidates.length }) := by
    refine importCandidates_skip fun c hc => ?_
    obtain ⟨hrecord, before, hbefore, hfresh⟩ := hrecorded c hc
    exact ⟨hrecord.mono (afterPasses_extends tools db' passes), before, hbefore,
      isFresh_later hlater hfresh⟩
  obtain ⟨s, s', -, hs', hnonneg, -⟩ := hlater.stability
  have hstability : ¬ call'.stabilitySeconds.all (· < 0) = true := by
    rw [hs', Option.all_some, decide_eq_true_iff, not_lt]
    exact hnonneg
  rw [importNmapArtifacts, if_neg hstability, hdiscover]
  simp only [hskip]
  rw [hfailures, List.append_nil] at hissues
  simp only [Except.map, Tally.summary, hissues, Nat.zero_add]

/-- A pass that is refused comes between the two. -/
theorem passes_idempotent_sample : ∃ db summary,
    importNmapArtifacts sampleTools sampleCall sampleSource sampleDb = (db, .ok summary) ∧
      summary.imported = 1 ∧ importNmapArtifacts sampleTools sampleCall sampleSource
        (afterPasses sampleTools db [(refusedCall, sampleSource)]) =
          (afterPasses sampleTools db [(refusedCall, sampleSource)],
            .ok ⟨1, 0, 1, 0, 0, summary.issues⟩) := by
  obtain ⟨db, summary, hpass, hdiscovered, himported, hskipped⟩ := samplePass
  have hall : summary.imported + summary.skipped = summary.discovered := by
    rw [hdiscovered, himported, hskipped]
  have hlater : sampleCall.Before sampleCall := ⟨le_rfl, 5, 5, rfl, rfl, by norm_num, le_rfl⟩
  have hagain := passes_idempotent hpass hall [(refusedCall, sampleSource)] hlater
  rw [hdiscovered] at hagain
  exact ⟨db, summary, hpass, himported, hagain⟩

end

end FieldDiscovery.Nmap
