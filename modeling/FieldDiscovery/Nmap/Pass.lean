import FieldDiscovery.Lib.Rounding
import FieldDiscovery.Nmap.Copied

/-!
# One import pass

`import_nmap_artifacts` of `nmap_import.py`: the listing of the source, and the loop over the files
that it found. A file is given by what the pass meets when it opens it and reads it, so it may change
under the pass. A pass that raises leaves the database that its earlier files have made.
-/

namespace FieldDiscovery.Nmap

open Py Correlation Redaction Repository

/-! ## The file system -/

/-- An `OSError`. -/
inductive OsError where
  | permission
  | other
  deriving DecidableEq

def OsError.exc : OsError → Exc
  | permission => .permission
  | other => .os

/-- A call of the file system, among calls that raise anything. -/
def system {α : Type} (call : Except OsError α) : Except Exc α := call.mapError OsError.exc

/-- What a pass reads off `os.stat_result`. -/
structure Stat where
  /-- `stat.S_ISREG(info.st_mode)` -/
  regular : Bool
  /-- `st_mtime`, a double. -/
  mtime : ℚ
  mtimeNs : Int
  device : Nat
  inode : Nat
  size : Nat

/-- A file while a pass opens it, reads it for its digest, parses it, and reads it again. -/
structure Reading where
  opened : Except OsError Unit
  /-- `_fstat(descriptor)` of `_open_readonly` -/
  status : Except OsError Stat
  before : Except OsError Stat
  content : Except OsError (List Byte)
  chunks : List (Except OsError (List Byte))
  verified : Except OsError (List Byte)
  after : Except OsError Stat
  /-- The order in which sets are iterated while the file is imported. -/
  order : SetOrder

/-- An entry of a directory. -/
inductive Node where
  | directory (entries : List (Str × Node))
  /-- A directory that `os.scandir` cannot list. -/
  | unlisted (e : OsError)
  | file (reading : Reading)
  /-- A symbolic link or a special file. -/
  | other
  /-- `is_dir` or `is_file` raises. -/
  | unknown (e : OsError)

/-- `_Candidate` -/
structure Candidate where
  relativePath : Str
  reading : Reading

/-- `NmapImportIssue` -/
structure NmapImportIssue where
  relativePath : Str
  category : Str
  detail : Str
  retryable : Bool

/-- `NmapImportSummary` -/
structure NmapImportSummary where
  discovered : Nat
  imported : Nat
  skipped : Nat
  deferred : Nat
  hosts : Nat
  issues : List NmapImportIssue

/-- What stays the same from pass to pass. -/
structure ImportTools extends Importer where
  parser : PullParser
  /-- `error.__class__.__name__` of an exception that is isolated. -/
  className : Exc → Str

/-! ## Discovery -/

section

variable (tools : ImportTools)

/-- `_safe_detail` -/
def safeDetail (e : Exc) : Str :=
  match e with
  | .permission => str "permission denied"
  | .nmapXml text => if text.length ≤ 512 then text else text.take 509 ++ str "..."
  | e => tools.className e

/-- `_incomplete_xml` -/
def incompleteXml (message : Str) : Bool :=
  let detail := tools.rt.casefold message
  contains (str "malformed nmap xml") detail &&
    (contains (str "no element found") detail || contains (str "unclosed token") detail)

/-- `name.casefold().endswith(".xml")` -/
def isXmlName (name : Str) : Bool := decide (str ".xml" <:+ tools.rt.casefold name)

/-- A path below the root that could not be read. -/
def discoveryIssue (relativePath : Str) (e : OsError) : NmapImportIssue :=
  ⟨relativePath, str "discovery", safeDetail tools e.exc, true⟩

/-- The path of an entry of a directory; the path of the root is empty. -/
def entryPath (directory name : Str) : Str :=
  if directory = [] then name else directory ++ str "/" ++ name

/-- What a walk found: its candidates and its issues. -/
abbrev Found := List Candidate × List NmapImportIssue

/-- What a walk found in the entries of a directory, which it visits in the order of their names. -/
def gather (found : List (Str × Found)) : Found :=
  let sorted := sortedBy Prod.fst found
  (sorted.flatMap fun entry => entry.2.1, sorted.flatMap fun entry => entry.2.2)

mutual

/-- The body of `for entry in entries`, and `walk` of a directory. -/
def walk (path name : Str) : Node → Found
  | .directory entries => gather (walkEntries path entries)
  | .unlisted e | .unknown e => ([], [discoveryIssue tools path e])
  | .file reading => if isXmlName tools name then ([⟨path, reading⟩], []) else ([], [])
  | .other => ([], [])

def walkEntries (directory : Str) : List (Str × Node) → List (Str × Found)
  | [] => []
  | (name, node) :: entries =>
    (name, walk (entryPath directory name) name node) :: walkEntries directory entries

end

/-- What the path given to a pass leads to. -/
inductive Target where
  | missing (e : OsError)
  | symlink
  | file (reading : Reading)
  /-- A directory with its entries, unless `os.scandir` cannot list it. -/
  | directory (entries : Except OsError (List (Str × Node)))
  | other

/-- The path given to a pass. -/
structure Source where
  absolute : Bool
  name : Str
  target : Target

/-- `raise NmapImportError(message)` -/
def importError {α : Type} (message : String) : Except Exc α := .error (.nmapImport (str message))

/-- `_discover` -/
def discover (source : Source) : Except Exc Found :=
  if source.absolute = false then importError "nmap import path must be absolute"
  else
    match source.target with
    | .missing _ => importError "nmap import path is unavailable"
    | .symlink => importError "nmap import path must not be a symlink"
    | .file reading =>
      if isXmlName tools source.name then .ok ([⟨source.name, reading⟩], [])
      else importError "nmap import file must have an .xml suffix"
    | .directory (.error e) => .ok ([], [discoveryIssue tools (str ".") e])
    | .directory (.ok entries) => .ok (gather (walkEntries tools [] entries))
    | .other => importError "nmap import path must be a regular file or directory"

/-! ## One file -/

/-- `datetime.fromtimestamp(q, tz=UTC)` of a double. The calendar ends with the year 9999, the years
of `gmtime` end with a C `int`. -/
def fromTimestamp (q : ℚ) : Except Exc Datetime :=
  let whole := if q < 0 then ⌈q⌉ else ⌊q⌋
  let micros := whole * 1000000 + roundHalfEven (roundDouble ((q - whole) * 1000000))
  let seconds := micros / 1000000
  if seconds < -2 ^ 63 ∨ 2 ^ 63 ≤ seconds then .error .overflow
  else if seconds < -67768040609740800 ∨ 67768036191676799 < seconds then .error .os
  else (Datetime.ofEpochMicros micros).elim (.error .value) .ok

/-- `d.timestamp()` -/
def timestampOf (d : Datetime) : ℚ :=
  roundDouble ((d.instant - (epochDay * microsPerDay : Nat) : Int) / 1000000)

/-- The arguments of one call. -/
structure ImportCall where
  collectorRunId : Option Nat := none
  /-- `none` is a number that is not finite. -/
  stabilitySeconds : Option ℚ
  /-- `now or datetime.now(UTC)` -/
  currentTime : Datetime

/-- `current_time.timestamp() - before.st_mtime < stability_seconds` -/
def ImportCall.isFresh (call : ImportCall) (before : Stat) : Bool :=
  call.stabilitySeconds.any fun stability =>
    roundDouble (timestampOf call.currentTime - before.mtime) < stability

/-- What becomes of a file. -/
inductive Outcome where
  | imported (hosts : Nat)
  | skipped
  | deferred
  deriving DecidableEq

/-- The identity of the file, its size and its modification time are the same. -/
def Stat.same (before after : Stat) : Bool :=
  before.device = after.device ∧ before.inode = after.inode ∧ before.size = after.size ∧
    before.mtimeNs = after.mtimeNs

/-- `_scan_time` -/
def scanTime (scan : NmapScan) (info : Stat) : Except Exc Datetime :=
  match scan.finishedAt.or scan.startedAt with
  | some time => .ok time
  | none => fromTimestamp info.mtime

/-- The rest of the loop's body, once the scan is known to be complete. -/
def importScan (call : ImportCall) (candidate : Candidate) (digest : Str) (before : Stat)
    (scan : NmapScan) (db : ScanDb) : Except Exc (ScanDb × Outcome) := do
  let observedAt ← scanTime scan before
  let observations ← scan.hosts.zipIdx.mapM fun (host, index) =>
    hostObservation tools.rt observedAt digest index host
  let modified ← fromTimestamp before.mtime
  let (db, created) ← tools.persist candidate.reading.order
    ⟨call.collectorRunId, call.currentTime.isoformat⟩
    ⟨candidate.relativePath, digest, before.size, modified, scan⟩ observations db
  .ok (db, if created then .imported scan.hosts.length else .skipped)

theorem defaultLimits_positive : 0 < min (256 * 1024 * 1024) (min 64 (min 100000 (min 65536
    (min 4096 (min 1048576 (64 * 1024)))))) := by decide

/-- `ParserLimits()` -/
def defaultLimits : ParserLimits := { positive := defaultLimits_positive }

/-- The body of `for candidate in candidates`, with the database it leaves. -/
def importCandidate (call : ImportCall) (candidate : Candidate) (db : ScanDb) :
    Except Exc (ScanDb × Outcome) := do
  let reading := candidate.reading
  system reading.opened
  let status ← system reading.status
  if status.regular = false then importError "artifact is not a regular file"
  else
    let before ← system reading.before
    if call.isFresh before then .ok (db, .deferred)
    else
      let digest := tools.rt.sha256 (← system reading.content)
      Repository.bind [.text candidate.relativePath, .text digest]
      if (db.artifacts.find (candidate.relativePath, digest)).isSome then .ok (db, .skipped)
      else
        match parseStream tools.rt defaultLimits tools.parser (reading.chunks.map system) with
        | .error (.nmapXml message) =>
          if incompleteXml tools message then .ok (db, .deferred) else .error (.nmapXml message)
        | .error e => .error e
        | .ok scan =>
          let verified ← system reading.verified
          let after ← system reading.after
          if tools.rt.sha256 verified ≠ digest ∨ before.same after = false then .ok (db, .deferred)
          else if scan.finishedAt.isNone ∧ scan.exitStatus.isNone then .ok (db, .deferred)
          else importScan tools call candidate digest before scan db

/-! ## The pass -/

/-- `except (OSError, NmapXmlError, NormalizationError, RepositoryError, sqlite3.Error)` -/
def isIsolated : Exc → Bool
  | .permission | .os | .fileNotFound | .fileExists | .nmapXml _ | .normalization _ | .repository _
  | .sqlite => true
  | _ => false

/-- `isinstance(exc, OSError | NmapXmlError)` -/
def isRetryable : Exc → Bool
  | .permission | .os | .fileNotFound | .fileExists | .nmapXml _ => true
  | _ => false

/-- The issue of a file that could not be imported. -/
def fileIssue (relativePath : Str) (e : Exc) : NmapImportIssue :=
  ⟨relativePath, if e = .permission then str "permission" else str "artifact", safeDetail tools e,
    isRetryable e⟩

/-- The counters of a pass, and the issues of its files. -/
structure Tally where
  imported : Nat := 0
  skipped : Nat := 0
  deferred : Nat := 0
  hosts : Nat := 0
  issues : List NmapImportIssue := []

def Tally.add (tally : Tally) : Outcome → Tally
  | .imported hosts => { tally with imported := tally.imported + 1, hosts := tally.hosts + hosts }
  | .skipped => { tally with skipped := tally.skipped + 1 }
  | .deferred => { tally with deferred := tally.deferred + 1 }

def Tally.report (tally : Tally) (issue : NmapImportIssue) : Tally :=
  { tally with issues := tally.issues ++ [issue] }

/-- `for candidate in candidates` -/
def importCandidates (call : ImportCall) (db : ScanDb) (tally : Tally) :
    List Candidate → ScanDb × Except Exc Tally
  | [] => (db, .ok tally)
  | candidate :: candidates =>
    match importCandidate tools call candidate db with
    | .ok (db, outcome) => importCandidates call db (tally.add outcome) candidates
    | .error e =>
      if isIsolated e then
        importCandidates call db (tally.report (fileIssue tools candidate.relativePath e)) candidates
      else (db, .error e)

/-- The summary of a pass. -/
def Tally.summary (tally : Tally) (discovered : Nat) : NmapImportSummary where
  discovered
  imported := tally.imported
  skipped := tally.skipped
  deferred := tally.deferred
  hosts := tally.hosts
  issues := sortedBy (fun issue => toLex (issue.relativePath, issue.category)) tally.issues

/-- `import_nmap_artifacts` -/
def importNmapArtifacts (call : ImportCall) (source : Source) (db : ScanDb) :
    ScanDb × Except Exc NmapImportSummary :=
  if call.stabilitySeconds.all (· < 0) then
    (db, importError "stability_seconds must be a finite non-negative number")
  else
    match discover tools source with
    | .error e => (db, .error e)
    | .ok (candidates, issues) =>
      let (db, result) := importCandidates tools call db { issues } candidates
      (db, result.map fun tally => tally.summary candidates.length)

end

end FieldDiscovery.Nmap
