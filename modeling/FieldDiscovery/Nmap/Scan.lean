import FieldDiscovery.Lib.Slots
import FieldDiscovery.Repository.Recovery

/-!
# Active scans

`run_nmap_scan` runs the protected script for the subnet that the resolver permits, under a lock of
the data root and with one collector run for each invocation. Any number of invocations share the
lock, the database and the processes; the model takes the steps between which another invocation may
run, and the environment decides how each call of the system ends.
-/

namespace FieldDiscovery.NmapScan

open Py Repository Redaction

/-! ## Calls of the system -/

/-- `SubnetDescription`, as far as the launcher reads it. -/
structure SubnetDescription where
  interface : Str
  cidr : Str
  activeTargetPermitted : Bool
  activeTargetReasons : List Str

/-- What `_open_lock` finds. -/
structure DataRoot where
  /-- `lstat`: whether it is a link and whether it is a directory; it may fail. -/
  info : Option (Bool × Bool)
  /-- The lock file can be opened without following a link. -/
  opens : Bool

/-- `_open_lock` -/
def openLock (root : DataRoot) : Except Exc Unit :=
  match root.info with
  | none => .error (.scanLaunch (str "cannot prepare the scan invocation lock"))
  | some (isLink, isDirectory) =>
    if isLink || !isDirectory then
      .error (.scanLaunch (str "configured data root must be a real directory"))
    else if root.opens then .ok ()
    else .error (.scanLaunch (str "cannot prepare the scan invocation lock"))

/-- What `_script_digest` finds. -/
inductive ScriptFile where
  | missing
  | uninspectable
  /-- `content` is `none` when it cannot be read. -/
  | found (isLink isRegular isExecutable : Bool) (content : Option (List Byte))

/-- `_script_digest` -/
def scriptDigest (rt : Runtime) : ScriptFile → Except Exc Str
  | .missing => .error .fileNotFound
  | .uninspectable => .error (.scanLaunch (str "protected nmap script cannot be inspected"))
  | .found isLink isRegular isExecutable content =>
    if isLink || !isRegular then
      .error (.scanLaunch (str "protected nmap script must be a regular non-link file"))
    else if !isExecutable then
      .error (.scanLaunch (str "protected nmap script is not executable"))
    else
      match content with
      | none => .error (.scanLaunch (str "protected nmap script cannot be read"))
      | some data => .ok (rt.sha256 data)

/-- `_safe_environment` -/
def safeEnvironment (description : SubnetDescription) : List (Str × Str) :=
  [(str "PATH", str "/usr/local/sbin:/usr/local/bin:/usr/sbin:/usr/bin:/sbin:/bin"),
    (str "LC_ALL", str "C"),
    (str "INTERFACE_OVERRIDE", description.interface),
    (str "CIDR_OVERRIDE", description.cidr)]

/-- What is checked before anything is touched; the resolver may raise. -/
def approve (timeoutSeconds : Int) (resolution : Except Exc SubnetDescription) :
    Except Exc SubnetDescription :=
  if 1 ≤ timeoutSeconds ∧ timeoutSeconds ≤ 86400 then
    match resolution with
    | .error exc => .error exc
    | .ok description =>
      if description.activeTargetPermitted then .ok description
      else .error (.subnetResolution
        (str "active scan target refused: " ++ join (str "; ") description.activeTargetReasons))
  else .error (.scanLaunch (str "scan timeout must be from 1 to 86400 seconds"))

/-- How `process.wait` ends. -/
inductive WaitEnd where
  | returned (returncode : Int)
  /-- `subprocess.TimeoutExpired` -/
  | timedOut
  deriving DecidableEq

/-- How `os.killpg` ends. -/
inductive KillEnd where
  | delivered
  /-- `ProcessLookupError`: the group has no process left. -/
  | gone
  /-- Any other `OSError`. -/
  | denied
  deriving DecidableEq

/-! ## Invocations -/

inductive ScanStatus where
  | succeeded
  | failed
  | cancelled
  | concurrent
  deriving DecidableEq

/-- The status of the collector run. -/
def ScanStatus.recorded : ScanStatus → RunStatus
  | succeeded => .succeeded
  | failed | concurrent => .failed
  | cancelled => .cancelled

/-- `ScanResult` without the duration. -/
structure ScanResult where
  status : ScanStatus
  exitCode : Int
  interface : Str
  cidr : Str
  startedAt : Str
  finishedAt : Str
  scriptSha256 : Option Str

def exitTimeout : Int := 124

def exitMissing : Int := 127

def exitConcurrent : Int := 75

/-- `exit_code` and `status` of a script that has ended. -/
def scriptOutcome (returncode : Int) : ScanStatus × Int :=
  let exitCode := if returncode ≥ 0 then returncode else 128 + |returncode|
  (if exitCode = 0 then .succeeded else .failed, exitCode)

/-- Where `_terminate_group` is. -/
inductive Termination where
  /-- Before `SIGTERM`. -/
  | terminate
  /-- In `process.wait(timeout=5)`. -/
  | grace
  /-- Before `SIGKILL`. -/
  | kill
  /-- In the last `process.wait()`. -/
  | last
  deriving DecidableEq

/-- Where an invocation is. -/
inductive Phase where
  /-- Before `_open_lock`. -/
  | approved
  /-- Before `flock`. -/
  | opened
  /-- Another invocation has the lock; before `start_run`. -/
  | refused
  /-- Before `finish_run` of a refused invocation. -/
  | refusedRun (timestamp : Utc)
  /-- It has the lock; before `start_run`. -/
  | locked
  /-- Before `_script_digest`. -/
  | recorded (started : Utc)
  /-- Before `process_factory`. -/
  | digested (started : Utc) (digest : Str)
  /-- In `process.wait(timeout=timeout_seconds)`. -/
  | waiting (started : Utc) (digest : Str)
  /-- In `_terminate_group`. -/
  | terminating (started : Utc) (digest : Str) (stage : Termination)
  /-- Before `finish_run`. -/
  | ended (started : Utc) (digest : Option Str) (status : ScanStatus) (exitCode : Int)
  /-- Before the lock file and the repository are closed. -/
  | closing (result : ScanResult)
  | returned (result : ScanResult)
  | raised (exc : Exc)

namespace Phase

/-- The invocation has the lock, and its run is not finished. -/
def isLocked : Phase → Bool
  | locked | recorded _ | digested _ _ | waiting _ _ | terminating _ _ _ => true
  | _ => false

/-- It has a process that it has not waited for. -/
def hasProcess : Phase → Bool
  | waiting _ _ | terminating _ _ _ => true
  | _ => false

/-- It has started its collector run. -/
def hasRun : Phase → Bool
  | refusedRun _ | recorded _ | digested _ _ | waiting _ _ | terminating _ _ _ | ended _ _ _ _
  | closing _ | returned _ => true
  | approved | opened | refused | locked | raised _ => false

/-- The status that its collector run should have. -/
def runStatus : Phase → RunStatus
  | closing result | returned result => result.status.recorded
  | _ => .running

end Phase

/-- An invocation that passed approval. -/
structure Invocation where
  description : SubnetDescription
  phase : Phase := .approved
  /-- `run_id` -/
  run : Option Nat := none

/-! ## The system -/

/-- A script that was started, with its environment. -/
structure Launch where
  invocation : Nat
  environment : List (Str × Str)

/-- What the invocations share. -/
structure System where
  clock : Utc
  db : RunDb
  /-- The invocation that has the lock. -/
  lock : Option Nat := none
  /-- The invocations whose process has been started and not reaped. -/
  unreaped : List Nat := []
  launches : List Launch := []
  invocations : List Invocation := []

/-- A step of an invocation, with what the system answers. -/
inductive Event where
  | openLock (root : DataRoot)
  | flock
  | startRun
  | scriptDigest (file : ScriptFile)
  /-- `process_factory`; it may raise an `OSError`. -/
  | start (ok : Bool)
  | wait (e : WaitEnd)
  | killpg (e : KillEnd)
  | finishRun
  | close

inductive Action where
  /-- The clock goes on. -/
  | tick (now : Utc)
  | call (timeoutSeconds : Int) (resolution : Except Exc SubnetDescription)
  /-- The kernel reaps a process by itself, where `SIGCHLD` is ignored. -/
  | autoReap (i : Nat)
  | event (i : Nat) (e : Event)

namespace System

/-- Invocation `i` moves on. -/
def put (s : System) (i : Nat) (inv : Invocation) (phase : Phase) : System :=
  { s with invocations := s.invocations.set i { inv with phase } }

/-- Its process is reaped. -/
def reap (s : System) (i : Nat) : System := { s with unreaped := s.unreaped.erase i }

section

variable (rt : Runtime) (r : Redactor)

/-- `repository.start_run`. The model has no step where it raises. -/
def startRun (s : System) (i : Nat) (inv : Invocation) (phase : Phase) : Option System :=
  match Repository.startRun rt r none (str "nmap-script") s.clock.isoformat
      (some inv.description.interface) (some inv.description.cidr) ⟨s.db, none⟩ with
  | (.ok runId, c) =>
    some { s.put i { inv with run := some runId } phase with db := c.committed }
  | (.error _, _) => none

/-- `repository.finish_run` -/
def finishRun (s : System) (i : Nat) (inv : Invocation) (result : ScanResult) (finished : Utc) :
    Option System :=
  match inv.run with
  | none => none
  | some runId =>
    match Repository.finishRun runId result.status.recorded finished.isoformat 0 ⟨s.db, none⟩ with
    | (.ok (), c) => some { s.put i inv (.closing result) with db := c.committed }
    | (.error _, _) => none

/-- One step of `run_nmap_scan`. -/
def eventStep (s : System) (i : Nat) (inv : Invocation) : Phase → Event → Option System
  | .approved, .openLock root =>
    match NmapScan.openLock root with
    | .error exc => some (s.put i inv (.raised exc))
    | .ok () => some (s.put i inv .opened)
  | .opened, .flock =>
    match s.lock with
    | none => some { s.put i inv .locked with lock := some i }
    | some _ => some (s.put i inv .refused)
  | .refused, .startRun => s.startRun rt r i inv (.refusedRun s.clock)
  | .refusedRun timestamp, .finishRun =>
    s.finishRun i inv
      { status := .concurrent
        exitCode := exitConcurrent
        interface := inv.description.interface
        cidr := inv.description.cidr
        startedAt := timestamp.isoformat
        finishedAt := timestamp.isoformat
        scriptSha256 := none } timestamp
  | .locked, .startRun => s.startRun rt r i inv (.recorded s.clock)
  | .recorded started, .scriptDigest file =>
    match NmapScan.scriptDigest rt file with
    | .error _ => some (s.put i inv (.ended started none .failed exitMissing))
    | .ok digest => some (s.put i inv (.digested started digest))
  | .digested started digest, .start ok =>
    if ok then
      some
        { s.put i inv (.waiting started digest) with
          unreaped := s.unreaped ++ [i]
          launches := s.launches ++ [⟨i, safeEnvironment inv.description⟩] }
    else some (s.put i inv (.ended started (some digest) .failed exitMissing))
  | .waiting started digest, .wait e =>
    match e with
    | .returned returncode =>
      let (status, exitCode) := scriptOutcome returncode
      some ((s.put i inv (.ended started (some digest) status exitCode)).reap i)
    | .timedOut => some (s.put i inv (.terminating started digest .terminate))
  | .terminating started digest stage, e =>
    let cancelled := s.put i inv (.ended started (some digest) .cancelled exitTimeout)
    -- an `OSError` that is no `ProcessLookupError` reaches the handler of the start of the process
    let failed := s.put i inv (.ended started (some digest) .failed exitMissing)
    match stage, e with
    | .terminate, .killpg .delivered => some (s.put i inv (.terminating started digest .grace))
    | .kill, .killpg .delivered => some (s.put i inv (.terminating started digest .last))
    | .terminate, .killpg .gone | .kill, .killpg .gone =>
      if i ∈ s.unreaped then none else some cancelled
    | .terminate, .killpg .denied | .kill, .killpg .denied => some failed
    | .grace, .wait (.returned _) | .last, .wait (.returned _) => some (cancelled.reap i)
    | .grace, .wait .timedOut => some (s.put i inv (.terminating started digest .kill))
    | _, _ => none
  | .ended started digest status exitCode, .finishRun =>
    s.finishRun i inv
      { status
        exitCode
        interface := inv.description.interface
        cidr := inv.description.cidr
        startedAt := started.isoformat
        finishedAt := s.clock.isoformat
        scriptSha256 := digest } s.clock
  | .closing result, .close =>
    some
      { s.put i inv (.returned result) with
        lock := if s.lock = some i then none else s.lock }
  | _, _ => none

def step (s : System) : Action → Option System
  | .tick now => if s.clock ≤ now then some { s with clock := now } else none
  | .call timeoutSeconds resolution =>
    match approve timeoutSeconds resolution with
    | .error _ => some s
    | .ok description => some { s with invocations := s.invocations ++ [{ description }] }
  | .autoReap i => some (s.reap i)
  | .event i e =>
    match s.invocations[i]? with
    | none => none
    | some inv => s.eventStep rt r i inv inv.phase e

end

end System

end FieldDiscovery.NmapScan
