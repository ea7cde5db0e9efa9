import FieldDiscovery.Artifacts.SafeFilename
import FieldDiscovery.Artifacts.Store
import FieldDiscovery.Collectors.Orchestrator
import FieldDiscovery.Repository.Artifacts

/-!
# A read-only SSH session

`NetworkDeviceSSHCollector.collect`: it selects a platform, connects, switches paging off, sends the
commands of the platform one after the other, stores each answer and closes the session. The device,
the secret resolver, the clock and the cancellation event are the environment; what the device
answers may depend on everything that was sent before.

The collector sends a front part of one fixed script between a `connect` and a `close`
(`collect_reads_only`). The loop is the only place where the script can stop, so the proof is one
induction over the commands: whatever an answer does, the next event is the next command or none.
-/

namespace FieldDiscovery.Ssh

open Py Redaction Repository Artifacts Collectors

/-! ## Exceptions -/

/-- What a collection raises. -/
inductive SshExc where
  /-- `SSHCollectionError`, a `CollectorError`. -/
  | sshCollection (message : Str)
  /-- `UnknownPlatformError`, an `SSHCollectionError`. -/
  | unknownPlatform (message : Str)
  /-- `CommandRejectedError`, an `SSHCollectionError`. -/
  | commandRejected (message : Str)
  /-- Any other exception. -/
  | other (e : Exc)

/-! ## Platforms and their commands -/

inductive Platform where
  | ciscoIos
  | hpComware
  | arubaAos
  deriving DecidableEq

def Platform.name : Platform → Str
  | ciscoIos => str "cisco_ios"
  | hpComware => str "hp_comware"
  | arubaAos => str "aruba_aos"

/-- `_PLATFORM_ALIASES` -/
def platformAliases : List (Str × Platform) :=
  [(str "cisco", .ciscoIos), (str "cisco_ios", .ciscoIos), (str "ios", .ciscoIos),
    (str "hp", .hpComware), (str "hpe", .hpComware), (str "hp_comware", .hpComware),
    (str "comware", .hpComware), (str "aruba", .arubaAos), (str "aruba_aos", .arubaAos),
    (str "arubaos-switch", .arubaAos), (str "procurve", .arubaAos)]

structure CommandProfile where
  pagingCommand : Str
  commands : List Str

/-- `COMMAND_PROFILES` -/
def commandProfiles : Platform → CommandProfile
  | .ciscoIos => ⟨str "terminal length 0",
      [str "show version", str "show inventory", str "show interfaces status",
        str "show interfaces", str "show vlan brief", str "show mac address-table",
        str "show ip arp", str "show lldp neighbors detail", str "show cdp neighbors detail",
        str "show power inline", str "show environment all"]⟩
  | .hpComware => ⟨str "screen-length disable",
      [str "display version", str "display device manuinfo", str "display interface brief",
        str "display interface", str "display vlan all", str "display mac-address",
        str "display arp", str "display lldp neighbor-information verbose",
        str "display poe device", str "display environment"]⟩
  | .arubaAos => ⟨str "no page",
      [str "show system", str "show version", str "show modules", str "show interfaces brief",
        str "show interfaces", str "show vlans", str "show mac-address", str "show arp",
        str "show lldp info remote-device detail", str "show power-over-ethernet brief",
        str "show system temperature"]⟩

/-- `NETMIKO_SESSION_CONTROL_ALLOWLIST` -/
def sessionControls : Platform → List Str
  | .ciscoIos => [str "terminal width 511", str "terminal length 0", str "exit"]
  | .hpComware => [str "screen-length disable", str "quit"]
  | .arubaAos => [str "no page"]

/-- `approved_commands` -/
def approvedCommands (platform : Platform) : List Str :=
  (sessionControls platform ++ (commandProfiles platform).pagingCommand ::
    (commandProfiles platform).commands).eraseDups

/-- `require_approved_command` -/
def requireApprovedCommand (platform : Platform) (command : Str) : Except SshExc Str :=
  if command ∈ approvedCommands platform then .ok command
  else .error (.commandRejected (str "SSH command is outside the exact read-only allowlist"))

section

variable (rt : Runtime)

/-- `\bios(?:-xe)?\b` -/
def iosWord : Pattern :=
  [.re (.seqs [.boundary rt.isWord, .word "ios", .opt (.word "-xe"), .boundary rt.isWord])]

/-- What one text says about the platform. -/
def platformsIn (item : Str) : List Platform :=
  let folded := rt.casefold item
  (if contains (str "cisco") folded || (search (iosWord rt) folded).isSome then [.ciscoIos] else []) ++
    (if contains (str "comware") folded || contains (str "h3c") folded then [.hpComware] else []) ++
    if contains (str "aruba") folded || contains (str "procurve") folded ||
      contains (str "arubaos-switch") folded then [.arubaAos] else []

/-- `select_platform` -/
def selectPlatform (explicit : Option Str) (evidence : List Str) : Except SshExc Platform :=
  match explicit with
  | some name =>
    match Dict.get platformAliases (rt.casefold (strip name)) with
    | some platform => .ok platform
    | none => .error (.unknownPlatform (str "explicit SSH platform is not supported"))
  | none =>
    match (evidence.flatMap (platformsIn rt)).eraseDups with
    | [platform] => .ok platform
    | _ => .error (.unknownPlatform
        (str "SSH platform evidence is absent, ambiguous, or unsupported"))

end

/-! ## The parties -/

/-- What a collector sends. -/
inductive Event where
  | connect (target : Str) (platform : Platform) (hostKeyPolicy : Str)
  | run (command : Str) (structured : Bool)
  | close

/-- The state around a collector: what was sent, the directory of the artifacts and the database. -/
structure Site where
  events : List Event
  directory : Directory
  db : StoredDb

/-- A credential profile. -/
abbrev Credential := List (Str × Str)

/-- What a collector does not decide. An answer may depend on all that was sent. -/
structure Environment where
  resolve : CredentialReference → Except SshExc Credential
  connect : Str → Platform → Credential → Except SshExc Unit
  answer : List Event → Except SshExc Redaction.Value
  close : List Event → Except SshExc Unit
  /-- `context.cancellation.is_set()` before each command. -/
  cancelled : Nat → Bool
  clock : Nat → Utc
  uuids : Nat → Uuid × Uuid
  /-- How `json.dumps` takes a value that is neither text nor container. -/
  scalar : Str → Except Exc Json
  /-- SQLite's `json_valid`. -/
  jsonValid : Str → Bool

/-- `NetworkDeviceSSHCollector`, with the redactor of its repository. -/
structure SshCollector where
  deploymentId : Int
  store : ArtifactStore
  redactor : Redactor
  platform : Option Str := none
  evidence : List Str := []
  hostKeyPolicy : Str := str "strict"
  /-- In microseconds. -/
  retention : Int := 30 * microsPerDay

/-- A call of the collector. -/
abbrev SshCall := Call Site SshExc

section

variable {α : Type}

def noteEvent (event : Event) : SshCall Unit := fun s =>
  (.ok (), { s with events := s.events ++ [event] })

/-- What comes back after all that was sent. -/
def hear (f : List Event → Except SshExc α) : SshCall α := fun s => (f s.events, s)

/-- A call on the artifacts. -/
def onDirectory (m : Call (Traced Directory) Exc α) : SshCall α := fun s =>
  ((m (.start s.directory)).1.mapError .other,
    { s with directory := (m (.start s.directory)).2.current })

/-- A call on the repository, which leaves no transaction open. -/
def onDb (m : Call (Sql.Connection StoredDb) Exc α) : SshCall α := fun s =>
  ((m ⟨s.db, none⟩).1.mapError .other, { s with db := (m ⟨s.db, none⟩).2.committed })

end

/-! ## One output -/

/-- `MAX_COMMAND_OUTPUT_BYTES` -/
def maxCommandOutputBytes : Nat := 4 * 1024 * 1024

/-- `_PAGING_MARKER` -/
def pagingMarker : Pattern :=
  let spaces := Re.chr isSpace
  [.re (.alts
    [.seqs [.word "--", .star spaces, .wordIgnoreCase "more", .star spaces, .word "--"],
      .seqs [.wordIgnoreCase "press", .plus spaces,
        .alt (.seqs [.wordIgnoreCase "any", .plus spaces, .wordIgnoreCase "key"])
          (.wordIgnoreCase "space")],
      .seqs [.word "<---", .star spaces, .wordIgnoreCase "more", .star spaces, .word "--->"]])]

/-- An output as it is to be stored. -/
structure Reading where
  payload : Str
  parsed : Redaction.Value
  issues : List Issue

/-- The reading without paging markers, with an issue if there was one. -/
def Reading.paged (command : Str) (reading : Reading) : Reading :=
  if (search pagingMarker reading.payload).isSome then
    { reading with
      payload := rewrite pagingMarker (fun _ => str "[PAGING]") reading.payload
      issues := reading.issues ++
        [⟨str "ssh_paging", str "paging marker remained for " ++ command, false⟩] }
  else reading

/-- `len(output) if isinstance(output, list) else 1` -/
def countItems : Redaction.Value → Nat
  | .list items => items.length
  | _ => 1

/-- `len(payload.encode("utf-8", errors="replace"))` -/
def encodedLength (payload : Str) : Nat :=
  (payload.flatMap fun c => utf8Char (if isSurrogate c then cp '?' else c)).length

/-- `_command_fact` -/
def commandFact (rt : Runtime) (command : Str) : Str :=
  (stripBy (· == cp '_') (rewriteRuns 1 (fun c => !(isLower c || isDigit c)) (str "_")
    (rt.casefold command))).take 80

/-- The literal `0.9`. -/
def parsedConfidence : ℚ := 8106479329266893 / 9007199254740992

/-- The literal `0.6`. -/
def rawConfidence : ℚ := 5404319552844595 / 9007199254740992

/-- The row of an artifact that was written, as `register_artifact` is given it. -/
def writtenRow (deploymentId : Int) (source : Str) (metadata : ArtifactMetadata) :
    Except Exc ArtifactRow :=
  match metadata.sha256, metadata.mediaType, metadata.sizeBytes, metadata.createdAt with
  | .string sha256Digest, .string mediaType, .int sizeBytes, .string createdAt =>
    .ok
      { deploymentId := some deploymentId, collectorRunId := none
        relativePath := str "ssh/" ++ metadata.filename, sha256Digest, mediaType, sizeBytes
        collectedAt := createdAt, importedAt := some createdAt, source, observedAt := createdAt }
  | _, _, _, _ => .error .type

section

variable (rt : Runtime) (env : Environment) (c : SshCollector)

/-- The payload of an output, what was parsed of it, and the issue of a raw text. -/
def readOutput (command : Str) (output : Redaction.Value) : Except SshExc Reading :=
  match output with
  | .str s => .ok ⟨s, .mapping [(str "raw_artifact_only", .other (str "true"))],
      [⟨str "ssh_parse_fallback", str "no structured parser for " ++ command, false⟩]⟩
  | .list _ | .mapping _ => do
    let json ← (toJson env.scalar output).mapError .other
    .ok ⟨json.dumps (.compact false), output, []⟩
  | .tuple _ | .other _ =>
    .error (.sshCollection (str "SSH parser returned an unsupported result type"))

/-- `f"{index:02d}-{platform}-{digest}"` with `.txt`, made safe. -/
def outputName (target : Str) (platform : Platform) (command : Str) (observed : Utc) (index : Nat) :
    Except Exc Str := do
  let label ← encode (join (str "|") [target, platform.name, command, observed.isoformat])
  safeFilename rt ⟨[], []⟩ (padNat 2 index ++ str "-" ++ platform.name ++ str "-" ++
    (rt.sha256 label).take 12) (str ".txt")

/-- What `record_observation` is given. -/
def outputFact (target : Str) (platform : Platform) (command : Str) (reading : Reading)
    (row : ArtifactRow) : FactArguments where
  deploymentId := c.deploymentId
  subjectType := str "network_device_target"
  subjectId := none
  factType := str "ssh." ++ commandFact rt command
  factValue := .mapping [(str "target", .str target), (str "command", .str command),
    (str "value", reading.parsed), (str "artifact", .str row.relativePath)]
  confidence := if reading.issues = [] then parsedConfidence else rawConfidence
  inferred := false
  source := str "ssh:" ++ platform.name
  observedAt := row.observedAt

/-- The part of `_persist_output` that writes. -/
def storeReading (target : Str) (platform : Platform) (command : Str) (index : Nat)
    (reading : Reading) : SshCall Unit := do
  let observed := env.clock index
  let filename ← Call.ofExcept
    ((outputName rt target platform command observed index).mapError .other)
  let metadata ← onDirectory (writeText rt c.store
    ⟨filename, str "ssh", c.retention, str "text/plain", observed⟩ (env.uuids index) reading.payload)
  let row ← Call.ofExcept
    ((writtenRow c.deploymentId (str "ssh:" ++ platform.name) metadata).mapError .other)
  let _ ← onDb (registerArtifact rt c.redactor row)
  let _ ← onDb (recordObservation rt c.redactor env.jsonValid
    (outputFact rt c target platform command reading row))

/-- `_persist_output` -/
def persistOutput (target : Str) (platform : Platform) (command : Str) (output : Redaction.Value)
    (index : Nat) : SshCall (Nat × List Issue) := do
  let reading ← Call.ofExcept (readOutput env command output)
  if maxCommandOutputBytes < encodedLength reading.payload then
    Call.raise (.sshCollection (str "SSH command output exceeds the artifact size limit"))
  else
    storeReading rt env c target platform command index (reading.paged command)
    pure (countItems output, (reading.paged command).issues)

/-! ## The session -/

/-- `await session.run(command, structured=structured)` -/
def runCommand (command : Str) (structured : Bool) : SshCall Redaction.Value := do
  noteEvent (.run command structured)
  hear env.answer

/-- `await session.close()` -/
def closeSession : SshCall Unit := do
  noteEvent .close
  hear env.close

/-- `except SSHCollectionError as exc`; authentication and retryable errors are none. -/
def commandIssue : SshExc → SshCall (Nat × List Issue)
  | .sshCollection message | .unknownPlatform message | .commandRejected message =>
    pure (0, [⟨str "ssh_command", message, false⟩])
  | .other e => Call.raise (.other e)

/-- The body of the `try` statement of one command. -/
def collectCommand (target : Str) (platform : Platform) (index : Nat) (command : Str) :
    SshCall (Nat × List Issue) := do
  let command ← Call.ofExcept (requireApprovedCommand platform command)
  let output ← runCommand env command true
  persistOutput rt env c target platform command output index

/-- `for index, command in enumerate(COMMAND_PROFILES[platform].commands)` -/
def collectCommands (target : Str) (platform : Platform) :
    Nat → CollectorResult → List Str → SshCall CollectorResult
  | _, result, [] => pure result
  | index, result, command :: commands => do
    if env.cancelled index then Call.raise (.other .cancelled)
    else
      let (count, issues) ← Call.tryExcept (collectCommand rt env c target platform index command)
        commandIssue
      collectCommands target platform (index + 1)
        ⟨result.itemCount + count, result.issues ++ issues⟩ commands

/-- The `try` block of `collect`. -/
def collectSession (target : Str) (platform : Platform) : SshCall CollectorResult := do
  let paging ← Call.ofExcept
    (requireApprovedCommand platform (commandProfiles platform).pagingCommand)
  let _ ← runCommand env paging false
  collectCommands rt env c target platform 0 {} (commandProfiles platform).commands

/-- `collect` -/
def collect (context : Context) : SshCall CollectorResult :=
  match context.credentialRef with
  | none => Call.raise
      (.sshCollection (str "SSH collection requires an explicit credential reference"))
  | some reference => do
    let platform ← Call.ofExcept (selectPlatform rt c.platform c.evidence)
    let credential ← Call.ofExcept (env.resolve reference)
    noteEvent (.connect context.target platform c.hostKeyPolicy)
    Call.ofExcept (env.connect context.target platform credential)
    Call.tryFinally (collectSession rt env c context.target platform) (closeSession env)

end

/-! ## What is sent -/

/-- The events of a session between `connect` and `close`, when nothing stops it. -/
def script (platform : Platform) : List Event :=
  .run (commandProfiles platform).pagingCommand false ::
    (commandProfiles platform).commands.map fun command => .run command true

/-- A command that shows something, or one that only concerns the display of the session. -/
def IsReading (command : Str) : Prop :=
  str "show " <+: command ∨ str "display " <+: command ∨
    command ∈ [str "terminal length 0", str "screen-length disable", str "no page"]

instance (command : Str) : Decidable (IsReading command) := inferInstanceAs (Decidable (_ ∨ _))

/-- What a collection has sent: nothing, a connection that failed, or a session with a front part of
the script of its platform, and with all of it if the collection returned. -/
inductive Sent (platform : Platform) (connect : Event) (returned : Prop) : List Event → Prop
  | nothing (h : ¬ returned) : Sent platform connect returned []
  | refused (h : ¬ returned) : Sent platform connect returned [connect]
  | session {front : List Event} (h : front <+: script platform)
      (hall : returned → front = script platform) :
      Sent platform connect returned (connect :: front ++ [.close])

theorem commands_approved (platform : Platform) :
    ∀ command ∈ (commandProfiles platform).pagingCommand :: (commandProfiles platform).commands,
      command ∈ approvedCommands platform ∧ IsReading command := by
  cases platform <;> decide

section

variable {α : Type} {s : Site} {P : α → Site → Prop} {E : SshExc → Site → Prop}

theorem after_noteEvent {event : Event} {P : Unit → Site → Prop} :
    Call.After (noteEvent event) s P E ↔ P () { s with events := s.events ++ [event] } := Iff.rfl

theorem after_hear {f : List Event → Except SshExc α} (hP : ∀ a, f s.events = .ok a → P a s)
    (hE : ∀ e, f s.events = .error e → E e s) : Call.After (hear f) s P E :=
  Call.after_ofExcept hP hE

theorem after_onDirectory {m : Call (Traced Directory) Exc α} :
    Call.After (onDirectory m) s P E ↔
      Call.After m (.start s.directory) (fun a t => P a { s with directory := t.current })
        fun e t => E (.other e) { s with directory := t.current } := by
  unfold onDirectory
  cases h : m (.start s.directory) with
  | mk x t => cases x <;> simp [Call.After, h, Except.mapError]

theorem after_onDb {m : Call (Sql.Connection StoredDb) Exc α} :
    Call.After (onDb m) s P E ↔ Call.After m ⟨s.db, none⟩
      (fun a c => P a { s with db := c.committed }) fun e c =>
        E (.other e) { s with db := c.committed } := by
  unfold onDb
  cases h : m ⟨s.db, none⟩ with
  | mk x c => cases x <;> simp [Call.After, h, Except.mapError]

end

section

variable {rt : Runtime} {env : Environment} {c : SshCollector} {platform : Platform}

/-- Storing an output sends nothing. -/
theorem persistOutput_events (target command : Str) (output : Redaction.Value) (index : Nat)
    (s : Site) : Call.After (persistOutput rt env c target platform command output index) s
      (fun _ s' => s'.events = s.events) fun _ s' => s'.events = s.events := by
  have hstore : ∀ reading, Call.After (storeReading rt env c target platform command index reading)
      s (fun _ s' => s'.events = s.events) fun _ s' => s'.events = s.events := by
    intro reading
    unfold storeReading
    rw [Call.after_bind]
    refine Call.after_ofExcept (fun filename _ => ?_) fun _ _ => rfl
    rw [Call.after_bind, after_onDirectory]
    refine .of_forall (fun metadata t => ?_) fun _ _ => rfl
    rw [Call.after_bind]
    refine Call.after_ofExcept (fun row _ => ?_) fun _ _ => rfl
    rw [Call.after_bind, after_onDb]
    refine .of_forall (fun _ _ => ?_) fun _ _ => rfl
    rw [Call.after_bind, after_onDb]
    exact .of_forall (fun _ _ => rfl) fun _ _ => rfl
  unfold persistOutput
  rw [Call.after_bind]
  refine Call.after_ofExcept (fun reading _ => ?_) fun _ _ => rfl
  split
  · exact Call.after_raise.mpr rfl
  · rw [Call.after_bind]
    exact (hstore _).mono (fun _ _ h => h) fun _ _ h => h

theorem runCommand_events (command : Str) (structured : Bool) (s : Site) :
    Call.After (runCommand env command structured) s
      (fun _ s' => s'.events = s.events ++ [.run command structured])
      fun _ s' => s'.events = s.events ++ [.run command structured] := by
  unfold runCommand
  rw [Call.after_bind]
  exact after_hear (fun _ _ => rfl) fun _ _ => rfl

theorem closeSession_events (s : Site) : Call.After (closeSession env) s
    (fun _ s' => s'.events = s.events ++ [.close]) fun _ s' => s'.events = s.events ++ [.close] := by
  unfold closeSession
  rw [Call.after_bind]
  exact after_hear (fun _ _ => rfl) fun _ _ => rfl

/-- The command is sent, and nothing else, whatever comes of it. -/
theorem collectCommand_events {target command : Str} {index : Nat}
    (happroved : command ∈ approvedCommands platform) (s : Site) :
    Call.After (collectCommand rt env c target platform index command) s
      (fun _ s' => s'.events = s.events ++ [.run command true])
      fun _ s' => s'.events = s.events ++ [.run command true] := by
  have hchecked : requireApprovedCommand platform command = .ok command := if_pos happroved
  unfold collectCommand
  rw [hchecked, Call.after_bind]
  refine Call.after_ofExcept (fun command' h => ?_) fun _ h => by cases h
  obtain rfl := Except.ok.inj h
  rw [Call.after_bind]
  refine (runCommand_events command true s).mono (fun output s' hrun => ?_) fun _ _ hrun => hrun
  exact (persistOutput_events target command output index s').mono
    (fun _ _ h => h.trans hrun) fun _ _ h => h.trans hrun

theorem tryCommand_events {target command : Str} {index : Nat}
    (happroved : command ∈ approvedCommands platform) (s : Site) :
    Call.After (Call.tryExcept (collectCommand rt env c target platform index command)
      commandIssue) s
      (fun _ s' => s'.events = s.events ++ [.run command true])
      fun _ s' => s'.events = s.events ++ [.run command true] := by
  rw [Call.after_tryExcept]
  refine (collectCommand_events happroved s).mono (fun _ _ h => h) fun e s' h => ?_
  cases e <;> exact h

/-- The commands are sent in their order, up to the one that raises. -/
theorem collectCommands_events {target : Str} {commands : List Str}
    (happroved : ∀ command ∈ commands, command ∈ approvedCommands platform) (index : Nat)
    (result : CollectorResult) (s : Site) :
    Call.After (collectCommands rt env c target platform index result commands) s
      (fun _ s' => s'.events = s.events ++ commands.map fun command => .run command true)
      fun _ s' => ∃ front, front <+: (commands.map fun command => Event.run command true) ∧
        s'.events = s.events ++ front := by
  induction commands generalizing index result s with
  | nil => exact Call.after_pure.mpr (List.append_nil _).symm
  | cons command commands ih =>
    obtain ⟨hcommand, hcommands⟩ := List.forall_mem_cons.mp happroved
    unfold collectCommands
    split
    · exact Call.after_raise.mpr ⟨[], List.nil_prefix, (List.append_nil _).symm⟩
    · rw [Call.after_bind]
      refine (tryCommand_events hcommand s).mono (fun outcome s' hsent => ?_) fun _ _ hsent =>
        ⟨[.run command true], List.prefix_append [_] _, hsent⟩
      refine (ih hcommands (index + 1) _ s').mono (fun _ _ h => ?_) fun _ _ h => ?_
      · rw [h, hsent, List.append_assoc]
        rfl
      · obtain ⟨front, hfront, h⟩ := h
        refine ⟨.run command true :: front, List.cons_prefix_cons.mpr ⟨rfl, hfront⟩, ?_⟩
        rw [h, hsent, List.append_assoc]
        rfl

theorem collectSession_events (target : Str) (s : Site) :
    Call.After (collectSession rt env c target platform) s
      (fun _ s' => s'.events = s.events ++ script platform)
      fun _ s' => ∃ front, front <+: script platform ∧ s'.events = s.events ++ front := by
  have happroved := commands_approved platform
  obtain ⟨hpaging, hcommands⟩ := List.forall_mem_cons.mp happroved
  have hchecked : requireApprovedCommand platform (commandProfiles platform).pagingCommand =
    .ok (commandProfiles platform).pagingCommand := if_pos hpaging.1
  unfold collectSession
  rw [hchecked, Call.after_bind]
  refine Call.after_ofExcept (fun paging h => ?_) fun _ h => by cases h
  obtain rfl := Except.ok.inj h
  rw [Call.after_bind]
  refine (runCommand_events _ false s).mono (fun _ s' hsent => ?_) fun _ _ hsent =>
    ⟨_, List.prefix_append [_] _, hsent⟩
  refine (collectCommands_events (fun command h => (hcommands command h).1) 0 {} s').mono
    (fun _ _ h => ?_) fun _ _ h => ?_
  · rw [h, hsent, List.append_assoc]
    rfl
  · obtain ⟨front, hfront, h⟩ := h
    refine ⟨_, List.cons_prefix_cons.mpr ⟨rfl, hfront⟩, ?_⟩
    rw [h, hsent, List.append_assoc]
    rfl

end

section

variable {rt : Runtime} {env : Environment} {c : SshCollector} {context : Context}

/-- The part of `collect` that follows the selection of a platform. -/
theorem session_events (platform : Platform) (target : Str) (s : Site) :
    Call.After (Call.tryFinally (collectSession rt env c target platform) (closeSession env)) s
      (fun _ s' => s'.events = s.events ++ (script platform ++ [.close]))
      fun _ s' => ∃ front, front <+: script platform ∧
        s'.events = s.events ++ (front ++ [.close]) := by
  rw [Call.after_tryFinally]
  refine (collectSession_events target s).mono (fun _ s' hsent => ?_) fun _ s' hsent => ?_
  · refine (closeSession_events s').mono (fun _ _ h => ?_) fun _ _ h => ?_
    · rw [h, hsent, List.append_assoc]
    · exact ⟨script platform, List.prefix_rfl, by rw [h, hsent, List.append_assoc]⟩
  · obtain ⟨front, hfront, hsent⟩ := hsent
    refine (closeSession_events s').mono (fun _ _ h => ?_) fun _ _ h => ?_
    · exact ⟨front, hfront, by rw [h, hsent, List.append_assoc]⟩
    · exact ⟨front, hfront, by rw [h, hsent, List.append_assoc]⟩

variable (rt c context) in
/-- What a collection of the context adds to what was sent. -/
def Course (returned : Prop) (before after : List Event) : Prop :=
  ∃ platform sent, after = before ++ sent ∧
    Sent platform (.connect context.target platform c.hostKeyPolicy) returned sent ∧
    (sent ≠ [] → selectPlatform rt c.platform c.evidence = .ok platform)

theorem Course.nothing (events : List Event) : Course rt c context False events events :=
  ⟨.ciscoIos, [], (List.append_nil _).symm, .nothing id, fun h => absurd rfl h⟩

theorem collect_events (s : Site) : Call.After (collect rt env c context) s
    (fun _ s' => Course rt c context True s.events s'.events)
    fun _ s' => Course rt c context False s.events s'.events := by
  unfold collect
  cases context.credentialRef with
  | none => exact Call.after_raise.mpr (.nothing _)
  | some reference =>
    simp only
    rw [Call.after_bind]
    refine Call.after_ofExcept (fun platform hplatform => ?_) fun _ _ => .nothing _
    rw [Call.after_bind]
    refine Call.after_ofExcept (fun credential _ => ?_) fun _ _ => .nothing _
    rw [Call.after_bind, after_noteEvent, Call.after_bind]
    refine Call.after_ofExcept (fun _ _ => ?_) fun _ _ =>
      ⟨platform, _, rfl, .refused id, fun _ => hplatform⟩
    refine (session_events platform _ _).mono (fun _ _ h => ?_) fun _ _ h => ?_
    · exact ⟨platform, _, h.trans (List.append_assoc _ _ _),
        .session List.prefix_rfl fun _ => rfl, fun _ => hplatform⟩
    · obtain ⟨front, hfront, h⟩ := h
      exact ⟨platform, _, h.trans (List.append_assoc _ _ _), .session hfront False.elim,
        fun _ => hplatform⟩

/-- Every command that was sent is approved, and only shows something. -/
theorem Sent.approved {platform : Platform} {connect : Event} {returned : Prop} {sent : List Event}
    (h : Sent platform connect returned sent) (hconnect : ∀ command structured,
      connect ≠ .run command structured) :
    ∀ command structured, .run command structured ∈ sent →
      command ∈ approvedCommands platform ∧ IsReading command := by
  intro command structured hmem
  cases h with
  | nothing => cases hmem
  | refused => exact absurd (List.mem_singleton.mp hmem).symm (hconnect _ _)
  | session hfront =>
    rcases List.mem_append.mp hmem with hmem | hmem
    · rcases List.mem_cons.mp hmem with heq | hmem
      · exact absurd heq.symm (hconnect _ _)
      · refine commands_approved platform command ?_
        rcases List.mem_cons.mp (hfront.subset hmem) with heq | hmem
        · cases heq
          exact List.mem_cons_self
        · obtain ⟨command', hcommand, heq⟩ := List.mem_map.mp hmem
          cases heq
          exact List.mem_cons_of_mem _ hcommand
    · cases List.mem_singleton.mp hmem

end

/-- Whatever the device answers, and wherever a collection stops, it has sent the commands of one
selected platform in their order between one `connect` and one `close`, and each of them only shows
something. -/
theorem collect_reads_only (rt : Runtime) (env : Environment) (c : SshCollector) (context : Context)
    (s : Site) : ∃ platform sent, (collect rt env c context s).2.events = s.events ++ sent ∧
      Sent platform (.connect context.target platform c.hostKeyPolicy)
        (∃ result, (collect rt env c context s).1 = .ok result) sent ∧
      (sent ≠ [] → selectPlatform rt c.platform c.evidence = .ok platform) ∧
      ∀ command structured, .run command structured ∈ sent →
        command ∈ approvedCommands platform ∧ IsReading command := by
  have hcourse : Course rt c context (∃ result, (collect rt env c context s).1 = .ok result)
      s.events (collect rt env c context s).2.events := by
    rcases (collect_events s).elim with ⟨result, hresult, hcourse⟩ | ⟨e, he, hcourse⟩
    · rwa [hresult, show (∃ r, (Except.ok result : Except SshExc _) = .ok r) = True from
        eq_true ⟨result, rfl⟩]
    · rwa [he, show (∃ r, (Except.error e : Except SshExc CollectorResult) = .ok r) = False from
        eq_false (by rintro ⟨_, h⟩; cases h)]
  obtain ⟨platform, sent, hevents, hsent, hselected⟩ := hcourse
  exact ⟨platform, sent, hevents, hsent, hselected,
    hsent.approved fun _ _ h => by cases h⟩

end FieldDiscovery.Ssh
