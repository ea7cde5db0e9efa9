import FieldDiscovery.Artifacts.Agree
import FieldDiscovery.Artifacts.Interrupted
import FieldDiscovery.Ssh.Session

/-!
# What an SSH collection stores

An output goes into the directory of the artifacts, then into the table that registers it, and then
into an observation that cites it. A collection can stop between any two of these steps, so the
evidence is stated in this order (`Grows`): every row that was added has its file, and every
observation that was added has its row. Each write keeps what is there, so one spec lemma for the three
writes (`storeReading_spec`) and one induction over the commands give it for every run.

A collection that returns accounts for every command (`collect_accounted`): what the device answered
to it, after all that had been sent, is stored, or one issue says why it is not. An answer that can be
read is stored or the collection raises, so the answer alone decides which of the two it is.
-/

namespace FieldDiscovery.Ssh

open Py Redaction Repository Artifacts Collectors

/-! ## One artifact -/

section

variable {rt : Runtime} {d : Directory}

/-- The files of one directory are in the other. -/
def KeepsFiles (d d' : Directory) : Prop :=
  ∀ name payload, d.get name = some payload → d'.get name = some payload

theorem KeepsFiles.set {name : Str} {payload : List Byte} (h : d.get name = none) :
    KeepsFiles d (d.set name payload) := by
  intro other payload' hother
  rw [Dict.get_set, if_neg ?_]
  · exact hother
  · rintro rfl
    rw [h] at hother
    cases hother

theorem keepsFiles_withEntry {e : Entry rt} (hmetadata : d.get e.metadataName = none)
    (hcontent : d.get e.filename = none) : KeepsFiles d (withEntry d e) := by
  have hfree : (withMetadata d e).get e.filename = none := by
    rw [withMetadata, Dict.get_set, if_neg (e.filename_ne_metadataName e).symm, hcontent]
  intro name payload hget
  exact KeepsFiles.set hfree _ _ (KeepsFiles.set hmetadata _ _ hget)

theorem publishEntry_keeps (e : Entry rt) (uuids : Uuid × Uuid) :
    KeepsFiles d (publishEntry e uuids (.start d)).2.current := by
  have hsame : ∀ {t : Traced Directory}, t.current = d → KeepsFiles d t.current := by
    intro t ht name payload hget
    rwa [ht]
  rcases publishEntry_trace d e uuids with ⟨h, -⟩ | ⟨h, -⟩ | ⟨-, hmetadata, ⟨h, -⟩ | ⟨-, h⟩⟩
  · exact hsame (by rw [h])
  · exact hsame (by rw [h])
  · exact hsame (by rw [h])
  · rcases h with ⟨h, -⟩ | ⟨h, hcontent⟩
    · exact hsame (by rw [h])
    · rw [h]
      exact keepsFiles_withEntry hmetadata hcontent

theorem KeepsFiles.refl (d : Directory) : KeepsFiles d d := fun _ _ h => h

theorem KeepsFiles.trans {d' d'' : Directory} (h : KeepsFiles d d') (h' : KeepsFiles d' d'') :
    KeepsFiles d d'' := fun name payload hget => h' name payload (h name payload hget)

/-- What a write leaves: the files from before, and when it returns its payload under its name. -/
theorem submission_after (setting : Setting) (submission : Submission) :
    Call.After (submission.call setting) (.start d)
      (fun metadata t => KeepsFiles d t.current ∧ ∃ e : Entry setting.rt,
        e.request = submission.request ∧ metadata = e.record ∧
        submission.payload = .ok e.payload ∧
        t.current.get submission.request.filename = some e.payload)
      fun _ t => KeepsFiles d t.current := by
  rcases submission.trace_eq setting d with ⟨-, hnone⟩ | ⟨e, hrequest, hpayload, -, hcall⟩
  · unfold Submission.call
    rw [Call.after_bind]
    refine Call.after_ofExcept (fun payload hpayload => ?_) fun _ _ => .refl d
    unfold write
    rw [Call.after_bind]
    refine Call.after_ofExcept (fun result hprepare => ?_) fun _ _ => .refl d
    exact absurd ⟨payload, result.1, result.2, hpayload, hprepare⟩ hnone
  · have hkeeps := publishEntry_keeps (d := d) e submission.uuids
    rw [Call.After, hcall]
    split
    · next metadata t heq =>
      obtain ⟨hrecord, hcurrent, -⟩ := publishEntry_ok heq
      rw [heq] at hkeeps
      refine ⟨hkeeps, e, hrequest, hrecord, hpayload, ?_⟩
      rw [hcurrent, withEntry, ← hrequest]
      exact Dict.get_set_self _ _ _
    · next error t heq => rwa [heq] at hkeeps

theorem writeText_after (store : ArtifactStore) (request : WriteRequest) (uuids : Uuid × Uuid)
    (content : Str) : Call.After (writeText rt store request uuids content) (.start d)
      (fun metadata t => KeepsFiles d t.current ∧ ∃ e : Entry rt, e.request = request ∧
        metadata = e.record ∧ textPayload rt store content = .ok e.payload ∧
        t.current.get request.filename = some e.payload)
      fun _ t => KeepsFiles d t.current :=
  let setting : Setting := ⟨rt, store, fun _ => .error .type, ⟨id, fun _ => none, fun _ => none⟩⟩
  submission_after setting (textSubmission setting request uuids content)

end

/-! ## What is stored of one output -/

section

variable (rt : Runtime) (c : SshCollector)

/-- The row registers the file that holds the text, redacted. -/
def HasText (d : Directory) (row : ArtifactRow) (content : Str) : Prop :=
  ∃ name payload, row.relativePath = str "ssh/" ++ name ∧ d.get name = some payload ∧
    textPayload rt c.store content = .ok payload ∧ row.sha256Digest = rt.sha256 payload ∧
    row.sizeBytes = payload.length

/-- The fact cites an artifact that is registered and has its file. -/
def Cites (s : Site) (fact : FactRow) : Prop :=
  ∃ target platform command reading row,
    (outputFact rt c target platform command reading row).row rt c.redactor = .ok fact ∧
    HasText rt c s.directory row reading.payload ∧
    ∃ id, s.db.others.artifacts.find (row.relativePath, row.sha256Digest) = some id

/-- What was there is kept, and what was added is backed. -/
structure Grows (s s' : Site) : Prop where
  files : KeepsFiles s.directory s'.directory
  added : Adds (fun row => ∃ content, HasText rt c s'.directory row content) (Cites rt c s')
    s.db s'.db

/-- The reading is stored: as a file, as a row that registers it, and as a fact that cites it. -/
def Stored (s : Site) (target : Str) (platform : Platform) (command : Str) (reading : Reading) :
    Prop :=
  ∃ row, HasText rt c s.directory row reading.payload ∧
    (∃ id, s.db.others.artifacts.find (row.relativePath, row.sha256Digest) = some id) ∧
    ∃ fact id, (outputFact rt c target platform command reading row).row rt c.redactor = .ok fact ∧
      (id, fact) ∈ s.db.observations.rows

end

section

variable {rt : Runtime} {env : Environment} {c : SshCollector} {s s' s'' : Site}
  {platform : Platform} {target command : Str} {reading : Reading}

theorem HasText.mono {d d' : Directory} {row : ArtifactRow} {content : Str}
    (h : HasText rt c d row content) (hd : KeepsFiles d d') : HasText rt c d' row content := by
  obtain ⟨name, payload, hpath, hget, hrest⟩ := h
  exact ⟨name, payload, hpath, hd name payload hget, hrest⟩

theorem Cites.mono {fact : FactRow} (h : Cites rt c s fact) (hgrows : Grows rt c s s') :
    Cites rt c s' fact := by
  obtain ⟨target, platform, command, reading, row, hfact, htext, id, hid⟩ := h
  exact ⟨target, platform, command, reading, row, hfact, htext.mono hgrows.files, id,
    hgrows.added.find hid⟩

theorem Grows.refl (s : Site) : Grows rt c s s := ⟨.refl _, .refl _⟩

theorem Grows.trans (h : Grows rt c s s') (h' : Grows rt c s' s'') : Grows rt c s s'' := by
  refine ⟨h.files.trans h'.files, (h.added.mono ?_ ?_).trans h'.added⟩
  · rintro row ⟨content, htext⟩
    exact ⟨content, htext.mono h'.files⟩
  · exact fun fact hfact => hfact.mono h'

theorem Stored.mono (h : Stored rt c s target platform command reading) (hgrows : Grows rt c s s') :
    Stored rt c s' target platform command reading := by
  obtain ⟨row, htext, ⟨id, hid⟩, fact, fid, hfact, hmem⟩ := h
  obtain ⟨added, hadded, -⟩ := hgrows.added.facts
  refine ⟨row, htext.mono hgrows.files, ⟨id, hgrows.added.find hid⟩, fact, fid, hfact, ?_⟩
  rw [hadded]
  exact List.mem_append_left _ hmem

/-- The row of an artifact that was written registers its file. -/
theorem writtenRow_text {deploymentId : Int} {source : Str} {e : Entry rt} {row : ArtifactRow}
    {d : Directory} {content : Str} (hrow : writtenRow deploymentId source e.record = .ok row)
    (hpayload : textPayload rt c.store content = .ok e.payload)
    (hget : d.get e.filename = some e.payload) : HasText rt c d row content := by
  obtain rfl := Except.ok.inj hrow
  exact ⟨e.filename, e.payload, rfl, hget, hpayload, rfl, rfl⟩

theorem storeReading_spec (index : Nat) :
    Call.After (storeReading rt env c target platform command index reading) s
      (fun _ s' => Grows rt c s s' ∧ Stored rt c s' target platform command reading)
      fun _ s' => Grows rt c s s' := by
  unfold storeReading
  rw [Call.after_bind]
  refine Call.after_ofExcept (fun filename _ => ?_) fun _ _ => .refl s
  rw [Call.after_bind, after_onDirectory]
  refine (writeText_after c.store _ _ reading.payload).mono (fun metadata t hwritten => ?_)
    fun _ t hkeeps => ⟨hkeeps, .refl s.db⟩
  obtain ⟨hkeeps, e, hrequest, rfl, hpayload, hget⟩ := hwritten
  have hgrows : Grows rt c s { s with directory := t.current } := ⟨hkeeps, .refl s.db⟩
  rw [Call.after_bind]
  refine Call.after_ofExcept (fun row hrow => ?_) fun _ _ => hgrows
  have htext : HasText rt c t.current row reading.payload :=
    writtenRow_text (Except.mapError_eq_ok.mp hrow) hpayload (by rwa [Entry.filename, hrequest])
  have hsize : 0 ≤ row.sizeBytes := by
    obtain ⟨_, _, -, -, -, -, hsize⟩ := htext
    rw [hsize]
    exact Int.natCast_nonneg _
  rw [Call.after_bind, after_onDb]
  refine ((registerArtifact_settles hsize).after s.db).mono (fun _ c₁ hregistered => ?_)
    fun _ c₁ hsame => ?_
  swap
  · rw [← hsame]
    exact hgrows
  obtain ⟨hadds, hfind⟩ := hregistered
  have hregister : Grows rt c { s with directory := t.current }
      { s with directory := t.current, db := c₁.committed } := by
    refine ⟨.refl _, hadds.mono ?_ fun _ h => h.elim⟩
    rintro _ ⟨source, rfl⟩
    exact ⟨reading.payload, htext⟩
  rw [Call.after_bind, after_onDb]
  refine (recordObservation_settles.after c₁.committed).mono (fun _ c₂ hrecorded => ?_)
    fun _ c₂ hsame => ?_
  swap
  · rw [← hsame]
    exact hgrows.trans hregister
  obtain ⟨hadds', fact, fid, hfact, hmem⟩ := hrecorded
  have hfound := hfind.imp fun _ => hadds'.find
  have hrecord : Grows rt c { s with directory := t.current, db := c₁.committed }
      { s with directory := t.current, db := c₂.committed } :=
    ⟨.refl _, hadds'.mono (fun _ h => h.elim) fun _ hrow' =>
      ⟨target, platform, command, reading, row, hrow', htext, hfound⟩⟩
  exact ⟨(hgrows.trans hregister).trans hrecord, row, htext, hfound, fact, fid, hfact, hmem⟩

/-! ## A collection -/

/-- `str(exc)` of an `SSHCollectionError`. -/
def SshExc.message : SshExc → Option Str
  | .sshCollection message | .unknownPlatform message | .commandRejected message => some message
  | .other _ => none

/-- Why the answer to a command is not stored, where it is the last of the events that were sent. -/
inductive Unstored (env : Environment) (heard : List Event) (command : Str) : Str → Prop
  | unanswered {e : SshExc} {message : Str} (hanswer : env.answer heard = .error e)
      (hmessage : e.message = some message) : Unstored env heard command message
  | unreadable {output : Redaction.Value} {e : SshExc} {message : Str}
      (hanswer : env.answer heard = .ok output) (hread : readOutput env command output = .error e)
      (hmessage : e.message = some message) : Unstored env heard command message
  | oversized {output : Redaction.Value} {reading : Reading}
      (hanswer : env.answer heard = .ok output) (hread : readOutput env command output = .ok reading)
      (hsize : maxCommandOutputBytes < encodedLength reading.payload) :
      Unstored env heard command (str "SSH command output exceeds the artifact size limit")

/-- What became of a command, the last of the events that were sent: the answer to it is stored, or
one issue says why it is not. -/
inductive Outcome (rt : Runtime) (env : Environment) (c : SshCollector) (s : Site) (target : Str)
    (platform : Platform) (heard : List Event) (command : Str) : Nat × List Issue → Prop
  | stored {output : Redaction.Value} {reading : Reading} (hanswer : env.answer heard = .ok output)
      (hread : readOutput env command output = .ok reading)
      (hsize : encodedLength reading.payload ≤ maxCommandOutputBytes)
      (hstored : Stored rt c s target platform command (reading.paged command)) :
      Outcome rt env c s target platform heard command
        (countItems output, (reading.paged command).issues)
  | failed {message : Str} (h : Unstored env heard command message) :
      Outcome rt env c s target platform heard command
        (0, [⟨str "ssh_command", message, false⟩])

theorem Outcome.mono {heard : List Event} {outcome : Nat × List Issue}
    (h : Outcome rt env c s target platform heard command outcome) (hgrows : Grows rt c s s') :
    Outcome rt env c s' target platform heard command outcome := by
  cases h with
  | stored hanswer hread hsize hstored => exact .stored hanswer hread hsize (hstored.mono hgrows)
  | failed h => exact .failed h

/-- Where storing stops, the exception is none that a command may end with. -/
theorem storeReading_message (index : Nat) :
    Call.After (storeReading rt env c target platform command index reading) s
      (fun _ _ => True) fun e _ => e.message = none := by
  have hother : ∀ {α : Type} {x : Except Exc α} {e : SshExc}, x.mapError .other = .error e →
      e.message = none := by
    intro α x e h
    cases x with
    | ok => cases h
    | error => exact congrArg SshExc.message (Except.error.inj h).symm
  unfold storeReading
  rw [Call.after_bind]
  refine Call.after_ofExcept (fun filename _ => ?_) fun _ h => hother h
  rw [Call.after_bind, after_onDirectory]
  refine .of_forall (fun metadata t => ?_) fun _ _ => rfl
  rw [Call.after_bind]
  refine Call.after_ofExcept (fun row _ => ?_) fun _ h => hother h
  rw [Call.after_bind, after_onDb]
  refine .of_forall (fun _ _ => ?_) fun _ _ => rfl
  rw [Call.after_bind, after_onDb]
  exact .of_forall (fun _ _ => trivial) fun _ _ => rfl

/-- An answer is stored, or it cannot be, or storing it raises. -/
theorem persistOutput_spec {heard : List Event} {output : Redaction.Value}
    (hanswer : env.answer heard = .ok output) (index : Nat) :
    Call.After (persistOutput rt env c target platform command output index) s
      (fun outcome s' => Grows rt c s s' ∧
        Outcome rt env c s' target platform heard command outcome)
      fun e s' => Grows rt c s s' ∧
        ∀ message, e.message = some message → Unstored env heard command message := by
  unfold persistOutput
  rw [Call.after_bind]
  refine Call.after_ofExcept (fun reading hread => ?_) fun e hread =>
    ⟨.refl s, fun _ hmessage => .unreadable hanswer hread hmessage⟩
  split
  · next hsize =>
    refine Call.after_raise.mpr ⟨.refl s, fun message hmessage => ?_⟩
    obtain rfl := Option.some.inj hmessage
    exact .oversized hanswer hread hsize
  · next hsize =>
    rw [Call.after_bind]
    refine ((storeReading_spec index).and (storeReading_message index)).mono
      (fun _ s' h => ⟨h.1.1, .stored hanswer hread (Nat.le_of_not_lt hsize) h.1.2⟩)
      fun e s' h => ⟨h.1, fun message hmessage => ?_⟩
    rw [h.2] at hmessage
    cases hmessage

/-- Sending a command stores nothing. -/
theorem runCommand_spec (structured : Bool) : Call.After (runCommand env command structured) s
    (fun output s' => Grows rt c s s' ∧ s'.events = s.events ++ [.run command structured] ∧
      env.answer (s.events ++ [.run command structured]) = .ok output)
    fun e s' => Grows rt c s s' ∧ env.answer (s.events ++ [.run command structured]) = .error e := by
  have hgrows : Grows rt c s { s with events := s.events ++ [.run command structured] } :=
    ⟨.refl _, .refl _⟩
  unfold runCommand
  rw [Call.after_bind]
  exact after_hear (fun _ hanswer => ⟨hgrows, rfl, hanswer⟩) fun _ hanswer => ⟨hgrows, hanswer⟩

theorem collectCommand_spec (happroved : command ∈ approvedCommands platform) (index : Nat) :
    Call.After (Call.tryExcept (collectCommand rt env c target platform index command)
      commandIssue) s
      (fun outcome s' => Grows rt c s s' ∧
        Outcome rt env c s' target platform (s.events ++ [.run command true]) command outcome)
      fun _ s' => Grows rt c s s' := by
  have hchecked : requireApprovedCommand platform command = .ok command := if_pos happroved
  have hbody : Call.After (collectCommand rt env c target platform index command) s
      (fun outcome s' => Grows rt c s s' ∧
        Outcome rt env c s' target platform (s.events ++ [.run command true]) command outcome)
      fun e s' => Grows rt c s s' ∧ ∀ message, e.message = some message →
        Unstored env (s.events ++ [.run command true]) command message := by
    unfold collectCommand
    rw [hchecked, Call.after_bind]
    refine Call.after_ofExcept (fun command' h => ?_) fun _ h => by cases h
    obtain rfl := Except.ok.inj h
    rw [Call.after_bind]
    refine (runCommand_spec true).mono (fun output s' hsent => ?_) fun e s' hsent =>
      ⟨hsent.1, fun _ hmessage => .unanswered hsent.2 hmessage⟩
    obtain ⟨hgrows, -, hanswer⟩ := hsent
    exact (persistOutput_spec hanswer index).mono (fun _ _ h => ⟨hgrows.trans h.1, h.2⟩)
      fun _ _ h => ⟨hgrows.trans h.1, h.2⟩
  rw [Call.after_tryExcept]
  refine hbody.mono (fun _ _ h => h) fun e s' h => ?_
  obtain ⟨hgrows, hunstored⟩ := h
  cases e with
  | sshCollection message | unknownPlatform message | commandRejected message =>
    exact Call.after_pure.mpr ⟨hgrows, .failed (hunstored message rfl)⟩
  | other e => exact Call.after_raise.mpr hgrows

/-- Each command with all that had been sent when it was answered. -/
def asked : List Event → List Str → List (List Event × Str)
  | _, [] => []
  | sent, command :: commands =>
    (sent ++ [.run command true], command) :: asked (sent ++ [.run command true]) commands

/-- Every command has an outcome, and the result adds them up. -/
def Accounts (rt : Runtime) (env : Environment) (c : SshCollector) (s : Site) (target : Str)
    (platform : Platform) (sent : List Event) (commands : List Str)
    (before after : CollectorResult) : Prop :=
  ∃ outcomes, List.Forall₂ (fun turn : List Event × Str =>
      Outcome rt env c s target platform turn.1 turn.2) (asked sent commands) outcomes ∧
    after.itemCount = before.itemCount + (outcomes.map Prod.fst).sum ∧
    after.issues = before.issues ++ outcomes.flatMap Prod.snd

theorem collectCommands_spec {commands : List Str}
    (happroved : ∀ command ∈ commands, command ∈ approvedCommands platform) (index : Nat)
    (result : CollectorResult) :
    Call.After (collectCommands rt env c target platform index result commands) s
      (fun result' s' => Grows rt c s s' ∧
        Accounts rt env c s' target platform s.events commands result result')
      fun _ s' => Grows rt c s s' := by
  induction commands generalizing index result s with
  | nil => exact Call.after_pure.mpr ⟨.refl s, [], .nil, rfl, (List.append_nil _).symm⟩
  | cons command commands ih =>
    obtain ⟨hcommand, hcommands⟩ := List.forall_mem_cons.mp happroved
    unfold collectCommands
    split
    · exact Call.after_raise.mpr (.refl s)
    · rw [Call.after_bind]
      refine ((collectCommand_spec hcommand index).and (tryCommand_events hcommand s)).mono
        (fun outcome s' hone => ?_) fun _ _ h => h.1
      obtain ⟨⟨hgrows, houtcome⟩, hsent⟩ := hone
      refine (ih hcommands (index + 1) _).mono (fun result' s'' hrest => ?_)
        fun _ _ h => hgrows.trans h
      obtain ⟨hgrows', outcomes, houtcomes, hcount, hissues⟩ := hrest
      rw [hsent] at houtcomes
      refine ⟨hgrows.trans hgrows', outcome :: outcomes, .cons (houtcome.mono hgrows') houtcomes,
        ?_, ?_⟩
      · rw [hcount, List.map_cons, List.sum_cons, Nat.add_assoc]
      · rw [hissues, List.flatMap_cons, List.append_assoc]

theorem Accounts.mono {sent : List Event} {commands : List Str} {before after : CollectorResult}
    (h : Accounts rt env c s target platform sent commands before after)
    (hgrows : Grows rt c s s') : Accounts rt env c s' target platform sent commands before after := by
  obtain ⟨outcomes, houtcomes, hsums⟩ := h
  exact ⟨outcomes, houtcomes.imp fun _ _ houtcome => houtcome.mono hgrows, hsums⟩

theorem collectSession_spec :
    Call.After (collectSession rt env c target platform) s
      (fun result s' => Grows rt c s s' ∧ Accounts rt env c s' target platform
        (s.events ++ [.run (commandProfiles platform).pagingCommand false])
        (commandProfiles platform).commands {} result)
      fun _ s' => Grows rt c s s' := by
  obtain ⟨hpaging, hcommands⟩ := List.forall_mem_cons.mp (commands_approved platform)
  have hchecked : requireApprovedCommand platform (commandProfiles platform).pagingCommand =
    .ok (commandProfiles platform).pagingCommand := if_pos hpaging.1
  unfold collectSession
  rw [hchecked, Call.after_bind]
  refine Call.after_ofExcept (fun paging h => ?_) fun _ h => by cases h
  obtain rfl := Except.ok.inj h
  rw [Call.after_bind]
  refine (runCommand_spec false).mono (fun _ s' hsent => ?_) fun _ _ h => h.1
  obtain ⟨hgrows, hevents, -⟩ := hsent
  rw [← hevents]
  exact (collectCommands_spec (fun command h => (hcommands command h).1) 0 {}).mono
    (fun _ _ h => ⟨hgrows.trans h.1, h.2⟩) fun _ _ h => hgrows.trans h

theorem closeSession_grows : Call.After (closeSession env) s (fun _ s' => Grows rt c s s')
    fun _ s' => Grows rt c s s' := by
  have hgrows : Grows rt c s { s with events := s.events ++ [.close] } := ⟨.refl _, .refl _⟩
  unfold closeSession
  rw [Call.after_bind]
  exact after_hear (fun _ _ => hgrows) fun _ _ => hgrows

/-- All that a session has sent before its first command. -/
def openingEvents (c : SshCollector) (context : Context) (platform : Platform) : List Event :=
  [.connect context.target platform c.hostKeyPolicy,
    .run (commandProfiles platform).pagingCommand false]

theorem collect_spec {context : Context} : Call.After (collect rt env c context) s
    (fun result s' => Grows rt c s s' ∧ ∃ platform,
      selectPlatform rt c.platform c.evidence = .ok platform ∧
      Accounts rt env c s' context.target platform (s.events ++ openingEvents c context platform)
        (commandProfiles platform).commands {} result)
    fun _ s' => Grows rt c s s' := by
  unfold collect
  cases context.credentialRef with
  | none => exact Call.after_raise.mpr (.refl s)
  | some reference =>
    simp only
    rw [Call.after_bind]
    refine Call.after_ofExcept (fun platform hplatform => ?_) fun _ _ => .refl s
    rw [Call.after_bind]
    refine Call.after_ofExcept (fun credential _ => ?_) fun _ _ => .refl s
    rw [Call.after_bind, after_noteEvent, Call.after_bind]
    have hconnect : Grows rt c s
        { s with events := s.events ++ [.connect context.target platform c.hostKeyPolicy] } :=
      ⟨.refl _, .refl _⟩
    refine Call.after_ofExcept (fun _ _ => ?_) fun _ _ => hconnect
    rw [Call.after_tryFinally]
    refine collectSession_spec.mono (fun result s' hsession => ?_) fun e s' hsession => ?_
    · have hgrows := hconnect.trans hsession.1
      have haccounts := hsession.2
      rw [List.append_assoc] at haccounts
      exact closeSession_grows.mono
        (fun _ _ h => ⟨hgrows.trans h, platform, hplatform, haccounts.mono h⟩)
        fun _ _ h => hgrows.trans h
    · have hgrows := hconnect.trans hsession
      exact closeSession_grows.mono (fun _ _ h => hgrows.trans h) fun _ _ h => hgrows.trans h

end

/-- Whatever the device answers and wherever a collection stops, what was stored before is there, and
all that was added is backed: a row by its file, a fact by its row and file. -/
theorem collect_backed (rt : Runtime) (env : Environment) (c : SshCollector) (context : Context)
    (s : Site) : Grows rt c s (collect rt env c context s).2 := by
  rcases collect_spec.elim with ⟨_, -, hgrows, -⟩ | ⟨_, -, hgrows⟩
  · exact hgrows
  · exact hgrows

theorem run_of_toOption {α ε S : Type} {run : Except ε α × S} {a : α}
    (h : run.1.toOption = some a) : run = (.ok a, run.2) := by
  rw [← Except.toOption_eq_some.mp h]

/-! ## A switch that answers one command -/

def sampleCollector : SshCollector where
  deploymentId := 1
  store := Artifacts.Sample.setting.store
  redactor := ⟨[], []⟩
  platform := some (str "comware")

def sampleContext : Context := ⟨str "192.168.50.20", some ⟨str "fixture", str "SSH_PROFILE"⟩⟩

/-- Paging is switched off, the first command is answered with a page, and the others fail. -/
def sampleEnvironment : Environment where
  resolve _ := .ok []
  connect _ _ _ := .ok ()
  answer events :=
    if events.length = 2 then .ok (.str [])
    else if events.length = 3 then .ok (.str (str "up --More--"))
    else .error (.sshCollection (str "SSH command transport failed"))
  close _ := .ok ()
  cancelled _ := false
  clock _ := ⟨0, zero_inCalendar⟩
  uuids _ := Artifacts.Sample.identifiers
  scalar _ := .error .type
  jsonValid _ := true

def sampleSite : Site := ⟨[], [], ⟨[1], .empty, [], .empty⟩⟩

/-! ## Every command is accounted for -/

/-- A collection that returns has an outcome for every command of its platform: what the device
answered to it is stored, or one issue says why it is not. -/
theorem collect_accounted {rt : Runtime} {env : Environment} {c : SshCollector} {context : Context}
    {s s' : Site} {result : CollectorResult} (h : collect rt env c context s = (.ok result, s')) :
    ∃ platform, selectPlatform rt c.platform c.evidence = .ok platform ∧
      Accounts rt env c s' context.target platform (s.events ++ openingEvents c context platform)
        (commandProfiles platform).commands {} result := by
  rcases (collect_spec (s := s)).elim with ⟨_, hresult, -, haccounts⟩ | ⟨_, hraised, -⟩
  · rw [h] at hresult haccounts
    obtain rfl := Except.ok.inj hresult
    exact haccounts
  · rw [h] at hraised
    cases hraised

theorem collect_accounted_sample : ∃ result s', collect (.ofDigests []) sampleEnvironment
    sampleCollector sampleContext sampleSite = (.ok result, s') ∧
    result.itemCount = 1 ∧ result.issues.length = 11 ∧
    Accounts (.ofDigests []) sampleEnvironment sampleCollector s' (str "192.168.50.20") .hpComware
      (openingEvents sampleCollector sampleContext .hpComware)
      (commandProfiles .hpComware).commands {} result := by
  have hcounts : (collect (.ofDigests []) sampleEnvironment sampleCollector sampleContext
      sampleSite).1.toOption.map (fun result => (result.itemCount, result.issues.length)) =
        some (1, 11) := by
    decide +kernel
  obtain ⟨result, hok, hcounts⟩ := Option.map_eq_some_iff.mp hcounts
  have hcollect := run_of_toOption hok
  obtain ⟨hitems, hissues⟩ := Prod.mk.inj hcounts
  obtain ⟨platform, hplatform, haccounts⟩ := collect_accounted hcollect
  have hselected : (selectPlatform (.ofDigests []) sampleCollector.platform
      sampleCollector.evidence).toOption = some .hpComware := by
    decide +kernel
  rw [hplatform] at hselected
  obtain rfl := Option.some.inj hselected
  exact ⟨result, _, hcollect, hitems, hissues, haccounts⟩

end FieldDiscovery.Ssh
