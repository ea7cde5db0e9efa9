import FieldDiscovery.Lib.Recent
import FieldDiscovery.Lib.Regex
import FieldDiscovery.Lib.Settles
import FieldDiscovery.Nmap.Pass

/-!
# Backups that are deleted

`BackupPruner` of `storage.py`: `plan` lists the backups that are too old, and `apply` deletes what
a plan lists. Between any two system calls other programs may do anything to the folder, so what
`apply` does is told by its calls and their answers (`apply_course`): nothing is unlinked before every
file of the plan was seen to be the one that was planned. In a folder that nothing else touches, a
plan is carried out to the letter and leaves nothing to plan (`apply_plan`).
-/

namespace FieldDiscovery.Storage

open Py Nmap

/-! ## The folder -/

/-- `OwnedFile` -/
structure OwnedFile where
  name : Str
  device : Nat
  inode : Nat
  size : Nat
  modifiedNs : Int
  deriving DecidableEq

/-- The identity of a file, as `os.stat` tells it. -/
def OwnedFile.of (name : Str) (info : Stat) : OwnedFile :=
  ⟨name, info.device, info.inode, info.size, info.mtimeNs⟩

/-- A system call on the folder, with its answer. -/
inductive Syscall where
  | scandir (answer : Except Exc (List Str))
  | stat (name : Str) (answer : Except Exc Stat)
  | unlink (name : Str) (answer : Except Exc Unit)

def Syscall.isUnlink : Syscall → Bool
  | unlink _ _ => true
  | _ => false

/-- A folder, with the calls that were made on it. -/
structure Folder where
  entries : Dict Str Stat
  calls : List Syscall

/-- What `_open_root` meets. -/
inductive Root where
  | unavailable
  /-- A link, or no directory. -/
  | irregular
  | unopened
  | opened

/-- What the pruner does not decide. It may depend on the calls so far. -/
structure Surroundings where
  root : List Syscall → Root
  /-- What others have made of the entries when the next call comes. -/
  disturb : List Syscall → Dict Str Stat → Dict Str Stat
  /-- The next call fails. -/
  fault : List Syscall → Dict Str Stat → Option Exc
  /-- The order in which `os.scandir` yields the names. -/
  order : List Str → List Str

/-- What a call of the pruner raises. -/
inductive PruneExc where
  | unsafePath (message : Str)
  | other (e : Exc)

abbrev PruneCall (α : Type) := Call Folder PruneExc α

/-! ## The calls -/

section

variable (rt : Runtime) (around : Surroundings)

/-- A system call. -/
def syscall {α : Type} (f : Dict Str Stat → Except Exc α × Dict Str Stat)
    (note : Except Exc α → Syscall) : PruneCall α := fun folder =>
  let entries := around.disturb folder.calls folder.entries
  match around.fault folder.calls entries with
  | some e => (.error (.other e), ⟨entries, folder.calls ++ [note (.error e)]⟩)
  | none =>
    let answer := f entries
    (answer.1.mapError .other, ⟨answer.2, folder.calls ++ [note answer.1]⟩)

/-- `os.scandir` -/
def scandir : PruneCall (List Str) :=
  syscall around (fun entries => (.ok (around.order (entries.map Prod.fst)), entries)) .scandir

/-- `os.stat(name, dir_fd=descriptor, follow_symlinks=False)` -/
def stat (name : Str) : PruneCall Stat :=
  syscall around (fun entries => ((entries.get name).elim (.error .os) .ok, entries)) (.stat name)

/-- `os.unlink(name, dir_fd=descriptor)` -/
def unlink (name : Str) : PruneCall Unit :=
  syscall around (fun entries =>
    if (entries.get name).isSome then (.ok (), entries.filter fun entry => entry.1 ≠ name)
    else (.error .os, entries)) (.unlink name)

/-- `_open_root` -/
def openRoot : PruneCall Unit := fun folder =>
  match around.root folder.calls with
  | .unavailable => Call.raise (.unsafePath (str "backup root is unavailable")) folder
  | .irregular => Call.raise (.unsafePath (str "backup root must be a real directory")) folder
  | .unopened => Call.raise (.unsafePath (str "backup root is not link-safe")) folder
  | .opened => (pure () : PruneCall Unit) folder

/-- `\d` -/
def isDecimal (c : CodePoint) : Bool := if isAscii c then isDigit c else (rt.decimalChar c).isSome

/-- `_BACKUP_NAME` -/
def backupName : Pattern :=
  let digit := Re.chr (isDecimal rt)
  [.re (.seqs [.word "discovery-backup-", .times 8 digit, .lit 'T', .times 6 digit, .word "Z.db"])]

def isBackupName (name : Str) : Bool := (fullmatch (backupName rt) name).isSome

/-- The body of `for entry in os.scandir(self.data_root)`. -/
def planEntry (before : Datetime) (name : Str) : PruneCall (List OwnedFile) :=
  if isBackupName rt name then do
    let info ← stat around name
    if info.regular then do
      let modified ← Call.ofExcept ((fromTimestamp info.mtime).mapError .other)
      pure (if modified.instant < before.instant then [.of name info] else [])
    else Call.raise (.unsafePath (str "backup retention refuses non-regular entries"))
  else pure []

def planEntries (before : Datetime) : List Str → PruneCall (List OwnedFile)
  | [] => pure []
  | name :: names => do
    let head ← planEntry rt around before name
    let rest ← planEntries before names
    pure (head ++ rest)

/-- `BackupPruner.plan`, with a cutoff in UTC. -/
def plan (before : Datetime) : PruneCall (List OwnedFile) := do
  openRoot around
  let names ← scandir around
  let results ← planEntries rt around before names
  pure (sortedBy OwnedFile.name results)

/-- The body of the loop that checks the plan. -/
def checkItem (item : OwnedFile) : PruneCall Unit :=
  if isBackupName rt item.name then do
    let info ← stat around item.name
    if info.regular ∧ OwnedFile.of item.name info = item then pure ()
    else Call.raise (.unsafePath (str "backup changed after retention preview"))
  else Call.raise (.unsafePath (str "backup retention plan contains an invalid name"))

def checkItems : List OwnedFile → PruneCall Unit
  | [] => pure ()
  | item :: items => do
    checkItem rt around item
    checkItems items

def unlinkItems : List OwnedFile → PruneCall Unit
  | [] => pure ()
  | item :: items => do
    unlink around item.name
    unlinkItems items

/-- `BackupPruner.apply` -/
def apply (items : List OwnedFile) : PruneCall (List OwnedFile) := do
  openRoot around
  checkItems rt around items
  unlinkItems around items
  pure items

end

/-! ## Whatever others do -/

/-- The call shows that the file is the one that was planned. -/
def Confirms (rt : Runtime) (item : OwnedFile) (call : Syscall) : Prop :=
  isBackupName rt item.name = true ∧ ∃ info, call = .stat item.name (.ok info) ∧
    info.regular = true ∧ OwnedFile.of item.name info = item

/-- The file was unlinked. -/
def unlinked (item : OwnedFile) : Syscall := .unlink item.name (.ok ())

/-- How `apply` ends, and the calls that it has made. -/
inductive Course (rt : Runtime) (items : List OwnedFile) :
    Except PruneExc (List OwnedFile) → List Syscall → Prop
  /-- The folder could not be opened, or a file was not the one that was planned. -/
  | refused {e : PruneExc} {front : List OwnedFile} {checks last : List Syscall}
      (hfront : front <+: items) (hchecks : List.Forall₂ (Confirms rt) front checks)
      (hlast : last.length ≤ 1 ∧ ∀ call ∈ last, call.isUnlink = false) :
      Course rt items (.error e) (checks ++ last)
  /-- A file could not be unlinked. -/
  | interrupted {front rest : List OwnedFile} {item : OwnedFile} {checks : List Syscall} {e : Exc}
      (hitems : items = front ++ item :: rest) (hchecks : List.Forall₂ (Confirms rt) items checks) :
      Course rt items (.error (.other e))
        (checks ++ (front.map unlinked ++ [.unlink item.name (.error e)]))
  | completed {checks : List Syscall} (hchecks : List.Forall₂ (Confirms rt) items checks) :
      Course rt items (.ok items) (checks ++ items.map unlinked)

section

variable {rt : Runtime} {around : Surroundings} {folder : Folder}

theorem syscall_after {α : Type} {f : Dict Str Stat → Except Exc α × Dict Str Stat}
    {note : Except Exc α → Syscall} : Call.After (syscall around f note) folder
      (fun a folder' => folder'.calls = folder.calls ++ [note (.ok a)])
      fun e folder' => ∃ e', e = .other e' ∧
        folder'.calls = folder.calls ++ [note (.error e')] := by
  unfold Call.After
  cases hfault : around.fault folder.calls (around.disturb folder.calls folder.entries) with
  | some e => simp [syscall, hfault]
  | none =>
    cases hf : f (around.disturb folder.calls folder.entries) with
    | mk answer entries => cases answer <;> simp [syscall, hfault, hf, Except.mapError]

theorem openRoot_after : Call.After (openRoot around) folder (fun _ folder' => folder' = folder)
    fun _ folder' => folder' = folder := by
  unfold Call.After openRoot
  cases around.root folder.calls <;> rfl

theorem checkItem_after (item : OwnedFile) : Call.After (checkItem rt around item) folder
    (fun _ folder' => ∃ call, Confirms rt item call ∧ folder'.calls = folder.calls ++ [call])
    fun _ folder' => ∃ last, (last.length ≤ 1 ∧ ∀ call ∈ last, call.isUnlink = false) ∧
      folder'.calls = folder.calls ++ last := by
  have hstat (answer : Except Exc Stat) : [Syscall.stat item.name answer].length ≤ 1 ∧
      ∀ call ∈ [Syscall.stat item.name answer], call.isUnlink = false :=
    ⟨le_rfl, fun call hcall => by rw [List.mem_singleton.mp hcall]; rfl⟩
  unfold checkItem
  split
  · next hname =>
    rw [Call.after_bind]
    refine syscall_after.mono (fun info folder' hcalls => ?_) fun _ folder' hcalls => ?_
    · split
      · next hinfo => exact ⟨_, ⟨hname, info, rfl, hinfo⟩, hcalls⟩
      · exact ⟨_, hstat _, hcalls⟩
    · obtain ⟨e, -, hcalls⟩ := hcalls
      exact ⟨_, hstat _, hcalls⟩
  · exact ⟨[], by simp, (List.append_nil _).symm⟩

theorem checkItems_after (items : List OwnedFile) : Call.After (checkItems rt around items) folder
    (fun _ folder' => ∃ checks, List.Forall₂ (Confirms rt) items checks ∧
      folder'.calls = folder.calls ++ checks)
    fun _ folder' => ∃ front checks last, front <+: items ∧
      List.Forall₂ (Confirms rt) front checks ∧
      (last.length ≤ 1 ∧ ∀ call ∈ last, call.isUnlink = false) ∧
      folder'.calls = folder.calls ++ (checks ++ last) := by
  induction items generalizing folder with
  | nil => exact ⟨[], .nil, (List.append_nil _).symm⟩
  | cons item items ih =>
    unfold checkItems
    rw [Call.after_bind]
    refine (checkItem_after item).mono (fun _ folder' hitem => ?_) fun _ folder' hitem => ?_
    · obtain ⟨call, hconfirms, hcalls⟩ := hitem
      refine ih.mono (fun _ folder'' hitems => ?_) fun _ folder'' hitems => ?_
      · obtain ⟨checks, hchecks, hcalls'⟩ := hitems
        exact ⟨call :: checks, .cons hconfirms hchecks, by simp [hcalls', hcalls]⟩
      · obtain ⟨front, checks, last, hfront, hchecks, hlast, hcalls'⟩ := hitems
        exact ⟨item :: front, call :: checks, last, List.cons_prefix_cons.mpr ⟨rfl, hfront⟩,
          .cons hconfirms hchecks, hlast, by simp [hcalls', hcalls]⟩
    · obtain ⟨last, hlast, hcalls⟩ := hitem
      exact ⟨[], [], last, List.nil_prefix, .nil, hlast, hcalls⟩

theorem unlinkItems_after (items : List OwnedFile) : Call.After (unlinkItems around items) folder
    (fun _ folder' => folder'.calls = folder.calls ++ items.map unlinked)
    fun e folder' => ∃ front item rest e', e = .other e' ∧ items = front ++ item :: rest ∧
      folder'.calls = folder.calls ++ (front.map unlinked ++ [.unlink item.name (.error e')]) := by
  induction items generalizing folder with
  | nil => exact (List.append_nil _).symm
  | cons item items ih =>
    unfold unlinkItems
    rw [Call.after_bind]
    refine syscall_after.mono (fun _ folder' hcalls => ?_) fun e folder' hraised => ?_
    · refine ih.mono (fun _ folder'' hcalls' => ?_) fun e folder'' hraised => ?_
      · rw [hcalls', hcalls, List.append_assoc]
        rfl
      · obtain ⟨front, last, rest, e', he, hitems, hcalls'⟩ := hraised
        refine ⟨item :: front, last, rest, e', he, by rw [hitems]; rfl, ?_⟩
        rw [hcalls', hcalls, List.append_assoc]
        rfl
    · obtain ⟨e', he, hcalls⟩ := hraised
      exact ⟨[], item, items, e', he, rfl, hcalls⟩

end

/-- Whatever others do to the folder meanwhile, and whichever call fails: nothing is unlinked unless
all files of the plan were seen before to be those that were planned, and what is unlinked then are
these files in their order, all of them if `apply` returns. -/
theorem apply_course (rt : Runtime) (around : Surroundings) (items : List OwnedFile)
    (folder : Folder) : ∃ added,
      (apply rt around items folder).2.calls = folder.calls ++ added ∧
      Course rt items (apply rt around items folder).1 added := by
  have hafter : Call.After (apply rt around items) folder
      (fun returned folder' => ∃ added, folder'.calls = folder.calls ++ added ∧
        Course rt items (.ok returned) added)
      fun e folder' => ∃ added, folder'.calls = folder.calls ++ added ∧
        Course rt items (.error e) added := by
    unfold apply
    rw [Call.after_bind]
    refine openRoot_after.mono (fun _ folder₀ hfolder => ?_) fun e folder₀ hfolder => ?_
    · subst hfolder
      rw [Call.after_bind]
      refine (checkItems_after items).mono (fun _ folder₁ hchecked => ?_) fun e folder₁ hraised => ?_
      · obtain ⟨checks, hchecks, hcalls⟩ := hchecked
        rw [Call.after_bind]
        refine (unlinkItems_after items).mono (fun _ folder₂ hcalls' => ?_)
          fun e folder₂ hraised => ?_
        · exact ⟨_, by rw [hcalls', hcalls, List.append_assoc], .completed hchecks⟩
        · obtain ⟨front, item, rest, e', rfl, hitems, hcalls'⟩ := hraised
          exact ⟨_, by rw [hcalls', hcalls, List.append_assoc], .interrupted hitems hchecks⟩
      · obtain ⟨front, checks, last, hfront, hchecks, hlast, hcalls⟩ := hraised
        exact ⟨_, hcalls, .refused hfront hchecks hlast⟩
    · exact ⟨[] ++ [], by rw [hfolder, List.append_nil, List.append_nil],
        .refused List.nil_prefix .nil (by simp)⟩
  rcases hafter.elim with ⟨returned, hresult, hcourse⟩ | ⟨e, hresult, hcourse⟩
  · rwa [hresult]
  · rwa [hresult]

/-! ## A folder that nothing else touches -/

/-- Nothing else touches the folder, and no call fails. -/
structure Surroundings.Quiet (around : Surroundings) : Prop where
  root : ∀ calls, around.root calls = .opened
  disturb : ∀ calls entries, around.disturb calls entries = entries
  fault : ∀ calls entries, around.fault calls entries = none
  order : ∀ names, (around.order names).Perm names

/-- The time was before the cutoff. -/
def isBefore (before : Datetime) : Except Exc Datetime → Bool
  | .ok modified => modified.instant < before.instant
  | .error _ => false

/-- The entry is a backup that was last modified before the cutoff. -/
def isExpired (rt : Runtime) (before : Datetime) (entry : Str × Stat) : Bool :=
  isBackupName rt entry.1 && isBefore before (fromTimestamp entry.2.mtime)

/-- A backup is a file with a time that can be read. -/
def Readable (rt : Runtime) (entries : Dict Str Stat) (name : Str) : Prop :=
  isBackupName rt name = true → ∃ info modified, entries.get name = some info ∧
    info.regular = true ∧ fromTimestamp info.mtime = .ok modified

/-- The entry of a name, if it is expired. -/
def ownedOf (rt : Runtime) (before : Datetime) (entries : Dict Str Stat) (name : Str) :
    List OwnedFile :=
  (entries.get name).elim [] fun info =>
    if isExpired rt before (name, info) then [.of name info] else []

section

variable {rt : Runtime} {around : Surroundings} {before : Datetime} {folder : Folder}

theorem syscall_quiet (h : around.Quiet) {α : Type}
    {f : Dict Str Stat → Except Exc α × Dict Str Stat} {note : Except Exc α → Syscall} : syscall around f note folder =
      ((f folder.entries).1.mapError .other,
        ⟨(f folder.entries).2, folder.calls ++ [note (f folder.entries).1]⟩) := by
  simp only [syscall, h.disturb, h.fault]

theorem openRoot_quiet (h : around.Quiet) : openRoot around folder = (.ok (), folder) := by
  rw [openRoot, h.root]
  rfl

theorem stat_quiet (h : around.Quiet) {name : Str} {info : Stat}
    (hget : folder.entries.get name = some info) : stat around name folder =
      (.ok info, ⟨folder.entries, folder.calls ++ [.stat name (.ok info)]⟩) := by
  rw [stat, syscall_quiet h, hget]
  rfl

/-! ### The plan -/

theorem planEntry_returns (h : around.Quiet) (before : Datetime) {name : Str}
    (hreadable : Readable rt folder.entries name) : ∃ folder',
      planEntry rt around before name folder =
        (.ok (ownedOf rt before folder.entries name), folder') ∧
      folder'.entries = folder.entries := by
  by_cases hname : isBackupName rt name = true
  · obtain ⟨info, modified, hget, hregular, hmodified⟩ := hreadable hname
    refine ⟨⟨folder.entries, folder.calls ++ [.stat name (.ok info)]⟩, ?_, rfl⟩
    rw [planEntry, if_pos hname, Call.bind_ok (stat_quiet h hget), if_pos hregular, hmodified]
    simp only [ownedOf, hget, Option.elim_some, isExpired, hname, hmodified, isBefore, Bool.true_and,
      decide_eq_true_eq]
    rfl
  · refine ⟨folder, ?_, rfl⟩
    rw [planEntry, if_neg hname]
    cases hget : folder.entries.get name with
    | none => simp [ownedOf, hget]
    | some info => simp [ownedOf, hget, isExpired, hname]

theorem planEntry_readable (h : around.Quiet) (name : Str) :
    Call.After (planEntry rt around before name) folder
      (fun _ folder' => Readable rt folder.entries name ∧ folder'.entries = folder.entries)
      fun _ _ => True := by
  unfold planEntry
  split
  · next hname =>
    cases hget : folder.entries.get name with
    | none =>
      have hraised : stat around name folder =
          (.error (.other .os), ⟨folder.entries, folder.calls ++ [.stat name (.error .os)]⟩) := by
        rw [stat, syscall_quiet h, hget]
        rfl
      rw [Call.after_bind, Call.After, hraised]
      trivial
    | some info =>
      rw [Call.after_bind, Call.After, stat_quiet h hget]
      simp only
      split
      · next hregular =>
        rw [Call.after_bind]
        refine Call.after_ofExcept (fun modified hmodified => ?_) fun _ _ => trivial
        cases htime : fromTimestamp info.mtime with
        | ok time => exact ⟨fun _ => ⟨info, time, hget, hregular, htime⟩, rfl⟩
        | error e =>
          rw [htime] at hmodified
          cases hmodified
      · trivial
  · next hname => exact ⟨fun hname' => absurd hname' hname, rfl⟩

theorem planEntries_returns (h : around.Quiet) (before : Datetime) (folder : Folder)
    {names : List Str}
    (hreadable : ∀ name ∈ names, Readable rt folder.entries name) : ∃ folder',
      planEntries rt around before names folder =
        (.ok (names.flatMap (ownedOf rt before folder.entries)), folder') ∧
      folder'.entries = folder.entries := by
  induction names generalizing folder with
  | nil => exact ⟨folder, rfl, rfl⟩
  | cons name names ih =>
    obtain ⟨folder₁, hfirst, hentries₁⟩ :=
      planEntry_returns h before (hreadable name List.mem_cons_self)
    obtain ⟨folder₂, hrest, hentries₂⟩ := ih folder₁ fun name' hname' => by
      rw [hentries₁]
      exact hreadable name' (List.mem_cons_of_mem _ hname')
    rw [hentries₁] at hrest hentries₂
    refine ⟨folder₂, ?_, hentries₂⟩
    rw [planEntries, Call.bind_ok hfirst, Call.bind_ok hrest]
    rfl

theorem planEntries_readable (h : around.Quiet) (names : List Str) :
    Call.After (planEntries rt around before names) folder
      (fun _ _ => ∀ name ∈ names, Readable rt folder.entries name) fun _ _ => True := by
  induction names generalizing folder with
  | nil => exact fun _ hname => absurd hname List.not_mem_nil
  | cons name names ih =>
    unfold planEntries
    rw [Call.after_bind]
    refine (planEntry_readable h name).mono (fun head folder₁ hfirst => ?_) fun _ _ _ => trivial
    obtain ⟨hreadable, hentries⟩ := hfirst
    rw [Call.after_bind]
    refine ih.mono (fun rest folder₂ hrest => ?_) fun _ _ _ => trivial
    rw [hentries] at hrest
    exact fun name' hname' => (List.mem_cons.mp hname').elim (fun heq => heq ▸ hreadable)
      (hrest name')

theorem scandir_quiet (h : around.Quiet) : scandir around folder =
    (.ok (around.order (folder.entries.map Prod.fst)), ⟨folder.entries, folder.calls ++
      [.scandir (.ok (around.order (folder.entries.map Prod.fst)))]⟩) := by
  rw [scandir, syscall_quiet h]
  rfl

/-- In a quiet folder a plan is made if all backups can be read, and lists what is expired. -/
theorem plan_returns (h : around.Quiet) (before : Datetime)
    (hreadable : ∀ name ∈ folder.entries.map Prod.fst, Readable rt folder.entries name) :
    ∃ folder', plan rt around before folder =
      (.ok (sortedBy OwnedFile.name ((around.order (folder.entries.map Prod.fst)).flatMap
        (ownedOf rt before folder.entries))), folder') ∧ folder'.entries = folder.entries := by
  obtain ⟨folder', hentries, hsame⟩ := planEntries_returns h before
    ⟨folder.entries, folder.calls ++ [.scandir (.ok (around.order (folder.entries.map Prod.fst)))]⟩
    fun name hname => hreadable name ((h.order _).mem_iff.mp hname)
  refine ⟨folder', ?_, hsame⟩
  rw [plan, Call.bind_ok (openRoot_quiet h), Call.bind_ok (scandir_quiet h), Call.bind_ok hentries]
  rfl

theorem plan_readable (h : around.Quiet) {items : List OwnedFile} {folder' : Folder}
    (hplan : plan rt around before folder = (.ok items, folder')) :
    ∀ name ∈ folder.entries.map Prod.fst, Readable rt folder.entries name := by
  have hafter : Call.After (plan rt around before) folder
      (fun _ _ => ∀ name ∈ folder.entries.map Prod.fst, Readable rt folder.entries name)
      fun _ _ => True := by
    unfold plan
    rw [Call.after_bind, Call.After, openRoot_quiet h]
    simp only
    rw [Call.after_bind, Call.After, scandir_quiet h]
    simp only
    rw [Call.after_bind]
    refine (planEntries_readable h _).mono (fun _ _ hall => ?_) fun _ _ _ => trivial
    exact fun name hname => hall name ((h.order _).mem_iff.mpr hname)
  rwa [Call.After, hplan] at hafter

theorem mem_ownedOf {entries : Dict Str Stat} {name : Str} {item : OwnedFile} :
    item ∈ ownedOf rt before entries name ↔ ∃ info, entries.get name = some info ∧
      isExpired rt before (name, info) = true ∧ item = .of name info := by
  unfold ownedOf
  cases entries.get name with
  | none => simp
  | some info => by_cases hexpired : isExpired rt before (name, info) = true <;> simp [hexpired]

/-- A name is listed once at most. -/
theorem names_sublist (entries : Dict Str Stat) (names : List Str) :
    ((names.flatMap (ownedOf rt before entries)).map OwnedFile.name).Sublist names := by
  induction names with
  | nil => exact .refl _
  | cons name names ih =>
    have hfirst : ((ownedOf rt before entries name).map OwnedFile.name).Sublist [name] := by
      unfold ownedOf
      cases entries.get name with
      | none => exact List.nil_sublist _
      | some info => by_cases hexpired : isExpired rt before (name, info) = true <;>
          simp [hexpired, OwnedFile.of]
    rw [List.flatMap_cons, List.map_append]
    exact hfirst.append ih

/-! ### What is carried out -/

theorem checkItems_returns (h : around.Quiet) (folder : Folder) {items : List OwnedFile}
    (hitems : ∀ item ∈ items, isBackupName rt item.name = true ∧ ∃ info,
      folder.entries.get item.name = some info ∧ info.regular = true ∧
      OwnedFile.of item.name info = item) : ∃ folder',
      checkItems rt around items folder = (.ok (), folder') ∧
      folder'.entries = folder.entries := by
  induction items generalizing folder with
  | nil => exact ⟨folder, rfl, rfl⟩
  | cons item items ih =>
    obtain ⟨hname, info, hget, hinfo⟩ := hitems item List.mem_cons_self
    have hfirst : checkItem rt around item folder =
        (.ok (), ⟨folder.entries, folder.calls ++ [.stat item.name (.ok info)]⟩) := by
      rw [checkItem, if_pos hname, Call.bind_ok (stat_quiet h hget), if_pos hinfo]
      rfl
    obtain ⟨folder', hrest, hentries⟩ := ih
      ⟨folder.entries, folder.calls ++ [.stat item.name (.ok info)]⟩
      fun item' hitem' => hitems item' (List.mem_cons_of_mem _ hitem')
    refine ⟨folder', ?_, hentries⟩
    rw [checkItems, Call.bind_ok hfirst, hrest]

theorem unlinkItems_returns (h : around.Quiet) (folder : Folder) {items : List OwnedFile}
    (hnodup : (items.map OwnedFile.name).Nodup)
    (hitems : ∀ item ∈ items, (folder.entries.get item.name).isSome = true) : ∃ folder',
      unlinkItems around items folder = (.ok (), folder') ∧
      folder'.entries = folder.entries.filter fun entry => entry.1 ∉ items.map OwnedFile.name := by
  induction items generalizing folder with
  | nil => exact ⟨folder, rfl, by simp⟩
  | cons item items ih =>
    rw [List.map_cons, List.nodup_cons] at hnodup
    have hfirst : unlink around item.name folder =
        (.ok (), ⟨folder.entries.filter fun entry => entry.1 ≠ item.name,
          folder.calls ++ [.unlink item.name (.ok ())]⟩) := by
      rw [unlink, syscall_quiet h, if_pos (hitems item List.mem_cons_self)]
      rfl
    obtain ⟨folder', hrest, hentries⟩ := ih
      ⟨folder.entries.filter fun entry => entry.1 ≠ item.name,
        folder.calls ++ [.unlink item.name (.ok ())]⟩ hnodup.2 fun item' hitem' => by
      have hne : item.name ≠ item'.name := fun heq =>
        hnodup.1 (heq ▸ List.mem_map_of_mem hitem')
      rw [Recent.get_filter_ne _ hne]
      exact hitems item' (List.mem_cons_of_mem _ hitem')
    refine ⟨folder', by rw [unlinkItems, Call.bind_ok hfirst, hrest], ?_⟩
    rw [hentries, List.filter_filter]
    refine List.filter_congr fun entry _ => ?_
    simp [Bool.and_comm]

/-- The items are the expired backups of the folder, each once. -/
structure Planned (rt : Runtime) (before : Datetime) (entries : Dict Str Stat)
    (items : List OwnedFile) : Prop where
  names : (items.map OwnedFile.name).Nodup
  mem : ∀ item, item ∈ items ↔ ∃ name info, entries.get name = some info ∧
    isExpired rt before (name, info) = true ∧ item = .of name info

theorem plan_planned (h : around.Quiet) (hkeys : folder.entries.KeysNodup)
    {items : List OwnedFile} {folder' : Folder}
    (hplan : plan rt around before folder = (.ok items, folder')) :
    Planned rt before folder.entries items ∧ folder'.entries = folder.entries := by
  obtain ⟨folder₁, hreturned, hentries⟩ :=
    plan_returns h before (plan_readable h hplan)
  rw [hplan] at hreturned
  obtain ⟨hitems, rfl⟩ := Prod.mk.inj hreturned
  have hitems := Except.ok.inj hitems
  refine ⟨⟨?_, fun item => ?_⟩, hentries⟩
  · rw [hitems, ((sortedBy_perm OwnedFile.name _).map OwnedFile.name).nodup_iff]
    exact (names_sublist _ _).nodup ((h.order _).nodup_iff.mpr hkeys)
  · rw [hitems, mem_sortedBy, List.mem_flatMap]
    constructor
    · rintro ⟨name, -, hitem⟩
      exact ⟨name, mem_ownedOf.mp hitem⟩
    · rintro ⟨name, info, hget, hrest⟩
      exact ⟨name, (h.order _).mem_iff.mpr (List.mem_map_of_mem (Dict.mem_of_get hget)),
        mem_ownedOf.mpr ⟨info, hget, hrest⟩⟩

/-- To remove what is planned is to remove what is expired. -/
theorem Planned.filter_eq {entries : Dict Str Stat} {items : List OwnedFile}
    (hplanned : Planned rt before entries items) (hkeys : entries.KeysNodup) :
    (entries.filter fun entry => entry.1 ∉ items.map OwnedFile.name) =
      entries.filter fun entry => !isExpired rt before entry := by
  refine List.filter_congr fun entry hentry => ?_
  have hget := Dict.get_of_mem hkeys hentry
  have hlisted : entry.1 ∈ items.map OwnedFile.name ↔ isExpired rt before entry = true := by
    rw [List.mem_map]
    constructor
    · rintro ⟨item, hitem, hname⟩
      obtain ⟨name, info, hget', hexpired, rfl⟩ := (hplanned.mem _).mp hitem
      obtain rfl : name = entry.1 := hname
      obtain rfl : entry.2 = info := Option.some.inj (hget.symm.trans hget')
      exact hexpired
    · exact fun hexpired =>
        ⟨.of entry.1 entry.2, (hplanned.mem _).mpr ⟨_, _, hget, hexpired, rfl⟩, rfl⟩
  simp [hlisted]

/-- What is planned is confirmed as long as the entries are the same. -/
theorem Planned.confirmed {entries : Dict Str Stat} {items : List OwnedFile}
    (hplanned : Planned rt before entries items)
    (hreadable : ∀ name ∈ entries.map Prod.fst, Readable rt entries name) :
    ∀ item ∈ items, isBackupName rt item.name = true ∧ ∃ info,
      entries.get item.name = some info ∧ info.regular = true ∧
      OwnedFile.of item.name info = item := by
  intro item hitem
  obtain ⟨name, info, hget, hexpired, rfl⟩ := (hplanned.mem item).mp hitem
  obtain ⟨hname, -⟩ := Bool.and_eq_true_iff.mp hexpired
  obtain ⟨info', -, hget', hregular, -⟩ :=
    hreadable name (List.mem_map_of_mem (Dict.mem_of_get hget)) hname
  obtain rfl : info = info' := Option.some.inj (hget.symm.trans hget')
  exact ⟨hname, info, hget, hregular, rfl⟩

/-- Without its expired backups a folder has nothing to plan. -/
theorem plan_nothing (h : around.Quiet) {entries : Dict Str Stat} (hkeys : entries.KeysNodup)
    (hreadable : ∀ name ∈ entries.map Prod.fst, Readable rt entries name)
    (hkept : folder.entries = entries.filter fun entry => !isExpired rt before entry) :
    ∃ last, plan rt around before folder = (.ok [], last) := by
  have hkeys' : folder.entries.KeysNodup := by
    rw [hkept]
    exact (List.filter_sublist.map Prod.fst).nodup hkeys
  have hget : ∀ name ∈ folder.entries.map Prod.fst, ∃ info,
      folder.entries.get name = some info ∧ entries.get name = some info ∧
      isExpired rt before (name, info) = false := by
    intro name hname
    obtain ⟨entry, hentry, rfl⟩ := List.mem_map.mp hname
    have hget := Dict.get_of_mem hkeys' hentry
    rw [hkept, List.mem_filter] at hentry
    exact ⟨entry.2, hget, Dict.get_of_mem hkeys hentry.1, by simpa using hentry.2⟩
  have hreadable' : ∀ name ∈ folder.entries.map Prod.fst, Readable rt folder.entries name := by
    intro name hname hbackup
    obtain ⟨info, hinfo, hinfo', -⟩ := hget name hname
    obtain ⟨info', modified, hinfo'', hrest⟩ :=
      hreadable name (List.mem_map_of_mem (Dict.mem_of_get hinfo')) hbackup
    obtain rfl : info = info' := Option.some.inj (hinfo'.symm.trans hinfo'')
    exact ⟨info, modified, hinfo, hrest⟩
  obtain ⟨last, hlast, -⟩ := plan_returns h before hreadable'
  have hnone : (around.order (folder.entries.map Prod.fst)).flatMap
      (ownedOf rt before folder.entries) = [] := by
    rw [List.flatMap_eq_nil_iff]
    intro name hname
    obtain ⟨info, hinfo, -, hexpired⟩ := hget name ((h.order _).mem_iff.mp hname)
    rw [ownedOf, hinfo, Option.elim_some, hexpired]
    rfl
  rw [hnone] at hlast
  exact ⟨last, hlast⟩

end

/-- In a folder that nothing else touches, a plan is carried out to the letter: the backups from
before the cutoff are gone, every other entry is there, and nothing is left to plan. -/
theorem apply_plan {rt : Runtime} {around : Surroundings} {before : Datetime}
    {folder folder' : Folder} {items : List OwnedFile} (h : around.Quiet)
    (hkeys : folder.entries.KeysNodup)
    (hplan : plan rt around before folder = (.ok items, folder')) : ∃ folder'',
      apply rt around items folder' = (.ok items, folder'') ∧
      folder''.entries = folder.entries.filter (fun entry => !isExpired rt before entry) ∧
      ∃ last, plan rt around before folder'' = (.ok [], last) := by
  have hreadable := plan_readable h hplan
  obtain ⟨hplanned, hentries⟩ := plan_planned h hkeys hplan
  have hconfirmed := hplanned.confirmed hreadable
  rw [← hentries] at hconfirmed
  obtain ⟨folder₂, hchecked, hsame⟩ := checkItems_returns h folder' hconfirmed
  obtain ⟨folder₃, hunlinked, hleft⟩ := unlinkItems_returns h folder₂ hplanned.names
    fun item hitem => by
      obtain ⟨-, info, hget, -⟩ := hconfirmed item hitem
      rw [hsame, hget]
      rfl
  have hkept : folder₃.entries = folder.entries.filter fun entry => !isExpired rt before entry := by
    rw [hleft, hsame, hentries]
    exact hplanned.filter_eq hkeys
  refine ⟨folder₃, ?_, hkept, plan_nothing h hkeys hreadable hkept⟩
  rw [apply, Call.bind_ok (openRoot_quiet h), Call.bind_ok hchecked, Call.bind_ok hunlinked]
  rfl

/-- The entries are listed in their order. -/
def calm : Surroundings := ⟨fun _ => .opened, fun _ entries => entries, fun _ _ => none, id⟩

/-- A backup from the second before `Nmap.epoch`, and a file of another kind. -/
def sampleFolder : Folder where
  entries := [(str "discovery-backup-19691231T235959Z.db", ⟨true, -1, -1000000000, 1, 2, 4096⟩),
    (str "discovery.db", ⟨true, -1, -1000000000, 1, 3, 8192⟩)]
  calls := []

theorem calm_quiet : calm.Quiet :=
  ⟨fun _ => rfl, fun _ _ => rfl, fun _ _ => rfl, fun _ => .refl _⟩

theorem apply_plan_sample : ∃ items folder' folder'',
    plan (.ofDigests []) calm Nmap.epoch sampleFolder = (.ok items, folder') ∧
    items.map OwnedFile.name = [str "discovery-backup-19691231T235959Z.db"] ∧
    apply (.ofDigests []) calm items folder' = (.ok items, folder'') ∧
    folder''.entries.map Prod.fst = [str "discovery.db"] := by
  have hkeys : sampleFolder.entries.KeysNodup := by
    unfold Dict.KeysNodup
    decide +kernel
  have hnames : (plan (.ofDigests []) calm Nmap.epoch sampleFolder).1.toOption.map
      (fun items => items.map OwnedFile.name) =
        some [str "discovery-backup-19691231T235959Z.db"] := by
    decide +kernel
  obtain ⟨items, hok, hnames⟩ := Option.map_eq_some_iff.mp hnames
  have hplan : plan (.ofDigests []) calm Nmap.epoch sampleFolder =
      (.ok items, (plan (.ofDigests []) calm Nmap.epoch sampleFolder).2) := by
    rw [← Except.toOption_eq_some.mp hok]
  obtain ⟨folder'', happly, hkept, -⟩ := apply_plan calm_quiet hkeys hplan
  refine ⟨items, _, folder'', hplan, hnames, happly, ?_⟩
  rw [hkept]
  decide +kernel

end FieldDiscovery.Storage
