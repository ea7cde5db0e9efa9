import FieldDiscovery.Nmap.Scan

/-!
# Active scans are exclusive and audited

An invocation has a process only while it has the lock, and it gives the lock back after it has
waited for the process. So no two scripts run at a time, unless the group of a process cannot be
signalled and the invocation leaves it behind. Every invocation that opens its lock file has one
collector run, which is final before it returns (`scans_exclusive_audited`).
-/

namespace FieldDiscovery.NmapScan

open Py Repository Redaction

/-! ## What holds of every system -/

/-- Scripts are started only for the subnets of invocations that passed approval. -/
def System.Permitted (s : System) : Prop :=
  ∀ l ∈ s.launches, ∃ inv, s.invocations[l.invocation]? = some inv ∧
    inv.description.activeTargetPermitted = true ∧ l.environment = safeEnvironment inv.description

/-- The rows of `collector_runs` that are not of `db₀` are those of the invocations, one for each that
has started its run, and each has the status of its invocation. -/
structure System.Audited (db₀ : RunDb) (s : System) : Prop where
  runs : ∃ added, s.db.runs.rows = db₀.runs.rows ++ added ∧
    (added.map Prod.fst).Perm (s.invocations.filterMap Invocation.run)
  hasRun : ∀ inv ∈ s.invocations, inv.run.isSome = inv.phase.hasRun
  status : ∀ inv ∈ s.invocations, ∀ id, inv.run = some id →
    ∃ row, (id, row) ∈ s.db.runs.rows ∧ row.status = inv.phase.runStatus

/-- An invocation raises only when it cannot open its lock file. -/
def System.Raising (s : System) : Prop :=
  ∀ inv ∈ s.invocations, ∀ exc, inv.phase = .raised exc → ∃ root, openLock root = .error exc

def System.RaisedAt (i : Nat) (exc : Exc) (s : System) : Prop :=
  ∃ inv, s.invocations[i]? = some inv ∧ inv.phase = .raised exc

/-- An invocation that has raised has no collector run and has started no script. -/
def System.Withheld (s : System) : Prop :=
  ∀ i inv exc, s.invocations[i]? = some inv → inv.phase = .raised exc →
    inv.run = none ∧ ∀ l ∈ s.launches, l.invocation ≠ i

/-- At most one process has been started and not reaped. -/
def System.Exclusive (s : System) : Prop := s.unreaped.length ≤ 1

/-- A group that has processes left can be signalled. -/
def Action.isDenied : Action → Bool
  | .event _ (.killpg .denied) => true
  | _ => false

/-! ## The steps -/

section

variable {rt : Runtime} {r : Redactor} {s s' : System} {a : Action}

/-- What a step does to the system. -/
inductive Move (rt : Runtime) (r : Redactor) (s : System) : Action → System → Prop
  | tick {now : Utc} : Move rt r s (.tick now) { s with clock := now }
  | refuse {timeoutSeconds : Int} {resolution : Except Exc SubnetDescription} :
    Move rt r s (.call timeoutSeconds resolution) s
  | call {timeoutSeconds : Int} {resolution : Except Exc SubnetDescription}
    {description : SubnetDescription} (hpermitted : description.activeTargetPermitted = true) :
    Move rt r s (.call timeoutSeconds resolution)
      { s with invocations := s.invocations ++ [{ description }] }
  | autoReap {i : Nat} : Move rt r s (.autoReap i) (s.reap i)
  | quiet {i : Nat} {inv : Invocation} {phase : Phase} {e : Event}
    (hinv : s.invocations[i]? = some inv)
    (hlocked : phase.isLocked = true → inv.phase.isLocked = true)
    (hprocess : inv.phase.hasProcess = true →
      phase.hasProcess = true ∨ i ∉ s.unreaped ∨ (Action.event i e).isDenied = true)
    (hrun : phase.hasRun = inv.phase.hasRun) (hstatus : phase.runStatus = inv.phase.runStatus)
    (hraised : ∀ exc, phase = .raised exc → ∃ root, openLock root = .error exc) :
    Move rt r s (.event i e) (s.put i inv phase)
  | lock {i : Nat} {inv : Invocation} {e : Event} (hinv : s.invocations[i]? = some inv)
    (hphase : inv.phase = .opened) (hfree : s.lock = none) :
    Move rt r s (.event i e) { s.put i inv .locked with lock := some i }
  | record {i : Nat} {inv : Invocation} {phase : Phase} {e : Event} {s' : System}
    (hinv : s.invocations[i]? = some inv) (hphase : inv.phase.hasRun = false)
    (hprocess : inv.phase.hasProcess = false) (hrun : phase.hasRun = true)
    (hlocked : phase.isLocked = true → inv.phase.isLocked = true)
    (hstatus : phase.runStatus = .running) (hstart : s.startRun rt r i inv phase = some s') :
    Move rt r s (.event i e) s'
  | start {i : Nat} {inv : Invocation} {started : Utc} {digest : Str} {e : Event}
    (hinv : s.invocations[i]? = some inv) (hphase : inv.phase = .digested started digest) :
    Move rt r s (.event i e)
      { s.put i inv (.waiting started digest) with
        unreaped := s.unreaped ++ [i]
        launches := s.launches ++ [⟨i, safeEnvironment inv.description⟩] }
  | reap {i : Nat} {inv : Invocation} {phase : Phase} {e : Event}
    (hinv : s.invocations[i]? = some inv) (hlocked : phase.isLocked = false)
    (hrun : inv.phase.hasRun = true) (hrun' : phase.hasRun = true)
    (hstatus : phase.runStatus = inv.phase.runStatus) :
    Move rt r s (.event i e) ((s.put i inv phase).reap i)
  | finish {i : Nat} {inv : Invocation} {result : ScanResult} {finished : Utc} {e : Event}
    {s' : System} (hinv : s.invocations[i]? = some inv) (hrun : inv.phase.hasRun = true)
    (hprocess : inv.phase.hasProcess = false)
    (hfinish : s.finishRun i inv result finished = some s') : Move rt r s (.event i e) s'
  | close {i : Nat} {inv : Invocation} {result : ScanResult} {e : Event}
    (hinv : s.invocations[i]? = some inv) (hphase : inv.phase = .closing result) :
    Move rt r s (.event i e)
      { s.put i inv (.returned result) with lock := if s.lock = some i then none else s.lock }

theorem eventStep_move {i : Nat} {inv : Invocation} {e : Event}
    (hinv : s.invocations[i]? = some inv) (hstep : s.eventStep rt r i inv inv.phase e = some s') :
    Move rt r s (.event i e) s' := by
  generalize hphase : inv.phase = phase at hstep
  unfold System.eventStep at hstep
  split at hstep
  · next root =>
    split at hstep
    · next exc hopen =>
      obtain rfl := Option.some.inj hstep
      refine .quiet hinv (fun h => by cases h) (fun h => by rw [hphase] at h; cases h)
        (by rw [hphase]; rfl) (by rw [hphase]; rfl) fun exc' h => ?_
      cases h
      exact ⟨root, hopen⟩
    · obtain rfl := Option.some.inj hstep
      exact .quiet hinv (fun h => by cases h) (fun h => by rw [hphase] at h; cases h)
        (by rw [hphase]; rfl) (by rw [hphase]; rfl) (fun exc h => by cases h)
  · split at hstep <;> obtain rfl := Option.some.inj hstep
    · next hfree => exact .lock hinv hphase hfree
    · exact .quiet hinv (fun h => by cases h) (fun h => by rw [hphase] at h; cases h)
        (by rw [hphase]; rfl) (by rw [hphase]; rfl) (fun exc h => by cases h)
  · exact .record hinv (by rw [hphase]; rfl) (by rw [hphase]; rfl) rfl (fun h => by cases h) rfl
      hstep
  · exact .finish hinv (by rw [hphase]; rfl) (by rw [hphase]; rfl) hstep
  · exact .record hinv (by rw [hphase]; rfl) (by rw [hphase]; rfl) rfl
      (fun _ => by rw [hphase]; rfl) rfl hstep
  · -- `_script_digest`
    split at hstep <;> obtain rfl := Option.some.inj hstep <;>
      exact .quiet hinv (fun _ => by rw [hphase]; rfl) (fun h => by rw [hphase] at h; cases h)
        (by rw [hphase]; rfl) (by rw [hphase]; rfl) (fun exc h => by cases h)
  · split at hstep <;> obtain rfl := Option.some.inj hstep
    · exact .start hinv hphase
    · exact .quiet hinv (fun h => by cases h) (fun h => by rw [hphase] at h; cases h)
        (by rw [hphase]; rfl) (by rw [hphase]; rfl) (fun exc h => by cases h)
  · split at hstep <;> obtain rfl := Option.some.inj hstep
    · exact .reap hinv rfl (by rw [hphase]; rfl) rfl (by rw [hphase]; rfl)
    · exact .quiet hinv (fun _ => by rw [hphase]; rfl) (fun _ => .inl rfl) (by rw [hphase]; rfl)
        (by rw [hphase]; rfl) (fun exc h => by cases h)
  · -- `_terminate_group`
    simp only at hstep
    split at hstep
    · obtain rfl := Option.some.inj hstep
      exact .quiet hinv (fun _ => by rw [hphase]; rfl) (fun _ => .inl rfl) (by rw [hphase]; rfl)
        (by rw [hphase]; rfl) (fun exc h => by cases h)
    · obtain rfl := Option.some.inj hstep
      exact .quiet hinv (fun _ => by rw [hphase]; rfl) (fun _ => .inl rfl) (by rw [hphase]; rfl)
        (by rw [hphase]; rfl) (fun exc h => by cases h)
    · obtain ⟨hgone, hstep⟩ := Option.ite_none_left_eq_some.mp hstep
      obtain rfl := Option.some.inj hstep
      exact .quiet hinv (fun h => by cases h) (fun _ => .inr (.inl hgone)) (by rw [hphase]; rfl)
        (by rw [hphase]; rfl) (fun exc h => by cases h)
    · obtain ⟨hgone, hstep⟩ := Option.ite_none_left_eq_some.mp hstep
      obtain rfl := Option.some.inj hstep
      exact .quiet hinv (fun h => by cases h) (fun _ => .inr (.inl hgone)) (by rw [hphase]; rfl)
        (by rw [hphase]; rfl) (fun exc h => by cases h)
    · obtain rfl := Option.some.inj hstep
      exact .quiet hinv (fun h => by cases h) (fun _ => .inr (.inr rfl)) (by rw [hphase]; rfl)
        (by rw [hphase]; rfl) (fun exc h => by cases h)
    · obtain rfl := Option.some.inj hstep
      exact .quiet hinv (fun h => by cases h) (fun _ => .inr (.inr rfl)) (by rw [hphase]; rfl)
        (by rw [hphase]; rfl) (fun exc h => by cases h)
    · obtain rfl := Option.some.inj hstep
      exact .reap hinv rfl (by rw [hphase]; rfl) rfl (by rw [hphase]; rfl)
    · obtain rfl := Option.some.inj hstep
      exact .reap hinv rfl (by rw [hphase]; rfl) rfl (by rw [hphase]; rfl)
    · obtain rfl := Option.some.inj hstep
      exact .quiet hinv (fun _ => by rw [hphase]; rfl) (fun _ => .inl rfl) (by rw [hphase]; rfl)
        (by rw [hphase]; rfl) (fun exc h => by cases h)
    · cases hstep
  · exact .finish hinv (by rw [hphase]; rfl) (by rw [hphase]; rfl) hstep
  · obtain rfl := Option.some.inj hstep
    exact .close hinv hphase
  · cases hstep

theorem step_move (hstep : s.step rt r a = some s') : Move rt r s a s' := by
  unfold System.step at hstep
  split at hstep
  · obtain ⟨-, hstep⟩ := Option.ite_none_right_eq_some.mp hstep
    obtain rfl := Option.some.inj hstep
    exact .tick
  · split at hstep
    · obtain rfl := Option.some.inj hstep
      exact .refuse
    · next happrove =>
      obtain rfl := Option.some.inj hstep
      refine .call ?_
      unfold approve at happrove
      split at happrove
      · split at happrove
        · cases happrove
        · split at happrove
          · next hpermitted =>
            cases happrove
            exact hpermitted
          · cases happrove
      · cases happrove
  · obtain rfl := Option.some.inj hstep
    exact .autoReap
  · split at hstep
    · cases hstep
    · next hinv => exact eventStep_move hinv hstep

/-! ## Exclusion -/

theorem Phase.isLocked_of_hasProcess {phase : Phase} (h : phase.hasProcess = true) :
    phase.isLocked = true := by
  cases phase with
  | waiting | terminating => rfl
  | approved | opened | refused | refusedRun | locked | recorded | digested | ended | closing
  | returned | raised => cases h

/-- A process belongs to an invocation that is inside the lock. -/
structure Exclusion (s : System) : Prop where
  lock : ∀ i inv, s.invocations[i]? = some inv → inv.phase.isLocked = true → s.lock = some i
  process : ∀ i ∈ s.unreaped, ∃ inv, s.invocations[i]? = some inv ∧ inv.phase.hasProcess = true
  nodup : s.unreaped.Nodup

theorem Exclusion.exclusive (hs : Exclusion s) : s.Exclusive := by
  have hlock : ∀ i ∈ s.unreaped, s.lock = some i := by
    intro i hi
    obtain ⟨inv, hinv, hprocess⟩ := hs.process i hi
    exact hs.lock i inv hinv (Phase.isLocked_of_hasProcess hprocess)
  have hnodup := hs.nodup
  unfold System.Exclusive
  cases hunreaped : s.unreaped with
  | nil => exact Nat.zero_le _
  | cons i rest =>
    cases rest with
    | nil => exact Nat.le_refl _
    | cons j rest =>
      rw [hunreaped] at hlock hnodup
      have hi := hlock i List.mem_cons_self
      have hj := hlock j (List.mem_cons_of_mem _ List.mem_cons_self)
      have hij : i = j := Option.some.inj (hi.symm.trans hj)
      exact absurd (hij ▸ List.mem_cons_self) (List.nodup_cons.mp hnodup).1

/-- An invocation that has no process to wait for has none that is not reaped. -/
theorem Exclusion.not_mem (hs : Exclusion s) {i : Nat} {inv : Invocation}
    (hinv : s.invocations[i]? = some inv) (hprocess : inv.phase.hasProcess = false) :
    i ∉ s.unreaped := by
  intro hi
  obtain ⟨inv', hinv', hprocess'⟩ := hs.process i hi
  rw [hinv] at hinv'
  cases hinv'
  rw [hprocess] at hprocess'
  cases hprocess'

/-- Invocation `i` moves on and leaves the others their lock and their processes. -/
theorem Exclusion.update (hs : Exclusion s) {i : Nat} {inv inv' : Invocation}
    (hinv : s.invocations[i]? = some inv) (hset : s'.invocations = s.invocations.set i inv')
    (hlock : inv'.phase.isLocked = true → s'.lock = some i)
    (hothers : ∀ j, j ≠ i → s.lock = some j → s'.lock = some j)
    (hprocess : i ∈ s'.unreaped → inv'.phase.hasProcess = true)
    (hunreaped : ∀ j ∈ s'.unreaped, j ≠ i → j ∈ s.unreaped) (hnodup : s'.unreaped.Nodup) :
    Exclusion s' := by
  obtain ⟨hlt, -⟩ := List.getElem?_eq_some_iff.mp hinv
  have hself : s'.invocations[i]? = some inv' := by
    rw [hset, List.getElem?_set_self hlt]
  have hother : ∀ j, j ≠ i → s'.invocations[j]? = s.invocations[j]? := by
    intro j hj
    rw [hset, List.getElem?_set_ne (Ne.symm hj)]
  refine ⟨fun j inv'' hj hlocked => ?_, fun j hj => ?_, hnodup⟩
  · by_cases hji : j = i
    · rw [hji] at hj ⊢
      cases hself.symm.trans hj
      exact hlock hlocked
    · rw [hother j hji] at hj
      exact hothers j hji (hs.lock j inv'' hj hlocked)
  · by_cases hji : j = i
    · rw [hji] at hj ⊢
      exact ⟨inv', hself, hprocess hj⟩
    · rw [hother j hji]
      exact hs.process j (hunreaped j hj hji)

theorem startRun_frame {i : Nat} {inv : Invocation} {phase : Phase}
    (h : s.startRun rt r i inv phase = some s') :
    ∃ runId c, Repository.startRun rt r none (str "nmap-script") s.clock.isoformat
        (some inv.description.interface) (some inv.description.cidr) ⟨s.db, none⟩ =
          (.ok runId, c) ∧
      s' = { s.put i { inv with run := some runId } phase with db := c.committed } := by
  unfold System.startRun at h
  split at h
  · next runId c hcall => exact ⟨runId, c, hcall, (Option.some.inj h).symm⟩
  · cases h

theorem finishRun_frame {i : Nat} {inv : Invocation} {result : ScanResult} {finished : Utc}
    (h : s.finishRun i inv result finished = some s') :
    ∃ runId c, inv.run = some runId ∧
      Repository.finishRun runId result.status.recorded finished.isoformat 0 ⟨s.db, none⟩ =
        (.ok (), c) ∧
      s' = { s.put i inv (.closing result) with db := c.committed } := by
  unfold System.finishRun at h
  split at h
  · cases h
  · next runId hrun =>
    split at h
    · next c hcall => exact ⟨runId, c, hrun, hcall, (Option.some.inj h).symm⟩
    · cases h

theorem Exclusion.move (hs : Exclusion s) (hmove : Move rt r s a s')
    (hdenied : a.isDenied = false) : Exclusion s' := by
  cases hmove with
  | tick | refuse => exact ⟨hs.lock, hs.process, hs.nodup⟩
  | call hpermitted =>
    refine ⟨fun i inv hinv hlocked => ?_, fun i hi => ?_, hs.nodup⟩
    · by_cases hlt : i < s.invocations.length
      · rw [List.getElem?_append_left hlt] at hinv
        exact hs.lock i inv hinv hlocked
      · rw [List.getElem?_append_right (not_lt.mp hlt), List.getElem?_singleton] at hinv
        split at hinv
        · cases hinv
          cases hlocked
        · cases hinv
    · obtain ⟨inv, hinv, hprocess⟩ := hs.process i hi
      refine ⟨inv, ?_, hprocess⟩
      rw [List.getElem?_append_left (List.getElem?_eq_some_iff.mp hinv).1]
      exact hinv
  | autoReap =>
    exact ⟨hs.lock, fun i hi => hs.process i (List.mem_of_mem_erase hi), hs.nodup.erase _⟩
  | quiet hinv hlocked hprocess hrun hstatus hraised =>
    refine hs.update hinv rfl (fun h => hs.lock _ _ hinv (hlocked h)) (fun _ _ h => h) (fun h => ?_)
      (fun _ h _ => h) hs.nodup
    obtain ⟨inv', hinv', hprocess'⟩ := hs.process _ h
    rw [hinv] at hinv'
    cases hinv'
    rcases hprocess hprocess' with hkept | hgone | hden
    · exact hkept
    · exact absurd h hgone
    · rw [hdenied] at hden
      cases hden
  | lock hinv hphase hfree =>
    refine hs.update hinv rfl (fun _ => rfl) (fun j _ h => ?_) (fun h => ?_) (fun _ h _ => h) hs.nodup
    · rw [hfree] at h
      cases h
    · exact absurd h (hs.not_mem hinv (by rw [hphase]; rfl))
  | record hinv hphase hprocess hrun hlocked hstatus hstart =>
    obtain ⟨runId, c, -, rfl⟩ := startRun_frame hstart
    exact hs.update hinv rfl (fun h => hs.lock _ _ hinv (hlocked h)) (fun _ _ h => h)
      (fun h => absurd h (hs.not_mem hinv hprocess)) (fun _ h _ => h) hs.nodup
  | start hinv hphase =>
    refine hs.update hinv rfl (fun _ => hs.lock _ _ hinv (by rw [hphase]; rfl)) (fun _ _ h => h)
      (fun _ => rfl) (fun j hj hji => ?_) ?_
    · exact (List.mem_append.mp hj).resolve_right fun h => hji (List.mem_singleton.mp h)
    · refine hs.nodup.append (List.nodup_singleton _) fun j hj hji => ?_
      rw [List.mem_singleton.mp hji] at hj
      exact hs.not_mem hinv (by rw [hphase]; rfl) hj
  | reap hinv hlocked hrun hrun' hstatus =>
    refine hs.update hinv rfl (fun h => ?_) (fun _ _ h => h) (fun h => ?_)
      (fun _ h _ => List.mem_of_mem_erase h) (hs.nodup.erase _)
    · rw [hlocked] at h
      cases h
    · exact absurd h hs.nodup.not_mem_erase
  | finish hinv hrun hprocess hfinish =>
    obtain ⟨runId, c, -, -, rfl⟩ := finishRun_frame hfinish
    exact hs.update hinv rfl (fun h => by cases h) (fun _ _ h => h)
      (fun h => absurd h (hs.not_mem hinv hprocess)) (fun _ h _ => h) hs.nodup
  | close hinv hphase =>
    refine hs.update hinv rfl (fun h => by cases h) (fun j hj h => ?_)
      (fun h => absurd h (hs.not_mem hinv (by rw [hphase]; rfl))) (fun _ h _ => h) hs.nodup
    have hne : s.lock ≠ some _ := fun heq => hj (Option.some.inj (h.symm.trans heq))
    exact (if_neg hne).trans h

/-! ## Audit -/

theorem startRun_rows {db : RunDb} {runId : Nat} {c : RunConnection} {startedAt : Str}
    {interface cidr : Option Str}
    (h : Repository.startRun rt r none (str "nmap-script") startedAt interface cidr ⟨db, none⟩ =
      (.ok runId, c)) :
    ∃ row : RunRow, row.status = .running ∧
      c.committed.runs.rows = db.runs.rows ++ [(runId, row)] := by
  unfold Repository.startRun at h
  obtain ⟨collector, c₁, h₁, h⟩ := Call.bind_eq_ok h
  cases (Prod.mk.inj h₁).2
  obtain ⟨interface', c₂, h₂, h⟩ := Call.bind_eq_ok h
  cases (Prod.mk.inj h₂).2
  obtain ⟨cidr', c₃, h₃, h⟩ := Call.bind_eq_ok h
  cases (Prod.mk.inj h₃).2
  obtain ⟨db', hbody, hc⟩ := Sql.transaction_ok (Sql.Inside.execute none _) h
  rw [hc]
  exact ⟨_, rfl, insertRun_eq_ok (execute_eq_ok hbody)⟩

/-- The row that `finish_run` is to change. -/
def isOpenRun (runId : Nat) (row : Nat × RunRow) : Bool :=
  (row.1 : Int) = runId && row.2.status = .running

theorem updateRuns_count {select : Nat × RunRow → Bool} {set : RunRow → RunRow}
    {hset : ∀ row, (set row).collector = row.collector} {db db' : RunDb} {n : Nat}
    (h : db.updateRuns select set hset = .ok (n, db')) :
    (db.runs.rows.filter select).length = n := by
  unfold RunDb.updateRuns at h
  split at h
  · cases h
    rfl
  · cases h

theorem finishRun_rows {db : RunDb} {runId : Nat} {status : RunStatus} {finishedAt : Str}
    {c : RunConnection}
    (h : Repository.finishRun runId status finishedAt 0 ⟨db, none⟩ = (.ok (), c)) :
    (db.runs.rows.filter (isOpenRun runId)).length = 1 ∧
      c.committed.runs.rows = db.runs.rows.map fun row =>
        (row.1, if isOpenRun runId row then
          { row.2 with status, finishedAt := some finishedAt, itemCount := 0 } else row.2) := by
  unfold Repository.finishRun at h
  split at h
  · cases h
  · have hinside : Sql.Inside (do
        let rowcount ← Sql.execute none (finishRow runId status finishedAt 0)
        requireOne rowcount) := by
      refine .bind (.execute _ _) fun rowcount => ?_
      unfold requireOne
      split
      · exact .pure _
      · exact .raise _
    obtain ⟨db', hbody, hc⟩ := Sql.transaction_ok hinside h
    obtain ⟨rowcount, c', hexecute, hrequire⟩ := Call.bind_eq_ok hbody
    unfold requireOne at hrequire
    split at hrequire
    · next hone =>
      cases hrequire
      have hstatement := execute_eq_ok hexecute
      unfold finishRow at hstatement
      obtain ⟨-, -, hupdate⟩ := Except.bind_eq_ok.mp hstatement
      rw [hc]
      exact ⟨(updateRuns_count hupdate).trans hone, updateRuns_eq_ok hupdate⟩
    · cases hrequire

section

variable {db₀ : RunDb}

/-- Invocation `i` moves on with the run that it has. -/
theorem audited_put (hs : s.Audited db₀) {i : Nat} {inv : Invocation} {phase : Phase}
    (hinv : s.invocations[i]? = some inv) (hset : s'.invocations = (s.put i inv phase).invocations)
    (hrun : phase.hasRun = inv.phase.hasRun) (hstatus : phase.runStatus = inv.phase.runStatus)
    (hdb : s'.db = s.db) : s'.Audited db₀ := by
  have hmem := List.mem_of_getElem? hinv
  refine ⟨?_, ?_, ?_⟩
  · obtain ⟨added, hrows, hperm⟩ := hs.runs
    refine ⟨added, hdb ▸ hrows, hperm.trans ?_⟩
    rw [hset]
    have hsame := filterMap_set (f := Invocation.run) hinv { inv with phase }
    exact ((List.perm_append_right_iff _).mp hsame).symm
  · rw [hset]
    intro inv' hinv'
    rcases List.mem_or_eq_of_mem_set hinv' with hinv' | rfl
    · exact hs.hasRun inv' hinv'
    · exact (hs.hasRun inv hmem).trans hrun.symm
  · rw [hset, hdb]
    intro inv' hinv' id hid
    rcases List.mem_or_eq_of_mem_set hinv' with hinv' | rfl
    · exact hs.status inv' hinv' id hid
    · obtain ⟨row, hrow, hrowStatus⟩ := hs.status inv hmem id hid
      exact ⟨row, hrow, hrowStatus.trans hstatus.symm⟩

theorem audited_record (hs : s.Audited db₀) {i : Nat} {inv : Invocation} {phase : Phase}
    (hinv : s.invocations[i]? = some inv) (hphase : inv.phase.hasRun = false)
    (hrun : phase.hasRun = true) (hstatus : phase.runStatus = .running)
    (hstart : s.startRun rt r i inv phase = some s') : s'.Audited db₀ := by
  have hmem := List.mem_of_getElem? hinv
  have hnone : inv.run = none := by
    rw [← Option.not_isSome_iff_eq_none, hs.hasRun inv hmem, hphase]
    exact Bool.false_ne_true
  obtain ⟨runId, c, hcall, rfl⟩ := startRun_frame hstart
  obtain ⟨row, hrowStatus, hrows⟩ := startRun_rows hcall
  refine ⟨?_, fun inv' hinv' => ?_, fun inv' hinv' id hid => ?_⟩
  · obtain ⟨added, hadded, hperm⟩ := hs.runs
    refine ⟨added ++ [(runId, row)], ?_, ?_⟩
    · show c.committed.runs.rows = _
      rw [hrows, hadded, List.append_assoc]
    · have hset := filterMap_set (f := Invocation.run) hinv { inv with run := some runId, phase }
      rw [hnone, Option.toList_none, List.append_nil] at hset
      rw [List.map_append]
      exact (hperm.append_right _).trans hset.symm
  · rcases List.mem_or_eq_of_mem_set hinv' with hinv' | rfl
    · exact hs.hasRun inv' hinv'
    · exact hrun.symm
  · show ∃ row', (id, row') ∈ c.committed.runs.rows ∧ _
    rw [hrows]
    rcases List.mem_or_eq_of_mem_set hinv' with hinv' | rfl
    · obtain ⟨row', hrow', hstatus'⟩ := hs.status inv' hinv' id hid
      exact ⟨row', List.mem_append_left _ hrow', hstatus'⟩
    · cases hid
      exact ⟨row, List.mem_append_right _ (List.mem_singleton_self _),
        hrowStatus.trans hstatus.symm⟩

theorem audited_finish (hs : s.Audited db₀) {i : Nat} {inv : Invocation} {result : ScanResult}
    {finished : Utc} (hinv : s.invocations[i]? = some inv) (hrun : inv.phase.hasRun = true)
    (hfinish : s.finishRun i inv result finished = some s') : s'.Audited db₀ := by
  have hmem := List.mem_of_getElem? hinv
  obtain ⟨runId, c, hid, hcall, rfl⟩ := finishRun_frame hfinish
  obtain ⟨hone, hrows⟩ := finishRun_rows hcall
  obtain ⟨added, hadded, hperm⟩ := hs.runs
  have hordered : (s.db.runs.rows.map Prod.fst).Nodup := s.db.runs.ordered.imp fun h => h.ne
  rw [hadded, List.map_append, List.nodup_append] at hordered
  have hrunId : runId ∈ added.map Prod.fst :=
    hperm.mem_iff.mpr (List.mem_filterMap.mpr ⟨inv, hmem, hid⟩)
  -- the rows that were there before are not touched
  have hkept : db₀.runs.rows.map (fun row => (row.1, if isOpenRun runId row then
      { row.2 with status := result.status.recorded, finishedAt := some finished.isoformat
                   itemCount := 0 } else row.2)) = db₀.runs.rows := by
    conv_rhs => rw [← List.map_id db₀.runs.rows]
    refine List.map_congr_left fun row hrow => ?_
    have hne : isOpenRun runId row = false := by
      refine Bool.eq_false_iff.mpr fun h => ?_
      have heq : (row.1 : Int) = runId := of_decide_eq_true (Bool.and_eq_true_iff.mp h).1
      exact hordered.2.2 row.1 (List.mem_map_of_mem hrow) runId hrunId (Int.ofNat.inj heq)
    rw [hne]
    rfl
  refine ⟨?_, fun inv' hinv' => ?_, fun inv' hinv' id hid' => ?_⟩
  · refine ⟨added.map fun row => (row.1, if isOpenRun runId row then
      { row.2 with status := result.status.recorded, finishedAt := some finished.isoformat
                   itemCount := 0 } else row.2), ?_, ?_⟩
    · show c.committed.runs.rows = _
      rw [hrows, hadded, List.map_append, hkept]
    · have hset := filterMap_set (f := Invocation.run) hinv { inv with phase := .closing result }
      rw [List.map_map]
      exact hperm.trans ((List.perm_append_right_iff _).mp hset).symm
  · rcases List.mem_or_eq_of_mem_set hinv' with hinv' | rfl
    · exact hs.hasRun inv' hinv'
    · exact (hs.hasRun inv hmem).trans hrun
  · show ∃ row', (id, row') ∈ c.committed.runs.rows ∧ _
    obtain ⟨j, hj⟩ := List.mem_iff_getElem?.mp hinv'
    have hj : (s.invocations.set i { inv with phase := .closing result })[j]? = some inv' := hj
    rw [hrows]
    by_cases hji : j = i
    · -- the row of the run was open, and it is the only one of its id
      rw [hji, List.getElem?_set_self (List.getElem?_eq_some_iff.mp hinv).1] at hj
      cases hj
      cases hid.symm.trans hid'
      obtain ⟨⟨id', row⟩, hfilter⟩ := List.length_eq_one_iff.mp hone
      obtain ⟨hrow, hopen⟩ := List.mem_filter.mp (hfilter ▸ List.mem_singleton_self (id', row))
      have heq : (id' : Int) = runId := of_decide_eq_true (Bool.and_eq_true_iff.mp hopen).1
      cases Int.ofNat.inj heq
      refine ⟨_, List.mem_map.mpr ⟨_, hrow, rfl⟩, ?_⟩
      rw [if_pos hopen]
      rfl
    · rw [List.getElem?_set_ne (Ne.symm hji)] at hj
      obtain ⟨row, hrow, hstatus⟩ := hs.status inv' (List.mem_of_getElem? hj) id hid'
      have hne : id ≠ runId := by
        intro heq
        rw [heq] at hid'
        have hnodup := hperm.nodup_iff.mp hordered.2.1
        exact hji (eq_of_nodup_filterMap hnodup hj hinv hid' hid)
      have hclosed : isOpenRun runId (id, row) = false := by
        refine Bool.eq_false_iff.mpr fun h => hne ?_
        have heq : (id : Int) = runId := of_decide_eq_true (Bool.and_eq_true_iff.mp h).1
        exact Int.ofNat.inj heq
      refine ⟨row, List.mem_map.mpr ⟨_, hrow, ?_⟩, hstatus⟩
      rw [hclosed]
      rfl

theorem audited_move (hs : s.Audited db₀) (hmove : Move rt r s a s') : s'.Audited db₀ := by
  cases hmove with
  | tick | refuse => exact ⟨hs.runs, hs.hasRun, hs.status⟩
  | autoReap => exact ⟨hs.runs, hs.hasRun, hs.status⟩
  | call hpermitted =>
    refine ⟨?_, fun inv hinv => ?_, fun inv hinv id hid => ?_⟩
    · obtain ⟨added, hadded, hperm⟩ := hs.runs
      refine ⟨added, hadded, ?_⟩
      rw [List.filterMap_append]
      exact (List.append_nil _).symm ▸ hperm
    · rcases List.mem_append.mp hinv with hinv | hinv
      · exact hs.hasRun inv hinv
      · rw [List.mem_singleton.mp hinv]
        rfl
    · rcases List.mem_append.mp hinv with hinv | hinv
      · exact hs.status inv hinv id hid
      · rw [List.mem_singleton.mp hinv] at hid
        cases hid
  | quiet hinv hlocked hprocess hrun hstatus hraised =>
    exact audited_put hs hinv rfl hrun hstatus rfl
  | lock hinv hphase hfree =>
    exact audited_put hs hinv rfl (by rw [hphase]; rfl) (by rw [hphase]; rfl) rfl
  | record hinv hphase hprocess hrun hlocked hstatus hstart =>
    exact audited_record hs hinv hphase hrun hstatus hstart
  | start hinv hphase =>
    exact audited_put hs hinv rfl (by rw [hphase]; rfl) (by rw [hphase]; rfl) rfl
  | reap hinv hlocked hrun hrun' hstatus =>
    exact audited_put hs hinv rfl (hrun'.trans hrun.symm) hstatus rfl
  | finish hinv hrun hprocess hfinish => exact audited_finish hs hinv hrun hfinish
  | close hinv hphase =>
    exact audited_put hs hinv rfl (by rw [hphase]; rfl) (by rw [hphase]; rfl) rfl

end

/-! ## Approval -/

/-- Approval is kept with the description of an invocation. -/
structure Approval (s : System) : Prop where
  approved : ∀ inv ∈ s.invocations, inv.description.activeTargetPermitted = true
  permitted : s.Permitted

theorem Approval.update (hs : Approval s) {i : Nat} {inv inv' : Invocation}
    (hinv : s.invocations[i]? = some inv) (hset : s'.invocations = s.invocations.set i inv')
    (hdescription : inv'.description = inv.description)
    (hlaunches : ∀ l ∈ s'.launches, l ∈ s.launches ∨ l = ⟨i, safeEnvironment inv.description⟩) :
    Approval s' := by
  obtain ⟨hlt, -⟩ := List.getElem?_eq_some_iff.mp hinv
  have hself := hs.approved inv (List.mem_of_getElem? hinv)
  refine ⟨fun inv'' hinv'' => ?_, fun l hl => ?_⟩
  · rw [hset] at hinv''
    rcases List.mem_or_eq_of_mem_set hinv'' with hinv'' | rfl
    · exact hs.approved inv'' hinv''
    · rw [hdescription]
      exact hself
  · have hcurrent : s'.invocations[i]? = some inv' := by
      rw [hset, List.getElem?_set_self hlt]
    rcases hlaunches l hl with hl | rfl
    · obtain ⟨inv'', hinv'', hpermitted, henvironment⟩ := hs.permitted l hl
      by_cases hli : l.invocation = i
      · rw [hli] at hinv''
        rw [hinv] at hinv''
        cases hinv''
        refine ⟨inv', hli ▸ hcurrent, ?_, ?_⟩
        · rw [hdescription]
          exact hpermitted
        · rw [hdescription]
          exact henvironment
      · refine ⟨inv'', ?_, hpermitted, henvironment⟩
        rw [hset, List.getElem?_set_ne (Ne.symm hli)]
        exact hinv''
    · refine ⟨inv', hcurrent, ?_, ?_⟩
      · rw [hdescription]
        exact hself
      · rw [hdescription]

theorem Approval.move (hs : Approval s) (hmove : Move rt r s a s') : Approval s' := by
  cases hmove with
  | tick | refuse | autoReap => exact ⟨hs.approved, hs.permitted⟩
  | call hpermitted =>
    refine ⟨fun inv hinv => ?_, fun l hl => ?_⟩
    · rcases List.mem_append.mp hinv with hinv | hinv
      · exact hs.approved inv hinv
      · rw [List.mem_singleton.mp hinv]
        exact hpermitted
    · obtain ⟨inv, hinv, hrest⟩ := hs.permitted l hl
      refine ⟨inv, ?_, hrest⟩
      rw [List.getElem?_append_left (List.getElem?_eq_some_iff.mp hinv).1]
      exact hinv
  | quiet hinv | lock hinv | reap hinv | close hinv =>
    exact hs.update hinv rfl rfl fun l hl => .inl hl
  | record hinv hphase hprocess hrun hlocked hstatus hstart =>
    obtain ⟨runId, c, -, rfl⟩ := startRun_frame hstart
    exact hs.update hinv rfl rfl fun l hl => .inl hl
  | start hinv hphase =>
    exact hs.update hinv rfl rfl fun l hl =>
      (List.mem_append.mp hl).imp id List.mem_singleton.mp
  | finish hinv hrun hprocess hfinish =>
    obtain ⟨runId, c, -, -, rfl⟩ := finishRun_frame hfinish
    exact hs.update hinv rfl rfl fun l hl => .inl hl

theorem Phase.ne_raised {phase : Phase} (h : phase.hasRun = true) (exc : Exc) :
    phase ≠ .raised exc := by
  rintro rfl
  cases h

theorem raising_put (hs : s.Raising) {i : Nat} {inv : Invocation}
    (hset : s'.invocations = s.invocations.set i inv)
    (hraised : ∀ exc, inv.phase = .raised exc → ∃ root, openLock root = .error exc) :
    s'.Raising := by
  unfold System.Raising
  rw [hset]
  intro inv' hinv'
  rcases List.mem_or_eq_of_mem_set hinv' with hinv' | rfl
  · exact hs inv' hinv'
  · exact hraised

theorem raising_move (hs : s.Raising) (hmove : Move rt r s a s') : s'.Raising := by
  cases hmove with
  | tick | refuse | autoReap => exact hs
  | call hpermitted =>
    intro inv hinv
    rcases List.mem_append.mp hinv with hinv | hinv
    · exact hs inv hinv
    · rw [List.mem_singleton.mp hinv]
      exact fun exc h => by cases h
  | quiet hinv hlocked hprocess hrun hstatus hraised => exact raising_put hs rfl hraised
  | lock | start | close => exact raising_put hs rfl (fun exc h => by cases h)
  | record hinv hphase hprocess hrun hlocked hstatus hstart =>
    obtain ⟨runId, c, -, rfl⟩ := startRun_frame hstart
    exact raising_put hs rfl fun exc h => absurd h (Phase.ne_raised hrun exc)
  | reap hinv hlocked hrun hrun' hstatus =>
    exact raising_put hs rfl fun exc h => absurd h (Phase.ne_raised hrun' exc)
  | finish hinv hrun hprocess hfinish =>
    obtain ⟨runId, c, -, -, rfl⟩ := finishRun_frame hfinish
    exact raising_put hs rfl (fun exc h => by cases h)

/-! ## Invocations that raise -/

/-- A script is started for an invocation that has its collector run. -/
def System.LaunchedInRun (s : System) : Prop :=
  ∀ l ∈ s.launches, ∃ inv, s.invocations[l.invocation]? = some inv ∧ inv.phase.hasRun = true

/-- Invocation `i` moves on, and keeps a run that it has. -/
theorem launched_update (hs : s.LaunchedInRun) {i : Nat} {inv inv' : Invocation}
    (hinv : s.invocations[i]? = some inv) (hset : s'.invocations = s.invocations.set i inv')
    (hrun : inv.phase.hasRun = true → inv'.phase.hasRun = true)
    (hlaunches : ∀ l ∈ s'.launches, l ∈ s.launches ∨ l.invocation = i ∧ inv'.phase.hasRun = true) :
    s'.LaunchedInRun := by
  have hself : s'.invocations[i]? = some inv' := by
    rw [hset, List.getElem?_set_self (List.getElem?_eq_some_iff.mp hinv).1]
  intro l hl
  rcases hlaunches l hl with hl | ⟨rfl, hrun'⟩
  · obtain ⟨inv'', hinv'', hrun''⟩ := hs l hl
    by_cases hli : l.invocation = i
    · rw [hli, hinv] at hinv''
      cases hinv''
      exact ⟨inv', hli ▸ hself, hrun hrun''⟩
    · refine ⟨inv'', ?_, hrun''⟩
      rw [hset, List.getElem?_set_ne (Ne.symm hli)]
      exact hinv''
  · exact ⟨inv', hself, hrun'⟩

theorem launched_move (hs : s.LaunchedInRun) (hmove : Move rt r s a s') : s'.LaunchedInRun := by
  cases hmove with
  | tick | refuse | autoReap => exact hs
  | call hpermitted =>
    intro l hl
    obtain ⟨inv, hinv, hrun⟩ := hs l hl
    refine ⟨inv, ?_, hrun⟩
    rw [List.getElem?_append_left (List.getElem?_eq_some_iff.mp hinv).1]
    exact hinv
  | quiet hinv hlocked hprocess hrun hstatus hraised =>
    exact launched_update hs hinv rfl (fun h => hrun.trans h) fun l hl => .inl hl
  | lock hinv hphase hfree =>
    exact launched_update hs hinv rfl (fun h => by rw [hphase] at h; cases h) fun l hl => .inl hl
  | record hinv hphase hprocess hrun hlocked hstatus hstart =>
    obtain ⟨runId, c, -, rfl⟩ := startRun_frame hstart
    exact launched_update hs hinv rfl (fun _ => hrun) fun l hl => .inl hl
  | start hinv hphase =>
    refine launched_update hs hinv rfl (fun _ => rfl) fun l hl => ?_
    refine (List.mem_append.mp hl).imp id fun hl => ?_
    rw [List.mem_singleton.mp hl]
    exact ⟨rfl, rfl⟩
  | reap hinv hlocked hrun hrun' hstatus =>
    exact launched_update hs hinv rfl (fun _ => hrun') fun l hl => .inl hl
  | finish hinv hrun hprocess hfinish =>
    obtain ⟨runId, c, -, -, rfl⟩ := finishRun_frame hfinish
    exact launched_update hs hinv rfl (fun _ => rfl) fun l hl => .inl hl
  | close hinv hphase => exact launched_update hs hinv rfl (fun _ => rfl) fun l hl => .inl hl

theorem withheld (haudited : s.Audited db₀) (hlaunched : s.LaunchedInRun) : s.Withheld := by
  intro i inv exc hinv hphase
  have hnone := haudited.hasRun inv (List.mem_of_getElem? hinv)
  rw [hphase] at hnone
  refine ⟨Option.isNone_iff_eq_none.mp (Option.isSome_eq_false_iff.mp hnone), ?_⟩
  rintro l hl rfl
  obtain ⟨inv', hinv', hrun⟩ := hlaunched l hl
  rw [hinv] at hinv'
  cases hinv'
  exact Phase.ne_raised hrun exc hphase

/-- What an event does to the invocations. -/
theorem Move.invocations {i : Nat} {e : Event} (h : Move rt r s (.event i e) s') :
    ∃ inv, s'.invocations = s.invocations.set i inv := by
  cases h with
  | quiet | lock | start | reap | close => exact ⟨_, rfl⟩
  | record hinv hphase hprocess hrun hlocked hstatus hstart =>
    obtain ⟨runId, c, -, rfl⟩ := startRun_frame hstart
    exact ⟨_, rfl⟩
  | finish hinv hrun hprocess hfinish =>
    obtain ⟨runId, c, -, -, rfl⟩ := finishRun_frame hfinish
    exact ⟨_, rfl⟩

/-- What has raised does nothing more. -/
theorem raisedAt_step {i : Nat} {exc : Exc} (hs : s.RaisedAt i exc)
    (hstep : s.step rt r a = some s') : s'.RaisedAt i exc := by
  obtain ⟨inv, hinv, hphase⟩ := hs
  have hmove := step_move hstep
  cases a with
  | tick now =>
    obtain ⟨-, heq⟩ := Option.ite_none_right_eq_some.mp hstep
    obtain rfl := Option.some.inj heq
    exact ⟨inv, hinv, hphase⟩
  | call timeoutSeconds resolution =>
    cases hmove with
    | refuse => exact ⟨inv, hinv, hphase⟩
    | call =>
      refine ⟨inv, ?_, hphase⟩
      rw [List.getElem?_append_left (List.getElem?_eq_some_iff.mp hinv).1]
      exact hinv
  | autoReap j =>
    obtain rfl := Option.some.inj hstep
    exact ⟨inv, hinv, hphase⟩
  | event j e =>
    by_cases hji : j = i
    · rw [hji] at hstep
      simp only [System.step, hinv, hphase] at hstep
      cases e <;> cases hstep
    · obtain ⟨inv', hset⟩ := hmove.invocations
      refine ⟨inv, ?_, hphase⟩
      rw [hset, List.getElem?_set_ne hji]
      exact hinv

theorem openLock_error {root : DataRoot} {exc : Exc} (h : openLock root = .error exc) :
    ∃ message, exc = .scanLaunch message := by
  unfold openLock at h
  split at h
  · cases h
    exact ⟨_, rfl⟩
  · split at h
    · cases h
      exact ⟨_, rfl⟩
    · split at h
      · cases h
      · cases h
        exact ⟨_, rfl⟩

/-- An invocation that cannot open its lock file raises. -/
theorem raisedAt_openLock {i : Nat} {root : DataRoot} {exc : Exc} (hopen : openLock root = .error exc)
    (hstep : s.step rt r (.event i (.openLock root)) = some s') : s'.RaisedAt i exc := by
  simp only [System.step] at hstep
  split at hstep
  · cases hstep
  · next inv hinv =>
    cases hphase : inv.phase with
    | approved =>
      simp only [hphase, System.eventStep, hopen] at hstep
      obtain rfl := Option.some.inj hstep
      exact ⟨_, List.getElem?_set_self (List.getElem?_eq_some_iff.mp hinv).1, rfl⟩
    | terminating started digest stage =>
      rw [hphase] at hstep
      cases stage <;> cases hstep
    | opened | refused | refusedRun | locked | recorded | digested | waiting | ended | closing
    | returned | raised =>
      rw [hphase] at hstep
      cases hstep

/-! ## Runs -/

/-- In every run of any number of invocations, from any database: scripts are started for permitted
subnets only; each invocation has the one collector run that it has started, with its status; an
invocation that has returned has started one; one that cannot open its lock file raises, for no other
reason does one raise, and what has raised has neither a collector run nor a script; and as long as no
group that has processes left refuses a signal, at most one process has not been reaped. -/
theorem scans_exclusive_audited (rt : Runtime) (r : Redactor) (db₀ : RunDb) (clock : Utc)
    {actions : List Action} (hrun : Machine.run (System.step rt r) ⟨clock, db₀, none, [], [], []⟩
      actions = some s) :
    s.Permitted ∧ s.Audited db₀ ∧ s.Raising ∧ s.Withheld ∧
      (∀ front back i root exc, actions = front ++ .event i (.openLock root) :: back →
        openLock root = .error exc → (∃ message, exc = .scanLaunch message) ∧ s.RaisedAt i exc) ∧
      ((∀ a ∈ actions, a.isDenied = false) → s.Exclusive) := by
  have haudited : System.Audited db₀ ⟨clock, db₀, none, [], [], []⟩ :=
    ⟨⟨[], (List.append_nil _).symm, .refl _⟩, fun inv hinv => absurd hinv List.not_mem_nil,
      fun inv hinv => absurd hinv List.not_mem_nil⟩
  have happroval : Approval ⟨clock, db₀, none, [], [], []⟩ :=
    ⟨fun inv hinv => absurd hinv List.not_mem_nil, fun l hl => absurd hl List.not_mem_nil⟩
  have hexclusion : Exclusion ⟨clock, db₀, none, [], [], []⟩ :=
    ⟨(fun i inv hinv => by cases hinv), fun i hi => absurd hi List.not_mem_nil, List.nodup_nil⟩
  have halways : ∀ s₀, Machine.Along (System.step rt r) (fun _ _ => True) s₀ actions :=
    fun s₀ => Machine.along_of_forall fun _ _ => trivial
  have hlast : s.Audited db₀ := Machine.run_invariant (I := System.Audited db₀)
    (fun _ _ _ hs _ hstep => audited_move hs (step_move hstep)) haudited (halways _) hrun
  refine ⟨?_, hlast, ?_, ?_, ?_, fun hdenied => ?_⟩
  · exact (Machine.run_invariant (I := Approval)
      (fun _ _ _ hs _ hstep => hs.move (step_move hstep)) happroval (halways _) hrun).permitted
  · exact Machine.run_invariant (I := System.Raising)
      (fun _ _ _ hs _ hstep => raising_move hs (step_move hstep))
      (fun inv hinv => absurd hinv List.not_mem_nil) (halways _) hrun
  · exact withheld hlast (Machine.run_invariant (I := System.LaunchedInRun)
      (fun _ _ _ hs _ hstep => launched_move hs (step_move hstep))
      (fun l hl => absurd hl List.not_mem_nil) (halways _) hrun)
  · rintro front back i root exc rfl hopen
    obtain ⟨s₁, -, hback⟩ := Machine.run_append.mp hrun
    obtain ⟨s₂, hstep, hback⟩ := Machine.run_cons.mp hback
    exact ⟨openLock_error hopen, Machine.run_invariant (I := System.RaisedAt i exc)
      (fun _ _ _ hs _ hstep => raisedAt_step hs hstep) (raisedAt_openLock hopen hstep)
      (Machine.along_of_forall fun _ _ => trivial) hback⟩
  · exact (Machine.run_invariant (I := Exclusion)
      (fun _ _ _ hs ha hstep => hs.move (step_move hstep) ha) hexclusion
      (Machine.along_of_forall (Q := fun a : Action => a.isDenied = false) hdenied) hrun).exclusive

end

/-! ## Two invocations -/

/-- The subnet that an operator has approved. -/
def sampleSubnet : SubnetDescription where
  interface := str "eth0"
  cidr := str "192.0.2.0/24"
  activeTargetPermitted := true
  activeTargetReasons := []

/-- A data root whose lock file can be opened. -/
def sampleRoot : DataRoot where
  info := some (false, true)
  opens := true

/-- The script and its content. -/
def sampleScript : ScriptFile := .found false true true (some [])

/-- Invocation `i` starts the script. -/
def launching (i : Nat) : List Action :=
  [.call 60 (.ok sampleSubnet), .event i (.openLock sampleRoot), .event i .flock,
    .event i .startRun, .event i (.scriptDigest sampleScript), .event i (.start true)]

/-- Invocation `i` terminates it after its timeout and returns. -/
def timingOut (i : Nat) (e : KillEnd) : List Action :=
  [.event i (.wait .timedOut), .event i (.killpg e)] ++
    (if e = .delivered then [.event i (.wait (.returned (-15)))] else []) ++
    [.event i .finishRun, .event i .close]

/-- The system after the actions. -/
def systemAfter (actions : List Action) : Option System :=
  Machine.run (System.step (Runtime.ofDigests []) ⟨[], []⟩)
    ⟨sampleStart, .empty [], none, [], [], []⟩ actions

/-- A data root whose lock file cannot be opened. -/
def sampleClosedRoot : DataRoot := { sampleRoot with opens := false }

/-- While the first invocation has the lock, the second returns without a process. The third cannot
open its lock file. -/
def contended : List Action :=
  launching 0 ++
    [.call 60 (.ok sampleSubnet), .event 1 (.openLock sampleRoot), .event 1 .flock,
      .event 1 .startRun, .event 1 .finishRun, .event 1 .close] ++
    timingOut 0 .delivered ++
    [.call 60 (.ok sampleSubnet), .event 2 (.openLock sampleClosedRoot)]

theorem scans_exclusive_audited_sample : ∃ s, systemAfter contended = some s ∧
    s.db.runs.rows.map (fun row => row.2.status) = [.cancelled, .failed] ∧ s.launches.length = 1 ∧
      s.Permitted ∧ s.Audited (.empty []) ∧
      s.RaisedAt 2 (.scanLaunch (str "cannot prepare the scan invocation lock")) ∧
      (∀ l ∈ s.launches, l.invocation ≠ 2) ∧ s.Exclusive := by
  have hsummary : (systemAfter contended).map (fun s =>
      (s.db.runs.rows.map (fun row => row.2.status), s.launches.length)) =
        some ([.cancelled, .failed], 1) := by
    decide +kernel
  obtain ⟨s, hrun, hs⟩ := Option.map_eq_some_iff.mp hsummary
  obtain ⟨hpermitted, haudited, -, hwithheld, hraised, hexclusive⟩ :=
    scans_exclusive_audited _ _ _ _ hrun
  obtain ⟨inv, hinv, hphase⟩ := (hraised contended.dropLast [] 2 sampleClosedRoot _ rfl rfl).2
  exact ⟨s, hrun, (Prod.mk.inj hs).1, (Prod.mk.inj hs).2, hpermitted, haudited,
    ⟨inv, hinv, hphase⟩, (hwithheld 2 inv _ hinv hphase).2, hexclusive (by decide +kernel)⟩

/-- An invocation whose lock file is a link raises and has no collector run. And one that may not
signal the group of its process leaves the process behind, and the next starts another. -/
theorem scans_not_exclusive_audited :
    (¬ ∀ rt r db₀ clock actions s,
      Machine.run (System.step rt r) ⟨clock, db₀, none, [], [], []⟩ actions = some s →
        ∀ inv ∈ s.invocations, (∃ exc, inv.phase = .raised exc) → inv.run.isSome = true) ∧
    ¬ ∀ rt r db₀ clock actions s,
      Machine.run (System.step rt r) ⟨clock, db₀, none, [], [], []⟩ actions = some s →
        s.Exclusive := by
  constructor
  · intro h
    have hsummary : (systemAfter [.call 60 (.ok sampleSubnet),
        .event 0 (.openLock sampleClosedRoot)]).map (fun s =>
          s.invocations.map fun inv =>
            (match inv.phase with | .raised _ => true | _ => false, inv.run)) =
          some [(true, none)] := by
      decide +kernel
    obtain ⟨s, hrun, hs⟩ := Option.map_eq_some_iff.mp hsummary
    obtain ⟨inv, hinvocations, hinv⟩ := List.map_eq_singleton_iff.mp hs
    have hraised : ∃ exc, inv.phase = .raised exc := by
      have hphase := (Prod.mk.inj hinv).1
      split at hphase
      · next exc heq => exact ⟨exc, heq⟩
      · cases hphase
    have hsome := h _ _ _ _ _ s hrun inv (hinvocations ▸ List.mem_singleton_self inv) hraised
    rw [(Prod.mk.inj hinv).2] at hsome
    cases hsome
  · intro h
    have hsummary : (systemAfter (launching 0 ++ timingOut 0 .denied ++ launching 1)).map
        (fun s => s.unreaped) = some [0, 1] := by
      decide +kernel
    obtain ⟨s, hrun, hs⟩ := Option.map_eq_some_iff.mp hsummary
    have hexclusive := h _ _ _ _ _ s hrun
    unfold System.Exclusive at hexclusive
    rw [hs] at hexclusive
    exact absurd hexclusive (by decide)

end FieldDiscovery.NmapScan
