import FieldDiscovery.Database.Interleave

/-!
# When two calls of `migrate` both succeed

No interleaving of two calls applies a migration twice: the second insertion of its version fails. A
call that read the history before the other call committed plans migrations that are no longer its to
apply, and raises. `Inv` is the invariant of both facts; with `careful` it is the invariant of the runs
in which no call reads the history between the other call's reading and its last commit.
-/

namespace FieldDiscovery.Database

open Py Repository

variable {σ : Type}

section

variable (rt : Runtime) (engine : Engine σ) (clock : Caller → Int → Str) (fresh : σ)
  (migrations : List Migration)

/-- The call has read the history and has not ended. -/
def Phase.IsBetween : Phase → Prop
  | .loop _ _ | .working _ _ _ _ => True
  | .bootstrap | .select | .returned _ | .raised _ => False

instance : DecidablePred Phase.IsBetween
  | .loop _ _ | .working _ _ _ _ => isTrue trivial
  | .bootstrap | .select | .returned _ | .raised _ => isFalse id

/-- What a call knows when the file stands at `k` migrations. A careful call looks at nothing that the
other has applied since it read the history. -/
def Phase.Fits (careful : Prop) (k : Nat) (w : World σ) (p : Caller) : Phase → Prop
  | .bootstrap | .select => True
  | .loop applied rest => ∃ i j, i ≤ k ∧ j ≤ k ∧ Records rt applied (migrations.take i) ∧
      rest = migrations.drop j ∧ (careful → k ≤ max i j)
  | .working applied migration todo rest => ∃ i j done c, i ≤ j ∧ j ≤ k ∧
      Records rt applied (migrations.take i) ∧ migrations[j]? = some migration ∧
      rest = migrations.drop (j + 1) ∧ (careful → k ≤ j) ∧ w.writer = some (p, c) ∧
      ops engine migration = done ++ todo ∧
      done.foldlM (fun c op => op.run rt engine (clock p migration.version) c) w.committed = .ok c
  | .returned version => k = migrations.length ∧ version = migrations.length
  | .raised _ => ¬ careful

/-- The file stands at `k` migrations. -/
structure Inv (careful : Prop) (k : Nat) (w : World σ) : Prop where
  stands : Stands rt engine fresh migrations k w.committed
  bootstrapped : ∀ p, w.phase p ≠ .bootstrap → w.committed.bootstrapped = w.committed
  fits : ∀ p, (w.phase p).Fits rt engine clock migrations careful k w p
  /-- The write transaction of a careful call is open while it works. -/
  holder : careful → ∀ p c, w.writer = some (p, c) →
    ∃ applied migration todo rest, w.phase p = .working applied migration todo rest
  /-- While something is left to apply, only one careful call is between. -/
  alone : careful → k < migrations.length → ∀ p q, (w.phase p).IsBetween →
    (w.phase q).IsBetween → p = q

end

section

variable {rt : Runtime} {engine : Engine σ} {clock : Caller → Int → Str} {fresh : σ}
  {migrations : List Migration} {careful : Prop} {k : Nat} {w : World σ}

theorem inv_start {c : Content σ} (hc : Stands rt engine fresh migrations k c) :
    Inv rt engine clock fresh migrations careful k (World.start c) where
  stands := hc
  bootstrapped p h := absurd rfl h
  fits p := trivial
  holder _ p c h := by cases h
  alone _ _ p q h := h.elim

/-- What a call knows survives a step of the other one. -/
theorem Phase.Fits.frame {phase : Phase} {q : Caller} {k' : Nat} {w' : World σ}
    (h : phase.Fits rt engine clock migrations careful k w q) (hk : k ≤ k')
    (hlength : k' ≤ migrations.length) (hsame : careful → phase.IsBetween → k' = k)
    (hkeep : phase ≠ .bootstrap → ∀ c, w.writer = some (q, c) →
      w'.writer = w.writer ∧ w'.committed = w.committed) :
    phase.Fits rt engine clock migrations careful k' w' q := by
  cases phase with
  | bootstrap => trivial
  | select => trivial
  | loop applied rest =>
    obtain ⟨i, j, hi, hj, hrecords, hrest, hcareful⟩ := h
    exact ⟨i, j, hi.trans hk, hj.trans hk, hrecords, hrest,
      fun hc => (hsame hc trivial) ▸ hcareful hc⟩
  | working applied migration todo rest =>
    obtain ⟨i, j, done, c, hij, hj, hrecords, hget, hrest, hcareful, hwriter, hops, hrun⟩ := h
    obtain ⟨hwriter', hcommitted⟩ := hkeep (by simp) c hwriter
    exact ⟨i, j, done, c, hij, hj.trans hk, hrecords, hget, hrest,
      fun hc => (hsame hc trivial) ▸ hcareful hc, hwriter' ▸ hwriter, hops, hcommitted ▸ hrun⟩
  | returned version => exact ⟨le_antisymm hlength (h.1 ▸ hk), h.2⟩
  | raised e => exact h

/-- Only the call that holds the write lock is in a transaction. -/
theorem Inv.move (h : Inv rt engine clock fresh migrations careful k w) {p : Caller} {phase : Phase}
    {k' : Nat} {w₁ : World σ} (hphase : w₁.phase = w.phase) (hk : k ≤ k')
    (hstands : Stands rt engine fresh migrations k' w₁.committed)
    (hboot : w₁.committed.bootstrapped = w₁.committed)
    (hfits : phase.Fits rt engine clock migrations careful k' (w₁.go p phase) p)
    (hkeep : ∀ q ≠ p, w.phase q ≠ .bootstrap → ∀ c, w.writer = some (q, c) →
      w₁.writer = w.writer ∧ w₁.committed = w.committed)
    (hsame : careful → k' = k ∨ ∀ q ≠ p, ¬ (w.phase q).IsBetween)
    (hholder : careful → ∀ q c, w₁.writer = some (q, c) → (q ≠ p ∧ w.writer = some (q, c)) ∨
      q = p ∧ ∃ applied migration todo rest, phase = .working applied migration todo rest)
    (halone : careful → k' < migrations.length → phase.IsBetween →
      ∀ q ≠ p, ¬ (w.phase q).IsBetween) :
    Inv rt engine clock fresh migrations careful k' (w₁.go p phase) where
  stands := hstands
  bootstrapped _ _ := hboot
  fits q := by
    by_cases hq : q = p
    · subst hq
      rw [go_phase_self]
      exact hfits
    · rw [go_phase_other _ _ hq, hphase]
      refine (h.fits q).frame hk hstands.1 (fun hc hbetween => ?_) (hkeep q hq)
      exact (hsame hc).resolve_right fun hnot => hnot q hq hbetween
  holder hc q c hwriter := by
    rcases hholder hc q c hwriter with ⟨hq, hold⟩ | ⟨rfl, hworking⟩
    · rw [go_phase_other _ _ hq, hphase]
      exact h.holder hc q c hold
    · rwa [go_phase_self]
  alone hc hlt q r hq hr := by
    by_cases hqp : q = p <;> by_cases hrp : r = p
    · rw [hqp, hrp]
    · subst hqp
      rw [go_phase_self] at hq
      rw [go_phase_other _ _ hrp, hphase] at hr
      exact absurd hr (halone hc hlt hq r hrp)
    · subst hrp
      rw [go_phase_self] at hr
      rw [go_phase_other _ _ hqp, hphase] at hq
      exact absurd hq (halone hc hlt hr q hqp)
    · rw [go_phase_other _ _ hqp, hphase] at hq
      rw [go_phase_other _ _ hrp, hphase] at hr
      exact h.alone hc (lt_of_le_of_lt hk hlt) q r hq hr

/-- A move that leaves the file and its lock. -/
theorem Inv.turn (h : Inv rt engine clock fresh migrations careful k w) {p : Caller} {phase : Phase}
    (hboot : w.phase p ≠ .bootstrap)
    (hidle : careful → ∀ c, w.writer ≠ some (p, c))
    (hfits : phase.Fits rt engine clock migrations careful k w p)
    (hbetween : careful → k < migrations.length → phase.IsBetween →
      ∀ q ≠ p, ¬ (w.phase q).IsBetween) :
    Inv rt engine clock fresh migrations careful k (w.go p phase) := by
  refine h.move rfl le_rfl h.stands (h.bootstrapped p hboot) ?_ (fun q _ _ c _ => ⟨rfl, rfl⟩)
    (fun _ => Or.inl rfl) (fun hc q c hwriter => Or.inl ⟨?_, hwriter⟩) hbetween
  · exact hfits.frame le_rfl h.stands.1 (fun _ _ => rfl) fun _ _ _ => ⟨rfl, rfl⟩
  · rintro rfl
    exact hidle hc c hwriter

/-- A call that is not in a transaction does not hold the lock. -/
theorem Inv.idle (h : Inv rt engine clock fresh migrations careful k w) {p : Caller}
    (hphase : ∀ applied migration todo rest, w.phase p ≠ .working applied migration todo rest) :
    careful → ∀ c, w.writer ≠ some (p, c) := by
  intro hc c hwriter
  obtain ⟨applied, migration, todo, rest, hworking⟩ := h.holder hc p c hwriter
  exact hphase _ _ _ _ hworking

/-- The call reads the history while the other one is not between its reading and its end, or when
nothing is left to apply. -/
def ReadsAlone (migrations : List Migration) (w : World σ) (p : Caller) : Prop :=
  w.phase p = .select → (∀ q ≠ p, ¬ (w.phase q).IsBetween) ∨
    w.committed.history.map (fun history => history.rows.length) = some migrations.length

instance (migrations : List Migration) (w : World σ) (p : Caller) :
    Decidable (ReadsAlone migrations w p) :=
  inferInstanceAs (Decidable (_ → _))

theorem Inv.bootstrap (h : Inv rt engine clock fresh migrations careful k w) {p : Caller}
    (hphase : w.phase p = .bootstrap) : Inv rt engine clock fresh migrations careful k
      (({ w with committed := w.committed.bootstrapped } : World σ).go p .select) := by
  have hidle := h.idle (p := p) (by simp [hphase])
  refine h.move rfl le_rfl h.stands.bootstrapped rfl trivial ?_ (fun _ => Or.inl rfl)
    (fun hc q c hwriter => Or.inl ⟨?_, hwriter⟩) fun _ _ hbetween => hbetween.elim
  · exact fun q _ hq c _ => ⟨rfl, h.bootstrapped q hq⟩
  · rintro rfl
    exact hidle hc c hwriter

/-- What a call reads records what the file holds. -/
theorem Inv.reads (hspared : ∀ m ∈ migrations, engine.SparedBy m)
    (hvalid : validateMigrationSet migrations = .ok ())
    (h : Inv rt engine clock fresh migrations careful k w) {p : Caller}
    (hphase : w.phase p ≠ .bootstrap) : ∃ history, w.committed.history = some history ∧
      selectHistory w.committed = .ok (history.rows, w.committed) ∧
      Records rt history.rows (migrations.take k) := by
  obtain ⟨history, hhistory, hrecords⟩ := h.stands.records hspared
  rw [h.bootstrapped p hphase] at hhistory
  refine ⟨history, hhistory, ?_, hrecords⟩
  unfold selectHistory
  rw [hhistory]
  simp only
  rw [hrecords.sorted hvalid]

theorem Inv.select (h : Inv rt engine clock fresh migrations careful k w) {p : Caller}
    (hphase : w.phase p = .select) (hreads : careful → ReadsAlone migrations w p)
    {history : History} (hhistory : w.committed.history = some history)
    (hrecords : Records rt history.rows (migrations.take k)) :
    Inv rt engine clock fresh migrations careful k (w.go p (.loop history.rows migrations)) := by
  refine h.turn (by simp [hphase]) (h.idle (by simp [hphase]))
    ⟨k, 0, le_rfl, Nat.zero_le _, hrecords, rfl, fun _ => le_max_left _ _⟩ fun hc hlt _ => ?_
  refine (hreads hc hphase).resolve_right ?_
  rw [hhistory, Option.map_some, Option.some.injEq]
  have hlength := congrArg List.length hrecords.versions
  simp only [List.length_map, List.length_take] at hlength
  omega

theorem Records.mem_versions (hvalid : validateMigrationSet migrations = .ok ()) {i j : Nat}
    {rows : List HistoryRow} (h : Records rt rows (migrations.take i)) (hj : j < migrations.length) :
    migrations[j].version ∈ rows.map HistoryRow.version ↔ j < i := by
  rw [h.versions, validateMigrationSet_eq_ok (validateMigrationSet_take hvalid i), mem_versionsTo,
    version_getElem hvalid hj, List.length_take]
  omega

theorem Inv.pass (hvalid : validateMigrationSet migrations = .ok ())
    (h : Inv rt engine clock fresh migrations careful k w) {p : Caller}
    {applied : List HistoryRow} {migration : Migration} {rest : List Migration}
    (hphase : w.phase p = .loop applied (migration :: rest)) {previous : HistoryRow}
    (hfind : applied.find? (fun row => row.version = migration.version) = some previous) :
    checkApplied rt migration previous = .ok () ∧
      Inv rt engine clock fresh migrations careful k (w.go p (.loop applied rest)) := by
  have hfits := h.fits p
  rw [hphase] at hfits
  obtain ⟨i, j, hi, hj, hrecords, hrest, hcareful⟩ := hfits
  have hjlt : j < migrations.length := by
    by_contra hnot
    rw [List.drop_eq_nil_of_le (Nat.not_lt.mp hnot)] at hrest
    cases hrest
  rw [List.drop_eq_getElem_cons hjlt] at hrest
  cases hrest
  have hprevious := List.mem_of_find?_eq_some hfind
  have hversion : previous.version = migrations[j].version := by
    simpa using List.find?_some hfind
  have hji : j < i := (hrecords.mem_versions hvalid hjlt).mp
    (hversion ▸ List.mem_map_of_mem hprevious)
  constructor
  · refine checkApplied_of_entry ?_
    obtain ⟨m, hm, hentry⟩ := hrecords.exists_of_mem_left (List.mem_map_of_mem hprevious)
    obtain ⟨n, hn, rfl⟩ := List.mem_take_iff_getElem.mp hm
    obtain ⟨checksum, -, hsame⟩ := entry_eq_ok.mp hentry
    have hnj : migrations[n].version = migrations[j].version :=
      (Prod.ext_iff.mp hsame).1.trans hversion
    rw [version_getElem hvalid (by omega), version_getElem hvalid hjlt] at hnj
    obtain rfl : n = j := by omega
    exact hentry
  · refine h.turn (by simp [hphase]) (h.idle (by simp [hphase]))
      ⟨i, j + 1, hi, by omega, hrecords, rfl, fun hc => ?_⟩ fun hc hlt _ q hq hbetween => ?_
    · have := hcareful hc
      omega
    · exact hq (h.alone hc hlt q p hbetween (by rw [hphase]; trivial))

theorem Inv.returns (hvalid : validateMigrationSet migrations = .ok ())
    (h : Inv rt engine clock fresh migrations careful k w) {p : Caller}
    {applied : List HistoryRow} (hphase : w.phase p = .loop applied []) :
    Inv rt engine clock fresh migrations careful k (w.go p (.returned (lastVersion migrations))) := by
  have hfits := h.fits p
  rw [hphase] at hfits
  obtain ⟨i, j, -, hj, -, hrest, -⟩ := hfits
  have hlength : migrations.length ≤ j := List.drop_eq_nil_iff.mp hrest.symm
  exact h.turn (by simp [hphase]) (h.idle (by simp [hphase]))
    ⟨le_antisymm h.stands.1 (hlength.trans hj), lastVersion_eq hvalid⟩ fun _ _ hbetween =>
      hbetween.elim

theorem Inv.begins (hvalid : validateMigrationSet migrations = .ok ())
    (h : Inv rt engine clock fresh migrations careful k w) {p : Caller}
    {applied : List HistoryRow} {migration : Migration} {rest : List Migration}
    (hphase : w.phase p = .loop applied (migration :: rest))
    (hfind : applied.find? (fun row => row.version = migration.version) = none)
    (hwriter : w.writer = none) : Inv rt engine clock fresh migrations careful k
      (({ w with writer := some (p, w.committed) } : World σ).go p
        (.working applied migration (ops engine migration) rest)) := by
  have hfits := h.fits p
  rw [hphase] at hfits
  obtain ⟨i, j, hi, hj, hrecords, hrest, hcareful⟩ := hfits
  have hjlt : j < migrations.length := by
    by_contra hnot
    rw [List.drop_eq_nil_of_le (Nat.not_lt.mp hnot)] at hrest
    cases hrest
  rw [List.drop_eq_getElem_cons hjlt] at hrest
  cases hrest
  have hij : i ≤ j := by
    by_contra hnot
    obtain ⟨row, hrow, hversion⟩ := List.mem_map.mp
      ((hrecords.mem_versions hvalid hjlt).mpr (Nat.not_le.mp hnot))
    have hne := List.find?_eq_none.mp hfind row hrow
    exact hne (decide_eq_true hversion)
  refine h.move rfl le_rfl h.stands (h.bootstrapped p (by simp [hphase])) ?_ ?_
    (fun _ => Or.inl rfl) ?_ fun hc hlt _ q hq hbetween =>
      hq (h.alone hc hlt q p hbetween (by rw [hphase]; trivial))
  · refine ⟨i, j, [], w.committed, hij, hj, hrecords, List.getElem?_eq_getElem hjlt, rfl,
      fun hc => ?_, rfl, rfl, rfl⟩
    have := hcareful hc
    omega
  · intro q _ _ c hheld
    rw [hwriter] at hheld
    cases hheld
  · intro _ q c hheld
    cases hheld
    exact Or.inr ⟨rfl, applied, _, _, _, rfl⟩

/-- A migration that the file holds cannot be applied again. -/
theorem Stands.le_of_advance (hvalid : validateMigrationSet migrations = .ok ())
    (hspared : ∀ m ∈ migrations, engine.SparedBy m) {j : Nat} {c c' : Content σ} {now : Str}
    (hc : Stands rt engine fresh migrations k c) (hboot : c.bootstrapped = c)
    (hj : j < migrations.length)
    (hadvance : advanceOne rt engine now migrations[j] c = .ok c') : k ≤ j := by
  obtain ⟨history, hhistory, hrecords⟩ := hc.records hspared
  obtain ⟨_, history', hnew, -, hhistory', -⟩ :=
    advanceOne_eq_ok (hspared _ (List.getElem_mem hj)) hadvance
  rw [hboot, hhistory'] at hhistory
  cases hhistory
  by_contra hnot
  exact hnew ((hrecords.mem_versions hvalid hj).mpr (Nat.not_le.mp hnot))

/-- What is known of a call in its transaction. -/
theorem Inv.transaction (h : Inv rt engine clock fresh migrations careful k w) {p : Caller}
    {applied : List HistoryRow} {migration : Migration} {todo : List Op} {rest : List Migration}
    (hphase : w.phase p = .working applied migration todo rest) :
    ∃ c done, w.writer = some (p, c) ∧ ops engine migration = done ++ todo ∧
      done.foldlM (fun c op => op.run rt engine (clock p migration.version) c) w.committed =
        .ok c := by
  have hfits := h.fits p
  rw [hphase] at hfits
  obtain ⟨i, j, done, c, -, -, -, -, -, -, hwriter, hops, hrun⟩ := hfits
  exact ⟨c, done, hwriter, hops, hrun⟩

theorem Inv.runs (h : Inv rt engine clock fresh migrations careful k w) {p : Caller}
    {applied : List HistoryRow} {migration : Migration} {op : Op} {todo : List Op}
    {rest : List Migration} (hphase : w.phase p = .working applied migration (op :: todo) rest)
    {c c' : Content σ} (hwriter : w.writer = some (p, c))
    (hop : op.run rt engine (clock p migration.version) c = .ok c') :
    Inv rt engine clock fresh migrations careful k
      (({ w with writer := some (p, c') } : World σ).go p
        (.working applied migration todo rest)) := by
  have hfits := h.fits p
  rw [hphase] at hfits
  obtain ⟨i, j, done, c₁, hij, hj, hrecords, hget, hrest, hcareful, hwriter', hops, hrun⟩ := hfits
  cases hwriter.symm.trans hwriter'
  refine h.move rfl le_rfl h.stands (h.bootstrapped p (by simp [hphase])) ?_ ?_
    (fun _ => Or.inl rfl) ?_ fun hc hlt _ q hq hbetween =>
      hq (h.alone hc hlt q p hbetween (by rw [hphase]; trivial))
  · refine ⟨i, j, done ++ [op], c', hij, hj, hrecords, hget, hrest, hcareful, rfl,
      by rw [hops, List.append_assoc]; rfl, ?_⟩
    rw [List.foldlM_append]
    simp [hrun, hop]
  · intro q hq _ c₂ hheld
    cases hwriter.symm.trans hheld
    exact absurd rfl hq
  · intro _ q c₂ hheld
    cases hheld
    exact Or.inr ⟨rfl, applied, _, _, _, rfl⟩

/-- The statement of a careful call fails only if its migration does not apply. -/
theorem Inv.not_fails (hspared : ∀ m ∈ migrations, engine.SparedBy m)
    (happlies : ∃ c, Stands rt engine fresh migrations migrations.length c)
    (h : Inv rt engine clock fresh migrations careful k w) {p : Caller}
    {applied : List HistoryRow} {migration : Migration} {op : Op} {todo : List Op}
    {rest : List Migration} (hphase : w.phase p = .working applied migration (op :: todo) rest)
    {c : Content σ} (hwriter : w.writer = some (p, c)) {e : Exc}
    (hop : op.run rt engine (clock p migration.version) c = .error e) : ¬ careful := by
  intro hc
  have hfits := h.fits p
  rw [hphase] at hfits
  obtain ⟨i, j, done, c₁, hij, hj, hrecords, hget, hrest, hcareful, hwriter', hops, hrun⟩ := hfits
  cases hwriter.symm.trans hwriter'
  obtain rfl : k = j := le_antisymm (hcareful hc) hj
  obtain ⟨hk, rfl⟩ := List.getElem?_eq_some_iff.mp hget
  obtain ⟨c', hc'⟩ := happlies
  obtain ⟨d, hd⟩ := h.stands.next hspared hc' hk hk (clock p migrations[k].version)
  rw [h.bootstrapped p (by simp [hphase]), ← foldlM_ops, hops, List.foldlM_append, hrun,
    Except.ok_bind, List.foldlM_cons, hop] at hd
  cases hd

theorem Inv.fails (h : Inv rt engine clock fresh migrations careful k w) {p : Caller}
    {applied : List HistoryRow} {migration : Migration} {todo : List Op} {rest : List Migration}
    (hphase : w.phase p = .working applied migration todo rest) {c : Content σ}
    (hwriter : w.writer = some (p, c)) (hcareful : ¬ careful) (e : Exc) :
    Inv rt engine clock fresh migrations careful k (w.fail p migration e) := by
  have hboot := h.bootstrapped p (by simp [hphase])
  unfold World.fail
  split
  · refine h.move rfl le_rfl h.stands hboot hcareful ?_ (fun hc => absurd hc hcareful)
      (fun hc => absurd hc hcareful) fun hc => absurd hc hcareful
    intro q hq _ c₂ hheld
    cases hwriter.symm.trans hheld
    exact absurd rfl hq
  · exact h.move rfl le_rfl h.stands hboot hcareful (fun q _ _ c _ => ⟨rfl, rfl⟩)
      (fun hc => absurd hc hcareful) (fun hc => absurd hc hcareful) fun hc => absurd hc hcareful

theorem Inv.commits (hvalid : validateMigrationSet migrations = .ok ())
    (hspared : ∀ m ∈ migrations, engine.SparedBy m)
    (h : Inv rt engine clock fresh migrations careful k w) {p : Caller}
    {applied : List HistoryRow} {migration : Migration} {rest : List Migration}
    (hphase : w.phase p = .working applied migration [] rest) {c : Content σ}
    (hwriter : w.writer = some (p, c)) : Inv rt engine clock fresh migrations careful (k + 1)
      (({ w with committed := c, writer := none } : World σ).go p (.loop applied rest)) := by
  have hboot := h.bootstrapped p (by simp [hphase])
  have hfits := h.fits p
  rw [hphase] at hfits
  obtain ⟨i, j, done, c₁, hij, hj, hrecords, hget, hrest, hcareful, hwriter', hops, hrun⟩ := hfits
  cases hwriter.symm.trans hwriter'
  obtain ⟨hjlt, rfl⟩ := List.getElem?_eq_some_iff.mp hget
  rw [List.append_nil] at hops
  rw [← hops, foldlM_ops] at hrun
  obtain rfl : k = j := le_antisymm (h.stands.le_of_advance hvalid hspared hboot hjlt hrun) hj
  obtain ⟨_, _, _, -, -, hhistory, -⟩ := advanceOne_eq_ok (hspared _ (List.getElem_mem hjlt)) hrun
  have hothers : careful → ∀ q ≠ p, ¬ (w.phase q).IsBetween := fun hc q hq hbetween =>
    hq (h.alone hc hjlt q p hbetween (by rw [hphase]; trivial))
  refine h.move rfl (Nat.le_succ k) (h.stands.succ hspared hjlt (hboot.symm ▸ hrun))
    (bootstrapped_of_history hhistory) ?_ ?_ (fun hc => Or.inr (hothers hc)) ?_
    fun hc _ _ => hothers hc
  · exact ⟨i, k + 1, by omega, le_rfl, hrecords, hrest, fun _ => le_max_right _ _⟩
  · intro q hq _ c₂ hheld
    cases hwriter.symm.trans hheld
    exact absurd rfl hq
  · intro _ q c₂ hheld
    cases hheld

/-! ## Steps and runs -/

theorem Inv.step (hvalid : validateMigrationSet migrations = .ok ())
    (hspared : ∀ m ∈ migrations, engine.SparedBy m)
    (happlies : careful → ∃ c, Stands rt engine fresh migrations migrations.length c)
    (h : Inv rt engine clock fresh migrations careful k w) {p : Caller}
    (hreads : careful → ReadsAlone migrations w p) {w' : World σ}
    (hstep : step rt engine clock migrations w p = some w') :
    ∃ k', Inv rt engine clock fresh migrations careful k' w' := by
  unfold Database.step at hstep
  cases hphase : w.phase p with
  | bootstrap =>
    simp only [hphase] at hstep
    split at hstep
    · cases hstep
    · cases hstep
      exact ⟨k, h.bootstrap hphase⟩
  | select =>
    obtain ⟨history, hhistory, hselect, hrecords⟩ := h.reads hspared hvalid (p := p) (by simp [hphase])
    simp only [hphase, hselect, hrecords.checkHistory hvalid] at hstep
    cases hstep
    exact ⟨k, h.select hphase hreads hhistory hrecords⟩
  | loop applied rest =>
    cases rest with
    | nil =>
      simp only [hphase] at hstep
      cases hstep
      exact ⟨k, h.returns hvalid hphase⟩
    | cons migration rest =>
      simp only [hphase] at hstep
      cases hfind : applied.find? fun row => row.version = migration.version with
      | some previous =>
        obtain ⟨hcheck, hinv⟩ := h.pass hvalid hphase hfind
        simp only [hfind, hcheck] at hstep
        cases hstep
        exact ⟨k, hinv⟩
      | none =>
        simp only [hfind] at hstep
        cases hwriter : w.writer with
        | some held =>
          simp [hwriter] at hstep
        | none =>
          simp only [hwriter, Option.isSome_none, Bool.false_eq_true, if_false] at hstep
          cases hstep
          exact ⟨k, h.begins hvalid hphase hfind hwriter⟩
  | working applied migration todo rest =>
    obtain ⟨c, done, hwriter, -, -⟩ := h.transaction hphase
    cases todo with
    | nil =>
      simp only [hphase, hwriter] at hstep
      cases hstep
      exact ⟨k + 1, h.commits hvalid hspared hphase hwriter⟩
    | cons op todo =>
      simp only [hphase, hwriter] at hstep
      cases hop : op.run rt engine (clock p migration.version) c with
      | error e =>
        simp only [hop] at hstep
        cases hstep
        have hnot : ¬ careful := fun hc => h.not_fails hspared (happlies hc) hphase hwriter hop hc
        exact ⟨k, h.fails hphase hwriter hnot e⟩
      | ok c' =>
        simp only [hop] at hstep
        cases hstep
        exact ⟨k, h.runs hphase hwriter hop⟩
  | returned version => simp [hphase] at hstep
  | raised e => simp [hphase] at hstep

/-- A careful world in which no call can move is one in which both have returned. -/
theorem Inv.progress (h : Inv rt engine clock fresh migrations True k w)
    (hstuck : ∀ p, Database.step rt engine clock migrations w p = none) (p : Caller) :
    w.phase p = .returned migrations.length ∧
      Stands rt engine fresh migrations migrations.length w.committed := by
  have hfree : w.writer = none := by
    cases hwriter : w.writer with
    | none => rfl
    | some held =>
      obtain ⟨q, c⟩ := held
      obtain ⟨applied, migration, todo, rest, hphase⟩ := h.holder trivial q c hwriter
      have hq := hstuck q
      unfold Database.step at hq
      cases todo with
      | nil => simp [hphase, hwriter] at hq
      | cons op todo =>
        simp only [hphase, hwriter] at hq
        split at hq <;> cases hq
  have hp := hstuck p
  have hfits := h.fits p
  unfold Database.step at hp
  cases hphase : w.phase p with
  | bootstrap => simp [hphase, hfree] at hp
  | select =>
    simp only [hphase] at hp
    split at hp
    · cases hp
    · split at hp <;> cases hp
  | loop applied rest =>
    cases rest with
    | nil => simp [hphase] at hp
    | cons migration rest =>
      simp only [hphase] at hp
      split at hp
      · split at hp <;> cases hp
      · simp [hfree] at hp
  | working applied migration todo rest =>
    obtain ⟨c, done, hwriter, -, -⟩ := h.transaction hphase
    rw [hfree] at hwriter
    cases hwriter
  | returned version =>
    rw [hphase] at hfits
    obtain ⟨hk, rfl⟩ := hfits
    exact ⟨rfl, hk ▸ h.stands⟩
  | raised e =>
    rw [hphase] at hfits
    exact absurd trivial hfits

end

/-! ## Runs end -/

section

variable (engine : Engine σ) (migrations : List Migration)

/-- An upper bound of the steps left in the loop. -/
def loopSteps (rest : List Migration) : Nat :=
  (rest.map fun migration => (ops engine migration).length + 2).sum + 1

/-- An upper bound of the steps left to a call. -/
def Phase.steps : Phase → Nat
  | .bootstrap => loopSteps engine migrations + 2
  | .select => loopSteps engine migrations + 1
  | .loop _ rest => loopSteps engine rest
  | .working _ _ todo rest => todo.length + 1 + loopSteps engine rest
  | .returned _ | .raised _ => 0

def World.steps (w : World σ) : Nat :=
  (w.phase .service).steps engine migrations + (w.phase .cli).steps engine migrations

variable {engine migrations} {rt : Runtime} {clock : Caller → Int → Str}

theorem go_steps {w : World σ} {p : Caller} {phase : Phase}
    (h : phase.steps engine migrations < (w.phase p).steps engine migrations) :
    (w.go p phase).steps engine migrations < w.steps engine migrations := by
  unfold World.steps
  cases p with
  | service =>
    rw [go_phase_self, go_phase_other _ _ (by decide)]
    omega
  | cli =>
    rw [go_phase_self, go_phase_other _ _ (by decide)]
    omega

theorem step_steps {w w' : World σ} {p : Caller}
    (hstep : step rt engine clock migrations w p = some w') :
    w'.steps engine migrations < w.steps engine migrations := by
  unfold step at hstep
  cases hphase : w.phase p with
  | bootstrap =>
    simp only [hphase] at hstep
    split at hstep
    · cases hstep
    · cases hstep
      exact go_steps (w := { w with committed := w.committed.bootstrapped })
        (by simp [hphase, Phase.steps])
  | select =>
    have hlower : ∀ phase : Phase, phase.steps engine migrations ≤ loopSteps engine migrations →
        (w.go p phase).steps engine migrations < w.steps engine migrations := fun phase hle =>
      go_steps (by rw [hphase]; exact Nat.lt_succ_of_le hle)
    simp only [hphase] at hstep
    split at hstep
    · cases hstep
      exact hlower _ (Nat.zero_le _)
    · split at hstep
      · cases hstep
        exact hlower _ (Nat.zero_le _)
      · cases hstep
        exact hlower _ le_rfl
  | loop applied rest =>
    cases rest with
    | nil =>
      simp only [hphase] at hstep
      cases hstep
      exact go_steps (by simp [hphase, Phase.steps, loopSteps])
    | cons migration rest =>
      simp only [hphase] at hstep
      split at hstep
      · split at hstep
        · cases hstep
          exact go_steps (by simp [hphase, Phase.steps, loopSteps])
        · cases hstep
          exact go_steps (by simp [hphase, Phase.steps, loopSteps])
      · split at hstep
        · cases hstep
        · cases hstep
          refine go_steps (w := { w with writer := some (p, w.committed) }) ?_
          simp only [hphase, Phase.steps, loopSteps, List.map_cons, List.sum_cons]
          omega
  | working applied migration todo rest =>
    cases todo with
    | nil =>
      simp only [hphase] at hstep
      split at hstep
      · cases hstep
      · next q c hwriter =>
        cases hstep
        exact go_steps (w := { w with committed := c, writer := none })
          (by simp [hphase, Phase.steps])
    | cons op todo =>
      simp only [hphase] at hstep
      split at hstep
      · cases hstep
      · next q c hwriter =>
        split at hstep
        · cases hstep
          unfold World.fail
          split
          · exact go_steps (w := { w with writer := none }) (by simp [hphase, Phase.steps])
          · exact go_steps (by simp [hphase, Phase.steps])
        · next c' _ =>
          cases hstep
          exact go_steps (w := { w with writer := some (q, c') })
            (by simp [hphase, Phase.steps])
  | returned version => simp [hphase] at hstep
  | raised e => simp [hphase] at hstep

end

/-! ## Concurrent opening -/

section

variable (rt : Runtime) (engine : Engine σ) (clock : Caller → Int → Str) (fresh : σ)
  {migrations : List Migration}

/-- No interleaving applies a migration twice or in part. -/
theorem migrate_interleaved (hvalid : validateMigrationSet migrations = .ok ())
    (hspared : ∀ m ∈ migrations, engine.SparedBy m) {k : Nat} {c : Content σ}
    (hc : Stands rt engine fresh migrations k c) {callers : List Caller} {w : World σ}
    (hrun : Machine.run (step rt engine clock migrations) (World.start c) callers = some w) :
    ∃ k', Stands rt engine fresh migrations k' w.committed := by
  have hinv : ∃ k', Inv rt engine clock fresh migrations False k' w := by
    refine Machine.run_invariant (P := fun _ _ => True)
      (I := fun w => ∃ k', Inv rt engine clock fresh migrations False k' w) ?_
      ⟨k, inv_start hc⟩ (Machine.along_of_forall fun _ _ => trivial) hrun
    rintro w p w' ⟨k', h⟩ - hstep
    exact h.step hvalid hspared False.elim False.elim hstep
  obtain ⟨k', h⟩ := hinv
  exact ⟨k', h.stands⟩

/-- Two calls that read the history one after the other both return, with every migration applied. -/
theorem migrate_concurrent (hvalid : validateMigrationSet migrations = .ok ())
    (hspared : ∀ m ∈ migrations, engine.SparedBy m)
    (happlies : ∃ c, Stands rt engine fresh migrations migrations.length c) {k : Nat}
    {c : Content σ} (hc : Stands rt engine fresh migrations k c) {callers : List Caller}
    {w : World σ}
    (hrun : Machine.run (step rt engine clock migrations) (World.start c) callers = some w)
    (hreads : Machine.Along (step rt engine clock migrations) (ReadsAlone migrations)
      (World.start c) callers) :
    (∀ p e, w.phase p ≠ .raised e) ∧
    (∀ p v, w.phase p = .returned v → v = migrations.length ∧
      Stands rt engine fresh migrations migrations.length w.committed) ∧
    ((∀ p, step rt engine clock migrations w p = none) → ∀ p,
      w.phase p = .returned migrations.length ∧
        Stands rt engine fresh migrations migrations.length w.committed) ∧
    callers.length ≤ 2 * (loopSteps engine migrations + 2) := by
  have hinv : ∃ k', Inv rt engine clock fresh migrations True k' w := by
    refine Machine.run_invariant (P := ReadsAlone migrations)
      (I := fun w => ∃ k', Inv rt engine clock fresh migrations True k' w) ?_
      ⟨k, inv_start hc⟩ hreads hrun
    rintro w p w' ⟨k', h⟩ hread hstep
    exact h.step hvalid hspared (fun _ => happlies) (fun _ => hread) hstep
  obtain ⟨k', h⟩ := hinv
  refine ⟨fun p e hraised => ?_, fun p v hreturned => ?_, h.progress, ?_⟩
  · have hfits := h.fits p
    rw [hraised] at hfits
    exact hfits trivial
  · have hfits := h.fits p
    rw [hreturned] at hfits
    obtain ⟨hk, hv⟩ := hfits
    exact ⟨hv, hk ▸ h.stands⟩
  · have hlength := Machine.run_length_le (World.steps engine migrations)
      (fun _ _ _ => step_steps) hrun
    simp only [World.start, World.steps, Phase.steps] at hlength
    omega

end

namespace Sample

def step (migrations : List Migration) : World (List Str) → Caller → Option (World (List Str)) :=
  Database.step Redaction.Sample.runtime sqlite (fun _ _ => []) migrations

theorem tables_spared : ∀ m ∈ [devices, aliases 2], sqlite.SparedBy m := by
  intro m hm s hs
  refine sqlite_spares fun heq => ?_
  subst heq
  revert m hm
  decide +kernel

theorem stands_of_migrated {ms : List Migration} (hvalid : validateMigrationSet ms = .ok ())
    (hspared : ∀ m ∈ ms, sqlite.SparedBy m)
    (hrun : (migrated ms (.empty [])).1.isOk = true) :
    ∃ c, Stands Redaction.Sample.runtime sqlite [] ms ms.length c := by
  have hempty : Stands Redaction.Sample.runtime sqlite [] ms 0 (.empty []) := stands_zero [] ms
  rcases migrate_stands hvalid hspared (fun _ => []) (fun _ => {}) hempty with
    ⟨c', hc', -⟩ | ⟨j, e, d, -, herror, -⟩
  · exact ⟨c', hc'⟩
  · unfold migrated at hrun
    rw [herror] at hrun
    cases hrun

/-- The command line creates the table, waits for the service to end, and finds nothing to do. -/
def oneAfterTheOther : List Caller :=
  .cli :: List.replicate 13 .service ++ List.replicate 4 .cli

/-- Both read the empty history before either applies a migration. -/
def bothRead : List Caller :=
  [.service, .cli, .service, .cli] ++ List.replicate 6 .service ++ List.replicate 2 .cli

end Sample

theorem migrate_concurrent_sample : ∃ w,
    Machine.run (Sample.step [Sample.devices, Sample.aliases 2]) (World.start (.empty []))
      Sample.oneAfterTheOther = some w ∧
    ∀ p, w.phase p = .returned 2 ∧
      Stands Redaction.Sample.runtime Sample.sqlite [] [Sample.devices, Sample.aliases 2] 2
        w.committed := by
  obtain ⟨w, hw⟩ := Option.isSome_iff_exists.mp (by decide +kernel :
    (Machine.run (Sample.step [Sample.devices, Sample.aliases 2]) (World.start (.empty []))
      Sample.oneAfterTheOther).isSome = true)
  have hstuck : (Machine.run (Sample.step [Sample.devices, Sample.aliases 2])
      (World.start (.empty [])) Sample.oneAfterTheOther).map (fun w =>
        decide (∀ p, (Sample.step [Sample.devices, Sample.aliases 2] w p).isNone = true)) =
      some true := by decide +kernel
  rw [hw, Option.map_some, Option.some.injEq, decide_eq_true_eq] at hstuck
  refine ⟨w, hw, ?_⟩
  exact (migrate_concurrent Redaction.Sample.runtime Sample.sqlite (fun _ _ => []) []
    (by decide) Sample.tables_spared
    (Sample.stands_of_migrated (by decide) Sample.tables_spared (by decide +kernel))
    (stands_zero [] _) hw (by decide +kernel)).2.2.1
    fun p => Option.isNone_iff_eq_none.mp (hstuck p)

/-- The second call finds the table of the first. -/
theorem migrate_race : ∃ w,
    Machine.run (Sample.step [Sample.devices]) (World.start (.empty [])) Sample.bothRead = some w ∧
    (∃ c, Stands Redaction.Sample.runtime Sample.sqlite [] [Sample.devices] 1 c) ∧
    w.phase .service = .returned 1 ∧
    w.phase .cli = .raised (.migration (str "migration 1 (devices) failed")) := by
  have hend : (Machine.run (Sample.step [Sample.devices]) (World.start (.empty []))
      Sample.bothRead).map (fun w => (w.phase .service, w.phase .cli)) =
      some (.returned 1, .raised (.migration (str "migration 1 (devices) failed"))) := by
    decide +kernel
  obtain ⟨w, hw, hphases⟩ := Option.map_eq_some_iff.mp hend
  have hspared : ∀ m ∈ [Sample.devices], Sample.sqlite.SparedBy m := fun m hm =>
    Sample.tables_spared m (List.mem_cons.mpr (Or.inl (List.mem_singleton.mp hm)))
  obtain ⟨hservice, hcli⟩ := Prod.ext_iff.mp hphases
  exact ⟨w, hw, Sample.stands_of_migrated (by decide) hspared (by decide +kernel), hservice, hcli⟩

end FieldDiscovery.Database
