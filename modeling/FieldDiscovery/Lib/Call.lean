import FieldDiscovery.Lib.Except

/-!
# Calls with effects

A call takes a state and returns or raises; either way it leaves a state, so what a raising call
has already done stays done unless a handler undoes it. `try … except`, `try … finally` and the
transactions of a database connection are combinators over calls.

`Inside` says that a call writes to an open transaction only. It is closed under sequencing, and
a transaction around such a call leaves no trace when it raises (`transaction_error`).
-/

namespace Py

/-- A call on a state. -/
def Call (S ε α : Type) : Type := S → Except ε α × S

namespace Call

variable {S ε α β : Type}

def ret (a : α) : Call S ε α := fun s => (.ok a, s)

/-- `raise e` -/
def raise (e : ε) : Call S ε α := fun s => (.error e, s)

def andThen (m : Call S ε α) (f : α → Call S ε β) : Call S ε β := fun s =>
  match m s with
  | (.ok a, s') => f a s'
  | (.error e, s') => (.error e, s')

instance : Monad (Call S ε) where
  pure := ret
  bind := andThen

/-- A computation without effects. -/
def ofExcept (x : Except ε α) : Call S ε α := fun s => (x, s)

/-- A call that raises when it has a fault and does nothing otherwise. -/
def guardFault (fault : Option ε) : Call S ε Unit := fun s =>
  match fault with
  | some e => (.error e, s)
  | none => (.ok (), s)

/-- `try: m except Exception as e: handler(e)` -/
def tryExcept (m : Call S ε α) (handler : ε → Call S ε α) : Call S ε α := fun s =>
  match m s with
  | (.ok a, s') => (.ok a, s')
  | (.error e, s') => handler e s'

/-- `try: m except Exception: undo; raise` -/
def onError (m : Call S ε α) (undo : Call S ε Unit) : Call S ε α :=
  tryExcept m fun e => do
    undo
    raise e

/-- `try: m finally: f`; an exception of `f` replaces the outcome. -/
def tryFinally (m : Call S ε α) (f : Call S ε Unit) : Call S ε α := fun s =>
  match m s with
  | (x, s') =>
    match f s' with
    | (.ok _, s'') => (x, s'')
    | (.error e, s'') => (.error e, s'')

section

variable {m : Call S ε α} {f : α → Call S ε β} {s s' : S} {a : α} {e : ε}

@[simp] theorem pure_run : (pure a : Call S ε α) s = (.ok a, s) := rfl

@[simp] theorem raise_run : (raise e : Call S ε α) s = (.error e, s) := rfl

@[simp] theorem ofExcept_run {x : Except ε α} : (ofExcept x : Call S ε α) s = (x, s) := rfl

@[simp] theorem guardFault_none : (guardFault none : Call S ε Unit) s = (.ok (), s) := rfl

@[simp] theorem guardFault_some : (guardFault (some e) : Call S ε Unit) s = (.error e, s) := rfl

theorem bind_ok (h : m s = (.ok a, s')) : (m >>= f) s = f a s' := by
  change andThen m f s = _
  rw [andThen, h]

theorem bind_error (h : m s = (.error e, s')) : (m >>= f) s = (.error e, s') := by
  change andThen m f s = _
  rw [andThen, h]

theorem bind_run_congr {m' : Call S ε α} (h : m s = m' s) : (m >>= f) s = (m' >>= f) s := by
  change andThen m f s = andThen m' f s
  rw [andThen, andThen, h]

theorem tryExcept_ok {g : ε → Call S ε α} (h : m s = (.ok a, s')) :
    tryExcept m g s = (.ok a, s') := by
  rw [tryExcept, h]

theorem tryExcept_error {g : ε → Call S ε α} (h : m s = (.error e, s')) :
    tryExcept m g s = g e s' := by
  rw [tryExcept, h]

theorem onError_ok {undo : Call S ε Unit} (h : m s = (.ok a, s')) :
    onError m undo s = (.ok a, s') := tryExcept_ok h

/-- After a failure the state is what undoing leaves, whether or not undoing succeeds. -/
theorem onError_error (undo : Call S ε Unit) (h : m s = (.error e, s')) :
    ∃ e', onError m undo s = (.error e', (undo s').2) := by
  rw [onError, tryExcept_error h]
  cases hu : undo s' with
  | mk x s'' =>
    cases x with
    | ok _ => exact ⟨e, by rw [bind_ok hu]; rfl⟩
    | error e' => exact ⟨e', bind_error hu⟩

theorem tryFinally_ok {x : Except ε α} {f : Call S ε Unit} {t : S} (h : m s = (x, s'))
    (hf : f s' = (.ok (), t)) : tryFinally m f s = (x, t) := by
  rw [tryFinally, h]
  simp only
  rw [hf]

/-- A final step that may only fail changes no state. -/
theorem tryFinally_guardFault (fault : Option ε) {x : Except ε α} (h : m s = (x, s')) : ∃ y,
    tryFinally m (guardFault fault) s = (y, s') ∧
      ((∃ a, y = .ok a) ↔ (∃ a, x = .ok a) ∧ fault = none) := by
  rw [tryFinally, h]
  cases fault with
  | none => exact ⟨x, rfl, by simp⟩
  | some e => exact ⟨.error e, rfl, by simp⟩

theorem bind_eq_ok {b : β} (h : (m >>= f) s = (.ok b, s')) :
    ∃ a t, m s = (.ok a, t) ∧ f a t = (.ok b, s') := by
  cases hm : m s with
  | mk x t =>
    cases x with
    | ok a => exact ⟨a, t, rfl, by rwa [bind_ok hm] at h⟩
    | error e =>
      rw [bind_error hm] at h
      cases h

end

end Call

/-! ## Database connections -/

namespace Sql

/-- A connection to a database whose content is a `σ`. -/
structure Connection (σ : Type) where
  committed : σ
  /-- The content as the open transaction sees it. -/
  pending : Option σ

variable {σ ε α β : Type}

namespace Connection

/-- What a statement of this connection reads. -/
def view (c : Connection σ) : σ := c.pending.getD c.committed

/-- Outside a transaction every statement commits itself. -/
def write (c : Connection σ) (s : σ) : Connection σ :=
  match c.pending with
  | some _ => ⟨c.committed, some s⟩
  | none => ⟨s, none⟩

end Connection

/-- `connection.execute(...)`: a statement either raises and changes nothing, or takes effect. -/
def execute (fault : Option ε) (statement : σ → Except ε (α × σ)) :
    Call (Connection σ) ε α := fun c =>
  match fault with
  | some e => (.error e, c)
  | none =>
    match statement c.view with
    | .error e => (.error e, c)
    | .ok (a, s) => (.ok a, c.write s)

/-- `BEGIN IMMEDIATE` -/
def beginImmediate (fault : Option ε) : Call (Connection σ) ε Unit := do
  Call.guardFault fault
  fun c => (.ok (), ⟨c.committed, some c.view⟩)

/-- `connection.commit()` -/
def commit (fault : Option ε) : Call (Connection σ) ε Unit := do
  Call.guardFault fault
  fun c => (.ok (), ⟨c.view, none⟩)

/-- `connection.rollback()` -/
def rollback : Call (Connection σ) ε Unit := fun c => (.ok (), ⟨c.committed, none⟩)

/-- The faults of the statements that delimit a transaction. -/
structure TransactionFaults (ε : Type) where
  begin : Option ε := none
  commit : Option ε := none

/-- The statements of a transaction from `BEGIN` to `COMMIT`. -/
def delimited (faults : TransactionFaults ε) (body : Call (Connection σ) ε α) :
    Call (Connection σ) ε α := do
  beginImmediate faults.begin
  let a ← body
  commit faults.commit
  return a

/-- `with transaction(): body`, with the exception of a nested use. -/
def transaction (nested : ε) (faults : TransactionFaults ε) (body : Call (Connection σ) ε α) :
    Call (Connection σ) ε α := fun c =>
  if c.pending.isSome then (.error nested, c)
  else Call.onError (delimited faults body) rollback c

/-- A call that writes to the open transaction only. -/
def Inside (m : Call (Connection σ) ε α) : Prop :=
  ∀ s₀ s, ∃ x s', m ⟨s₀, some s⟩ = (x, ⟨s₀, some s'⟩)

namespace Inside

theorem pure (a : α) : Inside (Pure.pure a : Call (Connection σ) ε α) := fun _ s => ⟨_, s, rfl⟩

theorem raise (e : ε) : Inside (Call.raise e : Call (Connection σ) ε α) := fun _ s => ⟨_, s, rfl⟩

theorem execute (fault : Option ε) (statement : σ → Except ε (α × σ)) :
    Inside (execute fault statement) := by
  intro s₀ s
  cases fault with
  | some e => exact ⟨_, s, rfl⟩
  | none =>
    cases h : statement s with
    | error e => exact ⟨.error e, s, by simp [Sql.execute, Connection.view, h]⟩
    | ok r => exact ⟨.ok r.1, r.2, by simp [Sql.execute, Connection.view, Connection.write, h]⟩

theorem bind {m : Call (Connection σ) ε α} {f : α → Call (Connection σ) ε β} (hm : Inside m)
    (hf : ∀ a, Inside (f a)) : Inside (m >>= f) := by
  intro s₀ s
  obtain ⟨x, s₁, h₁⟩ := hm s₀ s
  cases x with
  | error e => exact ⟨_, s₁, Call.bind_error h₁⟩
  | ok a =>
    obtain ⟨y, s₂, h₂⟩ := hf a s₀ s₁
    exact ⟨y, s₂, by rw [Call.bind_ok h₁, h₂]⟩

end Inside

/-! ## What a call computes

`Means F m f` says that inside a transaction `m` computes what the function `f` computes, except that
it may raise one of the faults `F` instead.
-/

def Means (F : ε → Prop) (m : Call (Connection σ) ε α) (f : σ → Except ε (α × σ)) : Prop :=
  ∀ s₀ s, (∃ a s', f s = .ok (a, s') ∧ m ⟨s₀, some s⟩ = (.ok a, ⟨s₀, some s'⟩)) ∨
    ∃ e s', m ⟨s₀, some s⟩ = (.error e, ⟨s₀, some s'⟩) ∧ (f s = .error e ∨ F e)

namespace Means

variable {F : ε → Prop}

theorem pure (a : α) :
    Means F (Pure.pure a : Call (Connection σ) ε α) fun s => .ok (a, s) :=
  fun _ s => Or.inl ⟨a, s, rfl, rfl⟩

theorem ofExcept (x : Except ε α) :
    Means F (Call.ofExcept x : Call (Connection σ) ε α) fun s => x.map (·, s) := by
  intro s₀ s
  cases x with
  | error e => exact Or.inr ⟨e, s, rfl, Or.inl rfl⟩
  | ok a => exact Or.inl ⟨a, s, rfl, rfl⟩

theorem execute {fault : Option ε} (hfault : ∀ e, fault = some e → F e)
    (statement : σ → Except ε (α × σ)) : Means F (execute fault statement) statement := by
  intro s₀ s
  cases fault with
  | some e => exact Or.inr ⟨e, s, rfl, Or.inr (hfault e rfl)⟩
  | none =>
    cases h : statement s with
    | error e =>
      exact Or.inr ⟨e, s, by simp [Sql.execute, Connection.view, h], Or.inl rfl⟩
    | ok r =>
      exact Or.inl ⟨r.1, r.2, rfl, by simp [Sql.execute, Connection.view, Connection.write, h]⟩

theorem bind {m : Call (Connection σ) ε α} {f : σ → Except ε (α × σ)}
    {g : α → Call (Connection σ) ε β} {h : α → σ → Except ε (β × σ)} (hm : Means F m f)
    (hg : ∀ a, Means F (g a) (h a)) : Means F (m >>= g) fun s => f s >>= fun r => h r.1 r.2 := by
  intro s₀ s
  simp only
  rcases hm s₀ s with ⟨a, s₁, hf, hrun⟩ | ⟨e, s₁, hrun, he⟩
  · rw [hf]
    rcases hg a s₀ s₁ with ⟨b, s₂, hh, hrun'⟩ | ⟨e, s₂, hrun', he⟩
    · exact Or.inl ⟨b, s₂, hh, (Call.bind_ok hrun).trans hrun'⟩
    · exact Or.inr ⟨e, s₂, (Call.bind_ok hrun).trans hrun', he⟩
  · refine Or.inr ⟨e, s₁, Call.bind_error hrun, he.imp_left fun hf => ?_⟩
    rw [hf]
    rfl

theorem congr {m : Call (Connection σ) ε α} {f g : σ → Except ε (α × σ)} (hm : Means F m f)
    (h : ∀ s, f s = g s) : Means F m g := by
  rwa [← funext h]

/-- The statements of a transaction commit what they compute, or leave the committed content. -/
theorem delimited {m : Call (Connection σ) ε α} {f : σ → Except ε (α × σ)} (hm : Means F m f)
    (faults : TransactionFaults ε) (hbegin : ∀ e, faults.begin = some e → F e)
    (hcommit : ∀ e, faults.commit = some e → F e) (s : σ) :
    (∃ a s', f s = .ok (a, s') ∧ delimited faults m ⟨s, none⟩ = (.ok a, ⟨s', none⟩)) ∨
      ∃ e c, delimited faults m ⟨s, none⟩ = (.error e, c) ∧ c.committed = s ∧
        (f s = .error e ∨ F e) := by
  unfold Sql.delimited
  cases hb : faults.begin with
  | some e =>
    have hrun : beginImmediate (some e) ⟨s, none⟩ = (.error e, ⟨s, none⟩) := rfl
    exact Or.inr ⟨e, _, Call.bind_error hrun, rfl, Or.inr (hbegin e hb)⟩
  | none =>
    have hopen : beginImmediate (none : Option ε) ⟨s, none⟩ = (.ok (), ⟨s, some s⟩) := rfl
    rcases hm s s with ⟨a, s', hf, hrun⟩ | ⟨e, s', hrun, he⟩
    · cases hc : faults.commit with
      | some e =>
        have hend : commit (some e) ⟨s, some s'⟩ = (.error e, ⟨s, some s'⟩) := rfl
        exact Or.inr ⟨e, _, (Call.bind_ok hopen).trans ((Call.bind_ok hrun).trans
          (Call.bind_error hend)), rfl, Or.inr (hcommit e hc)⟩
      | none =>
        have hend : commit (none : Option ε) ⟨s, some s'⟩ = (.ok (), ⟨s', none⟩) := rfl
        exact Or.inl ⟨a, s', hf, (Call.bind_ok hopen).trans ((Call.bind_ok hrun).trans
          (Call.bind_ok hend))⟩
    · exact Or.inr ⟨e, _, (Call.bind_ok hopen).trans (Call.bind_error hrun), rfl, he⟩

end Means

/-! ## Transactions -/

section

variable {nested : ε} {faults : TransactionFaults ε} {body : Call (Connection σ) ε α}

/-- Until the commit the committed content stays. -/
theorem delimited_run (faults : TransactionFaults ε) (hbody : Inside body) (s : σ) :
    (∃ e c, delimited faults body ⟨s, none⟩ = (.error e, c) ∧ c.committed = s) ∨
      ∃ a s', delimited faults body ⟨s, none⟩ = (.ok a, ⟨s', none⟩) ∧
        body ⟨s, some s⟩ = (.ok a, ⟨s, some s'⟩) := by
  obtain ⟨x, s', hrun⟩ := hbody s s
  cases hb : faults.begin with
  | some e =>
    have hbegin : beginImmediate faults.begin ⟨s, none⟩ = (.error e, ⟨s, none⟩) := by rw [hb]; rfl
    exact Or.inl ⟨e, _, Call.bind_error hbegin, rfl⟩
  | none =>
    have hbegin : beginImmediate faults.begin ⟨s, none⟩ = (.ok (), ⟨s, some s⟩) := by rw [hb]; rfl
    cases x with
    | error e =>
      exact Or.inl ⟨e, _, (Call.bind_ok hbegin).trans (Call.bind_error hrun), rfl⟩
    | ok a =>
      have hopen := (Call.bind_ok (f := fun _ => body >>= fun a => do
        commit faults.commit
        return a) hbegin).trans (Call.bind_ok hrun)
      cases hc : faults.commit with
      | some e =>
        have hcommit : commit faults.commit ⟨s, some s'⟩ = (.error e, ⟨s, some s'⟩) := by
          rw [hc]; rfl
        exact Or.inl ⟨e, _, hopen.trans (Call.bind_error hcommit), rfl⟩
      | none =>
        have hcommit : commit faults.commit ⟨s, some s'⟩ = (.ok (), ⟨s', none⟩) := by rw [hc]; rfl
        exact Or.inr ⟨a, s', hopen.trans (Call.bind_ok hcommit), hrun⟩

theorem transaction_idle (s : σ) : transaction nested faults body ⟨s, none⟩ =
    Call.onError (delimited faults body) rollback ⟨s, none⟩ := rfl

/-- A transaction that raises leaves no trace. -/
theorem transaction_error (hbody : Inside body) {s : σ} {e : ε} {c : Connection σ}
    (h : transaction nested faults body ⟨s, none⟩ = (.error e, c)) : c = ⟨s, none⟩ := by
  rw [transaction_idle] at h
  rcases delimited_run faults hbody s with ⟨e', c', hrun, hc⟩ | ⟨a, s', hrun, -⟩
  · obtain ⟨e'', herror⟩ := Call.onError_error rollback hrun
    rw [herror] at h
    cases h
    rw [← hc]
    rfl
  · rw [Call.onError_ok hrun] at h
    cases h

/-- A transaction that returns has committed what its body made of the content. -/
theorem transaction_ok (hbody : Inside body) {s : σ} {a : α} {c : Connection σ}
    (h : transaction nested faults body ⟨s, none⟩ = (.ok a, c)) :
    ∃ s', body ⟨s, some s⟩ = (.ok a, ⟨s, some s'⟩) ∧ c = ⟨s', none⟩ := by
  rw [transaction_idle] at h
  rcases delimited_run faults hbody s with ⟨e', c', hrun, -⟩ | ⟨a', s', hrun, hbody'⟩
  · obtain ⟨e'', herror⟩ := Call.onError_error rollback hrun
    rw [herror] at h
    cases h
  · rw [Call.onError_ok hrun] at h
    cases h
    exact ⟨s', hbody', rfl⟩

/-- A body that returns is committed. -/
theorem transaction_commits {s s' : σ} {a : α} (h : body ⟨s, some s⟩ = (.ok a, ⟨s, some s'⟩)) :
    transaction nested {} body ⟨s, none⟩ = (.ok a, ⟨s', none⟩) := by
  have hbegin : (beginImmediate none : Call (Connection σ) ε Unit) ⟨s, none⟩ =
      (.ok (), ⟨s, some s⟩) := rfl
  have hrun : delimited {} body ⟨s, none⟩ = (.ok a, ⟨s', none⟩) :=
    (Call.bind_ok hbegin).trans (Call.bind_ok h)
  rw [transaction_idle, Call.onError_ok hrun]

/-- A body that raises is rolled back. -/
theorem transaction_raises {s : σ} {s' : Option σ} {e : ε}
    (h : body ⟨s, some s⟩ = (.error e, ⟨s, s'⟩)) :
    transaction nested {} body ⟨s, none⟩ = (.error e, ⟨s, none⟩) := by
  have hbegin : (beginImmediate none : Call (Connection σ) ε Unit) ⟨s, none⟩ =
      (.ok (), ⟨s, some s⟩) := rfl
  have hrun : delimited {} body ⟨s, none⟩ = (.error e, ⟨s, s'⟩) :=
    (Call.bind_ok hbegin).trans (Call.bind_error h)
  rw [transaction_idle]
  exact Call.tryExcept_error hrun

end

end Sql

end Py
