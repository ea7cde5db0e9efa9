import FieldDiscovery.Lib.Call

/-!
# Contracts of calls

`After call s P E` says what holds after a call on the state `s`: `P` of what it returns and of the
state that it leaves, or `E` of what it raises. The rules take a call apart along its sequencing and
its handlers (`after_bind`, `after_tryExcept`, `after_tryFinally`), and a loop is one induction with
them.

`Settles call P E` is the contract of a call that is made outside a transaction and ends outside it:
when it returns, `P` relates what it returns to the content before and after; when it raises, `E`
relates the two. A transaction settles with an unchanged content where it raises
(`Settles.transaction`), and contracts compose along a sequence of calls (`Settles.bind`).
-/

namespace Py.Call

variable {S ε α β : Type}

/-- What holds after the call. -/
def After (call : Call S ε α) (s : S) (P : α → S → Prop) (E : ε → S → Prop) : Prop :=
  match call s with
  | (.ok a, s') => P a s'
  | (.error e, s') => E e s'

section

variable {call : Call S ε α} {s : S} {P P' : α → S → Prop} {E E' : ε → S → Prop}

theorem After.mono (h : After call s P E) (hP : ∀ a s', P a s' → P' a s')
    (hE : ∀ e s', E e s' → E' e s') : After call s P' E' := by
  unfold After at h ⊢
  split at h
  · exact hP _ _ h
  · exact hE _ _ h

theorem After.and (h : After call s P E) (h' : After call s P' E') :
    After call s (fun a s' => P a s' ∧ P' a s') fun e s' => E e s' ∧ E' e s' := by
  unfold After at h h' ⊢
  cases hcall : call s with
  | mk x s' =>
    rw [hcall] at h h'
    cases x <;> exact ⟨h, h'⟩

theorem After.of_forall (hP : ∀ a s', P a s') (hE : ∀ e s', E e s') : After call s P E := by
  unfold After
  split
  · exact hP _ _
  · exact hE _ _

theorem After.elim (h : After call s P E) : (∃ a, (call s).1 = .ok a ∧ P a (call s).2) ∨
    ∃ e, (call s).1 = .error e ∧ E e (call s).2 := by
  unfold After at h
  split at h
  · next heq => exact .inl ⟨_, by rw [heq], by rwa [heq]⟩
  · next heq => exact .inr ⟨_, by rw [heq], by rwa [heq]⟩

@[simp] theorem after_pure {a : α} : After (pure a : Call S ε α) s P E ↔ P a s := Iff.rfl

@[simp] theorem after_raise {e : ε} : After (raise e : Call S ε α) s P E ↔ E e s := Iff.rfl

theorem after_ofExcept {x : Except ε α} (hok : ∀ a, x = .ok a → P a s)
    (herror : ∀ e, x = .error e → E e s) : After (ofExcept x) s P E := by
  cases hx : x with
  | ok a => exact hok a hx
  | error e => exact herror e hx

@[simp] theorem after_bind {f : α → Call S ε β} {Q : β → S → Prop} :
    After (call >>= f) s Q E ↔ After call s (fun a s' => After (f a) s' Q E) E := by
  cases h : call s with
  | mk x s' =>
    cases x with
    | ok a => simp [After, bind_ok h, h]
    | error e => simp [After, bind_error h, h]

@[simp] theorem after_tryExcept {handler : ε → Call S ε α} :
    After (tryExcept call handler) s P E ↔
      After call s P fun e s' => After (handler e) s' P E := by
  cases h : call s with
  | mk x s' =>
    cases x with
    | ok a => simp [After, tryExcept_ok h, h]
    | error e => simp [After, tryExcept_error h, h]

/-- The final step comes after either outcome, and its own exception replaces that outcome. -/
@[simp] theorem after_tryFinally {final : Call S ε Unit} :
    After (tryFinally call final) s P E ↔
      After call s (fun a s' => After final s' (fun _ s'' => P a s'') E)
        fun e s' => After final s' (fun _ s'' => E e s'') E := by
  cases h : call s with
  | mk x s' =>
    cases hfinal : final s' with
    | mk y s'' => cases x <;> cases y <;> simp [After, tryFinally, h, hfinal]

end

end Py.Call

namespace Py.Sql

variable {σ ε α β : Type}

/-- What a call from an idle connection leaves. -/
def Settles (call : Call (Connection σ) ε α) (P : α → σ → σ → Prop) (E : σ → σ → Prop) : Prop :=
  ∀ s, (∃ a s', call ⟨s, none⟩ = (.ok a, ⟨s', none⟩) ∧ P a s s') ∨
    ∃ e s', call ⟨s, none⟩ = (.error e, ⟨s', none⟩) ∧ E s s'

namespace Settles

variable {call : Call (Connection σ) ε α} {P P' : α → σ → σ → Prop} {E E' : σ → σ → Prop}

theorem mono (h : Settles call P E) (hP : ∀ a s s', P a s s' → P' a s s')
    (hE : ∀ s s', E s s' → E' s s') : Settles call P' E' := by
  intro s
  rcases h s with ⟨a, s', hrun, ha⟩ | ⟨e, s', hrun, he⟩
  · exact .inl ⟨a, s', hrun, hP a s s' ha⟩
  · exact .inr ⟨e, s', hrun, hE s s' he⟩

theorem pure {a : α} (h : ∀ s, P a s s) : Settles (Pure.pure a : Call (Connection σ) ε α) P E :=
  fun s => .inl ⟨a, s, rfl, h s⟩

theorem raise {e : ε} (h : ∀ s, E s s) : Settles (Call.raise e : Call (Connection σ) ε α) P E :=
  fun s => .inr ⟨e, s, rfl, h s⟩

theorem ofExcept {x : Except ε β} {f : β → Call (Connection σ) ε α} (hE : ∀ s, E s s)
    (h : ∀ b, x = .ok b → Settles (f b) P E) : Settles (Call.ofExcept x >>= f) P E := by
  intro s
  cases hx : x with
  | error e => exact .inr ⟨e, s, Call.bind_error rfl, hE s⟩
  | ok b => exact h b hx s

theorem guardFault {fault : Option ε} (hE : ∀ s, E s s) (h : Settles call P E) :
    Settles (Call.guardFault fault >>= fun _ => call) P E := by
  intro s
  cases fault with
  | some e => exact .inr ⟨e, s, Call.bind_error rfl, hE s⟩
  | none => exact h s

theorem bind {f : α → Call (Connection σ) ε β} {Q : α → β → σ → σ → Prop}
    {F : α → σ → σ → Prop} (h : Settles call P E) (hf : ∀ a, Settles (f a) (Q a) (F a)) :
    Settles (call >>= f) (fun b s s'' => ∃ a s', P a s s' ∧ Q a b s' s'')
      fun s s'' => E s s'' ∨ ∃ a s', P a s s' ∧ F a s' s'' := by
  intro s
  rcases h s with ⟨a, s', hrun, ha⟩ | ⟨e, s', hrun, he⟩
  · rcases hf a s' with ⟨b, s'', hrun', hb⟩ | ⟨e, s'', hrun', he⟩
    · exact .inl ⟨b, s'', (Call.bind_ok hrun).trans hrun', a, s', ha, hb⟩
    · exact .inr ⟨e, s'', (Call.bind_ok hrun).trans hrun', .inr ⟨a, s', ha, he⟩⟩
  · exact .inr ⟨e, s', Call.bind_error hrun, .inl he⟩

/-- What is made of the result afterwards. -/
theorem map (f : α → β) (h : Settles call P E) :
    Settles (call >>= fun a => Pure.pure (f a)) (fun b s s' => ∃ a, b = f a ∧ P a s s') E := by
  intro s
  rcases h s with ⟨a, s', hrun, ha⟩ | ⟨e, s', hrun, he⟩
  · exact .inl ⟨f a, s', Call.bind_ok hrun, a, rfl, ha⟩
  · exact .inr ⟨e, s', Call.bind_error hrun, he⟩

/-- A transaction that raises has written nothing. -/
theorem transaction {nested : ε} {faults : TransactionFaults ε} (hbody : Inside call)
    (h : ∀ s a s', call ⟨s, some s⟩ = (.ok a, ⟨s, some s'⟩) → P a s s') :
    Settles (transaction nested faults call) P Eq := by
  intro s
  cases hrun : Sql.transaction nested faults call ⟨s, none⟩ with
  | mk x c =>
    cases x with
    | error e => exact .inr ⟨e, s, by rw [transaction_error hbody hrun], rfl⟩
    | ok a =>
      obtain ⟨s', hok, rfl⟩ := transaction_ok hbody hrun
      exact .inl ⟨a, s', rfl, h s a s' hok⟩

/-- The contract on the content that the call leaves. -/
theorem after (h : Settles call P E) (s : σ) :
    Call.After call ⟨s, none⟩ (fun a c => P a s c.committed) fun _ c => E s c.committed := by
  rcases h s with ⟨a, s', hrun, ha⟩ | ⟨e, s', hrun, he⟩
  · rwa [Call.After, hrun]
  · rwa [Call.After, hrun]

end Settles

end Py.Sql
