import FieldDiscovery.Passive.Conservation

/-!
# What a suppressed observation rests on

A fingerprint enters the table before the sink is called, and stays there when the call fails. So a
duplicate is dropped rightly when the call that entered its fingerprint has returned (`Confirmed`):
then an observation with the same fingerprint was delivered within the window
(`suppression_implies_delivery`).
-/

namespace FieldDiscovery.Passive

open Py

section

variable {T : Type} [LinearOrder T] (rt : Runtime) (cfg : Config T)

/-! ## Histories -/

/-- The last call of the sink for an observation with the fingerprint. -/
def lastCall (history : List (Event T)) (f : Str) : Option Nat :=
  history.foldl (fun last e =>
    match e with
    | .called call o _ => if (fingerprint rt o).toOption = some f then some call else last
    | _ => last) none

/-- An observation with the same fingerprint was delivered within the window before `now`. -/
def Delivered (window : T →o T) (history : List (Event T)) (o : PassiveObservation) (now : T) :
    Prop :=
  ∃ call o' t, Event.delivered call o' t ∈ history ∧ fingerprint rt o' = fingerprint rt o ∧
    t ≤ now ∧ now < window t

/-- Every suppressed observation was delivered within the window before. -/
def SuppressedRightly (history : List (Event T)) : Prop :=
  ∀ pre o now post, history = pre ++ .suppressed o now :: post →
    ∃ window, cfg.window = some window ∧ Delivered rt window pre o now

/-- The fingerprint that a worker looks up next. -/
def State.nextFingerprint (s : State T) (i : Nat) : Option Str :=
  match s.workers[i]? with
  | some ⟨.handling frame _ (o :: _), _⟩ =>
    (normalizeObservation o frame.observedAt >>= fingerprint rt).toOption
  | _ => none

/-- The call has returned. -/
def Event.returns (call : Nat) : Event T → Bool
  | .delivered call' _ _ => call' = call
  | _ => false

/-- An observation is looked up only when the call that entered its fingerprint has returned. -/
def Confirmed (s : State T) : Action T → Prop
  | .check i => ∀ f ∈ s.nextFingerprint rt i, (s.dedupe.live s.clock f).isSome = true →
      ∀ call ∈ lastCall rt s.history f, s.history.any (Event.returns call) = true
  | _ => True

instance (s : State T) (a : Action T) : Decidable (Confirmed rt s a) :=
  match a with
  | .check i =>
    inferInstanceAs (Decidable (∀ f ∈ s.nextFingerprint rt i,
      (s.dedupe.live s.clock f).isSome = true →
        ∀ call ∈ lastCall rt s.history f, s.history.any (Event.returns call) = true))
  | .tick _ | .submit _ | .resume _ | .abandon _ | .submitNowait _ | .take _ | .parse _ _
  | .sink _ _ | .finish _ | .exit _ | .stop | .settled | .drained | .timeout | .gathered =>
    instDecidableTrue

/-- The call that a worker waits for. -/
def Worker.calling (w : Worker) : Option (Nat × PassiveObservation) :=
  match w.phase with
  | .delivering _ _ _ normalized call => some (call, normalized)
  | _ => none

/-- How the table and the history hang together. -/
structure Traced (s : State T) : Prop where
  entries : ∀ e ∈ s.dedupe, ∃ window call o t, cfg.window = some window ∧ e.2 = window t ∧
    lastCall rt s.history e.1 = some call ∧ fingerprint rt o = .ok e.1 ∧
    Event.called call o t ∈ s.history
  fresh : ∀ call o t, Event.called call o t ∈ s.history → call < s.calls ∧ t ≤ s.clock
  unique : ∀ call o t o' t', Event.called call o t ∈ s.history →
    Event.called call o' t' ∈ s.history → o = o' ∧ t = t'
  calling : ∀ w ∈ s.workers, ∀ call o, w.calling = some (call, o) →
    ∃ t, Event.called call o t ∈ s.history
  delivered : ∀ call o t, Event.delivered call o t ∈ s.history →
    ∃ t₀, Event.called call o t₀ ∈ s.history ∧ t₀ ≤ t ∧ t ≤ s.clock
  suppressed : SuppressedRightly rt cfg s.history

end

section

variable {T : Type} [LinearOrder T] {rt : Runtime} {cfg : Config T} {s s' : State T}

omit [LinearOrder T] in
theorem returns_eq {call : Nat} {e : Event T} (h : e.returns call = true) :
    ∃ o t, e = .delivered call o t := by
  cases e with
  | delivered call' o t =>
    cases of_decide_eq_true h
    exact ⟨o, t, rfl⟩
  | called | failed | suppressed => cases h

omit [LinearOrder T] in
theorem lastCall_append (history : List (Event T)) (e : Event T) (f : Str) :
    lastCall rt (history ++ [e]) f =
      match e with
      | .called call o _ =>
        if (fingerprint rt o).toOption = some f then some call else lastCall rt history f
      | _ => lastCall rt history f := by
  unfold lastCall
  rw [List.foldl_append, List.foldl_cons, List.foldl_nil]

/-- A new event suppresses nothing wrongly unless it is a suppression. -/
theorem SuppressedRightly.append {history : List (Event T)} (h : SuppressedRightly rt cfg history)
    {e : Event T} (he : ∀ o now, e = .suppressed o now →
      ∃ window, cfg.window = some window ∧ Delivered rt window history o now) :
    SuppressedRightly rt cfg (history ++ [e]) := by
  intro pre o now post heq
  rcases List.eq_nil_or_concat post with rfl | ⟨post', e', rfl⟩
  · obtain ⟨rfl, hlast⟩ := List.append_inj' heq rfl
    exact he o now (List.cons.inj hlast).1
  · rw [List.concat_eq_append, ← List.cons_append, ← List.append_assoc] at heq
    exact h pre o now post' (List.append_inj' heq rfl).1

/-- Nothing happened to an observation. -/
structure SameTrace (s s' : State T) : Prop where
  dedupe : ∀ e ∈ s'.dedupe, e ∈ s.dedupe
  history : s'.history = s.history
  calls : s'.calls = s.calls
  clock : s.clock ≤ s'.clock
  calling : ∀ w' ∈ s'.workers, ∀ x, w'.calling = some x → ∃ w ∈ s.workers, w.calling = some x

theorem Traced.same (h : Traced rt cfg s) (hsame : SameTrace s s') : Traced rt cfg s' := by
  obtain ⟨hdedupe, hhistory, hcalls, hclock, hcalling⟩ := hsame
  refine ⟨?_, ?_, ?_, ?_, ?_, ?_⟩
  · rw [hhistory]
    exact fun e he => h.entries e (hdedupe e he)
  · rw [hhistory, hcalls]
    intro call o t hmem
    obtain ⟨hlt, hle⟩ := h.fresh call o t hmem
    exact ⟨hlt, hle.trans hclock⟩
  · rw [hhistory]
    exact h.unique
  · rw [hhistory]
    intro w' hw' call o hx
    obtain ⟨w, hw, hx⟩ := hcalling w' hw' _ hx
    exact h.calling w hw call o hx
  · rw [hhistory]
    intro call o t hmem
    obtain ⟨t₀, hcalled, hle, hle'⟩ := h.delivered call o t hmem
    exact ⟨t₀, hcalled, hle, hle'.trans hclock⟩
  · rw [hhistory]
    exact h.suppressed

omit [LinearOrder T] in
/-- A worker that calls no sink takes the place of another. -/
theorem SameTrace.set (s : State T) (i : Nat) {w : Worker} (hw : w.calling = none) :
    ∀ w' ∈ s.workers.set i w, ∀ x, w'.calling = some x → ∃ w ∈ s.workers, w.calling = some x := by
  intro w' hw' x hx
  rcases List.mem_or_eq_of_mem_set hw' with hw' | rfl
  · exact ⟨w', hw', hx⟩
  · rw [hw] at hx
    cases hx

theorem sameTrace_leave {s₁ : State T} (i : Nat) {w : Worker} (hw : w.calling = none)
    (hdedupe : ∀ e ∈ s₁.dedupe, e ∈ s.dedupe) (hhistory : s₁.history = s.history)
    (hcalls : s₁.calls = s.calls) (hclock : s.clock ≤ s₁.clock) (hworkers : s₁.workers = s.workers) :
    SameTrace s (s₁.leave i w) := by
  unfold State.leave
  simp only
  split
  · refine ⟨hdedupe, hhistory, hcalls, hclock, ?_⟩
    show ∀ w' ∈ s₁.workers.set i w, _
    rw [hworkers]
    exact SameTrace.set s i hw
  · refine ⟨hdedupe, hhistory, hcalls, hclock, ?_⟩
    show ∀ w' ∈ s₁.workers.set i _, _
    rw [hworkers]
    exact SameTrace.set s i rfl

theorem SameTrace.of_workers (hdedupe : s'.dedupe = s.dedupe) (hhistory : s'.history = s.history)
    (hcalls : s'.calls = s.calls) (hclock : s'.clock = s.clock) (hworkers : s'.workers = s.workers) :
    SameTrace s s' := by
  refine ⟨?_, hhistory, hcalls, hclock.ge, ?_⟩
  · rw [hdedupe]
    exact fun e he => he
  · rw [hworkers]
    exact fun w hw x hx => ⟨w, hw, hx⟩

theorem sameTrace_submit (s : State T) (r : Request) : SameTrace s (s.submit rt cfg r) ∧
    SameTrace s (s.submitNowait rt cfg r) := by
  unfold State.submit State.submitNowait
  cases s.prepareFrame rt cfg r with
  | error e => exact ⟨.of_workers rfl rfl rfl rfl rfl, .of_workers rfl rfl rfl rfl rfl⟩
  | ok result =>
    obtain ⟨counters, frame⟩ := result
    cases frame with
    | none => exact ⟨.of_workers rfl rfl rfl rfl rfl, .of_workers rfl rfl rfl rfl rfl⟩
    | some frame =>
      simp only
      split <;> exact ⟨.of_workers rfl rfl rfl rfl rfl, .of_workers rfl rfl rfl rfl rfl⟩

/-- The sink is called for an observation whose fingerprint has just entered the table. -/
theorem Traced.call (h : Traced rt cfg s) {table : DedupeTable T} {counters : Counters} (i : Nat)
    (w : Worker) (frame : PassiveFrame) (parsers : Nat) (observations : List PassiveObservation)
    (normalized : PassiveObservation)
    (htable : ∀ e ∈ table, (e ∈ s.dedupe ∧ (fingerprint rt normalized).toOption ≠ some e.1) ∨
      ∃ window, cfg.window = some window ∧ fingerprint rt normalized = .ok e.1 ∧
        e.2 = window s.clock) :
    Traced rt cfg ({ s with dedupe := table, counters }.call i w frame parsers observations
      normalized) := by
  have hmem : ∀ {e : Event T}, e ∈ s.history ++ [.called s.calls normalized s.clock] ↔
      e ∈ s.history ∨ e = .called s.calls normalized s.clock := by
    intro e
    rw [List.mem_append, List.mem_singleton]
  refine ⟨?_, ?_, ?_, ?_, ?_, ?_⟩
  · intro e he
    show ∃ window call o t, _ ∧ _ ∧ lastCall rt (s.history ++ _) e.1 = _ ∧ _ ∧ _
    rw [lastCall_append]
    rcases htable e he with ⟨he, hne⟩ | ⟨window, hwindow, hf, hexpiry⟩
    · obtain ⟨window, call, o, t, hwindow, hexpiry, hlast, hf, hcalled⟩ := h.entries e he
      refine ⟨window, call, o, t, hwindow, hexpiry, ?_, hf, hmem.mpr (Or.inl hcalled)⟩
      simp only [hne, if_false]
      exact hlast
    · refine ⟨window, s.calls, normalized, s.clock, hwindow, hexpiry, ?_, hf,
        hmem.mpr (Or.inr rfl)⟩
      simp only [hf, Except.toOption, if_true]
  · intro call o t hcalled
    rcases hmem.mp hcalled with hcalled | heq
    · obtain ⟨hlt, hle⟩ := h.fresh call o t hcalled
      exact ⟨Nat.lt_succ_of_lt hlt, hle⟩
    · cases heq
      exact ⟨Nat.lt_succ_self _, le_rfl⟩
  · intro call o t o' t' hcalled hcalled'
    rcases hmem.mp hcalled with hcalled | heq
    · rcases hmem.mp hcalled' with hcalled' | heq'
      · exact h.unique call o t o' t' hcalled hcalled'
      · cases heq'
        exact absurd (h.fresh _ _ _ hcalled).1 (lt_irrefl _)
    · cases heq
      rcases hmem.mp hcalled' with hcalled' | heq'
      · exact absurd (h.fresh _ _ _ hcalled').1 (lt_irrefl _)
      · cases heq'
        exact ⟨rfl, rfl⟩
  · intro v hv call o hx
    rcases List.mem_or_eq_of_mem_set hv with hv | rfl
    · obtain ⟨t, hcalled⟩ := h.calling v hv call o hx
      exact ⟨t, hmem.mpr (Or.inl hcalled)⟩
    · cases hx
      exact ⟨s.clock, hmem.mpr (Or.inr rfl)⟩
  · intro call o t hdelivered
    rcases hmem.mp hdelivered with hdelivered | heq
    · obtain ⟨t₀, hcalled, hle⟩ := h.delivered call o t hdelivered
      exact ⟨t₀, hmem.mpr (Or.inl hcalled), hle⟩
    · cases heq
  · refine h.suppressed.append ?_
    intro o now heq
    cases heq

/-- Something happened to an observation, but no sink was called. -/
theorem Traced.record (h : Traced rt cfg s) {counters : Counters} {table : DedupeTable T}
    (htable : ∀ e ∈ table, e ∈ s.dedupe) {event : Event T}
    (hcalled : ∀ call o t, event ≠ .called call o t)
    (hdelivered : ∀ call o t, event = .delivered call o t →
      t = s.clock ∧ ∃ t₀, Event.called call o t₀ ∈ s.history)
    (hsuppressed : ∀ o now, event = .suppressed o now →
      ∃ window, cfg.window = some window ∧ Delivered rt window s.history o now) :
    Traced rt cfg { s with counters, dedupe := table, history := s.history ++ [event] } := by
  have hmem : ∀ {e : Event T}, e ∈ s.history ++ [event] ↔ e ∈ s.history ∨ e = event := by
    intro e
    rw [List.mem_append, List.mem_singleton]
  have hcall : ∀ {call o t}, Event.called call o t ∈ s.history ++ [event] ↔
      Event.called call o t ∈ s.history := by
    intro call o t
    rw [hmem]
    exact or_iff_left fun heq => hcalled call o t heq.symm
  refine ⟨?_, ?_, ?_, ?_, ?_, h.suppressed.append hsuppressed⟩
  · intro e he
    obtain ⟨window, call, o, t, hwindow, hexpiry, hlast, hf, hmem'⟩ := h.entries e (htable e he)
    refine ⟨window, call, o, t, hwindow, hexpiry, ?_, hf, hcall.mpr hmem'⟩
    show lastCall rt (s.history ++ [event]) e.1 = some call
    rw [lastCall_append]
    cases event with
    | called call o t => exact absurd rfl (hcalled call o t)
    | _ => exact hlast
  · exact fun call o t hmem' => h.fresh call o t (hcall.mp hmem')
  · exact fun call o t o' t' hmem' hmem'' => h.unique call o t o' t' (hcall.mp hmem') (hcall.mp hmem'')
  · intro w hw call o hx
    obtain ⟨t, ht⟩ := h.calling w hw call o hx
    exact ⟨t, hcall.mpr ht⟩
  · intro call o t hd
    rcases hmem.mp hd with hd | heq
    · obtain ⟨t₀, ht₀, hle⟩ := h.delivered call o t hd
      exact ⟨t₀, hcall.mpr ht₀, hle⟩
    · obtain ⟨rfl, t₀, ht₀⟩ := hdelivered call o t heq.symm
      exact ⟨t₀, hcall.mpr ht₀, (h.fresh _ _ _ ht₀).2, le_rfl⟩

theorem Traced.check (h : Traced rt cfg s) {i : Nat} {frame : PassiveFrame} {parsers : Nat}
    {o : PassiveObservation} {observations : List PassiveObservation} {cancelRequested : Bool}
    (hw : s.workers[i]? = some ⟨.handling frame parsers (o :: observations), cancelRequested⟩)
    (hconfirmed : Confirmed rt s (.check i)) :
    Traced rt cfg (s.checkObservation rt cfg i ⟨.handling frame parsers (o :: observations),
      cancelRequested⟩ frame parsers o observations) := by
  unfold State.checkObservation
  simp only
  cases hnormal : normalizeObservation o frame.observedAt with
  | error e => exact h.same ⟨fun e he => he, rfl, rfl, le_rfl, SameTrace.set s i rfl⟩
  | ok normalized =>
    simp only
    cases hwindow : cfg.window with
    | none =>
      -- without a window the table stays empty
      refine h.call i _ frame parsers observations normalized ?_
      intro e he
      obtain ⟨window, -, -, -, hsome, -⟩ := h.entries e he
      rw [hwindow] at hsome
      cases hsome
    | some window =>
      simp only
      cases hf : fingerprint rt normalized with
      | error e =>
        exact h.same (sameTrace_leave i rfl (fun e he => DedupeTable.mem_of_mem_purge he) rfl rfl
          le_rfl rfl)
      | ok f =>
        simp only
        cases hdup : (s.dedupe.check window cfg.dedupeCapacity s.clock f).duplicate with
        | false =>
          refine h.call i _ frame parsers observations normalized ?_
          intro e he
          rcases DedupeTable.mem_check_admitted hdup he with ⟨he, hne⟩ | rfl
          · refine Or.inl ⟨he, ?_⟩
            rw [hf]
            exact fun heq => hne (Option.some.inj heq).symm
          · exact Or.inr ⟨window, hwindow, hf, rfl⟩
        | true =>
          -- the call that entered the live entry has returned
          obtain ⟨expiry, hlive⟩ := DedupeTable.duplicate_iff.mp hdup
          obtain ⟨hentry, hlt⟩ := DedupeTable.mem_of_live hlive
          obtain ⟨window', call, o₁, t₁, hwindow', hexpiry, hlast, hf₁, hcalled⟩ :=
            h.entries _ hentry
          have hnext : s.nextFingerprint rt i = some f := by
            unfold State.nextFingerprint
            rw [hw]
            simp only [hnormal, Except.ok_bind, hf, Except.toOption]
          obtain ⟨event, hmem, hreturns⟩ := List.any_eq_true.mp
            (hconfirmed f hnext (by rw [hlive]; rfl) call hlast)
          obtain ⟨o₂, t₂, rfl⟩ := returns_eq hreturns
          have hdelivered : Event.delivered call o₂ t₂ ∈ s.history := hmem
          obtain ⟨t₀, hcalled₂, hle, hle'⟩ := h.delivered call o₂ t₂ hdelivered
          obtain ⟨rfl, rfl⟩ := h.unique _ _ _ _ _ hcalled hcalled₂
          cases hwindow.symm.trans hwindow'
          have hrecord : Traced rt cfg { s with
              counters := { s.counters with
                duplicateObservations := s.counters.duplicateObservations + 1 }
              dedupe := (s.dedupe.check window cfg.dedupeCapacity s.clock f).table
              history := s.history ++ [.suppressed normalized s.clock] } := by
            refine h.record (fun e he => DedupeTable.mem_check_duplicate hdup he)
              (fun _ _ _ => by simp) (fun _ _ _ heq => by cases heq) ?_
            intro o' now heq
            cases heq
            refine ⟨window, hwindow, call, o₁, t₂, hdelivered, hf₁.trans hf.symm, hle', ?_⟩
            have hexpiry' : expiry = window t₁ := hexpiry
            rw [hexpiry'] at hlt
            exact hlt.trans_le (window.monotone hle)
          exact hrecord.same ⟨fun e he => he, rfl, rfl, le_rfl, SameTrace.set _ i rfl⟩

theorem Traced.sink (h : Traced rt cfg s) {i : Nat} {frame : PassiveFrame} {parsers : Nat}
    {observations : List PassiveObservation} {normalized : PassiveObservation} {call : Nat}
    {cancelRequested : Bool}
    (hw : s.workers[i]? =
      some ⟨.delivering frame parsers observations normalized call, cancelRequested⟩)
    (counters : Counters) {event : Event T} (hevent : event = .delivered call normalized s.clock ∨
      event = .failed call normalized s.clock) :
    Traced rt cfg { s with counters, history := s.history ++ [event] } := by
  refine h.record (fun e he => he) ?_ ?_ ?_
  · rintro call o t rfl
    rcases hevent with heq | heq <;> cases heq
  · rintro call' o t rfl
    rcases hevent with heq | heq
    · cases heq
      exact ⟨rfl, h.calling _ (List.mem_of_getElem? hw) _ _ rfl⟩
    · cases heq
  · rintro o now rfl
    rcases hevent with heq | heq <;> cases heq

omit [LinearOrder T] in
theorem SameTrace.cancelWorkers (s : State T) : ∀ w' ∈ s.cancelWorkers.workers, ∀ x,
    w'.calling = some x → ∃ w ∈ s.workers, w.calling = some x := by
  intro w' hw' x hx
  obtain ⟨w, hw, rfl⟩ := List.mem_map.mp hw'
  exact ⟨w, hw, hx⟩

theorem traced_step (h : Traced rt cfg s) {a : Action T} (ha : Confirmed rt s a)
    (hstep : step rt cfg s a = some s') : Traced rt cfg s' := by
  cases a with
  | tick now =>
    obtain ⟨hle, hstep⟩ := Option.ite_none_right_eq_some.mp hstep
    cases hstep
    exact h.same ⟨fun e he => he, rfl, rfl, hle, fun w hw x hx => ⟨w, hw, hx⟩⟩
  | submit r =>
    obtain ⟨-, hstep⟩ := Option.ite_none_right_eq_some.mp hstep
    cases hstep
    exact h.same (sameTrace_submit s r).1
  | submitNowait r =>
    obtain ⟨-, hstep⟩ := Option.ite_none_right_eq_some.mp hstep
    cases hstep
    exact h.same (sameTrace_submit s r).2
  | resume k =>
    simp only [step] at hstep
    split at hstep
    · cases hstep
    · obtain ⟨-, hstep⟩ := Option.ite_none_right_eq_some.mp hstep
      cases hstep
      exact h.same (.of_workers rfl rfl rfl rfl rfl)
  | abandon k =>
    obtain ⟨-, hstep⟩ := Option.ite_none_right_eq_some.mp hstep
    cases hstep
    exact h.same (.of_workers rfl rfl rfl rfl rfl)
  | take i =>
    simp only [step] at hstep
    split at hstep
    · obtain ⟨-, hstep⟩ := Option.ite_none_right_eq_some.mp hstep
      cases hstep
      exact h.same ⟨fun e he => he, rfl, rfl, le_rfl, SameTrace.set s i rfl⟩
    · cases hstep
  | parse i outcome =>
    simp only [step] at hstep
    split at hstep
    · cases outcome with
      | raised =>
        cases hstep
        exact h.same ⟨fun e he => he, rfl, rfl, le_rfl, SameTrace.set s i rfl⟩
      | returned observations =>
        cases hstep
        exact h.same ⟨fun e he => he, rfl, rfl, le_rfl, SameTrace.set s i rfl⟩
    · cases hstep
  | check i =>
    simp only [step] at hstep
    split at hstep
    · next hw =>
      cases hstep
      exact h.check hw ha
    · cases hstep
  | sink i outcome =>
    simp only [step] at hstep
    split at hstep
    · next hw =>
      obtain ⟨-, hstep⟩ := Option.ite_none_right_eq_some.mp hstep
      cases outcome with
      | returned =>
        cases hstep
        exact (h.sink hw _ (Or.inl rfl)).same
          ⟨fun e he => he, rfl, rfl, le_rfl, SameTrace.set _ i rfl⟩
      | raised =>
        cases hstep
        exact (h.sink hw _ (Or.inr rfl)).same
          ⟨fun e he => he, rfl, rfl, le_rfl, SameTrace.set _ i rfl⟩
      | cancelled =>
        obtain ⟨-, hstep⟩ := Option.ite_none_right_eq_some.mp hstep
        cases hstep
        exact (h.sink hw s.counters (Or.inr rfl)).same
          (sameTrace_leave i rfl (fun e he => he) rfl rfl le_rfl rfl)
    · cases hstep
  | finish i =>
    simp only [step] at hstep
    split at hstep
    · cases hstep
      exact h.same (sameTrace_leave i rfl (fun e he => he) rfl rfl le_rfl rfl)
    · cases hstep
  | exit i =>
    simp only [step] at hstep
    split at hstep
    · obtain ⟨-, hstep⟩ := Option.ite_none_right_eq_some.mp hstep
      cases hstep
      exact h.same ⟨fun e he => he, rfl, rfl, le_rfl, SameTrace.set s i rfl⟩
    · cases hstep
  | stop =>
    obtain ⟨-, hstep⟩ := Option.ite_none_right_eq_some.mp hstep
    cases hstep
    exact h.same (.of_workers rfl rfl rfl rfl rfl)
  | settled =>
    obtain ⟨-, hstep⟩ := Option.ite_none_right_eq_some.mp hstep
    cases hstep
    exact h.same (.of_workers rfl rfl rfl rfl rfl)
  | drained =>
    obtain ⟨-, hstep⟩ := Option.ite_none_right_eq_some.mp hstep
    cases hstep
    exact h.same ⟨fun e he => he, rfl, rfl, le_rfl, SameTrace.cancelWorkers s⟩
  | timeout =>
    obtain ⟨-, hstep⟩ := Option.ite_none_right_eq_some.mp hstep
    cases hstep
    exact h.same ⟨fun e he => he, rfl, rfl, le_rfl, SameTrace.cancelWorkers s⟩
  | gathered =>
    simp only [step] at hstep
    split at hstep
    · obtain ⟨-, hstep⟩ := Option.ite_none_right_eq_some.mp hstep
      cases hstep
      exact h.same (.of_workers rfl rfl rfl rfl rfl)
    · cases hstep

theorem traced_started (rt : Runtime) (cfg : Config T) (clock : T) :
    Traced rt cfg (started cfg clock) := by
  refine ⟨by simp [started], by simp [started], by simp [started], ?_, by simp [started], ?_⟩
  · intro w hw call o hx
    rw [List.eq_of_mem_replicate hw] at hx
    cases hx
  · intro pre o now post heq
    simp [started] at heq

/-- In a run that looks an observation up only when the call that entered its fingerprint has
returned, every suppressed observation was delivered within the window before. -/
theorem suppression_implies_delivery (rt : Runtime) (cfg : Config T) (clock : T)
    {actions : List (Action T)}
    (hconfirmed : Machine.Along (step rt cfg) (Confirmed rt) (started cfg clock) actions)
    {s : State T} (hrun : Machine.run (step rt cfg) (started cfg clock) actions = some s) :
    SuppressedRightly rt cfg s.history :=
  (Machine.run_invariant (fun _ _ _ h ha hstep => traced_step h ha hstep)
    (traced_started rt cfg clock) hconfirmed hrun).suppressed

end

/-! ## A retry that is lost -/

/-- The frame comes again after ten seconds. -/
def retried (outcome : SinkOutcome) : List (Action ℕ) :=
  [.submit sampleRequest, .take 0, .parse 0 (.returned [sampleObservation]), .check 0,
    .sink 0 outcome, .finish 0, .tick 10, .submit sampleRequest, .take 0,
    .parse 0 (.returned [sampleObservation]), .check 0, .finish 0]

/-- The pipeline after the retry. -/
def afterRetry (outcome : SinkOutcome) : Option (State ℕ) :=
  Machine.run (step (.ofDigests []) sampleConfig) (started sampleConfig 0) (retried outcome)

theorem suppression_implies_delivery_sample : ∃ s, afterRetry .returned = some s ∧
    s.counters.duplicateObservations = 1 ∧
      SuppressedRightly (.ofDigests []) sampleConfig s.history := by
  have hsummary : (afterRetry .returned).map (fun s => s.counters.duplicateObservations) =
      some 1 := by
    decide +kernel
  obtain ⟨s, hrun, hs⟩ := Option.map_eq_some_iff.mp hsummary
  exact ⟨s, hrun, hs, suppression_implies_delivery _ _ _ (by decide +kernel) hrun⟩

def Event.isSuppressed {T : Type} : Event T → Bool
  | .suppressed _ _ => true
  | _ => false

def Event.isDelivered {T : Type} : Event T → Bool
  | .delivered _ _ _ => true
  | _ => false

/-- The sink fails, and the retry is dropped as a duplicate of what was never delivered. -/
theorem failed_delivery_suppresses : ∃ s, afterRetry .raised = some s ∧
    s.counters.emittedObservations = 0 ∧ s.counters.duplicateObservations = 1 ∧
      ¬ SuppressedRightly (.ofDigests []) sampleConfig s.history := by
  have hsummary : (afterRetry .raised).map (fun s => (s.counters.emittedObservations,
      s.counters.duplicateObservations, s.history.any Event.isSuppressed,
      s.history.any Event.isDelivered)) = some (0, 1, true, false) := by
    decide +kernel
  obtain ⟨s, hrun, hs⟩ := Option.map_eq_some_iff.mp hsummary
  simp only [Prod.mk.injEq] at hs
  obtain ⟨hemitted, hduplicates, hsuppressed, hdelivered⟩ := hs
  refine ⟨s, hrun, hemitted, hduplicates, ?_⟩
  intro h
  obtain ⟨e, he, hsup⟩ := List.any_eq_true.mp hsuppressed
  obtain ⟨pre, post, hsplit⟩ := List.append_of_mem he
  cases e with
  | suppressed o now =>
    obtain ⟨window, -, call, o', t, hmem, -⟩ := h pre o now post hsplit
    have hhistory : Event.delivered call o' t ∈ s.history := by
      rw [hsplit]
      exact List.mem_append_left _ hmem
    rw [List.any_eq_false] at hdelivered
    exact hdelivered _ hhistory rfl
  | called | delivered | failed => cases hsup

end FieldDiscovery.Passive
