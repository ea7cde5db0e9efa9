import FieldDiscovery.Passive.Pipeline

/-!
# The suppression window

`_is_duplicate` over a sequence of observations. The table is purged from its front, in the order in
which the entries expire, but a duplicate moves its entry to the end. An entry whose time is over can
so stay behind one whose time is not, and the observation that fills the table pushes out the latter.
The verdicts are exact as long as no entry is pushed out (`verdicts_exact_iff`).
-/

namespace FieldDiscovery.Passive

open Py

section

variable {T : Type} [LinearOrder T] (rt : Runtime) (cfg : Config T)

/-- `_is_duplicate`, with the table that it leaves. -/
def isDuplicate (table : DedupeTable T) (now : T) (o : PassiveObservation) :
    DedupeTable T × Except Exc Bool :=
  match cfg.window with
  | none => (table, .ok false)
  | some window =>
    match fingerprint rt o with
    | .error e => (table.purge now, .error e)
    | .ok f =>
      let verdict := table.check window cfg.dedupeCapacity now f
      (verdict.table, .ok verdict.duplicate)

/-! ## Sequences of observations -/

/-- The table between two observations, and when each fingerprint was last accepted. -/
structure Suppressor (T : Type) where
  table : DedupeTable T := []
  accepted : Dict Str T := []
  clock : T

namespace Suppressor

/-- The acceptances after an observation with this verdict. -/
def accept (s : Suppressor T) (now : T) (o : PassiveObservation) (verdict : Except Exc Bool) :
    Dict Str T :=
  match verdict, fingerprint rt o with
  | .ok false, .ok f => s.accepted.set f now
  | _, _ => s.accepted

/-- The next observation; the clock does not go back. -/
def step (s : Suppressor T) (look : T × PassiveObservation) : Option (Suppressor T) :=
  let (table, verdict) := isDuplicate rt cfg s.table look.1 look.2
  if s.clock ≤ look.1 then
    some { table, accepted := s.accept rt look.1 look.2 verdict, clock := look.1 }
  else none

/-- `t + window` -/
def deadline (t : T) : T := cfg.window.elim t fun window => window t

/-- The fingerprint was last accepted at a time from which the window reaches past `now`. -/
def Within (s : Suppressor T) (now : T) (f : Str) : Prop :=
  ∃ t, s.accepted.get f = some t ∧ now < deadline cfg t

/-- The verdict on an observation is that of the window. -/
def VerdictExact (s : Suppressor T) (look : T × PassiveObservation) : Prop :=
  (isDuplicate rt cfg s.table look.1 look.2).2 = .ok true ↔
    ∃ f, fingerprint rt look.2 = .ok f ∧ s.Within cfg look.1 f

/-- The verdict on whatever comes next is that of the window. -/
def Exact (s : Suppressor T) : Prop :=
  ∀ look : T × PassiveObservation, s.clock ≤ look.1 → s.VerdictExact rt cfg look

/-- An observation whose fingerprint enters the table finds room there. -/
def Fits (s : Suppressor T) (look : T × PassiveObservation) : Prop :=
  cfg.window.isSome = true → ∀ f ∈ (fingerprint rt look.2).toOption,
    s.table.live look.1 f = none →
      ((s.table.purge look.1).filter fun e => e.1 ≠ f).length < cfg.dedupeCapacity

instance (s : Suppressor T) (look : T × PassiveObservation) : Decidable (s.Fits rt cfg look) :=
  inferInstanceAs (Decidable (_ → _))

/-- The fingerprints accepted within the last window and the one at hand fit into the table. -/
def CapacitySuffices (s : Suppressor T) (look : T × PassiveObservation) : Prop :=
  ∀ f ∈ (fingerprint rt look.2).toOption,
    (f :: (s.accepted.filter fun e => look.1 < deadline cfg e.2).map Prod.fst).dedup.length ≤
      cfg.dedupeCapacity

instance (s : Suppressor T) (look : T × PassiveObservation) :
    Decidable (s.CapacitySuffices rt cfg look) :=
  inferInstanceAs (Decidable (∀ f ∈ (fingerprint rt look.2).toOption, _))

/-- The table and the acceptances agree. -/
structure Sound (s : Suppressor T) : Prop where
  nodup : s.table.KeysNodup
  entries : ∀ e ∈ s.table, ∃ t, s.accepted.get e.1 = some t ∧ e.2 = deadline cfg t
  times : ∀ f t, s.accepted.get f = some t → t ≤ s.clock ∧ ∃ o, fingerprint rt o = .ok f
  off : cfg.window = none → s.table = []

/-- Every fingerprint whose window is not over has its entry. -/
def Complete (s : Suppressor T) : Prop :=
  ∀ f t, s.accepted.get f = some t → s.clock < deadline cfg t → (f, deadline cfg t) ∈ s.table

end Suppressor

end

section

variable {T : Type} [LinearOrder T] {rt : Runtime} {cfg : Config T}

/-! ## Entries -/

namespace DedupeTable

variable {table : DedupeTable T} {now : T} {f : Str}

/-- An entry whose time is not over survives a purge. -/
theorem mem_purge {e : Str × T} (he : e ∈ table) (hlive : now < e.2) : e ∈ table.purge now := by
  unfold purge
  induction table with
  | nil => cases he
  | cons e' table ih =>
    rw [List.dropWhile_cons]
    split
    · next hover =>
      rcases List.mem_cons.mp he with rfl | he
      · exact absurd hlive (not_lt.mpr (of_decide_eq_true hover))
      · exact ih he
    · exact he

theorem keysNodup_purge (h : table.KeysNodup) (now : T) : (table.purge now).KeysNodup :=
  h.sublist ((List.dropWhile_sublist _).map Prod.fst)

omit [LinearOrder T] in
theorem keysNodup_putLast (h : table.KeysNodup) (expiry : T) :
    (table.putLast f expiry).KeysNodup := by
  unfold Dict.KeysNodup putLast
  rw [List.map_append, List.nodup_append]
  refine ⟨h.sublist (List.filter_sublist.map Prod.fst), List.nodup_singleton _, ?_⟩
  intro key hkey key' hkey'
  obtain ⟨e, he, rfl⟩ := List.mem_map.mp hkey
  rw [List.mem_singleton.mp hkey']
  exact of_decide_eq_true (List.mem_filter.mp he).2

/-- The live entry of a fingerprint. -/
theorem live_eq_some (h : table.KeysNodup) {expiry : T} :
    live table now f = some expiry ↔ (f, expiry) ∈ table ∧ now < expiry := by
  refine ⟨mem_of_live, fun ⟨hmem, hlt⟩ => ?_⟩
  unfold live
  rw [Dict.get_of_mem (keysNodup_purge h _) (mem_purge hmem hlt), Option.filter_some,
    if_pos (decide_eq_true hlt)]

/-- The front of a purged table is not over. -/
theorem head_purge {e : Str × T} (h : e ∈ (table.purge now).head?) : now < e.2 := by
  have hnot := List.head?_dropWhile_not (fun e : Str × T => decide (e.2 ≤ now)) table
  unfold purge at h
  rw [Option.mem_def.mp h] at hnot
  simpa using hnot

end DedupeTable

/-! ## Verdicts -/

namespace Suppressor

variable {s s' : Suppressor T} {look : T × PassiveObservation}

theorem step_cases (h : step rt cfg s look = some s') : s.clock ≤ look.1 ∧ s' =
    { table := (isDuplicate rt cfg s.table look.1 look.2).1
      accepted := s.accept rt look.1 look.2 (isDuplicate rt cfg s.table look.1 look.2).2
      clock := look.1 } := by
  obtain ⟨hle, h⟩ := Option.ite_none_right_eq_some.mp h
  exact ⟨hle, (Option.some.inj h).symm⟩

/-- A verdict rests on a live entry. -/
theorem duplicate_iff (hs : s.Sound rt cfg) {now : T} {o : PassiveObservation} :
    (isDuplicate rt cfg s.table now o).2 = .ok true ↔ ∃ window, cfg.window = some window ∧
      ∃ f, fingerprint rt o = .ok f ∧ ∃ expiry, (f, expiry) ∈ s.table ∧ now < expiry := by
  unfold isDuplicate
  cases hwindow : cfg.window with
  | none => simp
  | some window =>
    cases hf : fingerprint rt o with
    | error e => simp
    | ok f =>
      simp only [Except.ok.injEq, Option.some.injEq, exists_eq_left']
      rw [DedupeTable.duplicate_iff]
      exact exists_congr fun expiry => DedupeTable.live_eq_some hs.nodup

/-- The next verdicts are exact when no entry is missing. -/
theorem exact_iff (hs : s.Sound rt cfg) : s.Exact rt cfg ↔ s.Complete cfg := by
  constructor
  · intro h f t hf hlt
    obtain ⟨-, o, ho⟩ := hs.times f t hf
    obtain ⟨window, -, f', hf', expiry, hmem, -⟩ :=
      (duplicate_iff hs).mp ((h (s.clock, o) le_rfl).mpr ⟨f, ho, t, hf, hlt⟩)
    cases ho.symm.trans hf'
    obtain ⟨t', ht', hexpiry⟩ := hs.entries _ hmem
    cases hf.symm.trans ht'
    have hexpiry : expiry = deadline cfg t := hexpiry
    rwa [hexpiry] at hmem
  · rintro h ⟨now, o⟩ hle
    unfold VerdictExact
    rw [duplicate_iff hs]
    constructor
    · rintro ⟨window, -, f, hf, expiry, hmem, hlt⟩
      obtain ⟨t, ht, hexpiry⟩ := hs.entries _ hmem
      have hexpiry : expiry = deadline cfg t := hexpiry
      exact ⟨f, hf, t, ht, hexpiry ▸ hlt⟩
    · rintro ⟨f, hf, t, ht, hlt⟩
      cases hwindow : cfg.window with
      | none =>
        have hdeadline : deadline cfg t = t := by
          unfold deadline
          rw [hwindow]
          rfl
        rw [hdeadline] at hlt
        exact absurd (((hs.times f t ht).1.trans hle).trans_lt hlt) (lt_irrefl _)
      | some window => exact ⟨window, rfl, f, hf, _, h f t ht (hle.trans_lt hlt), hlt⟩

/-! ## One observation -/

/-- What the next observation does, by its verdict. -/
inductive Outcome (rt : Runtime) (cfg : Config T) (s : Suppressor T) (now : T)
    (o : PassiveObservation) : DedupeTable T → Dict Str T → Prop
  /-- Without a window, nothing is looked up. -/
  | off (hwindow : cfg.window = none) {accepted : Dict Str T}
      (haccepted : accepted = s.accepted ∨ ∃ f, fingerprint rt o = .ok f ∧
        accepted = s.accepted.set f now) : Outcome rt cfg s now o s.table accepted
  | raised {window : T →o T} (hwindow : cfg.window = some window) {e : Exc}
      (hf : fingerprint rt o = .error e) : Outcome rt cfg s now o (s.table.purge now) s.accepted
  | duplicate {window : T →o T} (hwindow : cfg.window = some window) {f : Str}
      (hf : fingerprint rt o = .ok f) {expiry : T} (hlive : s.table.live now f = some expiry) :
      Outcome rt cfg s now o ((s.table.purge now).putLast f expiry) s.accepted
  | entered {window : T →o T} (hwindow : cfg.window = some window) {f : Str}
      (hf : fingerprint rt o = .ok f) (hlive : s.table.live now f = none)
      (hroom : ((s.table.purge now).filter fun e => e.1 ≠ f).length < cfg.dedupeCapacity) :
      Outcome rt cfg s now o ((s.table.purge now).putLast f (window now)) (s.accepted.set f now)
  | evicting {window : T →o T} (hwindow : cfg.window = some window) {f : Str}
      (hf : fingerprint rt o = .ok f) (hlive : s.table.live now f = none)
      (hfull : cfg.dedupeCapacity ≤ ((s.table.purge now).filter fun e => e.1 ≠ f).length) :
      Outcome rt cfg s now o ((s.table.purge now).putLast f (window now)).tail
        (s.accepted.set f now)

theorem step_outcome (h : step rt cfg s look = some s') : s.clock ≤ look.1 ∧ s'.clock = look.1 ∧
    Outcome rt cfg s look.1 look.2 s'.table s'.accepted := by
  obtain ⟨now, o⟩ := look
  obtain ⟨hle, rfl⟩ := step_cases h
  refine ⟨hle, rfl, ?_⟩
  unfold isDuplicate accept
  dsimp only
  cases hwindow : cfg.window with
  | none =>
    cases hf : fingerprint rt o with
    | error e => exact .off hwindow (Or.inl (by simp))
    | ok f => exact .off hwindow (Or.inr ⟨f, hf, rfl⟩)
  | some window =>
    cases hf : fingerprint rt o with
    | error e => exact .raised hwindow hf
    | ok f =>
      dsimp only
      unfold DedupeTable.check
      cases hlive : s.table.live now f with
      | some expiry => exact .duplicate hwindow hf hlive
      | none =>
        unfold DedupeTable.enter
        simp only
        have hlength : ((s.table.purge now).putLast f (window now)).length =
            ((s.table.purge now).filter fun e => e.1 ≠ f).length + 1 := by
          unfold DedupeTable.putLast
          rw [List.length_append, List.length_singleton]
        rw [hlength]
        split
        · next hfull => exact .evicting hwindow hf hlive (Nat.le_of_lt_succ hfull)
        · next hroom => exact .entered hwindow hf hlive (by omega)

theorem deadline_some {window : T →o T} (h : cfg.window = some window) (t : T) :
    deadline cfg t = window t := by
  unfold deadline
  rw [h]
  rfl

theorem deadline_none (h : cfg.window = none) (t : T) : deadline cfg t = t := by
  unfold deadline
  rw [h]
  rfl

/-- An acceptance enters the table, and every other entry was there. -/
theorem Sound.entered (hs : s.Sound rt cfg) {now : T} {o : PassiveObservation} {f : Str}
    {table : DedupeTable T} {window : T →o T} (hwindow : cfg.window = some window)
    (hf : fingerprint rt o = .ok f) (hle : s.clock ≤ now) (hnodup : table.KeysNodup)
    (htable : ∀ e ∈ table, e ∈ (s.table.purge now).putLast f (window now)) :
    Sound rt cfg { table, accepted := s.accepted.set f now, clock := now } where
  nodup := hnodup
  entries := by
    intro e he
    rcases DedupeTable.mem_putLast.mp (htable e he) with ⟨he, hne⟩ | rfl
    · obtain ⟨t, ht, hexpiry⟩ := hs.entries e (DedupeTable.mem_of_mem_purge he)
      refine ⟨t, ?_, hexpiry⟩
      rw [Dict.get_set, if_neg (Ne.symm hne)]
      exact ht
    · exact ⟨now, Dict.get_set_self _ _ _, (deadline_some hwindow now).symm⟩
  times := by
    intro f' t ht
    rw [Dict.get_set] at ht
    split at ht
    · next heq =>
      cases ht
      exact ⟨le_rfl, o, heq ▸ hf⟩
    · exact ⟨(hs.times f' t ht).1.trans hle, (hs.times f' t ht).2⟩
  off hnone := by
    rw [hwindow] at hnone
    cases hnone

theorem sound_step (hs : s.Sound rt cfg) (h : step rt cfg s look = some s') :
    s'.Sound rt cfg := by
  obtain ⟨now, o⟩ := look
  obtain ⟨hle, hclock, houtcome⟩ := step_outcome h
  obtain ⟨table, accepted, clock⟩ := s'
  dsimp only at hle hclock houtcome
  subst hclock
  have htimes : ∀ f t, s.accepted.get f = some t →
      t ≤ clock ∧ ∃ o, fingerprint rt o = .ok f := fun f t ht =>
    ⟨(hs.times f t ht).1.trans hle, (hs.times f t ht).2⟩
  have hpurged := DedupeTable.keysNodup_purge hs.nodup clock
  cases houtcome with
  | off hwindow haccepted =>
    have hnil := hs.off hwindow
    refine ⟨hs.nodup, fun e he => ?_, fun f t ht => ?_, fun _ => hnil⟩
    · rw [hnil] at he
      cases he
    · rcases haccepted with rfl | ⟨f', hf', rfl⟩
      · exact htimes f t ht
      · rw [Dict.get_set] at ht
        split at ht
        · next heq =>
          cases ht
          exact ⟨le_rfl, o, heq ▸ hf'⟩
        · exact htimes f t ht
  | raised hwindow hf =>
    refine ⟨hpurged, fun e he => hs.entries e (DedupeTable.mem_of_mem_purge he), htimes, ?_⟩
    rw [hwindow]
    exact fun hnone => by cases hnone
  | duplicate hwindow hf hlive =>
    refine ⟨DedupeTable.keysNodup_putLast hpurged _, fun e he => ?_, htimes, ?_⟩
    · rcases DedupeTable.mem_putLast.mp he with ⟨he, -⟩ | rfl
      · exact hs.entries e (DedupeTable.mem_of_mem_purge he)
      · exact hs.entries _ (DedupeTable.mem_of_live hlive).1
    · rw [hwindow]
      exact fun hnone => by cases hnone
  | entered hwindow hf hlive hroom =>
    exact hs.entered hwindow hf hle (DedupeTable.keysNodup_putLast hpurged _) fun e he => he
  | evicting hwindow hf hlive hfull =>
    refine hs.entered hwindow hf hle ?_ fun e he => List.mem_of_mem_tail he
    exact (DedupeTable.keysNodup_putLast hpurged _).sublist ((List.tail_sublist _).map Prod.fst)

/-- No entry that is missing before is missing after an observation, unless one is pushed out. -/
theorem complete_step_iff (hs : s.Sound rt cfg) (hcomplete : s.Complete cfg)
    (h : step rt cfg s look = some s') : s'.Complete cfg ↔ s.Fits rt cfg look := by
  obtain ⟨now, o⟩ := look
  obtain ⟨hle, hclock, houtcome⟩ := step_outcome h
  obtain ⟨table, accepted, clock⟩ := s'
  dsimp only at hle hclock houtcome
  subst hclock
  -- the entries that a purge keeps
  have hkept : ∀ f t, s.accepted.get f = some t → clock < deadline cfg t →
      (f, deadline cfg t) ∈ s.table.purge clock := fun f t ht hlt =>
    DedupeTable.mem_purge (hcomplete f t ht (hle.trans_lt hlt)) hlt
  cases houtcome with
  | off hwindow haccepted =>
    refine iff_of_true (fun f t ht hlt => ?_) ?_
    · have hsound := sound_step hs h
      rw [deadline_none hwindow] at hlt
      exact absurd (((hsound.times f t ht).1).trans_lt hlt) (lt_irrefl _)
    · intro hsome
      rw [hwindow] at hsome
      cases hsome
  | raised hwindow hf =>
    refine iff_of_true hkept fun _ f hmem => ?_
    rw [hf] at hmem
    cases hmem
  | @duplicate window hwindow f hf expiry hlive =>
    refine iff_of_true (fun f' t ht hlt => ?_) fun _ f' hmem hnone => ?_
    · rw [DedupeTable.mem_putLast]
      by_cases hff : f' = f
      · subst hff
        have hmem := (DedupeTable.live_eq_some hs.nodup).mpr
          ⟨hcomplete f' t ht (hle.trans_lt hlt), hlt⟩
        rw [Option.some.inj (hlive.symm.trans hmem)]
        exact Or.inr rfl
      · exact Or.inl ⟨hkept f' t ht hlt, hff⟩
    · rw [hf] at hmem
      cases hmem
      rw [hlive] at hnone
      cases hnone
  | @entered window hwindow f hf hlive hroom =>
    refine iff_of_true (fun f' t ht hlt => ?_) fun _ f' hmem _ => ?_
    · dsimp only at ht
      rw [Dict.get_set] at ht
      rw [DedupeTable.mem_putLast]
      split at ht
      · next heq =>
        cases ht
        rw [deadline_some hwindow, heq]
        exact Or.inr rfl
      · next hne => exact Or.inl ⟨hkept f' t ht hlt, Ne.symm hne⟩
    · rw [hf] at hmem
      cases hmem
      exact hroom
  | @evicting window hwindow f hf hlive hfull =>
    refine iff_of_false (fun hafter => ?_) fun hfits => ?_
    · -- the front of the purged table is live, so it is not the entry of `f`
      obtain ⟨e, rest, hpurge⟩ : ∃ e rest, s.table.purge clock = e :: rest := by
        refine List.exists_cons_of_ne_nil fun hnil => ?_
        rw [hnil, List.filter_nil, List.length_nil] at hfull
        have := cfg.bounds.2.2.2
        omega
      have hhead : e ∈ (s.table.purge clock).head? := by
        rw [hpurge]
        rfl
      have hfront : clock < e.2 := DedupeTable.head_purge hhead
      have hmem : e ∈ s.table := DedupeTable.mem_of_mem_purge (hpurge ▸ List.mem_cons_self)
      have hne : e.1 ≠ f := by
        rintro rfl
        rw [(DedupeTable.live_eq_some hs.nodup).mpr ⟨hmem, hfront⟩] at hlive
        cases hlive
      obtain ⟨t, ht, hexpiry⟩ := hs.entries e hmem
      have hmissing : (e.1, deadline cfg t) ∈ ((s.table.purge clock).putLast f (window clock)).tail :=
        hafter e.1 t (by rw [Dict.get_set, if_neg (Ne.symm hne)]; exact ht) (hexpiry ▸ hfront)
      have hnodup := DedupeTable.keysNodup_putLast
        (DedupeTable.keysNodup_purge hs.nodup clock) (f := f) (window clock)
      unfold DedupeTable.putLast Dict.KeysNodup at hnodup
      unfold DedupeTable.putLast at hmissing
      rw [hpurge, List.filter_cons, if_pos (decide_eq_true hne), List.cons_append] at hnodup hmissing
      rw [List.map_cons, List.nodup_cons] at hnodup
      exact hnodup.1 (List.mem_map.mpr ⟨_, hmissing, rfl⟩)
    · have hroom := hfits (by rw [hwindow]; rfl) f (by rw [hf]; rfl) hlive
      exact absurd hfull (not_le.mpr hroom)

/-- The verdicts of a sequence, and those on whatever may follow it, are exact as long as every
fingerprint that enters the table finds room there, and no longer. -/
theorem verdicts_exact_iff (rt : Runtime) (cfg : Config T) (clock : T)
    {observations : List (T × PassiveObservation)} {s : Suppressor T}
    (hrun : Machine.run (step rt cfg) { clock := clock } observations = some s) :
    (∀ front, front <+: observations → ∀ t,
        Machine.run (step rt cfg) { clock := clock } front = some t → t.Exact rt cfg) ↔
      Machine.Along (step rt cfg) (Fits rt cfg) { clock := clock } observations := by
  have hinit : Sound rt cfg ({ clock := clock } : Suppressor T) :=
    ⟨List.nodup_nil, fun e he => absurd he List.not_mem_nil, (fun f t ht => by cases ht),
      fun _ => rfl⟩
  have hcomplete : Complete cfg ({ clock := clock } : Suppressor T) := fun f t ht => by cases ht
  rw [← Machine.throughout_iff (I := Sound rt cfg) (J := Complete cfg)
    (fun _ _ _ hs h => sound_step hs h) (fun _ _ _ hs hc h => complete_step_iff hs hc h) hinit
    hcomplete hrun]
  refine forall₄_congr fun front hfront t ht => exact_iff ?_
  exact Machine.run_invariant (P := fun _ _ => True) (fun _ _ _ hs _ h => sound_step hs h) hinit
    (Machine.along_of_forall fun _ _ => trivial) ht

end Suppressor

end

/-! ## An entry that hides behind a live one -/

/-- A window of ten seconds, and room for two fingerprints. -/
def narrowConfig : Config ℕ where
  parsers := [(str "arp", 1)]
  queueSize := 4
  workerCount := 1
  maxFrameBytes := 1500
  window := some ⟨fun t => t + 10, fun _ _ h => Nat.add_le_add_right h 10⟩
  dedupeCapacity := 2
  bounds := by decide

/-- A host is seen. -/
def hostSeen (address : String) : PassiveObservation where
  kind := str "host"
  fields := [(str "address", .string (str address))]
  source := str "arp"

/-- The text that its fingerprint digests. -/
def hostText (address : String) : Str :=
  str "\x7b\"fields\":\x7b\"address\":\"" ++ str address ++
    str "\"\x7d,\"kind\":\"host\",\"source\":\"arp\"\x7d"

/-- The digests of these texts. -/
def hostRuntime : Runtime := .ofDigests [
  (hostText "10.0.0.1", str "20c9b7ee6168628d7d9939a02be6d77ed12495a0cde44a4cc6da319cc8193a7f"),
  (hostText "10.0.0.2", str "650a94217ef4e29dcac9a0ddcc849e3475154d4b12fbfb47a190271dba391666"),
  (hostText "10.0.0.3", str "d76b89562d42c72ab23aa858c34f76391af0fb65f1a27214a209889ac3b0b76f")]

/-- The first host is seen again, so that its entry goes behind that of the second host. Its window
is over when the third host is seen, and the second host pays for it. -/
def hosts : List (ℕ × PassiveObservation) :=
  [(0, hostSeen "10.0.0.1"), (2, hostSeen "10.0.0.2"), (3, hostSeen "10.0.0.1"),
    (11, hostSeen "10.0.0.3")]

theorem verdicts_exact_iff_sample : ∃ s, Machine.run (Suppressor.step hostRuntime narrowConfig)
    { clock := 0 } (hosts.take 3) = some s ∧ s.Exact hostRuntime narrowConfig := by
  obtain ⟨s, hrun⟩ := Option.isSome_iff_exists.mp (by decide +kernel :
    (Machine.run (Suppressor.step hostRuntime narrowConfig) { clock := 0 }
      (hosts.take 3)).isSome = true)
  exact ⟨s, hrun, (Suppressor.verdicts_exact_iff hostRuntime narrowConfig 0 hrun).mpr
    (by decide +kernel) _ (List.prefix_refl _) s hrun⟩

theorem window_not_exact : ¬ ∀ (rt : Runtime) (cfg : Config ℕ) clock observations s,
    Machine.run (Suppressor.step rt cfg) { clock := clock } observations = some s →
    Machine.Along (Suppressor.step rt cfg) (Suppressor.CapacitySuffices rt cfg) { clock := clock }
      observations →
    Machine.Along (Suppressor.step rt cfg) (Suppressor.VerdictExact rt cfg) { clock := clock }
      observations := by
  intro h
  let observations := hosts ++ [(11, hostSeen "10.0.0.2")]
  obtain ⟨s, hrun⟩ := Option.isSome_iff_exists.mp (by decide +kernel :
    (Machine.run (Suppressor.step hostRuntime narrowConfig) { clock := 0 }
      observations).isSome = true)
  have hexact := h hostRuntime narrowConfig 0 observations s hrun (by decide +kernel)
  obtain ⟨t, ht, -⟩ := Machine.run_append.mp hrun
  have hverdict := ((Machine.along_append.mp hexact).2 t ht).1
  have hsummary : (Machine.run (Suppressor.step hostRuntime narrowConfig) { clock := 0 } hosts).map
      (fun s => ((isDuplicate hostRuntime narrowConfig s.table 11 (hostSeen "10.0.0.2")).2.toOption,
        s.accepted.get (str "650a94217ef4e29dcac9a0ddcc849e3475154d4b12fbfb47a190271dba391666"))) =
      some (some false, some 2) := by
    decide +kernel
  rw [ht] at hsummary
  simp only [Option.map_some, Option.some.injEq, Prod.mk.injEq] at hsummary
  have htrue := hverdict.mpr ⟨_, by decide +kernel, 2, hsummary.2, by decide⟩
  rw [htrue] at hsummary
  cases hsummary.1

end FieldDiscovery.Passive
