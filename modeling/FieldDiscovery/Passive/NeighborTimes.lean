import FieldDiscovery.Lib.Machine
import FieldDiscovery.Passive.Neighbor

/-!
# The times of tracked neighbors

ARP frames and polls of the kernel reach one tracker, and not in the order of their timestamps. The
tracker keeps four times of a neighbor by assignment, so they are those of the evidence that came last
rather than of the latest evidence. In a run they are right throughout exactly when no evidence of a
tracked neighbor is older than what was seen of it, or too late to add the maximal age to
(`times_consistent_iff`).
-/

namespace FieldDiscovery.Passive.Neighbor

open Py Recent

/-- The entries, with the timestamps that were observed for each key since its insertion. -/
structure Timed where
  entries : Entries
  seen : Key → List Utc

/-- A new tracker. -/
def Timed.start : Timed := ⟨[], fun _ => []⟩

/-- A call, on the entries and on the record of the timestamps. -/
def timedStep (t : NeighborTracker) (s : Timed) : Call → Timed
  | .observe evidence =>
    { entries := (observe t s.entries evidence).1
      seen := Function.update s.seen evidence.key
        (if (s.entries.get evidence.key).isSome then s.seen evidence.key ++ [evidence.observedAt]
          else [evidence.observedAt]) }
  | .expire now => { s with entries := (expire s.entries now).1 }

/-- Every call is possible. -/
def timed (t : NeighborTracker) (s : Timed) (call : Call) : Option Timed := some (timedStep t s call)

/-- The times of a neighbor are those of what was seen of it. -/
structure Times (t : NeighborTracker) (tracked : TrackedNeighbor) (seen : List Utc) : Prop where
  first : IsLeast {time | time ∈ seen} tracked.firstSeen
  last : IsGreatest {time | time ∈ seen} tracked.lastSeen
  emitted : tracked.firstSeen ≤ tracked.lastEmitted ∧ tracked.lastEmitted ≤ tracked.lastSeen
  expires : tracked.lastSeen.add t.maxAge = some tracked.expiresAt

/-- The times of all neighbors are right. -/
def Consistent (t : NeighborTracker) (s : Timed) : Prop :=
  ∀ item ∈ s.entries, Times t item.2 (s.seen item.1)

/-- Evidence of a tracked neighbor is not older than what was seen of it, and its expiry can be
told. -/
def InOrder (t : NeighborTracker) (s : Timed) : Call → Prop
  | .observe evidence => ∀ existing, s.entries.get evidence.key = some existing →
      existing.lastSeen ≤ evidence.observedAt ∧ (evidence.observedAt.add t.maxAge).isSome
  | .expire _ => True

variable {t : NeighborTracker}

/-- Evidence in order moves the times on. -/
theorem Times.later {existing : TrackedNeighbor} {seen : List Utc} (h : Times t existing seen)
    {evidence : NeighborEvidence} {lastEmitted expiresAt : Utc}
    (hlate : existing.lastSeen ≤ evidence.observedAt)
    (hadd : evidence.observedAt.add t.maxAge = some expiresAt)
    (hemitted : lastEmitted = existing.lastEmitted ∨ lastEmitted = evidence.observedAt) :
    Times t ⟨evidence, existing.firstSeen, evidence.observedAt, lastEmitted, expiresAt⟩
      (seen ++ [evidence.observedAt]) := by
  have hfirst : existing.firstSeen ≤ existing.lastSeen := h.emitted.1.trans h.emitted.2
  refine ⟨⟨?_, ?_⟩, ⟨?_, ?_⟩, ?_, hadd⟩
  · exact List.mem_append_left _ h.first.1
  · intro time htime
    rcases List.mem_append.mp htime with htime | htime
    · exact h.first.2 htime
    · rw [List.mem_singleton.mp htime]
      exact hfirst.trans hlate
  · exact List.mem_append_right _ List.mem_cons_self
  · intro time htime
    rcases List.mem_append.mp htime with htime | htime
    · exact (h.last.2 htime).trans hlate
    · exact (List.mem_singleton.mp htime).le
  · rcases hemitted with rfl | rfl
    · exact ⟨h.emitted.1, h.emitted.2.trans hlate⟩
    · exact ⟨hfirst.trans hlate, le_refl _⟩

theorem times_new {evidence : NeighborEvidence} {expiresAt : Utc}
    (hadd : evidence.observedAt.add t.maxAge = some expiresAt) :
    Times t ⟨evidence, evidence.observedAt, evidence.observedAt, evidence.observedAt, expiresAt⟩
      [evidence.observedAt] := by
  refine ⟨⟨List.mem_cons_self, ?_⟩, ⟨List.mem_cons_self, ?_⟩, ⟨le_refl _, le_refl _⟩, hadd⟩
  · exact fun time htime => (List.mem_singleton.mp htime).ge
  · exact fun time htime => (List.mem_singleton.mp htime).le

/-- One call keeps the times right exactly when it is in order. -/
theorem consistent_step_iff {s : Timed} (h : Consistent t s) (call : Call) :
    Consistent t (timedStep t s call) ↔ InOrder t s call := by
  cases call with
  | expire now =>
    refine iff_of_true (fun item hitem => h item ?_) trivial
    unfold timedStep expire at hitem
    simp only at hitem
    split at hitem
    · exact hitem
    · exact List.mem_of_mem_filter hitem
  | observe evidence =>
    have hcases := @observe_cases t s.entries evidence
    unfold Consistent timedStep InOrder
    simp only
    generalize (observe t s.entries evidence).1 = entries,
      (observe t s.entries evidence).2 = result at hcases
    -- the entries of other keys keep their timestamps
    have hother : ∀ {item : Key × TrackedNeighbor} {seen : List Utc}, item ∈ s.entries →
        item.1 ≠ evidence.key →
        Times t item.2 (Function.update s.seen evidence.key seen item.1) := by
      intro item seen hitem hne
      rw [Function.update_of_ne hne]
      exact h item hitem
    cases hcases with
    | @broken existing hget hadd =>
      refine iff_of_false (fun hall => ?_) fun horder => ?_
      · have htimes := hall _ (Dict.mem_of_get (Dict.get_set_self _ _ _))
        cases hadd.symm.trans htimes.expires
      · rw [hadd] at horder
        cases (horder existing hget).2
    | @repeated existing expiresAt lastEmitted output hget hadd houtput =>
      have htimes := h _ (Dict.mem_of_get hget)
      have hlast : lastEmitted = existing.lastEmitted ∨ lastEmitted = evidence.observedAt :=
        houtput.imp And.left And.left
      rw [hget, hadd, Option.isSome_some, if_pos rfl]
      constructor
      · intro hall existing' hexisting'
        cases hexisting'
        have hnew := hall _ (mem_moveToEnd.mpr (.inr rfl))
        simp only [Function.update_self] at hnew
        exact ⟨hnew.last.2 (List.mem_append_left _ htimes.last.1), rfl⟩
      · intro horder item hitem
        rcases mem_moveToEnd.mp hitem with ⟨hitem, hne⟩ | rfl
        · exact hother hitem hne
        · simp only [Function.update_self]
          exact htimes.later (horder existing rfl).1 hadd hlast
    | refused hget _ =>
      refine iff_of_true (fun item hitem => hother hitem ?_) fun existing hexisting => ?_
      · intro heq
        exact Dict.get_eq_none.mp hget (heq ▸ List.mem_map_of_mem hitem)
      · cases hget.symm.trans hexisting
    | @inserted expiresAt tracked hget hadd htracked =>
      refine iff_of_true (fun item hitem => ?_) fun existing hexisting => ?_
      · rcases mem_filter_concat.mp ((touch_sublist _ _ _).subset hitem) with ⟨hitem, hne⟩ | rfl
        · exact hother hitem hne
        · rw [hget, Option.isSome_none, if_neg Bool.false_ne_true, htracked]
          simp only [Function.update_self]
          exact times_new hadd
      · cases hget.symm.trans hexisting

/-! ## Main theorem -/

/-- In a run of a new tracker the times of all neighbors are right in every state exactly when every
call is in order. -/
theorem times_consistent_iff (t : NeighborTracker) (calls : List Call) :
    (∀ front, front <+: calls → ∀ s, Machine.run (timed t) .start front = some s → Consistent t s) ↔
      Machine.Along (timed t) (InOrder t) .start calls := by
  have hrun : ∀ s : Timed, ∃ s', Machine.run (timed t) s calls = some s' := by
    intro s
    induction calls generalizing s with
    | nil => exact ⟨s, rfl⟩
    | cons call calls ih =>
      obtain ⟨s', hs'⟩ := ih (timedStep t s call)
      exact ⟨s', Machine.run_cons.mpr ⟨_, rfl, hs'⟩⟩
  obtain ⟨s', hs'⟩ := hrun .start
  refine Machine.throughout_iff (I := fun _ => True) (fun _ _ _ _ _ => trivial) ?_ trivial ?_ hs'
  · rintro s call _ - hconsistent ⟨⟩
    exact consistent_step_iff hconsistent call
  · exact fun _ h => absurd h List.not_mem_nil

/-- An old frame after a poll: the neighbor was seen last before it was seen first. -/
theorem not_times_consistent : ¬ ∀ (t : NeighborTracker) (calls : List Call) (s : Timed),
    Machine.run (timed t) .start calls = some s → Consistent t s := by
  intro h
  let evidence (observedAt : Utc) : NeighborEvidence := {
    address := str "10.0.0.10"
    macAddress := some (str "00:11:22:33:44:55")
    interface := str "eth0"
    state := str "reachable"
    source := str "passive.arp"
    observedAt := observedAt
    operation := none
    interface_ne := by decide
    source_ne := by decide
    state_valid := by decide }
  let poll := evidence ⟨10, by decide⟩
  let frame := evidence ⟨5, by decide⟩
  let t : NeighborTracker := ⟨1, 0, 1, by decide, by decide⟩
  have hconsistent := h t [.observe poll, .observe frame] _ rfl
  have htracked : (timedStep t (timedStep t .start (.observe poll)) (.observe frame)).entries =
      [(frame.key, ⟨frame, poll.observedAt, frame.observedAt, poll.observedAt,
        ⟨6, by decide⟩⟩)] := rfl
  have htimes := hconsistent _ (htracked ▸ List.mem_cons_self)
  have hle : poll.observedAt ≤ frame.observedAt := htimes.emitted.1.trans htimes.emitted.2
  exact absurd hle (by decide)

end FieldDiscovery.Passive.Neighbor
