import FieldDiscovery.Lib.Recent
import FieldDiscovery.Lib.Since
import FieldDiscovery.Lib.Sorted
import FieldDiscovery.Passive.Arp

/-!
# Tracked neighbors

`NeighborTracker`: one ordered map of neighbors, from which observations, conflicts and expiries are
emitted. `observe_cases` says once what a call can do; the invariants of the map and the laws about
what is emitted are read off it (`lifecycle`).
-/

namespace FieldDiscovery.Passive.Neighbor

open Py Recent Dhcp

/-! ## The tracker -/

/-- What an entry is filed under: address, MAC address and interface. -/
abbrev Key := Str × Option Str × Str

def NeighborEvidence.key (e : NeighborEvidence) : Key := (e.address, e.macAddress, e.interface)

/-- `_TrackedNeighbor` -/
structure TrackedNeighbor where
  evidence : NeighborEvidence
  firstSeen : Utc
  lastSeen : Utc
  lastEmitted : Utc
  expiresAt : Utc

/-- `NeighborTracker(...)`, with both spans in microseconds. -/
structure NeighborTracker where
  maxAge : Nat
  dedupeWindow : Nat
  maxEntries : Nat
  maxAge_pos : 0 < maxAge
  maxEntries_pos : 0 < maxEntries

/-- `self._entries` -/
abbrev Entries := Dict Key TrackedNeighbor

/-- `_observation` -/
def observation (tracked : TrackedNeighbor) : PassiveObservation :=
  let evidence := tracked.evidence
  { kind := str "neighbor_observation"
    fields := [
      (str "address", .string evidence.address),
      (str "mac_address", optional Json.string evidence.macAddress),
      (str "interface", .string evidence.interface),
      (str "state", .string evidence.state),
      (str "operation", optional Json.string evidence.operation),
      (str "first_seen", .string tracked.firstSeen.isoformat),
      (str "last_seen", .string tracked.lastSeen.isoformat)]
    source := evidence.source
    observedAt := some evidence.observedAt.stamp
    expiresAt := some tracked.expiresAt.stamp }

/-- `_conflict` -/
def conflict (kind : Str) (evidence : NeighborEvidence) (details : Fields) : PassiveObservation where
  kind := kind
  fields := [
    (str "address", .string evidence.address),
    (str "mac_address", optional Json.string evidence.macAddress),
    (str "interface", .string evidence.interface)] ++ details
  source := evidence.source
  observedAt := some evidence.observedAt.stamp

/-- The observation of an expiry. -/
def expiry (current : Utc) (tracked : TrackedNeighbor) : PassiveObservation where
  kind := str "neighbor_expired"
  fields := [
    (str "address", .string tracked.evidence.address),
    (str "mac_address", optional Json.string tracked.evidence.macAddress),
    (str "interface", .string tracked.evidence.interface),
    (str "last_seen", .string tracked.lastSeen.isoformat)]
  source := tracked.evidence.source
  observedAt := some current.stamp

/-- `prior_macs` -/
def priorMacs (entries : Entries) (evidence : NeighborEvidence) (mac : Str) : List Str :=
  sortedSet (entries.filterMap fun item => item.2.evidence.macAddress.filter fun m =>
    item.2.evidence.address = evidence.address ∧ item.2.evidence.interface = evidence.interface ∧
      m ≠ mac)

/-- `prior_addresses` -/
def priorAddresses (entries : Entries) (evidence : NeighborEvidence) (mac : Str) : List Str :=
  sortedSet ((entries.filter fun item => item.2.evidence.macAddress = some mac ∧
    item.2.evidence.interface = evidence.interface ∧
      item.2.evidence.address ≠ evidence.address).map fun item => item.2.evidence.address)

/-- The conflicts of evidence for a neighbor that is not tracked. -/
def conflicts (entries : Entries) (evidence : NeighborEvidence) : List PassiveObservation :=
  match evidence.macAddress with
  | none => []
  | some mac =>
    let macs := priorMacs entries evidence mac
    let addresses := priorAddresses entries evidence mac
    (if macs = [] then []
      else [conflict (str "neighbor_ip_reuse") evidence [
        (str "previous_macs", .list (macs.map .string)), (str "current_mac", .string mac)]]) ++
    (if addresses = [] then []
      else [conflict (str "neighbor_mac_movement") evidence [
        (str "previous_addresses", .list (addresses.map .string)),
        (str "current_address", .string evidence.address)]])

/-- `entries.move_to_end(key)`, for an entry that has changed to `tracked`. -/
def moveToEnd (entries : Entries) (key : Key) (tracked : TrackedNeighbor) : Entries :=
  entries.filter (fun item => item.1 ≠ key) ++ [(key, tracked)]

section

variable (t : NeighborTracker) (entries : Entries)

/-- `observe`: the entries, and what is returned or raised. -/
def observe (evidence : NeighborEvidence) : Entries × Except Exc (List PassiveObservation) :=
  let now := evidence.observedAt
  let key := evidence.key
  match entries.get key with
  | some existing =>
    let existing := { existing with lastSeen := now }
    match now.add t.maxAge with
    | none => (entries.set key existing, .error .overflow)
    | some expiresAt =>
      let existing := { existing with expiresAt := expiresAt, evidence := evidence }
      if now.val < existing.lastEmitted.val + t.dedupeWindow then
        (moveToEnd entries key existing, .ok [])
      else
        let existing := { existing with lastEmitted := now }
        (moveToEnd entries key existing, .ok [observation existing])
  | none =>
    match now.add t.maxAge with
    | none => (entries, .error .overflow)
    | some expiresAt =>
      let tracked := ⟨evidence, now, now, now, expiresAt⟩
      (touch t.maxEntries entries (key, tracked),
        .ok (observation tracked :: conflicts entries evidence))

/-- `expire` -/
def expire (now : Stamp) : Entries × Except Exc (List PassiveObservation) :=
  match utc now with
  | .error e => (entries, .error e)
  | .ok current =>
    (entries.filter fun item => current < item.2.expiresAt,
      .ok ((entries.filter fun item => item.2.expiresAt ≤ current).map fun item =>
        expiry current item.2))

/-- The calls of a tracker. -/
inductive Call where
  | observe (evidence : NeighborEvidence)
  | expire (now : Stamp)

def step : Call → Entries × Except Exc (List PassiveObservation)
  | .observe evidence => observe t entries evidence
  | .expire now => expire entries now

end

/-- What a call emits; a call that raises emits nothing. -/
def emitted : Except Exc (List PassiveObservation) → List PassiveObservation
  | .ok observations => observations
  | .error _ => []

/-- The entries and all that was emitted, after some calls of a new tracker. -/
def run (t : NeighborTracker) (calls : List Call) : Entries × List PassiveObservation :=
  calls.foldl (fun s call =>
    let result := step t s.1 call
    (result.1, s.2 ++ emitted result.2)) ([], [])

/-! ## What a call can do -/

variable {t : NeighborTracker} {entries : Entries}

/-- The cases of `observe`, each with what it changes. -/
inductive Observe (t : NeighborTracker) (entries : Entries) (evidence : NeighborEvidence) :
    Entries → Except Exc (List PassiveObservation) → Prop where
  /-- The expiry of a tracked neighbor overflows: it has been seen, and nothing else. -/
  | broken {existing : TrackedNeighbor} : entries.get evidence.key = some existing →
      evidence.observedAt.add t.maxAge = none →
      Observe t entries evidence
        (entries.set evidence.key { existing with lastSeen := evidence.observedAt })
        (.error .overflow)
  | repeated {existing : TrackedNeighbor} {expiresAt lastEmitted : Utc}
      {output : List PassiveObservation} : entries.get evidence.key = some existing →
      evidence.observedAt.add t.maxAge = some expiresAt →
      (lastEmitted = existing.lastEmitted ∧ output = [] ∨ lastEmitted = evidence.observedAt ∧
        output = [observation
          ⟨evidence, existing.firstSeen, evidence.observedAt, lastEmitted, expiresAt⟩]) →
      Observe t entries evidence
        (moveToEnd entries evidence.key
          ⟨evidence, existing.firstSeen, evidence.observedAt, lastEmitted, expiresAt⟩)
        (.ok output)
  | refused : entries.get evidence.key = none → evidence.observedAt.add t.maxAge = none →
      Observe t entries evidence entries (.error .overflow)
  | inserted {expiresAt : Utc} {tracked : TrackedNeighbor} : entries.get evidence.key = none →
      evidence.observedAt.add t.maxAge = some expiresAt →
      tracked = ⟨evidence, evidence.observedAt, evidence.observedAt, evidence.observedAt,
        expiresAt⟩ →
      Observe t entries evidence (touch t.maxEntries entries (evidence.key, tracked))
        (.ok (observation tracked :: conflicts entries evidence))

theorem observe_cases (evidence : NeighborEvidence) :
    Observe t entries evidence (observe t entries evidence).1 (observe t entries evidence).2 := by
  unfold observe
  simp only
  cases hget : entries.get evidence.key with
  | some existing =>
    cases hadd : evidence.observedAt.add t.maxAge with
    | none => exact .broken hget hadd
    | some expiresAt =>
      simp only
      split
      · exact .repeated hget hadd (.inl ⟨rfl, rfl⟩)
      · exact .repeated hget hadd (.inr ⟨rfl, rfl⟩)
  | none =>
    cases hadd : evidence.observedAt.add t.maxAge with
    | none => exact .refused hget hadd
    | some expiresAt => exact .inserted hget hadd rfl

/-! ## The map -/

/-- What holds of the entries at any time. -/
structure Filed (t : NeighborTracker) (entries : Entries) : Prop where
  nodup : entries.KeysNodup
  key_eq : ∀ item ∈ entries, item.1 = item.2.evidence.key
  bounded : entries.length ≤ t.maxEntries

theorem mem_moveToEnd {key : Key} {tracked : TrackedNeighbor} {item : Key × TrackedNeighbor} :
    item ∈ moveToEnd entries key tracked ↔ (item ∈ entries ∧ item.1 ≠ key) ∨ item = (key, tracked) :=
  @mem_filter_concat _ _ _ entries (key, tracked) item

/-- An entry that moves to the end was there. -/
theorem length_moveToEnd {key : Key} {tracked existing : TrackedNeighbor}
    (h : entries.get key = some existing) :
    (moveToEnd entries key tracked).length ≤ entries.length := by
  have hlt : (entries.filter fun item => item.1 ≠ key).length < entries.length := by
    rw [List.length_filter_lt_length_iff_exists]
    exact ⟨_, Dict.mem_of_get h, by simp⟩
  unfold moveToEnd
  rw [List.length_append, List.length_singleton]
  omega

theorem Filed.moveToEnd (h : Filed t entries) {evidence : NeighborEvidence}
    {tracked existing : TrackedNeighbor} (hget : entries.get evidence.key = some existing)
    (htracked : tracked.evidence = evidence) :
    Filed t (moveToEnd entries evidence.key tracked) where
  nodup := keysNodup_filter_concat h.nodup (evidence.key, tracked)
  key_eq item hitem := by
    rcases mem_moveToEnd.mp hitem with ⟨hitem, -⟩ | rfl
    · exact h.key_eq item hitem
    · rw [htracked]
  bounded := (length_moveToEnd hget).trans h.bounded

theorem Filed.observe (h : Filed t entries) (evidence : NeighborEvidence) :
    Filed t (observe t entries evidence).1 := by
  have hcases := @observe_cases t entries evidence
  generalize (Neighbor.observe t entries evidence).1 = entries',
    (Neighbor.observe t entries evidence).2 = result at hcases
  cases hcases with
  | @broken existing hget _ =>
    refine ⟨h.nodup.set _ _, fun item hitem => ?_, ?_⟩
    · rcases Dict.mem_set hitem with hitem | rfl
      · exact h.key_eq item hitem
      · exact h.key_eq (evidence.key, existing) (Dict.mem_of_get hget)
    · have hmem : evidence.key ∈ entries.map Prod.fst :=
        List.mem_map_of_mem (Dict.mem_of_get hget)
      rw [← List.length_map Prod.fst, Dict.map_fst_set, if_pos hmem, List.length_map]
      exact h.bounded
  | repeated hget _ _ => exact h.moveToEnd hget rfl
  | refused => exact h
  | @inserted expiresAt tracked _ _ htracked =>
    refine ⟨keysNodup_touch h.nodup _ _, fun item hitem => ?_, length_touch_le h.bounded _⟩
    rcases mem_filter_concat.mp ((touch_sublist _ _ _).subset hitem) with ⟨hitem, -⟩ | rfl
    · exact h.key_eq item hitem
    · rw [htracked]

theorem Filed.filter (h : Filed t entries) (p : Key × TrackedNeighbor → Bool) :
    Filed t (entries.filter p) where
  nodup := h.nodup.sublist (List.filter_sublist.map _)
  key_eq item hitem := h.key_eq item (List.mem_of_mem_filter hitem)
  bounded := (List.length_filter_le _ _).trans h.bounded

theorem Filed.expire (h : Filed t entries) (now : Stamp) : Filed t (expire entries now).1 := by
  unfold Neighbor.expire
  split
  · exact h
  · exact h.filter _

/-! ## What is emitted -/

/-- The address, MAC address and interface that an observation names. -/
def subject (o : PassiveObservation) : List (Option Json) :=
  [o.fields.get (str "address"), o.fields.get (str "mac_address"), o.fields.get (str "interface")]

/-- The same of a key. -/
def Key.subject (key : Key) : List (Option Json) :=
  [some (.string key.1), some (optional Json.string key.2.1), some (.string key.2.2)]

theorem Key.subject_injective : Function.Injective Key.subject := by
  rintro ⟨address, mac, interface⟩ ⟨address', mac', interface'⟩ h
  simp only [Key.subject, List.cons.injEq, Option.some.injEq, Json.string.injEq, and_true] at h
  obtain ⟨rfl, hmac, rfl⟩ := h
  cases mac with
  | none =>
    cases mac' with
    | none => rfl
    | some m => cases hmac
  | some m =>
    cases mac' with
    | none => cases hmac
    | some m' =>
      obtain rfl := Json.string.inj hmac
      rfl

/-- An observation of a kind for a key. -/
def About (kind : Str) (o : PassiveObservation) (key : Key) : Prop :=
  o.kind = kind ∧ subject o = Key.subject key

/-- A `neighbor_observation` of a key makes it open. -/
abbrev Observes : PassiveObservation → Key → Prop := About (str "neighbor_observation")

/-- A `neighbor_expired` of a key closes it. -/
abbrev Expires : PassiveObservation → Key → Prop := About (str "neighbor_expired")

theorem subject_observation (tracked : TrackedNeighbor) :
    subject (observation tracked) = Key.subject tracked.evidence.key := rfl

theorem subject_expiry (current : Utc) (tracked : TrackedNeighbor) :
    subject (expiry current tracked) = Key.subject tracked.evidence.key := rfl

theorem kind_conflicts {evidence : NeighborEvidence} {o : PassiveObservation}
    (h : o ∈ conflicts entries evidence) :
    o.kind = str "neighbor_ip_reuse" ∨ o.kind = str "neighbor_mac_movement" := by
  unfold conflicts at h
  split at h
  · cases h
  · rcases List.mem_append.mp h with h | h
    · split at h
      · cases h
      · rw [List.mem_singleton.mp h]
        exact .inl rfl
    · split at h
      · cases h
      · rw [List.mem_singleton.mp h]
        exact .inr rfl

theorem conflicts_quiet {evidence : NeighborEvidence} {o : PassiveObservation}
    (h : o ∈ conflicts entries evidence) (key : Key) : ¬ Expires o key := by
  rintro ⟨hkind, -⟩
  rcases kind_conflicts h with hconflict | hconflict
  · rw [hconflict] at hkind
    revert hkind
    decide
  · rw [hconflict] at hkind
    revert hkind
    decide

theorem observation_quiet (tracked : TrackedNeighbor) (key : Key) :
    ¬ Expires (observation tracked) key := by
  rintro ⟨hkind, -⟩
  revert hkind
  change ¬ str "neighbor_observation" = str "neighbor_expired"
  decide

/-- `observe` emits no expiry. -/
theorem observe_quiet {evidence : NeighborEvidence} {o : PassiveObservation}
    (h : o ∈ emitted (observe t entries evidence).2) (key : Key) : ¬ Expires o key := by
  have hcases := @observe_cases t entries evidence
  generalize (observe t entries evidence).1 = entries',
    (observe t entries evidence).2 = result at hcases h
  cases hcases with
  | broken => exact absurd h List.not_mem_nil
  | repeated _ _ houtput =>
    rcases houtput with ⟨-, rfl⟩ | ⟨-, rfl⟩
    · exact absurd h List.not_mem_nil
    · rw [List.mem_singleton.mp h]
      exact observation_quiet _ key
  | refused => exact absurd h List.not_mem_nil
  | inserted =>
    rcases List.mem_cons.mp h with rfl | h
    · exact observation_quiet _ key
    · exact conflicts_quiet h key

/-- What is emitted is lawful, and every key that is tracked is open. -/
structure Disclosed (t : NeighborTracker) (s : Entries × List PassiveObservation) : Prop where
  filed : Filed t s.1
  lawful : Since.Lawful Observes Expires s.2
  tracked_open : ∀ item ∈ s.1, Since.Open Observes Expires s.2 item.1

theorem Disclosed.observe {s : Entries × List PassiveObservation} (h : Disclosed t s)
    (evidence : NeighborEvidence) : Disclosed t
      ((observe t s.1 evidence).1, s.2 ++ emitted (observe t s.1 evidence).2) := by
  refine ⟨h.filed.observe evidence, h.lawful.append_of_quiet fun o ho => observe_quiet ho, ?_⟩
  have hold : ∀ item ∈ s.1, Since.Open Observes Expires
      (s.2 ++ emitted (Neighbor.observe t s.1 evidence).2) item.1 := fun item hitem =>
    (h.tracked_open item hitem).append fun o ho => observe_quiet ho item.1
  have hcases := @observe_cases t s.1 evidence
  simp only
  generalize (Neighbor.observe t s.1 evidence).1 = entries',
    (Neighbor.observe t s.1 evidence).2 = result at hcases hold
  intro item hitem
  cases hcases with
  | @broken existing hget _ =>
    rcases Dict.mem_set hitem with hitem | rfl
    · exact hold item hitem
    · exact hold (evidence.key, existing) (Dict.mem_of_get hget)
  | @repeated existing _ _ _ hget _ _ =>
    rcases mem_moveToEnd.mp hitem with ⟨hitem, -⟩ | rfl
    · exact hold item hitem
    · exact hold (evidence.key, existing) (Dict.mem_of_get hget)
  | refused => exact hold item hitem
  | @inserted expiresAt tracked _ _ htracked =>
    rcases mem_filter_concat.mp ((touch_sublist _ _ _).subset hitem) with ⟨hitem, -⟩ | rfl
    · exact hold item hitem
    · refine Since.open_append_cons ⟨rfl, ?_⟩ fun o ho => conflicts_quiet ho _
      rw [subject_observation, htracked]

theorem Disclosed.expire {s : Entries × List PassiveObservation} (h : Disclosed t s) (now : Stamp) :
    Disclosed t ((expire s.1 now).1, s.2 ++ emitted (expire s.1 now).2) := by
  have hfiled := h.filed.expire now
  unfold Neighbor.expire at hfiled ⊢
  cases hutc : utc now with
  | error e =>
    simp only [emitted, List.append_nil]
    exact h
  | ok current =>
    rw [hutc] at hfiled
    simp only [emitted]
    -- an expiry names the key of its entry, and there is one entry for each key
    have hcloses : ∀ item ∈ s.1, ∀ key, Expires (expiry current item.2) key → key = item.1 := by
      rintro item hitem key ⟨-, hsubject⟩
      rw [subject_expiry, ← h.filed.key_eq item hitem] at hsubject
      exact (Key.subject_injective hsubject).symm
    refine ⟨hfiled, ?_, ?_⟩
    · refine h.lawful.append_closing ?_ ?_
      · intro o ho key hkey
        obtain ⟨item, hitem, rfl⟩ := List.mem_map.mp ho
        have hmem := List.mem_of_mem_filter hitem
        rw [hcloses item hmem key hkey]
        exact h.tracked_open item hmem
      · rw [List.pairwise_map]
        have hnodup : s.1.Pairwise fun a b => a.1 ≠ b.1 := List.pairwise_map.mp h.filed.nodup
        refine (hnodup.filter _).imp_of_mem fun {a b} ha hb hne key hkey hkey' => ?_
        exact hne ((hcloses a (List.mem_of_mem_filter ha) key hkey).symm.trans
          (hcloses b (List.mem_of_mem_filter hb) key hkey'))
    · intro item hitem
      have hmem := List.mem_of_mem_filter hitem
      refine (h.tracked_open item hmem).append ?_
      rintro o ho hkey
      obtain ⟨other, hother, rfl⟩ := List.mem_map.mp ho
      have hother' := List.mem_of_mem_filter hother
      have heq := hcloses other hother' item.1 hkey
      -- the entry of the key stays, and the entry of the expiry goes
      obtain rfl : item = other := List.inj_on_of_nodup_map h.filed.nodup hmem hother' heq
      have hlate := of_decide_eq_true (List.mem_filter.mp hitem).2
      have hdue := of_decide_eq_true (List.mem_filter.mp hother).2
      exact absurd hdue (not_le.mpr hlate)

theorem disclosed_run (t : NeighborTracker) (calls : List Call) : Disclosed t (run t calls) := by
  unfold run
  induction calls using List.reverseRecOn with
  | nil =>
    refine ⟨⟨List.nodup_nil, ?_, Nat.zero_le _⟩, Since.lawful_nil, ?_⟩
    · exact fun _ h => absurd h List.not_mem_nil
    · exact fun _ h => absurd h List.not_mem_nil
  | append_singleton calls call ih =>
    rw [List.foldl_append, List.foldl_cons, List.foldl_nil]
    cases call with
    | observe evidence => exact ih.observe evidence
    | expire now => exact ih.expire now

/-! ## Conflicts -/

/-- Keys that are tracked. -/
def tracked (entries : Entries) : List Key := entries.map Prod.fst

theorem mem_priorMacs (h : Filed t entries) {evidence : NeighborEvidence} {mac m : Str} :
    m ∈ priorMacs entries evidence mac ↔
      m ≠ mac ∧ (evidence.address, some m, evidence.interface) ∈ tracked entries := by
  unfold priorMacs tracked
  rw [mem_sortedSet, List.mem_filterMap, List.mem_map]
  constructor
  · rintro ⟨item, hitem, hm⟩
    obtain ⟨hmac, hmatch⟩ := Option.filter_eq_some_iff.mp hm
    obtain ⟨haddress, hinterface, hne⟩ := of_decide_eq_true hmatch
    refine ⟨hne, item, hitem, ?_⟩
    rw [h.key_eq item hitem, NeighborEvidence.key, haddress, hinterface, hmac]
  · rintro ⟨hne, item, hitem, hkey⟩
    rw [h.key_eq item hitem] at hkey
    obtain ⟨haddress, hrest⟩ := Prod.mk.inj hkey
    obtain ⟨hmac, hinterface⟩ := Prod.mk.inj hrest
    exact ⟨item, hitem, Option.filter_eq_some_iff.mpr
      ⟨hmac, decide_eq_true ⟨haddress, hinterface, hne⟩⟩⟩

theorem mem_priorAddresses (h : Filed t entries) {evidence : NeighborEvidence} {mac a : Str} :
    a ∈ priorAddresses entries evidence mac ↔
      a ≠ evidence.address ∧ (a, some mac, evidence.interface) ∈ tracked entries := by
  unfold priorAddresses tracked
  rw [mem_sortedSet, List.mem_map, List.mem_map]
  constructor
  · rintro ⟨item, hitem, rfl⟩
    obtain ⟨hmem, hmatch⟩ := List.mem_filter.mp hitem
    obtain ⟨hmac, hinterface, hne⟩ := of_decide_eq_true hmatch
    refine ⟨hne, item, hmem, ?_⟩
    rw [h.key_eq item hmem, NeighborEvidence.key, hinterface, hmac]
  · rintro ⟨hne, item, hitem, hkey⟩
    rw [h.key_eq item hitem] at hkey
    obtain ⟨haddress, hrest⟩ := Prod.mk.inj hkey
    obtain ⟨hmac, hinterface⟩ := Prod.mk.inj hrest
    refine ⟨item, List.mem_filter.mpr ⟨hitem, decide_eq_true ⟨hmac, hinterface, ?_⟩⟩, haddress⟩
    rw [haddress]
    exact hne

/-- The list is the sorted set of what has the property, and not empty. -/
structure Lists (l : List Str) (p : Str → Prop) : Prop where
  sorted : l.Pairwise (· < ·)
  mem_iff : ∀ a, a ∈ l ↔ p a
  nonempty : l ≠ []

theorem Lists.eq {l l' : List Str} {p : Str → Prop} (h : Lists l p) (h' : Lists l' p) : l = l' := by
  have hperm : l.Perm l' := by
    rw [List.perm_ext_iff_of_nodup (h.sorted.imp ne_of_lt) (h'.sorted.imp ne_of_lt)]
    intro a
    rw [h.mem_iff, h'.mem_iff]
  exact hperm.eq_of_pairwise' (h.sorted.imp le_of_lt) (h'.sorted.imp le_of_lt)

/-- An observation is emitted for a sorted set unless the set is empty. -/
theorem mem_unless_nil {l : List Str} {p : Str → Prop} (h : ∀ a, a ∈ sortedSet l ↔ p a)
    {o : PassiveObservation} (f : List Str → PassiveObservation) :
    o ∈ (if sortedSet l = [] then [] else [f (sortedSet l)]) ↔ ∃ l', Lists l' p ∧ o = f l' := by
  have hsorted : (sortedSet l).Pairwise (· < ·) :=
    (List.Pairwise.and (pairwise_sortedSet l) (nodup_sortedSet l)).imp fun h =>
      lt_of_le_of_ne h.1 h.2
  by_cases hnil : sortedSet l = []
  · rw [if_pos hnil]
    refine iff_of_false List.not_mem_nil ?_
    rintro ⟨l', hl', -⟩
    obtain ⟨a, ha⟩ := List.exists_mem_of_ne_nil l' hl'.nonempty
    rw [hl'.mem_iff, ← h, hnil] at ha
    exact List.not_mem_nil ha
  · rw [if_neg hnil, List.mem_singleton]
    constructor
    · rintro rfl
      exact ⟨_, ⟨hsorted, h, hnil⟩, rfl⟩
    · rintro ⟨l', hl', rfl⟩
      rw [hl'.eq ⟨hsorted, h, hnil⟩]

/-- A conflict over the address: another MAC address has it. -/
def IpReuse (entries : Entries) (evidence : NeighborEvidence) (o : PassiveObservation) : Prop :=
  ∃ mac macs, evidence.macAddress = some mac ∧
    Lists macs (fun m => m ≠ mac ∧
      (evidence.address, some m, evidence.interface) ∈ tracked entries) ∧
    o = conflict (str "neighbor_ip_reuse") evidence [
      (str "previous_macs", .list (macs.map .string)), (str "current_mac", .string mac)]

/-- A conflict over the MAC address: it has another address. -/
def MacMovement (entries : Entries) (evidence : NeighborEvidence) (o : PassiveObservation) : Prop :=
  ∃ mac addresses, evidence.macAddress = some mac ∧
    Lists addresses (fun a => a ≠ evidence.address ∧
      (a, some mac, evidence.interface) ∈ tracked entries) ∧
    o = conflict (str "neighbor_mac_movement") evidence [
      (str "previous_addresses", .list (addresses.map .string)),
      (str "current_address", .string evidence.address)]

theorem mem_conflicts (h : Filed t entries) {evidence : NeighborEvidence} {o : PassiveObservation} :
    o ∈ conflicts entries evidence ↔ IpReuse entries evidence o ∨ MacMovement entries evidence o := by
  unfold conflicts IpReuse MacMovement
  cases hmac : evidence.macAddress with
  | none => simp
  | some mac =>
    have hmacs := mem_unless_nil (o := o) (fun m => @mem_priorMacs _ _ h evidence mac m) fun macs =>
      conflict (str "neighbor_ip_reuse") evidence [
        (str "previous_macs", .list (macs.map .string)), (str "current_mac", .string mac)]
    have haddresses := mem_unless_nil (o := o) (fun a => @mem_priorAddresses _ _ h evidence mac a)
      fun addresses =>
      conflict (str "neighbor_mac_movement") evidence [
        (str "previous_addresses", .list (addresses.map .string)),
        (str "current_address", .string evidence.address)]
    rw [List.mem_append]
    refine or_congr (hmacs.trans ?_) (haddresses.trans ?_)
    · constructor
      · rintro ⟨macs, hlists, ho⟩
        exact ⟨mac, macs, rfl, hlists, ho⟩
      · rintro ⟨_, macs, ⟨⟩, hlists, ho⟩
        exact ⟨macs, hlists, ho⟩
    · constructor
      · rintro ⟨addresses, hlists, ho⟩
        exact ⟨mac, addresses, rfl, hlists, ho⟩
      · rintro ⟨_, addresses, ⟨⟩, hlists, ho⟩
        exact ⟨addresses, hlists, ho⟩

/-- What `observe` emits besides a `neighbor_observation` are conflicts of a neighbor that was not
tracked, if its expiry can be told. -/
theorem mem_observe {evidence : NeighborEvidence} {o : PassiveObservation}
    (ho : o.kind ≠ str "neighbor_observation") :
    o ∈ emitted (observe t entries evidence).2 ↔ evidence.key ∉ tracked entries ∧
      (evidence.observedAt.add t.maxAge).isSome ∧ o ∈ conflicts entries evidence := by
  have hcases := @observe_cases t entries evidence
  have hnot : ∀ tracked : TrackedNeighbor, o ≠ observation tracked := by
    rintro tracked rfl
    exact ho rfl
  unfold tracked
  rw [← Dict.get_eq_none]
  generalize (observe t entries evidence).1 = entries',
    (observe t entries evidence).2 = result at hcases
  cases hcases with
  | broken hget hadd =>
    rw [hget, hadd]
    simp [emitted]
  | repeated hget _ houtput =>
    rw [hget]
    rcases houtput with ⟨-, rfl⟩ | ⟨-, rfl⟩
    · simp [emitted]
    · simp [emitted, hnot]
  | refused _ hadd =>
    rw [hadd]
    simp [emitted]
  | inserted hget hadd _ =>
    rw [hget, hadd]
    simp [emitted, hnot]

/-! ## Main theorem -/

/-- After any calls, the entries are filed under the keys of their evidence, and there are not too
many; every expiry follows an observation of its key since the last expiry; and the next call emits a
conflict exactly when it observes a key that is not tracked, whose expiry can be told, and another
tracked key conflicts with it: then the conflict lists the sorted set of all of them. -/
theorem lifecycle (t : NeighborTracker) (calls : List Call) :
    (∀ item ∈ (run t calls).1, item.1 = item.2.evidence.key) ∧
    (run t calls).1.length ≤ t.maxEntries ∧
    Since.Lawful Observes Expires (run t calls).2 ∧
    ∀ (evidence : NeighborEvidence) (o : PassiveObservation),
      let entries := (run t calls).1
      let new := evidence.key ∉ tracked entries ∧ (evidence.observedAt.add t.maxAge).isSome
      (o ∈ emitted (observe t entries evidence).2 ∧ o.kind = str "neighbor_ip_reuse" ↔
        new ∧ IpReuse entries evidence o) ∧
      (o ∈ emitted (observe t entries evidence).2 ∧ o.kind = str "neighbor_mac_movement" ↔
        new ∧ MacMovement entries evidence o) := by
  have h := disclosed_run t calls
  refine ⟨h.filed.key_eq, h.filed.bounded, h.lawful, fun evidence o => ?_⟩
  have hkinds : str "neighbor_ip_reuse" ≠ str "neighbor_mac_movement" := by decide
  have hreuse : IpReuse (run t calls).1 evidence o → o.kind = str "neighbor_ip_reuse" := by
    rintro ⟨mac, macs, -, -, rfl⟩
    rfl
  have hmovement : MacMovement (run t calls).1 evidence o →
      o.kind = str "neighbor_mac_movement" := by
    rintro ⟨mac, addresses, -, -, rfl⟩
    rfl
  constructor
  · constructor
    · rintro ⟨ho, hkind⟩
      obtain ⟨huntracked, hadd, hmem⟩ := (mem_observe (by rw [hkind]; decide)).mp ho
      refine ⟨⟨huntracked, hadd⟩, ((mem_conflicts h.filed).mp hmem).resolve_right fun hmove => ?_⟩
      exact hkinds (hkind.symm.trans (hmovement hmove))
    · rintro ⟨⟨huntracked, hadd⟩, ho⟩
      have hkind := hreuse ho
      exact ⟨(mem_observe (by rw [hkind]; decide)).mpr
        ⟨huntracked, hadd, (mem_conflicts h.filed).mpr (.inl ho)⟩, hkind⟩
  · constructor
    · rintro ⟨ho, hkind⟩
      obtain ⟨huntracked, hadd, hmem⟩ := (mem_observe (by rw [hkind]; decide)).mp ho
      refine ⟨⟨huntracked, hadd⟩, ((mem_conflicts h.filed).mp hmem).resolve_left fun hre => ?_⟩
      exact hkinds ((hreuse hre).symm.trans hkind)
    · rintro ⟨⟨huntracked, hadd⟩, ho⟩
      have hkind := hmovement ho
      exact ⟨(mem_observe (by rw [hkind]; decide)).mpr
        ⟨huntracked, hadd, (mem_conflicts h.filed).mpr (.inr ho)⟩, hkind⟩

/-- Evidence of the last microsecond of the last year, whose expiry overflows. -/
theorem conflict_lost : ¬ ∀ (t : NeighborTracker) (calls : List Call) (evidence : NeighborEvidence),
    evidence.key ∉ tracked (run t calls).1 →
    (∃ mac m, evidence.macAddress = some mac ∧ m ≠ mac ∧
      (evidence.address, some m, evidence.interface) ∈ tracked (run t calls).1) →
    ∃ o ∈ emitted (observe t (run t calls).1 evidence).2, o.kind = str "neighbor_ip_reuse" := by
  intro h
  let evidence (mac : Str) (observedAt : Utc) : NeighborEvidence := {
    address := str "10.0.0.20"
    macAddress := some mac
    interface := str "eth0"
    state := str "reachable"
    source := str "passive.arp"
    observedAt := observedAt
    operation := none
    interface_ne := by decide
    source_ne := by decide
    state_valid := by decide }
  let old := evidence (str "00:11:22:33:44:01") ⟨0, by decide⟩
  let new := evidence (str "00:11:22:33:44:02") Utc.max
  let t : NeighborTracker := ⟨1, 0, 1, by decide, by decide⟩
  have htracked : tracked (run t [.observe old]).1 = [old.key] := rfl
  have hraises : (observe t (run t [.observe old]).1 new).2 = .error .overflow := rfl
  have huntracked : new.key ∉ tracked (run t [.observe old]).1 := by
    rw [htracked, List.mem_singleton]
    intro heq
    have hmac : str "00:11:22:33:44:02" = str "00:11:22:33:44:01" :=
      Option.some.inj (congrArg (fun key : Key => key.2.1) heq)
    revert hmac
    decide
  have hconflict : ∃ mac m, new.macAddress = some mac ∧ m ≠ mac ∧
      (new.address, some m, new.interface) ∈ tracked (run t [.observe old]).1 := by
    rw [htracked]
    exact ⟨_, str "00:11:22:33:44:01", rfl, by decide, List.mem_cons_self⟩
  obtain ⟨o, ho, -⟩ := h t [.observe old] new huntracked hconflict
  rw [hraises] at ho
  exact List.not_mem_nil ho

end FieldDiscovery.Passive.Neighbor
