import FieldDiscovery.Topology.Sound

/-!
# Retracted records

A DNS-SD record is retracted by a `goodbye` or an `expired` observation. `build_topology` never
compares observations of one record: it judges each announcement by its own validity.
-/

namespace FieldDiscovery.Topology

open Py Correlation Passive List

section

variable {rt : Runtime}

/-- The kinds of observation of DNS-SD records. -/
def mdnsKinds : List Str :=
  [str "mdns_service", str "mdns_instance", str "mdns_address", str "mdns_txt"]

/-- The observations are about one record: they agree but for their actions. -/
def SameRecord (o p : Seen) : Prop :=
  o.observation.kind = p.observation.kind ∧
    ∀ k, k ≠ str "action" → o.observation.fields.get k = p.observation.fields.get k

/-- The actions of an observation that retracts its record. -/
def retractions : List (Option Json) :=
  [some (.string (str "goodbye")), some (.string (str "expired"))]

/-- No later observation of the record is known at `as_of`, and this one retracts it. -/
structure Retracts (r : Reading) (gone : Seen) : Prop where
  mem : gone ∈ r.seen
  kind : gone.observation.kind ∈ mdnsKinds
  action : gone.observation.fields.get (str "action") ∈ retractions
  past : gone.observedAt ≤ r.asOf
  latest : ∀ o ∈ r.seen, SameRecord o gone → o.observedAt ≤ r.asOf →
    o.observedAt ≤ gone.observedAt

/-- An announcement of the record before it was retracted. -/
structure Announced (gone o : Seen) : Prop where
  record : SameRecord o gone
  announces : activeMdns o.observation.fields = true
  earlier : o.observedAt < gone.observedAt

/-- The item is such an announcement. -/
def Stale (gone : Seen) (i : Item) : Prop := ∃ o, i = .observation o ∧ Announced gone o

/-- Some edge rests on announcements of a retracted record alone. -/
def KeepsRetracted (rt : Runtime) (r : Reading) (subnets : List SubnetEvidence)
    (vlans : List VlanEvidence) (g : TopologyGraph) : Prop :=
  ∃ gone, Retracts r gone ∧ ∃ e ∈ g.edges, ∀ i ∈ r.items subnets vlans, ∀ e',
    Derives rt (r.context subnets vlans) i e' → e'.key = e.key → Stale gone i

/-- Whatever an announcement of a retracted record derives inside its validity, other active evidence
derives too. -/
def Corroborated (rt : Runtime) (r : Reading) (subnets : List SubnetEvidence)
    (vlans : List VlanEvidence) : Prop :=
  ∀ gone, Retracts r gone → ∀ o ∈ activeSeen r.asOf r.seen, Announced gone o → ∀ e,
    Derives rt (r.context subnets vlans) (.observation o) e →
    ∃ i ∈ r.items subnets vlans, ¬ Stale gone i ∧
      ∃ e', Derives rt (r.context subnets vlans) i e' ∧ e'.key = e.key

theorem keepsRetracted_iff {r : Reading} {subnets : List SubnetEvidence}
    {vlans : List VlanEvidence} :
    ¬ KeepsRetracted rt r subnets vlans (r.graph rt subnets vlans) ↔
      Corroborated rt r subnets vlans := by
  constructor
  · intro h gone hgone o ho hannounced e he
    have hi : Item.observation o ∈ r.items subnets vlans :=
      mem_items.mpr (Or.inr (Or.inr (Or.inr ⟨o, ho, rfl⟩)))
    obtain ⟨kept, hkept, -⟩ := complete hi he
    have hmem : kept ∈ (r.graph rt subnets vlans).edges.filter fun e' => e'.key = e.key := by
      rw [hkept]
      exact mem_cons_self
    obtain ⟨hedge, hkey⟩ := mem_filter.mp hmem
    by_contra hnone
    apply h
    refine ⟨gone, hgone, kept, hedge, ?_⟩
    intro i hi e' he' hkey'
    by_contra hstale
    exact hnone ⟨i, hi, hstale, e', he', hkey'.trans (of_decide_eq_true hkey)⟩
  · rintro h ⟨gone, hgone, e, he, hall⟩
    obtain ⟨i, hi, hderives⟩ := sound he
    obtain ⟨o, rfl, hannounced⟩ := hall i hi e hderives rfl
    have ho : o ∈ activeSeen r.asOf r.seen := by
      rcases mem_items.mp hi with hi | ⟨s, -, hi⟩ | ⟨v, -, hi⟩ | ⟨o', ho', hi⟩
      · cases hi
      · cases hi
      · cases hi
      · cases hi
        exact ho'
    obtain ⟨j, hj, hfresh, e', he', hkey⟩ := h gone hgone o ho hannounced e hderives
    exact hfresh (hall j hj e' he' hkey)

/-- No edge rests on announcements of a retracted record alone exactly when `build_topology` raises
or other evidence corroborates every such announcement that is still valid. -/
theorem buildTopology_retracts_iff (rt : Runtime) (observations : List PassiveObservation)
    (localIdentity : Str) (asOf : Option Stamp) (localLabel : Option Str)
    (subnets : List SubnetEvidence) (vlans : List VlanEvidence) :
    (∀ g r, buildTopology rt observations localIdentity asOf localLabel subnets vlans = .ok g →
      read rt observations localIdentity asOf localLabel = .ok r →
      ¬ KeepsRetracted rt r subnets vlans g) ↔
    ∀ r, read rt observations localIdentity asOf localLabel = .ok r →
      (∀ o ∈ activeSeen r.asOf r.seen,
        ∃ c, observationClaims rt (r.context subnets vlans) o = .ok c) →
      Corroborated rt r subnets vlans := by
  constructor
  · intro h r hread hall
    exact keepsRetracted_iff.mp (h _ r (buildTopology_eq_ok.mpr ⟨r, hread, hall, rfl⟩) hread)
  · intro h g r hg hread
    obtain ⟨r', hread', hall, rfl⟩ := buildTopology_eq_ok.mp hg
    cases hread.symm.trans hread'
    exact keepsRetracted_iff.mpr (h r hread hall)

end

/-! ## A record that says goodbye -/

/-- `seconds` after `1970-01-01T00:00:00+00:00`. -/
def later (seconds : Nat) (h : seconds ≤ 3600) : Utc :=
  ⟨epochDay * microsPerDay + seconds * 1000000,
    later_inCalendar h⟩

/-- A printer that announces its service, or says goodbye. -/
def printerRecord (action : String) (observed expires : Utc) : PassiveObservation where
  kind := str "mdns_service"
  fields := [(str "service_type", .string (str "_ipp._tcp.local")),
    (str "instance", .string (str "Printer._ipp._tcp.local")), (str "action", .string (str action))]
  source := str "mdns"
  observedAt := some observed.stamp
  expiresAt := some expires.stamp

/-- The announcement is valid for two minutes. -/
def announcement : Seen :=
  ⟨printerRecord "announce" (later 0 zero_le_hour) (later 120 (by decide)), later 0 zero_le_hour,
    some (later 120 (by decide))⟩

/-- The goodbye comes after ten seconds. -/
def goodbye : Seen :=
  ⟨printerRecord "goodbye" (later 10 ten_le_hour) (later 10 ten_le_hour), later 10 ten_le_hour,
    some (later 10 ten_le_hour)⟩

/-- The digests of the nodes. -/
def printerRuntime : Runtime := .ofDigests [
  (str "device:local:scanner",
    str "1a64901627a19a5601d5b218fe4086d38d1f0b0a263140618d8537ae8905b6fb"),
  (str "service:_ipp._tcp.local",
    str "199a23f3325600a7ede82b3c3eeb3b5182bf34690f395fb777318fd855f5f15c"),
  (str "service_instance:printer._ipp._tcp.local",
    str "3965a8644291d3bd30056004b6736218c808eb9d4cedb89fa1d3b647bf01a801")]

/-- The topology after twenty seconds. -/
def printerTopology : Except Exc TopologyGraph :=
  buildTopology printerRuntime [announcement.observation, goodbye.observation] (str "scanner")
    (some (later 20 (by decide)).stamp) none [] []

theorem look_printer {action : String} {observed expires : Utc} (h : observed ≤ expires) :
    look (printerRecord action observed expires) =
      .ok ⟨printerRecord action observed expires, observed, some expires⟩ := by
  have hvalid : validUntil expires.stamp observed = .ok ⟨expires, h⟩ := by
    unfold validUntil
    rw [utc_stamp, Except.ok_bind, dif_pos h]
  have hobserved : observedAt (printerRecord action observed expires) = .ok observed :=
    utc_stamp observed
  have hexpires : expiresAt (printerRecord action observed expires) observed =
      .ok (some expires) := by
    show (validUntil expires.stamp observed >>= _) = _
    rw [hvalid, Except.ok_bind]
  unfold look stamped lookAt
  simp only [hobserved, hexpires, Except.ok_bind]

/-- After the goodbye the topology still holds what the announcement alone derived. -/
theorem goodbye_ignored : ∃ g r, printerTopology = .ok g ∧
    read printerRuntime [announcement.observation, goodbye.observation] (str "scanner")
      (some (later 20 (by decide)).stamp) none = .ok r ∧
    KeepsRetracted printerRuntime r [] [] g := by
  have hedges : printerTopology.toOption.map (fun g => g.edges.length) = some 1 := by
    decide +kernel
  cases hrun : printerTopology with
  | error e =>
    rw [hrun] at hedges
    cases hedges
  | ok g =>
    obtain ⟨r, hread, -, hgraph⟩ := buildTopology_eq_ok.mp hrun
    have hasOf : r.asOf = later 20 (by decide) := by
      have hasOf : (read printerRuntime [announcement.observation, goodbye.observation]
          (str "scanner") (some (later 20 (by decide)).stamp) none).toOption.map Reading.asOf =
            some (later 20 (by decide)) := by decide +kernel
      rw [hread] at hasOf
      exact Option.some.inj hasOf
    have hseen : r.seen = [announcement, goodbye] := by
      have hlook := (read_eq_ok.mp hread).2
      have hannouncement : look announcement.observation = .ok announcement :=
        look_printer (by decide)
      have hgoodbye : look goodbye.observation = .ok goodbye := look_printer (by decide)
      rw [Except.mapM_cons_eq, hannouncement, Except.ok_bind, Except.mapM_cons_eq, hgoodbye,
        Except.ok_bind] at hlook
      exact (Except.ok.inj hlook).symm
    have hrecord : SameRecord announcement goodbye := by
      refine ⟨rfl, ?_⟩
      intro k hk
      simp only [announcement, goodbye, printerRecord, Dict.get, Ne.symm hk, if_false]
    refine ⟨g, r, rfl, hread, goodbye, ⟨?_, ?_, ?_, ?_, ?_⟩, ?_⟩
    · rw [hseen]
      simp
    · decide +kernel
    · exact mem_cons_self
    · rw [hasOf]
      decide
    · intro o ho _ _
      rw [hseen] at ho
      rcases mem_cons.mp ho with rfl | ho
      · decide
      · rw [mem_singleton.mp ho]
    · rw [hrun] at hedges
      obtain ⟨e, he⟩ := length_eq_one_iff.mp (Option.some.inj hedges)
      refine ⟨e, by rw [he]; exact mem_cons_self, ?_⟩
      intro i hi e' he' _
      rcases mem_items.mp hi with rfl | ⟨s, hs, -⟩ | ⟨v, hv, -⟩ | ⟨o, ho, rfl⟩
      · obtain ⟨c, hc, he'⟩ := he'
        cases hc
        cases he'
      · cases hs
      · cases hv
      · refine ⟨o, rfl, ?_⟩
        rw [hseen, hasOf] at ho
        obtain ⟨ho, hactive⟩ := mem_activeSeen.mp ho
        rcases mem_cons.mp ho with rfl | ho
        · exact ⟨hrecord, by decide +kernel, by decide⟩
        · rw [mem_singleton.mp ho] at hactive
          exact absurd hactive (by decide)

end FieldDiscovery.Topology
