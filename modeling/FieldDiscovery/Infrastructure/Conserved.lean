import FieldDiscovery.Infrastructure.Cells

/-!
# Infrastructure evidence is conserved

Each record that a row maps to is one entry (`mappedEntries`), and the model regroups the entries of
all rows and of the bridge tables (`infrastructureModel_regrouped`).
-/

open List

namespace FieldDiscovery.Infrastructure

open Py Repository

section

variable (std : Stdlib) (horizon : Horizon) (aliases : Dict Str (List Str))

/-- The entries of the records that a row maps to outside bridge tables. -/
def mappedEntries (row : FactRow) : Except Exc (List Entry) := do
  match ← payloadOf std row with
  | none => .ok []
  | some (payload, target) =>
    (recordsOf std row payload).mapM (entryOf std horizon aliases row target)

/-- The entries of the bridge tables of the rows. -/
def bridgeEntries (rows : List FactRow) : Except Exc (List Entry) := do
  let observed ← rows.mapM (observe std horizon aliases)
  let paired ← pairBridge std horizon aliases (observed.flatMap Outcome.bridge)
  .ok (paired.flatMap Outcome.entries)

/-- The target of a row; a malformed row has none. -/
def targetOf (row : FactRow) : Option Str :=
  match payloadOf std row with
  | .ok (some (_, target)) => some target
  | _ => none

end

variable {std : Stdlib} {horizon : Horizon} {aliases : Dict Str (List Str)}

/-! ## One row -/

/-- What one pass through the loop does. -/
theorem observe_cases {row : FactRow} {o : Outcome}
    (h : observe std horizon aliases row = .ok o) :
    (payloadOf std row = .ok none ∧
      o = { quality := [.malformedCollectorObservation row.factType] }) ∨
    ∃ payload target entries, payloadOf std row = .ok (some (payload, target)) ∧
      (recordsOf std row payload).mapM (entryOf std horizon aliases row target) = .ok entries ∧
      o.entries = entries ∧
      o.bridge = (if startsWith "snmp.bridge." row.factType then
        [bridgeFact std row payload target] else []) ∧
      ∀ q ∈ o.quality, q = .unattached target (devicesOf aliases target) ∨
        q = .unmappedSshFact target row.factType := by
  unfold observe at h
  obtain ⟨found, hfound, h⟩ := Except.bind_eq_ok.mp h
  cases found with
  | none =>
    cases h
    exact .inl ⟨hfound, rfl⟩
  | some found =>
    obtain ⟨payload, target⟩ := found
    obtain ⟨entries, hentries, h⟩ := Except.bind_eq_ok.mp h
    cases h
    refine .inr ⟨payload, target, entries, hfound, hentries, rfl, rfl, fun q hq => ?_⟩
    simp only [mem_append] at hq
    rcases hq with hq | hq
    · split at hq
      · exact absurd hq not_mem_nil
      · exact .inl (mem_singleton.mp hq)
    · split at hq
      · exact .inr (mem_singleton.mp hq)
      · exact absurd hq not_mem_nil

theorem mappedEntries_eq {row : FactRow} {o : Outcome}
    (h : observe std horizon aliases row = .ok o) :
    mappedEntries std horizon aliases row = .ok o.entries := by
  unfold mappedEntries
  rcases observe_cases h with ⟨hnone, rfl⟩ | ⟨payload, target, entries, hsome, hentries, rfl, -⟩
  · rw [hnone]
    rfl
  · rw [hsome]
    exact hentries

theorem entryOf_group {row : FactRow} {target : Str} {record : Record} {e : Entry}
    (h : entryOf std horizon aliases row target record = .ok e) :
    e.group.target = target ∧ e.group.device = deviceKey aliases target := by
  unfold entryOf at h
  obtain ⟨field, -, h⟩ := Except.bind_eq_ok.mp h
  cases h
  exact ⟨rfl, rfl⟩

theorem observe_entries {row : FactRow} {o : Outcome}
    (h : observe std horizon aliases row = .ok o) :
    ∀ e ∈ o.entries, targetOf std row = some e.group.target ∧
      e.group.device = deviceKey aliases e.group.target := by
  intro e he
  rcases observe_cases h with ⟨-, rfl⟩ | ⟨payload, target, entries, hsome, hentries, rfl, -⟩
  · exact absurd he not_mem_nil
  · obtain ⟨record, -, hentry⟩ := (Except.mapM_eq_ok.mp hentries).exists_of_mem_right he
    obtain ⟨htarget, hdevice⟩ := entryOf_group hentry
    unfold targetOf
    rw [hsome, htarget, hdevice]
    exact ⟨rfl, rfl⟩

theorem observe_bridge {row : FactRow} {o : Outcome}
    (h : observe std horizon aliases row = .ok o) :
    ∀ fact ∈ o.bridge, targetOf std row = some fact.target := by
  intro fact hfact
  rcases observe_cases h with ⟨-, rfl⟩ | ⟨payload, target, entries, hsome, -, -, hbridge, -⟩
  · exact absurd hfact not_mem_nil
  · rw [hbridge] at hfact
    unfold targetOf
    rw [hsome]
    split at hfact
    · rw [mem_singleton.mp hfact]
      rfl
    · exact absurd hfact not_mem_nil

/-! ## The bridge tables -/

theorem pairFact_entries {target source observedAt : Str} {facts : Dict Str Json}
    {fact : Str × Json} {o : Outcome}
    (h : pairFact std horizon aliases target source observedAt facts fact = .ok o) :
    ∀ e ∈ o.entries, e.group.device = deviceKey aliases e.group.target := by
  intro e he
  unfold pairFact at h
  split at h
  · cases h
    exact absurd he not_mem_nil
  · simp only at h
    split at h
    · cases h
      exact absurd he not_mem_nil
    · obtain ⟨learned, -, h⟩ := Except.bind_eq_ok.mp h
      obtain ⟨status, -, h⟩ := Except.bind_eq_ok.mp h
      cases h
      rcases mem_cons.mp he with rfl | he
      · rfl
      · rw [mem_singleton.mp he]

theorem pairBridge_entries {bridge : List BridgeFact} {paired : List Outcome}
    (h : pairBridge std horizon aliases bridge = .ok paired) :
    ∀ o ∈ paired, ∀ e ∈ o.entries, e.group.device = deviceKey aliases e.group.target := by
  intro o ho
  unfold pairBridge at h
  obtain ⟨tables, htables, h⟩ := Except.bind_eq_ok.mp h
  cases h
  obtain ⟨outcomes, houtcomes, ho⟩ := mem_flatten.mp ho
  obtain ⟨table, -, htable⟩ := (Except.mapM_eq_ok.mp htables).exists_of_mem_right houtcomes
  unfold pairTable at htable
  obtain ⟨fact, -, hfact⟩ := (Except.mapM_eq_ok.mp htable).exists_of_mem_right ho
  exact pairFact_entries hfact

/-! ## Conservation -/

/-- A model that is built is the assembly of the outcomes of its rows and of its bridge tables. -/
theorem infrastructureModel_eq_ok {rows : List FactRow} {m : InfrastructureModel} :
    infrastructureModel std horizon aliases rows = .ok m ↔
      ∃ observed paired staleAfterDays,
        rows.mapM (observe std horizon aliases) = .ok observed ∧
        pairBridge std horizon aliases (observed.flatMap Outcome.bridge) = .ok paired ∧
        days horizon.staleAfter = .ok staleAfterDays ∧
        m = assemble ((observed ++ paired).flatMap Outcome.entries)
          ((observed ++ paired).flatMap Outcome.quality) staleAfterDays := by
  unfold infrastructureModel
  simp only [Except.bind_eq_ok, Except.ok.injEq, exists_and_left, eq_comm (a := m)]

/-- The model of rows holds the evidence of their records and of their bridge tables. -/
theorem infrastructureModel_regrouped {rows : List FactRow} {m : InfrastructureModel}
    (h : infrastructureModel std horizon aliases rows = .ok m) : ∃ mapped bridge,
      rows.mapM (mappedEntries std horizon aliases) = .ok mapped ∧
      bridgeEntries std horizon aliases rows = .ok bridge ∧
      Regrouped (mapped.flatten ++ bridge) m := by
  obtain ⟨observed, paired, staleAfterDays, hobserved, hpaired, -, rfl⟩ :=
    infrastructureModel_eq_ok.mp h
  have hrows := Except.mapM_eq_ok.mp hobserved
  refine ⟨observed.map Outcome.entries, paired.flatMap Outcome.entries, ?_, ?_, ?_⟩
  · refine Except.mapM_eq_ok.mpr (forall₂_map_right_iff.mpr ?_)
    exact hrows.imp fun row o ho => mappedEntries_eq ho
  · unfold bridgeEntries
    rw [hobserved, Except.ok_bind, hpaired]
    rfl
  · rw [flatMap_append, flatMap_def]
    suffices hattached : Attached aliases (observed.flatMap Outcome.entries ++
        paired.flatMap Outcome.entries) from regrouped hattached _ _
    intro e he
    rcases mem_append.mp he with he | he
    · obtain ⟨o, ho, he⟩ := mem_flatMap.mp (flatMap_def .. ▸ he)
      obtain ⟨row, -, hrow⟩ := hrows.exists_of_mem_right ho
      exact (observe_entries hrow e he).2
    · obtain ⟨o, ho, he⟩ := mem_flatMap.mp he
      exact pairBridge_entries hpaired o ho e he

end FieldDiscovery.Infrastructure
