import FieldDiscovery.Infrastructure.Conserved
import FieldDiscovery.Lib.JsonPaired

/-!
# The order of the rows of different targets

The rows of one target never meet those of another: they make different groups and different bridge
tables, and entries of `data_quality` with different JSON texts (`Quality.target_eq`). So the model
does not depend on how the rows of different targets are interleaved
(`infrastructureModel_interleaved`, and `infrastructure_conserved` for a deployment).
-/

open List

namespace FieldDiscovery.Infrastructure

open Py Repository

/-! ## The texts of `data_quality` -/

namespace Quality

/-- The target that an entry names. -/
def target : Quality → Option Str
  | malformedCollectorObservation _ => none
  | unattached target _ | unmappedSshFact target _ | incompleteBridgeEntry target _ => some target

/-- The field whose key comes first. -/
def firstField : Quality → Str × Json
  | malformedCollectorObservation factType | unmappedSshFact _ factType =>
    (str "fact_type", .string factType)
  | unattached _ candidateDevices =>
    (str "candidate_devices", .list (candidateDevices.map .string))
  | incompleteBridgeEntry _ index => (str "index", .string index)

def kind : Quality → Str
  | malformedCollectorObservation _ => str "malformed_collector_observation"
  | unattached _ candidateDevices =>
    if candidateDevices = [] then str "unmatched_target" else str "ambiguous_target"
  | unmappedSshFact _ _ => str "unmapped_ssh_fact"
  | incompleteBridgeEntry _ _ => str "incomplete_bridge_entry"

/-- What is written after the kind. -/
def ending : Option Str → Str
  | none => str "\x7d"
  | some target => str ", \"target\": " ++ (quoted true target ++ str "\x7d")

theorem firstField_isTexts (q : Quality) : q.firstField.2.IsTexts := by
  cases q with
  | malformedCollectorObservation factType => exact .string factType
  | unattached target candidateDevices => exact .list candidateDevices
  | unmappedSshFact target factType => exact .string factType
  | incompleteBridgeEntry target index => exact .string index

theorem dumps_untargeted {key : Str} (hkey : key < str "kind") (kind : Str) (value : Json) :
    (Json.dict [(str "kind", .string kind), (key, value)]).dumps {} =
      str "\x7b" ++ (quoted true key ++ (str ": " ++ (value.dumps {} ++ (str ", \"kind\": " ++
        (quoted true kind ++ ending none))))) := by
  have hkind : (Json.string kind).dumps {} = quoted true kind := by rw [Json.dumps]
  have hsorted : ([(key, value), (str "kind", .string kind)].map Prod.fst).Pairwise (· < ·) := by
    simpa using hkey
  rw [Json.dumps_dict_perm (.swap _ _ _) hsorted]
  simp only [map_cons, map_nil, join, List.intercalate, intersperse, flatten_cons, flatten_nil,
    append_assoc, append_nil, hkind]
  rfl

theorem dumps_targeted {key : Str} (hkey : key < str "kind") (kind target : Str) (value : Json) :
    (Json.dict [(str "kind", .string kind), (str "target", .string target),
      (key, value)]).dumps {} = str "\x7b" ++ (quoted true key ++ (str ": " ++
        (value.dumps {} ++ (str ", \"kind\": " ++ (quoted true kind ++
          ending (some target)))))) := by
  have hkind : (Json.string kind).dumps {} = quoted true kind := by rw [Json.dumps]
  have htarget : (Json.string target).dumps {} = quoted true target := by rw [Json.dumps]
  have hsorted : ([(key, value), (str "kind", .string kind), (str "target", .string target)].map
      Prod.fst).Pairwise (· < ·) := by
    have hlast : str "kind" < str "target" := by decide
    simpa using ⟨⟨hkey, hkey.trans hlast⟩, hlast⟩
  rw [Json.dumps_dict_perm (((Perm.swap _ _ _).cons _).trans (.swap _ _ _)) hsorted]
  simp only [map_cons, map_nil, join, List.intercalate, intersperse, flatten_cons, flatten_nil,
    append_assoc, append_nil, hkind, htarget]
  rfl

/-- An entry as it is written. -/
theorem dumps_eq (q : Quality) : q.toJson.dumps {} = str "\x7b" ++ (quoted true q.firstField.1 ++
    (str ": " ++ (q.firstField.2.dumps {} ++ (str ", \"kind\": " ++
      (quoted true q.kind ++ ending q.target))))) := by
  cases q with
  | malformedCollectorObservation factType => exact dumps_untargeted (by decide) _ _
  | unattached target candidateDevices => exact dumps_targeted (by decide) _ _ _
  | unmappedSshFact target factType => exact dumps_targeted (by decide) _ _ _
  | incompleteBridgeEntry target index => exact dumps_targeted (by decide) _ _ _

/-- Entries with one text name one target. -/
theorem target_eq {q q' : Quality} (hq : ∀ t ∈ q.target, IsPaired t)
    (hq' : ∀ t ∈ q'.target, IsPaired t) (h : q.toJson.dumps {} = q'.toJson.dumps {}) :
    q.target = q'.target := by
  rw [dumps_eq, dumps_eq] at h
  have hvalue := append_cancel_left (quoted_append_inj (append_cancel_left h)).2
  have hkind := append_cancel_left
    (q.firstField_isTexts.append_inj q'.firstField_isTexts hvalue)
  have hending := (quoted_append_inj hkind).2
  cases ht : q.target with
  | none =>
    cases ht' : q'.target with
    | none => rfl
    | some t' =>
      rw [ht, ht'] at hending
      exact absurd (cons.inj hending).1 (by decide)
  | some t =>
    cases ht' : q'.target with
    | none =>
      rw [ht, ht'] at hending
      exact absurd (cons.inj hending).1 (by decide)
    | some t' =>
      rw [ht, ht'] at hending
      have hjoined := (quoted_append_inj (append_cancel_left hending)).1
      rw [(hq t ht).joinPairs_eq, (hq' t' ht').joinPairs_eq] at hjoined
      rw [hjoined]

end Quality

/-! ## Interleaved rows -/

variable {std : Stdlib} {horizon : Horizon} {aliases : Dict Str (List Str)}

/-- The targets of encodable payloads are paired. -/
theorem targetOf_paired {row : FactRow} (hrow : Encodable row.factValueJson) :
    ∀ t ∈ targetOf std row, IsPaired t := by
  intro t ht
  unfold targetOf payloadOf at ht
  cases hloads : Json.loads std.floatRepr row.factValueJson with
  | none =>
    rw [hloads] at ht
    cases ht
  | some v =>
    rw [hloads] at ht
    cases v with
    | dict payload =>
      simp only at ht
      split at ht
      · next found target heq =>
        cases ht
        split at heq
        · next hget =>
          cases heq
          exact loads_paired hrow hloads _ (Dict.mem_of_get hget) _ rfl
        · cases heq
      · cases ht
    | _ => cases ht

theorem observe_quality {row : FactRow} {o : Outcome}
    (h : observe std horizon aliases row = .ok o) :
    ∀ q ∈ o.quality, q.target = targetOf std row := by
  intro q hq
  unfold targetOf
  rcases observe_cases h with ⟨hnone, rfl⟩ | ⟨payload, target, entries, hsome, -, -, -, hquality⟩
  · rw [mem_singleton.mp hq, hnone]
    rfl
  · rw [hsome]
    rcases hquality q hq with rfl | rfl <;> rfl

/-- Entries of `data_quality` with one text come from rows of one target. -/
theorem sortedBy_quality {rows rows' : List FactRow} (h : SameClasses (targetOf std) rows rows')
    {f : FactRow → Outcome} (hf : ∀ row ∈ rows, observe std horizon aliases row = .ok (f row))
    (hrows : ∀ row ∈ rows, Encodable row.factValueJson) (rest : List Quality) :
    sortedBy (fun q => q.toJson.dumps {}) (rows.flatMap (fun row => (f row).quality) ++ rest) =
      sortedBy (fun q => q.toJson.dumps {})
        (rows'.flatMap (fun row => (f row).quality) ++ rest) := by
  refine sortedBy_eq_of_filter fun text => ?_
  rw [filter_append, filter_append]
  congr 1
  by_cases hnone : ∀ row ∈ rows, ∀ q ∈ (f row).quality, q.toJson.dumps {} ≠ text
  · refine h.filter_flatMap (k := none) fun row hrow q hq hdecide => ?_
    have htext : q.toJson.dumps {} = text := by simpa using hdecide
    exact absurd htext (hnone row hrow q hq)
  · push Not at hnone
    obtain ⟨row₀, hrow₀, q₀, hq₀, htext₀⟩ := hnone
    refine h.filter_flatMap (k := targetOf std row₀) fun row hrow q hq hdecide => ?_
    have htext : q.toJson.dumps {} = text := by simpa using hdecide
    have htarget := observe_quality (hf row hrow) q hq
    have htarget₀ := observe_quality (hf row₀ hrow₀) q₀ hq₀
    rw [← htarget, ← htarget₀]
    refine Quality.target_eq ?_ ?_ (htext.trans htext₀.symm)
    · rw [htarget]
      exact targetOf_paired (hrows row hrow)
    · rw [htarget₀]
      exact targetOf_paired (hrows row₀ hrow₀)

/-- Bridge tables are of one target. -/
theorem pairBridge_congr {rows rows' : List FactRow} (h : SameClasses (targetOf std) rows rows')
    {f : FactRow → Outcome} (hf : ∀ row ∈ rows, observe std horizon aliases row = .ok (f row)) :
    pairBridge std horizon aliases (rows.flatMap fun row => (f row).bridge) =
      pairBridge std horizon aliases (rows'.flatMap fun row => (f row).bridge) := by
  have hgroups : (groupBy BridgeFact.table (rows.flatMap fun row => (f row).bridge)).Perm
      (groupBy BridgeFact.table (rows'.flatMap fun row => (f row).bridge)) := by
    have hperm := h.groupBy_perm (f := fun row => (f row).bridge) (m := []) BridgeFact.table
      (fun table => some table.1) fun row hrow fact hfact => observe_bridge (hf row hrow) fact hfact
    rwa [append_nil, append_nil] at hperm
  unfold pairBridge
  rw [sortedBy_eq_of_perm hgroups (groupBy_keys_nodup _ _)]

/-- The groups of entries are of one target. -/
theorem groups_congr {rows rows' : List FactRow} (h : SameClasses (targetOf std) rows rows')
    {f : FactRow → Outcome} (hf : ∀ row ∈ rows, observe std horizon aliases row = .ok (f row))
    {rest : List Entry} (hrest : Attached aliases rest) :
    groups (rows.flatMap (fun row => (f row).entries) ++ rest) =
      groups (rows'.flatMap (fun row => (f row).entries) ++ rest) := by
  have hattached : Attached aliases (rows.flatMap (fun row => (f row).entries) ++ rest) := by
    intro e he
    rcases mem_append.mp he with he | he
    · obtain ⟨row, hrow, he⟩ := mem_flatMap.mp he
      exact (observe_entries (hf row hrow) e he).2
    · exact hrest e he
  have hgroups := h.groupBy_perm (f := fun row => (f row).entries) (m := rest) Entry.group
    (fun group => some group.target) fun row hrow e he => (observe_entries (hf row hrow) e he).1
  unfold groups
  refine sortedBy_eq_of_perm hgroups ?_
  rw [nodup_map_iff_inj_on (groupBy_keys_nodup _ _).of_map]
  intro p hp p' hp' hrank
  refine inj_on_of_nodup_map (groupBy_keys_nodup Entry.group _) hp hp' ?_
  have haddress : p.1.address [] = p'.1.address [] := GroupKey.address_eq_of_rank hrank []
  exact group_eq_of_address hattached (mem_groupBy.mp hp).1 (mem_groupBy.mp hp').1 haddress

/-- The model does not depend on the order in which the rows of different targets are read. -/
theorem infrastructureModel_interleaved {rows rows' : List FactRow}
    (hrows : ∀ row ∈ rows, Encodable row.factValueJson)
    (h : SameClasses (targetOf std) rows rows') {m : InfrastructureModel}
    (hm : infrastructureModel std horizon aliases rows = .ok m) :
    infrastructureModel std horizon aliases rows' = .ok m := by
  obtain ⟨observed, paired, staleAfterDays, hobserved, hpaired, hdays, rfl⟩ :=
    infrastructureModel_eq_ok.mp hm
  -- the outcome of each row, which does not depend on the other rows
  obtain ⟨f, hf⟩ : ∃ f : FactRow → Outcome, ∀ row ∈ rows,
      observe std horizon aliases row = .ok (f row) := by
    refine ⟨fun row => (observe std horizon aliases row).toOption.getD {}, fun row hrow => ?_⟩
    obtain ⟨o, ho⟩ := Except.exists_mapM_eq_ok.mp ⟨observed, hobserved⟩ row hrow
    simp only [ho]
    rfl
  have hrun : ∀ l : List FactRow, (∀ row ∈ l, row ∈ rows) →
      l.mapM (observe std horizon aliases) = .ok (l.map f) := by
    intro l hl
    refine Except.mapM_eq_ok.mpr (forall₂_map_right_iff.mpr (forall₂_same.mpr fun row hrow => ?_))
    exact hf row (hl row hrow)
  have hobserved' := hrun rows' fun row hrow => h.mem_iff.mpr hrow
  obtain rfl : rows.map f = observed :=
    Except.ok.inj ((hrun rows fun _ => id).symm.trans hobserved)
  rw [flatMap_map] at hpaired
  refine infrastructureModel_eq_ok.mpr
    ⟨rows'.map f, paired, staleAfterDays, hobserved', ?_, hdays, ?_⟩
  · rw [flatMap_map, ← pairBridge_congr h hf]
    exact hpaired
  · have hattached : Attached aliases (paired.flatMap Outcome.entries) := by
      intro e he
      obtain ⟨o, ho, he⟩ := mem_flatMap.mp he
      exact pairBridge_entries hpaired o ho e he
    simp only [flatMap_append, flatMap_map]
    unfold assemble
    rw [groups_congr h hf hattached, sortedBy_quality h hf hrows]

/-! ## The model of a deployment -/

theorem selectObservations_encodable {db : ReportDb} {deploymentId : Int} {rows : List FactRow}
    (h : db.selectObservations deploymentId = .ok rows) :
    ∀ row ∈ rows, Encodable row.factValueJson := by
  intro row hrow
  obtain ⟨row', -, hfetched⟩ := (Except.mapM_eq_ok.mp h).exists_of_mem_right hrow
  unfold ReportDb.fetched at hfetched
  split at hfetched
  · next hencodable =>
    cases hfetched
    exact hencodable.2.1
  · cases hfetched

variable {db : ReportDb} {deploymentId : Int} {generatedAt : Datetime} {staleAfter : Int}
  {m : InfrastructureModel}

theorem buildInfrastructureModel_eq_ok :
    buildInfrastructureModel std db deploymentId generatedAt staleAfter = .ok m ↔
      ∃ generated rows, generatedAt.astimezone = some generated ∧
        db.selectObservations deploymentId = .ok rows ∧
        infrastructureModel std ⟨generated, staleAfter⟩
          (targetDevices (db.selectAliases deploymentId)) rows = .ok m := by
  unfold buildInfrastructureModel
  cases generatedAt.astimezone with
  | none => simp
  | some generated => simp [Except.bind_eq_ok]

/-- The model of a deployment holds the evidence of each record of its observations once, in the one
cell of its address, beside that of the bridge tables; and it is the model of the same rows in any
order that keeps the rows of each target in place. -/
theorem infrastructure_conserved
    (h : buildInfrastructureModel std db deploymentId generatedAt staleAfter = .ok m) :
    ∃ generated rows mapped bridge, generatedAt.astimezone = some generated ∧
      db.selectObservations deploymentId = .ok rows ∧
      rows.mapM (mappedEntries std ⟨generated, staleAfter⟩
        (targetDevices (db.selectAliases deploymentId))) = .ok mapped ∧
      bridgeEntries std ⟨generated, staleAfter⟩ (targetDevices (db.selectAliases deploymentId)) rows =
        .ok bridge ∧
      Regrouped (mapped.flatten ++ bridge) m ∧
      ∀ rows', SameClasses (targetOf std) rows rows' →
        infrastructureModel std ⟨generated, staleAfter⟩
          (targetDevices (db.selectAliases deploymentId)) rows' = .ok m := by
  obtain ⟨generated, rows, hgenerated, hrows, hm⟩ := buildInfrastructureModel_eq_ok.mp h
  obtain ⟨mapped, bridge, hmapped, hbridge, hregrouped⟩ := infrastructureModel_regrouped hm
  exact ⟨generated, rows, mapped, bridge, hgenerated, hrows, hmapped, hbridge, hregrouped,
    fun rows' hsame => infrastructureModel_interleaved (selectObservations_encodable hrows) hsame hm⟩

/-! ## A sample -/

/-- A standard library that shows a float as JSON writes it. -/
def sampleStdlib : Stdlib := ⟨id, fun _ => false, fun _ => none⟩

def sampleRow (factType value source : String) : FactRow :=
  ⟨1, str "network_device_target", none, str factType, str value, 1, false, str source,
    str "2026-07-15T11:00:00+00:00"⟩

/-- An entry of a bridge table, and two sources that disagree on the speed of an interface. -/
def sampleRows : List FactRow :=
  [sampleRow "snmp.bridge.mac" "\x7b\"target\":\"a\",\"index\":\"9\",\"value\":\"aa\"\x7d" "snmp",
    sampleRow "snmp.bridge.port" "\x7b\"target\":\"a\",\"index\":\"9\",\"value\":3\x7d" "snmp",
    sampleRow "snmp.interface.speed" "\x7b\"target\":\"a\",\"index\":\"1\",\"value\":1\x7d" "snmp",
    sampleRow "ssh.interface"
      "\x7b\"target\":\"a\",\"value\":\x7b\"port\":\"1\",\"speed\":2\x7d\x7d" "ssh"]

def sampleDb : ReportDb where
  observations := sampleRows.foldl (fun t row => t.insertOrIgnore row) .empty
  devices := .empty
  deviceAliases := .empty

/-- `2026-07-15T12:00:00+00:00` -/
def sampleTime : Datetime := ⟨63919713600000000, 0, by decide, zero_offset⟩

def sampleUtc : Utc := ⟨63919713600000000, by decide⟩

/-- The cell of an entry, its value and its source. -/
def Entry.said (e : Entry) : Address × Str × Str := (e.address, e.field.value.dumps {}, e.field.source)

/-- The cell of an interface. -/
def sampleCell (key field : String) : Address := ⟨.switchPorts, str "a", str key, str field⟩

/-- Both speeds stand in one cell, and the entry of the bridge table is evidence on its port. -/
theorem infrastructure_conserved_sample : ∃ m entries,
    buildInfrastructureModel sampleStdlib sampleDb 1 sampleTime (7 * 86400000000) = .ok m ∧
      Regrouped entries m ∧ entries.map Entry.said = [
        (sampleCell "1" "speed", str "1", str "snmp"), (sampleCell "1" "speed", str "2", str "ssh"),
        (sampleCell "bridge:3" "learned_mac", str "\"aa\"", str "snmp"),
        (sampleCell "bridge:3" "mapping_status", str "\"unresolved_bridge_port\"", str "snmp")] := by
  obtain ⟨m, hm⟩ := Except.exists_of_isOk
    (x := buildInfrastructureModel sampleStdlib sampleDb 1 sampleTime (7 * 86400000000))
    (by decide +kernel)
  obtain ⟨generated, rows, mapped, bridge, hgenerated, hrows, hmapped, hbridge, hregrouped, -⟩ :=
    infrastructure_conserved hm
  have hselected : sampleDb.selectObservations 1 = .ok sampleRows := by decide +kernel
  obtain rfl : rows = sampleRows := Except.ok.inj (hrows.symm.trans hselected)
  obtain rfl : generated = sampleUtc := Option.some.inj (hgenerated.symm.trans rfl)
  have hsaid : ((sampleRows.mapM (mappedEntries sampleStdlib ⟨sampleUtc, 7 * 86400000000⟩
      (targetDevices (sampleDb.selectAliases 1)))).toOption.bind fun mapped =>
        (bridgeEntries sampleStdlib ⟨sampleUtc, 7 * 86400000000⟩
          (targetDevices (sampleDb.selectAliases 1)) sampleRows).toOption.map fun bridge =>
            (mapped.flatten ++ bridge).map Entry.said) = some [
      (sampleCell "1" "speed", str "1", str "snmp"), (sampleCell "1" "speed", str "2", str "ssh"),
      (sampleCell "bridge:3" "learned_mac", str "\"aa\"", str "snmp"),
      (sampleCell "bridge:3" "mapping_status", str "\"unresolved_bridge_port\"", str "snmp")] := by
    decide +kernel
  rw [hmapped, hbridge] at hsaid
  exact ⟨m, mapped.flatten ++ bridge, hm, hregrouped, Option.some.inj hsaid⟩

end FieldDiscovery.Infrastructure
