import FieldDiscovery.Infrastructure.Interleaved

/-!
# Bridge tables

A MAC observation and a port observation of one table meet when the one has the index of the other.
`build_infrastructure_model` keeps the observations of a table in a `dict` by fact type and index,
so of several observations of one name only the last is paired, and a port without a value is none.
`bridgeKept_iff`: every MAC observation becomes evidence under each of its ports exactly when no
other observation of the table has the name of one of the two, and the port has a value.
-/

open List

namespace FieldDiscovery.Infrastructure

open Py Repository

/-! ## Sightings -/

/-- A piece of evidence, without what `_field` computes for it. -/
structure Sighting where
  address : Address
  value : Json
  source : Str
  observedAt : Str

def Entry.sighting (e : Entry) : Sighting :=
  ⟨e.address, e.field.value, e.field.source, e.field.observedAt⟩

/-- The evidence of a model. -/
def InfrastructureModel.sightings (m : InfrastructureModel) : List Sighting :=
  m.cells.flatMap fun cell =>
    cell.2.evidence.map fun f => ⟨cell.1, f.value, f.source, f.observedAt⟩

theorem Regrouped.sightings_perm {entries : List Entry} {m : InfrastructureModel}
    (h : Regrouped entries m) : m.sightings.Perm (entries.map Entry.sighting) := by
  have hcells : m.sightings.Perm ((m.cells.map Prod.fst).flatMap fun address =>
      (entries.filter fun e => decide (e.address = address)).map Entry.sighting) := by
    rw [flatMap_map]
    refine Perm.flatMap_left _ fun cell hcell => ?_
    refine ((h.evidence cell hcell).map _).trans (.of_eq ?_)
    rw [map_map]
    refine map_congr_left fun e he => ?_
    rw [← of_decide_eq_true (mem_filter.mp he).2]
    rfl
  refine hcells.trans ?_
  rw [← map_flatMap]
  exact (flatMap_filter_perm Entry.address h.addresses h.placed).map _

section

variable (std : Stdlib)

/-- The bridge observations of the rows. -/
def bridgeFacts (rows : List FactRow) : List BridgeFact :=
  rows.flatMap fun row =>
    match payloadOf std row with
    | .ok (some (payload, target)) =>
      if startsWith "snmp.bridge." row.factType then [bridgeFact std row payload target] else []
    | _ => []

/-- The records of the rows outside bridge tables, as evidence. -/
def mappedSightings (rows : List FactRow) : List Sighting :=
  rows.flatMap fun row =>
    match payloadOf std row with
    | .ok (some (payload, target)) => (recordsOf std row payload).map fun record =>
      ⟨⟨record.place, target, record.key, record.fieldName⟩, record.value, row.source,
        row.observedAt⟩
    | _ => []

end

/-! ## Observations that belong together -/

namespace BridgeFact

/-- A MAC observation, as the code tells it. -/
def isMac (f : BridgeFact) : Bool := contains (str ".mac:") f.name

/-- The index in the name of a MAC observation. -/
def index (f : BridgeFact) : Str := afterFirst (cp ':') f.name

/-- The same fact type and index in the same table. -/
def SameName (f g : BridgeFact) : Prop := g.table = f.table ∧ g.name = f.name

/-- The port observation with the index of a MAC observation, in the same table. -/
def IsPortOf (p f : BridgeFact) : Prop :=
  p.table = f.table ∧ p.name = str "snmp.bridge.port:" ++ f.index

instance (f g : BridgeFact) : Decidable (f.SameName g) := inferInstanceAs (Decidable (_ ∧ _))

instance (p f : BridgeFact) : Decidable (p.IsPortOf f) := inferInstanceAs (Decidable (_ ∧ _))

/-- The evidence that a MAC observation is due under a port. -/
def learned (std : Stdlib) (f : BridgeFact) (port : Json) : Sighting :=
  ⟨⟨.switchPorts, f.target, str "bridge:" ++ port.toStr std.printable, str "learned_mac"⟩, f.value,
    f.source, f.observedAt⟩

end BridgeFact

/-- The evidence that all MAC observations are due under all their ports. -/
def dueSightings (std : Stdlib) (facts : List BridgeFact) : List Sighting :=
  facts.flatMap fun f =>
    if f.isMac then (facts.filter fun p => decide (p.IsPortOf f)).map fun p => f.learned std p.value
    else []

/-- What it is to keep the evidence of the bridge tables. -/
structure BridgeKept (std : Stdlib) (rows : List FactRow) (m : InfrastructureModel) : Prop where
  /-- The model has it beside the evidence of the other records. -/
  learned :
    (mappedSightings std rows ++ dueSightings std (bridgeFacts std rows)).Subperm m.sightings
  /-- A MAC observation without a port is disclosed. -/
  disclosed : ∀ f ∈ bridgeFacts std rows, f.isMac = true →
    (∀ p ∈ bridgeFacts std rows, ¬ p.IsPortOf f) →
      .incompleteBridgeEntry f.target f.index ∈ m.dataQuality

/-- Each MAC observation that has a port is the only observation of its name, and so is the port,
which has a value. -/
def Unrepeated (facts : List BridgeFact) : Prop :=
  ∀ f ∈ facts, f.isMac = true → ∀ p ∈ facts, p.IsPortOf f →
    (facts.filter fun g => decide (f.SameName g)).length = 1 ∧
      (facts.filter fun g => decide (p.SameName g)).length = 1 ∧ p.value ≠ .null

/-! ## Names in a `dict` -/

section

variable {table : List BridgeFact}

theorem factsOf_snoc (table : List BridgeFact) (f : BridgeFact) :
    factsOf (table ++ [f]) = (factsOf table).set f.name f.value := by
  unfold factsOf
  rw [foldl_append, foldl_cons, foldl_nil]

/-- The last observation of a name stands for it. -/
theorem factsOf_get (table : List BridgeFact) (name : Str) : (factsOf table).get name =
    (table.filter fun f => decide (f.name = name)).getLast?.map BridgeFact.value := by
  induction table using List.reverseRecOn with
  | nil => rfl
  | append_singleton table f ih =>
    rw [factsOf_snoc, Dict.get_set, filter_append]
    by_cases hname : f.name = name
    · have hone : [f].filter (fun f => decide (f.name = name)) = [f] := by simp [hname]
      rw [if_pos hname, hone, getLast?_concat]
      rfl
    · have hnone : [f].filter (fun f => decide (f.name = name)) = [] := by simp [hname]
      rw [if_neg hname, hnone, append_nil, ih]

theorem factsOf_keysNodup (table : List BridgeFact) : (factsOf table).KeysNodup := by
  induction table using List.reverseRecOn with
  | nil => exact nodup_nil
  | append_singleton table f ih =>
    rw [factsOf_snoc]
    exact ih.set _ _

/-- The value that stands for a name. -/
def lastValue (group : Str × List BridgeFact) : Json :=
  (group.2.getLast?.map BridgeFact.value).getD .null

theorem factsOf_perm (table : List BridgeFact) :
    (factsOf table).Perm ((groupBy BridgeFact.name table).map fun g => (g.1, lastValue g)) := by
  have hnodup : Dict.KeysNodup
      ((groupBy BridgeFact.name table).map fun g => (g.1, lastValue g)) := by
    unfold Dict.KeysNodup
    rw [map_map]
    exact groupBy_keys_nodup _ _
  refine Dict.perm_of_get (factsOf_keysNodup table) hnodup fun name => ?_
  rw [factsOf_get]
  by_cases hname : name ∈ table.map BridgeFact.name
  · have hmem : (name, table.filter fun f => decide (f.name = name)) ∈
        groupBy BridgeFact.name table := mem_groupBy.mpr ⟨hname, rfl⟩
    have hget := Dict.get_of_mem hnodup (mem_map_of_mem
      (f := fun g : Str × List BridgeFact => (g.1, lastValue g)) hmem)
    rw [hget]
    unfold lastValue
    cases hlast : (table.filter fun f => decide (f.name = name)).getLast? with
    | none =>
      obtain ⟨f, hf, heq⟩ := mem_map.mp hname
      have hnil := getLast?_eq_none_iff.mp hlast
      have hf' : f ∈ table.filter fun f => decide (f.name = name) :=
        mem_filter.mpr ⟨hf, decide_eq_true heq⟩
      rw [hnil] at hf'
      exact absurd hf' not_mem_nil
    | some f => rfl
  · have hnone : Dict.get ((groupBy BridgeFact.name table).map fun g => (g.1, lastValue g)) name =
        none := by
      rw [Dict.get_eq_none, map_map]
      exact fun h => hname (mem_groupBy_keys.mp h)
    have hnil : (table.filter fun f => decide (f.name = name)) = [] :=
      filter_eq_nil_iff.mpr fun f hf heq => hname (mem_map.mpr ⟨f, hf, of_decide_eq_true heq⟩)
    rw [hnone, hnil]
    rfl

end

/-! ## What the pairing keeps -/

def isLearned (s : Sighting) : Bool := decide (s.address.field = str "learned_mac")

section

variable (std : Stdlib)

/-- The observations of the port of a name, among those of its table. -/
def portsOf (table : List BridgeFact) (name : Str) : List BridgeFact :=
  table.filter fun p => decide (p.name = str "snmp.bridge.port:" ++ afterFirst (cp ':') name)

/-- What the pairing makes of one name of a table. -/
def pairedSightings (key : Str ×ₗ Str ×ₗ Str) (facts : Dict Str Json) (fact : Str × Json) :
    List Sighting :=
  if contains (str ".mac:") fact.1 then
    match portOf facts (afterFirst (cp ':') fact.1) with
    | .null => []
    | port => [BridgeFact.learned std ⟨key.1, key.2.1, key.2.2, fact.1, fact.2⟩ port]
  else []

/-- What the pairing makes of the observations of one name. -/
def keptOf (table : (Str ×ₗ Str ×ₗ Str) × List BridgeFact) (group : Str × List BridgeFact) :
    List Sighting :=
  pairedSightings std table.1 (factsOf table.2) (group.1, lastValue group)

/-- What is due to the observations of one name. -/
def dueOf (table : (Str ×ₗ Str ×ₗ Str) × List BridgeFact) (group : Str × List BridgeFact) :
    List Sighting :=
  if contains (str ".mac:") group.1 then
    group.2.flatMap fun f => (portsOf table.2 group.1).map fun p => f.learned std p.value
  else []

end

variable {std : Stdlib} {horizon : Horizon} {aliases : Dict Str (List Str)}

theorem fieldOf_spec {value unit : Json} {source observedAt : Str} {confidence : ℚ} {f : Field}
    (h : fieldOf std horizon value unit source observedAt confidence = .ok f) :
    f.value = value ∧ f.source = source ∧ f.observedAt = observedAt := by
  unfold fieldOf at h
  obtain ⟨ageDays, -, h⟩ := Except.bind_eq_ok.mp h
  obtain ⟨limit, -, h⟩ := Except.bind_eq_ok.mp h
  cases h
  exact ⟨rfl, rfl, rfl⟩

variable (std) in
/-- A name that is paired with no port makes nothing. -/
theorem pairedSightings_of_null (key : Str ×ₗ Str ×ₗ Str) {facts : Dict Str Json}
    {fact : Str × Json} (h : portOf facts (afterFirst (cp ':') fact.1) = .null) :
    pairedSightings std key facts fact = [] := by
  unfold pairedSightings
  rw [h]
  exact ite_self []

variable (std) in
theorem pairedSightings_of_port (key : Str ×ₗ Str ×ₗ Str) {facts : Dict Str Json}
    {fact : Str × Json} (hmac : contains (str ".mac:") fact.1 = true)
    (h : portOf facts (afterFirst (cp ':') fact.1) ≠ .null) :
    pairedSightings std key facts fact = [BridgeFact.learned std
      ⟨key.1, key.2.1, key.2.2, fact.1, fact.2⟩ (portOf facts (afterFirst (cp ':') fact.1))] := by
  unfold pairedSightings
  rw [if_pos hmac]
  split
  · next hnull => exact absurd hnull h
  · rfl

theorem pairFact_sightings {key : Str ×ₗ Str ×ₗ Str} {facts : Dict Str Json} {fact : Str × Json}
    {o : Outcome} (h : pairFact std horizon aliases key.1 key.2.1 key.2.2 facts fact = .ok o) :
    (o.entries.map Entry.sighting).filter isLearned = pairedSightings std key facts fact := by
  unfold pairFact at h
  split at h
  · next hmac =>
    cases h
    unfold pairedSightings
    rw [if_neg hmac]
    rfl
  · next hmac =>
    simp only at h
    split at h
    · next hport =>
      cases h
      rw [pairedSightings_of_null std key hport]
      rfl
    · next hport =>
      obtain ⟨learned, hlearned, h⟩ := Except.bind_eq_ok.mp h
      obtain ⟨status, -, h⟩ := Except.bind_eq_ok.mp h
      cases h
      obtain ⟨hvalue, hsource, hobserved⟩ := fieldOf_spec hlearned
      rw [pairedSightings_of_port std key (not_not.mp hmac) hport]
      -- the status is filtered out
      change [Entry.sighting ⟨_, str "learned_mac", learned⟩] = _
      unfold Entry.sighting Entry.address GroupKey.address BridgeFact.learned
      simp only [hvalue, hsource, hobserved]

/-- The evidence that the pairing keeps, name by name. -/
theorem pairBridge_sightings {bridge : List BridgeFact} {paired : List Outcome}
    (h : pairBridge std horizon aliases bridge = .ok paired) :
    (((paired.flatMap Outcome.entries).map Entry.sighting).filter isLearned).Perm
      ((groupBy BridgeFact.table bridge).flatMap fun table =>
        (groupBy BridgeFact.name table.2).flatMap (keptOf std table)) := by
  have hshape : ∀ outcomes : List Outcome, ((outcomes.flatMap Outcome.entries).map
      Entry.sighting).filter isLearned =
        outcomes.flatMap fun o => (o.entries.map Entry.sighting).filter isLearned := by
    intro outcomes
    rw [map_flatMap, filter_flatMap]
  have htable : ∀ table outcomes, pairTable std horizon aliases table = .ok outcomes →
      (outcomes.flatMap fun o => (o.entries.map Entry.sighting).filter isLearned).Perm
        ((groupBy BridgeFact.name table.2).flatMap (keptOf std table)) := by
    intro table outcomes htable
    have hfacts := Except.mapM_eq_ok.mp htable
    have heq : outcomes.map (fun o => (o.entries.map Entry.sighting).filter isLearned) =
        (sortedBy Prod.fst (factsOf table.2)).map (pairedSightings std table.1 (factsOf table.2)) :=
      (hfacts.map_eq fun fact o ho => (pairFact_sightings ho).symm).symm
    rw [flatMap_def, heq, ← flatMap_def]
    have hperm := (sortedBy_perm Prod.fst (factsOf table.2)).trans (factsOf_perm table.2)
    refine (hperm.flatMap_right _).trans (.of_eq ?_)
    rw [flatMap_map]
    rfl
  unfold pairBridge at h
  obtain ⟨tables, htables, h⟩ := Except.bind_eq_ok.mp h
  cases h
  rw [hshape]
  have hrun := Except.mapM_eq_ok.mp htables
  have hflat : tables.flatten.flatMap (fun o => (o.entries.map Entry.sighting).filter isLearned) =
      tables.flatMap fun outcomes =>
        outcomes.flatMap fun o => (o.entries.map Entry.sighting).filter isLearned := by
    rw [flatMap_def, flatMap_def, map_flatten, flatten_flatten, map_map]
    rfl
  rw [hflat]
  refine Perm.trans ?_ ((sortedBy_perm Prod.fst (groupBy BridgeFact.table bridge)).flatMap_right _)
  clear h htables hflat
  generalize sortedBy Prod.fst (groupBy BridgeFact.table bridge) = sorted at hrun
  induction hrun with
  | nil => exact .refl _
  | cons hfirst _ ih =>
    rw [flatMap_cons, flatMap_cons]
    exact (htable _ _ hfirst).append ih

/-! ## What is due -/

theorem flatMap_groupBy_perm {α β κ : Type} [DecidableEq κ] (key : α → κ) (l : List α)
    (f : α → List β) :
    (l.flatMap f).Perm ((groupBy key l).flatMap fun group => group.2.flatMap f) := by
  refine ((groupBy_flatten_perm key l).symm.flatMap_right f).trans (.of_eq ?_)
  rw [flatMap_assoc]

theorem dueSightings_perm (facts : List BridgeFact) : (dueSightings std facts).Perm
    ((groupBy BridgeFact.table facts).flatMap fun table =>
      (groupBy BridgeFact.name table.2).flatMap (dueOf std table)) := by
  refine (flatMap_groupBy_perm BridgeFact.table facts _).trans (Perm.flatMap_left _ ?_)
  intro table htable
  have hfacts := groupBy_group htable
  refine (flatMap_groupBy_perm BridgeFact.name table.2 _).trans (.of_eq ?_)
  refine flatMap_congr fun group hgroup => ?_
  have hnames := groupBy_group hgroup
  unfold dueOf
  have hmember : ∀ f ∈ group.2, f.table = table.1 ∧ f.name = group.1 := by
    intro f hf
    rw [hnames, mem_filter] at hf
    have htable := (mem_filter.mp (hfacts ▸ hf.1)).2
    exact ⟨of_decide_eq_true htable, of_decide_eq_true hf.2⟩
  have hports : ∀ f ∈ group.2, (facts.filter fun p => decide (p.IsPortOf f)) =
      portsOf table.2 group.1 := by
    intro f hf
    obtain ⟨hkey, hname⟩ := hmember f hf
    unfold portsOf
    rw [hfacts, filter_filter]
    refine filter_congr fun p _ => ?_
    rw [← Bool.decide_and, decide_eq_decide]
    unfold BridgeFact.IsPortOf BridgeFact.index
    rw [hkey, hname]
    exact and_comm
  by_cases hmac : contains (str ".mac:") group.1 = true
  · rw [if_pos hmac]
    refine flatMap_congr fun f hf => ?_
    have hisMac : f.isMac = true := by
      unfold BridgeFact.isMac
      rw [(hmember f hf).2]
      exact hmac
    rw [if_pos hisMac, hports f hf]
  · rw [if_neg hmac]
    refine flatMap_eq_nil_iff.mpr fun f hf => if_neg ?_
    unfold BridgeFact.isMac
    rw [(hmember f hf).2]
    exact hmac

/-! ## Counting -/

section

variable {ι β : Type} {l : List ι} {due kept : ι → List β}

theorem flatMap_length_le (hle : ∀ i ∈ l, (kept i).length ≤ (due i).length) :
    (l.flatMap kept).length ≤ (l.flatMap due).length := by
  induction l with
  | nil => exact le_rfl
  | cons i l ih =>
    obtain ⟨hi, hrest⟩ := forall_mem_cons.mp hle
    rw [flatMap_cons, flatMap_cons, length_append, length_append]
    exact Nat.add_le_add hi (ih hrest)

/-- What is kept for each item, no more than what is due for it, is all that is due only when it is
item by item. -/
theorem length_eq_of_flatMap_length_le (hle : ∀ i ∈ l, (kept i).length ≤ (due i).length)
    (h : (l.flatMap due).length ≤ (l.flatMap kept).length) :
    ∀ i ∈ l, (kept i).length = (due i).length := by
  induction l with
  | nil => exact fun i hi => absurd hi not_mem_nil
  | cons i l ih =>
    obtain ⟨hi, hrest⟩ := forall_mem_cons.mp hle
    rw [flatMap_cons, flatMap_cons, length_append, length_append] at h
    have htail := flatMap_length_le hrest
    exact forall_mem_cons.mpr ⟨by omega, ih hrest (by omega)⟩

end

section

variable {facts : List BridgeFact} {table : (Str ×ₗ Str ×ₗ Str) × List BridgeFact}
  {group : Str × List BridgeFact}

/-- The observations of one name are alone with those of their port, which has a value. -/
def Alone (table : (Str ×ₗ Str ×ₗ Str) × List BridgeFact) (group : Str × List BridgeFact) : Prop :=
  contains (str ".mac:") group.1 = true → ∀ p ∈ portsOf table.2 group.1,
    group.2.length = 1 ∧ (portsOf table.2 group.1).length = 1 ∧ p.value ≠ .null

theorem portOf_eq (table : List BridgeFact) (name : Str) :
    portOf (factsOf table) (afterFirst (cp ':') name) =
      ((portsOf table name).getLast?.map BridgeFact.value).getD .null := by
  unfold portOf portsOf
  rw [factsOf_get]

theorem dueOf_length (table : (Str ×ₗ Str ×ₗ Str) × List BridgeFact)
    (group : Str × List BridgeFact) : (dueOf std table group).length =
      if contains (str ".mac:") group.1 then group.2.length * (portsOf table.2 group.1).length
      else 0 := by
  unfold dueOf
  split
  · simp [length_flatMap]
  · rfl

theorem keptOf_last (hmac : contains (str ".mac:") group.1 = true) {p : BridgeFact}
    (hlast : (portsOf table.2 group.1).getLast? = some p) (hvalue : p.value ≠ .null) :
    keptOf std table group = [BridgeFact.learned std
      ⟨table.1.1, table.1.2.1, table.1.2.2, group.1, lastValue group⟩ p.value] := by
  have hport : portOf (factsOf table.2) (afterFirst (cp ':') group.1) = p.value := by
    rw [portOf_eq, hlast]
    rfl
  unfold keptOf pairedSightings
  rw [if_pos hmac]
  simp only [hport]

variable (std) in
/-- One name of a table keeps at most one sighting: that of its last observation under the last of
its port, when there is one and it has a value. -/
theorem keptOf_cases (table : (Str ×ₗ Str ×ₗ Str) × List BridgeFact)
    (group : Str × List BridgeFact) : keptOf std table group = [] ∨
      ∃ p ∈ portsOf table.2 group.1, contains (str ".mac:") group.1 = true ∧ p.value ≠ .null ∧
        keptOf std table group = [BridgeFact.learned std
          ⟨table.1.1, table.1.2.1, table.1.2.2, group.1, lastValue group⟩ p.value] := by
  by_cases hmac : contains (str ".mac:") group.1 = true
  · have hport := portOf_eq table.2 group.1
    cases hlast : (portsOf table.2 group.1).getLast? with
    | none =>
      rw [hlast] at hport
      refine .inl ?_
      unfold keptOf pairedSightings
      rw [if_pos hmac]
      simp only [hport]
      rfl
    | some p =>
      by_cases hvalue : p.value = .null
      · rw [hlast, Option.map_some, Option.getD_some, hvalue] at hport
        refine .inl ?_
        unfold keptOf pairedSightings
        rw [if_pos hmac]
        simp only [hport]
      · exact .inr ⟨p, mem_of_getLast? hlast, hmac, hvalue, keptOf_last hmac hlast hvalue⟩
  · exact .inl (if_neg hmac)

theorem keptOf_length_le (hgroup : group.2 ≠ []) :
    (keptOf std table group).length ≤ (dueOf std table group).length := by
  rcases keptOf_cases std table group with hnil | ⟨p, hp, hmac, -, hkept⟩
  · rw [hnil]
    exact Nat.zero_le _
  · have hne := length_pos_of_mem hp
    have hne' := length_pos_iff.mpr hgroup
    rw [hkept, dueOf_length, if_pos hmac, length_singleton]
    exact Nat.mul_pos hne' hne

variable (std) in
/-- All that is due to one name is kept exactly when the name is alone. -/
theorem keptOf_length_eq_iff (hgroup : group.2 ≠ []) :
    (keptOf std table group).length = (dueOf std table group).length ↔ Alone table group := by
  have hpos := length_pos_iff.mpr hgroup
  unfold Alone
  rw [dueOf_length]
  by_cases hmac : contains (str ".mac:") group.1 = true
  · rw [if_pos hmac]
    constructor
    · intro h _ p hp
      have hports := length_pos_of_mem hp
      have hdue := Nat.mul_pos hpos hports
      rcases keptOf_cases std table group with hnil | ⟨q, hq, -, hvalue, hkept⟩
      · rw [hnil, length_nil] at h
        omega
      · rw [hkept, length_singleton] at h
        obtain ⟨hone, hone'⟩ := mul_eq_one.mp h.symm
        obtain ⟨r, hr⟩ := length_eq_one_iff.mp hone'
        rw [hr, mem_singleton] at hp hq
        rw [hp, ← hq]
        exact ⟨hone, hone', hvalue⟩
    · intro h
      rcases keptOf_cases std table group with hnil | ⟨q, hq, -, -, hkept⟩
      · cases hports : portsOf table.2 group.1 with
        | nil => rw [hnil, length_nil, length_nil, Nat.mul_zero]
        | cons p ports =>
          obtain ⟨-, hone, hvalue⟩ := h hmac p (by rw [hports]; exact mem_cons_self)
          rw [hports, length_cons] at hone
          have hlast : (portsOf table.2 group.1).getLast? = some p := by
            rw [hports, length_eq_zero_iff.mp (by omega : ports.length = 0)]
            rfl
          rw [keptOf_last hmac hlast hvalue] at hnil
          cases hnil
      · obtain ⟨hone, hone', -⟩ := h hmac q hq
        rw [hkept, hone, hone', length_singleton]
  · rw [if_neg hmac]
    constructor
    · exact fun _ hmac' => absurd hmac' hmac
    · intro _
      unfold keptOf pairedSightings
      rw [if_neg hmac, length_nil]

/-- What is due to a name that is alone is what is kept. -/
theorem dueOf_eq_keptOf (htable : ∀ f ∈ group.2, f.table = table.1 ∧ f.name = group.1)
    (hgroup : group.2 ≠ []) (h : Alone table group) :
    dueOf std table group = keptOf std table group := by
  have hlength := (keptOf_length_eq_iff std hgroup).mpr h
  rcases keptOf_cases std table group with hnil | ⟨q, hq, hmac, -, hkept⟩
  · rw [hnil, length_nil] at hlength
    rw [hnil]
    exact length_eq_zero_iff.mp hlength.symm
  · obtain ⟨hone, hone', -⟩ := h hmac q hq
    obtain ⟨f, hf⟩ := length_eq_one_iff.mp hone
    obtain ⟨p, hp⟩ := length_eq_one_iff.mp hone'
    obtain ⟨hkey, hname⟩ := htable f (by rw [hf]; exact mem_singleton_self f)
    have hqp : q = p := by
      rw [hp] at hq
      exact mem_singleton.mp hq
    have hlast : lastValue group = f.value := by
      unfold lastValue
      rw [hf]
      rfl
    rw [hkept, hqp, hlast, ← hkey, ← hname]
    unfold dueOf
    rw [if_pos hmac, hf, hp]
    rfl

end

/-! ## The condition -/

/-- Observations of one name in one table are one group. -/
theorem filter_sameName {facts : List BridgeFact} {table : (Str ×ₗ Str ×ₗ Str) × List BridgeFact}
    (htable : table ∈ groupBy BridgeFact.table facts) {f : BridgeFact} (hf : f.table = table.1) :
    (facts.filter fun g => decide (f.SameName g)) =
      table.2.filter fun g => decide (g.name = f.name) := by
  rw [groupBy_group htable, filter_filter]
  refine filter_congr fun g _ => ?_
  rw [← Bool.decide_and, decide_eq_decide]
  unfold BridgeFact.SameName
  rw [hf]
  exact and_comm

theorem unrepeated_iff {facts : List BridgeFact} : Unrepeated facts ↔
    ∀ table ∈ groupBy BridgeFact.table facts, ∀ group ∈ groupBy BridgeFact.name table.2,
      Alone table group := by
  constructor
  · intro h table htable group hgroup hmac p hp
    obtain ⟨hp, hport⟩ := mem_filter.mp hp
    have hport := of_decide_eq_true hport
    obtain ⟨hname, hmembers⟩ := mem_groupBy.mp hgroup
    obtain ⟨f, hf, hfname⟩ := mem_map.mp hname
    rw [groupBy_group htable, mem_filter] at hf hp
    have hftable := of_decide_eq_true hf.2
    have hptable := of_decide_eq_true hp.2
    have hisMac : f.isMac = true := by
      unfold BridgeFact.isMac
      rw [hfname]
      exact hmac
    have hportOf : p.IsPortOf f := by
      unfold BridgeFact.IsPortOf BridgeFact.index
      rw [hftable, hptable, hfname]
      exact ⟨rfl, hport⟩
    obtain ⟨hone, hone', hvalue⟩ := h f hf.1 hisMac p hp.1 hportOf
    rw [filter_sameName htable hftable, hfname] at hone
    rw [filter_sameName htable hptable, hport] at hone'
    rw [hmembers]
    exact ⟨hone, hone', hvalue⟩
  · intro h f hf hmac p hp hportOf
    have htable : (f.table, facts.filter fun g => decide (g.table = f.table)) ∈
        groupBy BridgeFact.table facts := mem_groupBy.mpr ⟨mem_map_of_mem hf, rfl⟩
    have hmem : ∀ g ∈ facts, g.table = f.table →
        g ∈ facts.filter fun g => decide (g.table = f.table) :=
      fun g hg hgtable => mem_filter.mpr ⟨hg, decide_eq_true hgtable⟩
    have hgroup : (f.name, (facts.filter fun g => decide (g.table = f.table)).filter
        fun g => decide (g.name = f.name)) ∈ groupBy BridgeFact.name
          (facts.filter fun g => decide (g.table = f.table)) :=
      mem_groupBy.mpr ⟨mem_map_of_mem (hmem f hf rfl), rfl⟩
    have hpmem : p ∈ portsOf (facts.filter fun g => decide (g.table = f.table)) f.name :=
      mem_filter.mpr ⟨hmem p hp hportOf.1, decide_eq_true hportOf.2⟩
    obtain ⟨hone, hone', hvalue⟩ := h _ htable _ hgroup hmac p hpmem
    rw [filter_sameName htable rfl, filter_sameName htable hportOf.1, hportOf.2]
    exact ⟨hone, hone', hvalue⟩

/-- Nothing that is due is lost exactly when no name is repeated. -/
theorem dueSightings_subperm_iff {facts : List BridgeFact} {paired : List Outcome}
    (h : pairBridge std horizon aliases facts = .ok paired) :
    (dueSightings std facts).Subperm
        (((paired.flatMap Outcome.entries).map Entry.sighting).filter isLearned) ↔
      Unrepeated facts := by
  rw [(dueSightings_perm facts).subperm_right, (pairBridge_sightings h).subperm_left,
    unrepeated_iff]
  have hne : ∀ table ∈ groupBy BridgeFact.table facts, ∀ group ∈ groupBy BridgeFact.name table.2,
      group.2 ≠ [] := by
    intro table _ group hgroup hnil
    obtain ⟨hname, hmembers⟩ := mem_groupBy.mp hgroup
    obtain ⟨f, hf, hfname⟩ := mem_map.mp hname
    have hf' : f ∈ group.2 := by
      rw [hmembers]
      exact mem_filter.mpr ⟨hf, decide_eq_true hfname⟩
    rw [hnil] at hf'
    exact absurd hf' not_mem_nil
  constructor
  · intro hsub table htable group hgroup
    have hle : ∀ table ∈ groupBy BridgeFact.table facts,
        ∀ group ∈ groupBy BridgeFact.name table.2,
          (keptOf std table group).length ≤ (dueOf std table group).length :=
      fun table htable group hgroup => keptOf_length_le (hne table htable group hgroup)
    have htables := length_eq_of_flatMap_length_le
      (fun table htable => flatMap_length_le (hle table htable)) hsub.length_le
    have hgroups := length_eq_of_flatMap_length_le (hle table htable) (htables table htable).ge
    exact (keptOf_length_eq_iff std (hne table htable group hgroup)).mp (hgroups group hgroup)
  · intro halone
    refine (Perm.of_eq ?_).subperm
    refine flatMap_congr fun table htable => flatMap_congr fun group hgroup => ?_
    refine dueOf_eq_keptOf (fun f hf => ?_) (hne table htable group hgroup)
      (halone table htable group hgroup)
    rw [groupBy_group hgroup, mem_filter] at hf
    have htable' := (mem_filter.mp (groupBy_group htable ▸ hf.1)).2
    exact ⟨of_decide_eq_true htable', of_decide_eq_true hf.2⟩

/-! ## The rows -/

theorem observe_bridgeFacts {rows : List FactRow} {observed : List Outcome}
    (h : rows.mapM (observe std horizon aliases) = .ok observed) :
    observed.flatMap Outcome.bridge = bridgeFacts std rows := by
  have hrows := Except.mapM_eq_ok.mp h
  unfold bridgeFacts
  rw [flatMap_def, flatMap_def]
  congr 1
  refine (hrows.map_eq fun row o ho => ?_).symm
  rcases observe_cases ho with ⟨hnone, rfl⟩ | ⟨payload, target, entries, hsome, -, -, hbridge, -⟩
  · rw [hnone]
  · rw [hsome, hbridge]

theorem mappedEntries_sightings {rows : List FactRow} {mapped : List (List Entry)}
    (h : rows.mapM (mappedEntries std horizon aliases) = .ok mapped) :
    mapped.flatten.map Entry.sighting = mappedSightings std rows := by
  have hrows := Except.mapM_eq_ok.mp h
  unfold mappedSightings
  rw [map_flatten, flatMap_def]
  congr 1
  refine (hrows.map_eq fun row entries hentries => ?_).symm
  unfold mappedEntries at hentries
  obtain ⟨found, hfound, hentries⟩ := Except.bind_eq_ok.mp hentries
  rw [hfound]
  cases found with
  | none =>
    cases hentries
    rfl
  | some found =>
    refine (Except.mapM_eq_ok.mp hentries).map_eq fun record e he => ?_
    unfold entryOf at he
    obtain ⟨field, hfield, he⟩ := Except.bind_eq_ok.mp he
    cases he
    obtain ⟨hvalue, hsource, hobserved⟩ := fieldOf_spec hfield
    unfold Entry.sighting
    simp only [hvalue, hsource, hobserved]
    rfl

theorem pairFact_disclosed {target source observedAt : Str} {facts : Dict Str Json}
    {fact : Str × Json} {o : Outcome}
    (h : pairFact std horizon aliases target source observedAt facts fact = .ok o)
    (hmac : contains (str ".mac:") fact.1 = true)
    (hport : portOf facts (afterFirst (cp ':') fact.1) = .null) :
    o.quality = [.incompleteBridgeEntry target (afterFirst (cp ':') fact.1)] := by
  unfold pairFact at h
  rw [if_neg (not_not.mpr hmac)] at h
  simp only [hport] at h
  cases h
  rfl

/-- A MAC observation whose port is in no observation of its table is disclosed. -/
theorem pairBridge_disclosed {facts : List BridgeFact} {paired : List Outcome}
    (h : pairBridge std horizon aliases facts = .ok paired) {f : BridgeFact} (hf : f ∈ facts)
    (hmac : f.isMac = true) (hport : ∀ p ∈ facts, ¬ p.IsPortOf f) :
    .incompleteBridgeEntry f.target f.index ∈ paired.flatMap Outcome.quality := by
  unfold pairBridge at h
  obtain ⟨tables, htables, h⟩ := Except.bind_eq_ok.mp h
  cases h
  have htable : (f.table, facts.filter fun g => decide (g.table = f.table)) ∈
      sortedBy Prod.fst (groupBy BridgeFact.table facts) :=
    mem_sortedBy.mpr (mem_groupBy.mpr ⟨mem_map_of_mem hf, rfl⟩)
  obtain ⟨outcomes, houtcomes, hpaired⟩ :=
    (Except.mapM_eq_ok.mp htables).exists_of_mem_left htable
  have hmem : f ∈ facts.filter fun g => decide (g.table = f.table) :=
    mem_filter.mpr ⟨hf, decide_eq_true rfl⟩
  generalize hobservations : (facts.filter fun g => decide (g.table = f.table)) = table at *
  -- the name of the observation is in the `dict`, and that of its port is not
  have hname : f.name ∈ (factsOf table).map Prod.fst := by
    by_contra hnot
    have hget := Dict.get_eq_none.mpr hnot
    rw [factsOf_get, Option.map_eq_none_iff, getLast?_eq_none_iff, filter_eq_nil_iff] at hget
    exact hget f hmem (decide_eq_true rfl)
  have hmissing : portOf (factsOf table) f.index = .null := by
    unfold BridgeFact.index
    have hnil : portsOf table f.name = [] := by
      refine filter_eq_nil_iff.mpr fun p hp heq => ?_
      rw [← hobservations, mem_filter] at hp
      exact hport p hp.1 ⟨of_decide_eq_true hp.2, of_decide_eq_true heq⟩
    rw [portOf_eq, hnil]
    rfl
  obtain ⟨fact, hfact, hfactname⟩ := mem_map.mp hname
  unfold pairTable at hpaired
  obtain ⟨o, ho, hpair⟩ := (Except.mapM_eq_ok.mp hpaired).exists_of_mem_left
    (mem_sortedBy.mpr hfact)
  have hquality := pairFact_disclosed hpair (hfactname ▸ hmac) (hfactname ▸ hmissing)
  refine mem_flatMap.mpr ⟨o, mem_flatten.mpr ⟨outcomes, houtcomes, ho⟩, ?_⟩
  rw [hquality, hfactname]
  exact mem_singleton_self _

/-! ## Main theorem -/

theorem infrastructureModel_bridgeKept_iff {rows : List FactRow} {m : InfrastructureModel}
    (hm : infrastructureModel std horizon aliases rows = .ok m) :
    BridgeKept std rows m ↔ Unrepeated (bridgeFacts std rows) := by
  obtain ⟨mapped, bridge, hmapped, hbridge, hregrouped⟩ := infrastructureModel_regrouped hm
  obtain ⟨observed, paired, staleAfterDays, hobserved, hpaired, -, rfl⟩ :=
    infrastructureModel_eq_ok.mp hm
  have hentries : bridge = paired.flatMap Outcome.entries := by
    unfold bridgeEntries at hbridge
    rw [hobserved, Except.ok_bind, hpaired] at hbridge
    exact (Except.ok.inj hbridge).symm
  rw [observe_bridgeFacts hobserved] at hpaired
  rw [← dueSightings_subperm_iff hpaired, ← hentries]
  have hsightings := hregrouped.sightings_perm
  rw [map_append, mappedEntries_sightings hmapped] at hsightings
  constructor
  · intro hkept
    have hdue := (subperm_append_left _).mp (hsightings.subperm_left.mp hkept.learned)
    have hlearned := hdue.filter isLearned
    have hall : (dueSightings std (bridgeFacts std rows)).filter isLearned =
        dueSightings std (bridgeFacts std rows) := by
      refine filter_eq_self.mpr fun s hs => ?_
      obtain ⟨f, -, hs⟩ := mem_flatMap.mp hs
      split at hs
      · obtain ⟨p, -, rfl⟩ := mem_map.mp hs
        rfl
      · exact absurd hs not_mem_nil
    rwa [hall] at hlearned
  · intro hdue
    refine ⟨?_, fun f hf hmac hport => ?_⟩
    · refine hsightings.subperm_left.mpr ((subperm_append_left _).mpr ?_)
      exact hdue.trans filter_sublist.subperm
    · have hdisclosed := pairBridge_disclosed hpaired hf hmac hport
      refine mem_sortedBy.mpr ?_
      rw [flatMap_append]
      exact mem_append_right _ hdisclosed

variable {db : ReportDb} {deploymentId : Int} {generatedAt : Datetime} {staleAfter : Int}
  {m : InfrastructureModel} {rows : List FactRow}

/-- Every MAC observation of a deployment becomes evidence under each of its ports exactly when the
names of both are not repeated in their table and the port has a value. -/
theorem bridgeKept_iff (hrows : db.selectObservations deploymentId = .ok rows)
    (h : buildInfrastructureModel std db deploymentId generatedAt staleAfter = .ok m) :
    BridgeKept std rows m ↔ Unrepeated (bridgeFacts std rows) := by
  obtain ⟨generated, rows', -, hrows', hm⟩ := buildInfrastructureModel_eq_ok.mp h
  obtain rfl : rows' = rows := Except.ok.inj (hrows'.symm.trans hrows)
  exact infrastructureModel_bridgeKept_iff hm

theorem bridgeKept_iff_sample : ∃ rows m, sampleDb.selectObservations 1 = .ok rows ∧
    buildInfrastructureModel sampleStdlib sampleDb 1 sampleTime (7 * 86400000000) = .ok m ∧
      BridgeKept sampleStdlib rows m := by
  have hrows : sampleDb.selectObservations 1 = .ok sampleRows := by decide +kernel
  obtain ⟨m, hm⟩ := Except.exists_of_isOk
    (x := buildInfrastructureModel sampleStdlib sampleDb 1 sampleTime (7 * 86400000000))
    (by decide +kernel)
  refine ⟨sampleRows, m, hrows, hm, (bridgeKept_iff hrows hm).mpr fun f hf hmac p hp hport => ?_⟩
  have hall : ((bridgeFacts sampleStdlib sampleRows).all fun f =>
      (bridgeFacts sampleStdlib sampleRows).all fun p =>
        decide (f.isMac = true → p.IsPortOf f →
          ((bridgeFacts sampleStdlib sampleRows).filter fun g => decide (f.SameName g)).length = 1 ∧
          ((bridgeFacts sampleStdlib sampleRows).filter fun g => decide (p.SameName g)).length = 1 ∧
          p.value.dumps {} ≠ str "null")) = true := by decide +kernel
  obtain ⟨hmac, hport, hvalue⟩ :=
    of_decide_eq_true (all_eq_true.mp (all_eq_true.mp hall f hf) p hp) hmac hport
  exact ⟨hmac, hport, fun hnull => hvalue (by rw [hnull]; rfl)⟩

/-- Two values for one entry of a table, which differ in nothing else. -/
def repeatedRows : List FactRow :=
  [sampleRow "snmp.bridge.mac" "\x7b\"target\":\"a\",\"index\":\"9\",\"value\":\"aa\"\x7d" "snmp",
    sampleRow "snmp.bridge.mac" "\x7b\"target\":\"a\",\"index\":\"9\",\"value\":\"bb\"\x7d" "snmp",
    sampleRow "snmp.bridge.port" "\x7b\"target\":\"a\",\"index\":\"9\",\"value\":3\x7d" "snmp"]

/-- The table admits them. -/
def repeatedDb : ReportDb where
  observations := repeatedRows.foldl (fun t row => t.insertOrIgnore row) .empty
  devices := .empty
  deviceAliases := .empty

/-- The first of the two addresses is not in the model. -/
theorem not_bridgeKept : ∃ m, repeatedDb.selectObservations 1 = .ok repeatedRows ∧
    buildInfrastructureModel sampleStdlib repeatedDb 1 sampleTime (7 * 86400000000) = .ok m ∧
      ¬ BridgeKept sampleStdlib repeatedRows m := by
  have hrows : repeatedDb.selectObservations 1 = .ok repeatedRows := by decide +kernel
  obtain ⟨m, hm⟩ := Except.exists_of_isOk
    (x := buildInfrastructureModel sampleStdlib repeatedDb 1 sampleTime (7 * 86400000000))
    (by decide +kernel)
  obtain ⟨generated, rows, -, hrows', hmodel⟩ := buildInfrastructureModel_eq_ok.mp hm
  obtain rfl : rows = repeatedRows := Except.ok.inj (hrows'.symm.trans hrows)
  refine ⟨m, hrows, hm, fun hkept => ?_⟩
  have hunrepeated := (infrastructureModel_bridgeKept_iff hmodel).mp hkept
  have hall : ((bridgeFacts sampleStdlib repeatedRows).all fun f =>
      (bridgeFacts sampleStdlib repeatedRows).all fun p =>
        decide (f.isMac = true → p.IsPortOf f → ((bridgeFacts sampleStdlib repeatedRows).filter
          fun g => decide (f.SameName g)).length = 1)) = true :=
    all_eq_true.mpr fun f hf => all_eq_true.mpr fun p hp =>
      decide_eq_true fun hmac hport => (hunrepeated f hf hmac p hp hport).1
  exact absurd hall (by decide +kernel)

end FieldDiscovery.Infrastructure
