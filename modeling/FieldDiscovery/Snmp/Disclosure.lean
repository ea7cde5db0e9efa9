import FieldDiscovery.Snmp.Varbinds

/-!
# The disclosure of unknown OIDs

Two passes of `normalize_varbinds` count OIDs that no field covers. The first drops the supported
ones behind the retention limit and names the unsupported ones in an issue each; the second compares
all of them with the limit. So a limit between the two counts is reported though nothing was dropped
(`disclosed_iff`).
-/

namespace FieldDiscovery.Snmp

open Py Redaction
open ActiveDirectory (CollectorIssue)

variable {rt : Runtime} {digits : DigitTable} {redactor : Redactor}
  {registry : List OidField} {maxUnknown : Nat}

/-- Neither a fact nor an issue stands for the variable. -/
def Contribution.IsEmpty (c : Contribution) : Prop := c.facts = [] ∧ c.issues = []

/-- The variable is retained as an unknown OID, unless the limit is reached. -/
def isUnknown (registry : List OidField) (varbind : SnmpVarBind) : Bool :=
  !varbind.unsupported && !isMatched registry varbind

/-- What one variable contributes: nothing exactly when it is an unknown OID behind the limit. -/
theorem normalizeVarbind_unknown {unknown : Nat} {varbind : SnmpVarBind} {c : Contribution}
    (h : normalizeVarbind rt digits redactor registry maxUnknown unknown varbind = .ok c) :
    (c.IsEmpty ↔ isUnknown registry varbind = true ∧ maxUnknown ≤ unknown) ∧
      c.unknown = (if isUnknown registry varbind = true ∧ unknown < maxUnknown then 1 else 0) ∧
      limitIssue ∉ c.issues := by
  unfold normalizeVarbind at h
  unfold Contribution.IsEmpty isUnknown
  split at h
  · next hunsupported =>
    obtain rfl := Except.ok.inj h
    simp [hunsupported, unsupportedIssue, limitIssue, str]
  · next hsupported =>
    rw [Bool.not_eq_true] at hsupported
    split at h
    · next field hfind =>
      have hmatched : isMatched registry varbind = true := by
        rw [← Bool.not_eq_false, ← findField_eq_none_iff_isMatched, hfind]
        exact Option.some_ne_none field
      rw [hmatched]
      rcases normalizeKnown_ok h with ⟨payload, rfl, -⟩ | rfl
      · simp
      · simp [invalidIssue, limitIssue, str]
    · next hfind =>
      rw [findField_eq_none_iff_isMatched.mp hfind, hsupported]
      split at h
      · next hretained =>
        obtain ⟨value, -, h⟩ := Except.bind_eq_ok.mp h
        obtain rfl := Except.ok.inj h
        simp [hretained]
      · next hfull =>
        obtain rfl := Except.ok.inj h
        simp [hfull, Nat.le_of_not_lt hfull]

/-- A variable is left without a trace exactly when the unknown OIDs exceed the limit. -/
theorem exists_isEmpty_iff {unknown : Nat} (hle : unknown ≤ maxUnknown)
    {varbinds : List SnmpVarBind} {cs : List Contribution}
    (h : contributions rt digits redactor registry maxUnknown unknown varbinds = .ok cs) :
    (∃ c ∈ cs, c.IsEmpty) ↔ maxUnknown < unknown + varbinds.countP (isUnknown registry) := by
  induction varbinds generalizing unknown cs with
  | nil =>
    obtain rfl := Except.ok.inj h
    refine iff_of_false (fun ⟨c, hc, _⟩ => nomatch hc) ?_
    rw [List.countP_nil]
    omega
  | cons varbind varbinds ih =>
    rw [contributions] at h
    obtain ⟨c, hc, h⟩ := Except.bind_eq_ok.mp h
    obtain ⟨cs, hcs, h⟩ := Except.bind_eq_ok.mp h
    obtain rfl := Except.ok.inj h
    obtain ⟨hempty, hunknown, -⟩ := normalizeVarbind_unknown hc
    rw [hunknown] at hcs
    rw [List.exists_mem_cons_iff, hempty, List.countP_cons]
    by_cases hcounted : isUnknown registry varbind = true
    · by_cases hroom : unknown < maxUnknown
      · rw [if_pos ⟨hcounted, hroom⟩] at hcs
        rw [ih hroom hcs, if_pos hcounted]
        omega
      · refine iff_of_true (.inl ⟨hcounted, Nat.le_of_not_lt hroom⟩) ?_
        rw [if_pos hcounted]
        omega
    · rw [if_neg fun hboth => hcounted hboth.1, Nat.add_zero] at hcs
      rw [ih hle hcs, if_neg hcounted, Nat.add_zero]
      exact or_iff_right fun hboth => hcounted hboth.1

theorem limitIssue_not_mem {unknown : Nat} {varbinds : List SnmpVarBind} {cs : List Contribution}
    (h : contributions rt digits redactor registry maxUnknown unknown varbinds = .ok cs) :
    limitIssue ∉ cs.flatMap Contribution.issues := by
  induction varbinds generalizing unknown cs with
  | nil =>
    obtain rfl := Except.ok.inj h
    exact List.not_mem_nil
  | cons varbind varbinds ih =>
    rw [contributions] at h
    obtain ⟨c, hc, h⟩ := Except.bind_eq_ok.mp h
    obtain ⟨cs, hcs, h⟩ := Except.bind_eq_ok.mp h
    obtain rfl := Except.ok.inj h
    rw [List.flatMap_cons, List.mem_append, not_or]
    exact ⟨(normalizeVarbind_unknown hc).2.2, ih hcs⟩

/-- Some variable has neither a fact nor an issue of its own. -/
def Withheld (rt : Runtime) (digits : DigitTable) (redactor : Redactor)
    (varbinds : List SnmpVarBind) (registry : List OidField) (maxUnknown : Nat) : Prop :=
  ∃ cs, contributions rt digits redactor registry maxUnknown 0 varbinds = .ok cs ∧
    ∃ c ∈ cs, c.IsEmpty

theorem limitIssue_mem_iff {varbinds : List SnmpVarBind}
    {result : List Fact × List CollectorIssue}
    (h : normalizeVarbinds rt digits redactor varbinds registry maxUnknown = .ok result) :
    limitIssue ∈ result.2 ↔ maxUnknown < unmatchedCount registry varbinds := by
  obtain ⟨cs, hcs, h⟩ := Except.bind_eq_ok.mp h
  have hnot := limitIssue_not_mem hcs
  simp only at h
  split at h
  · next hlt =>
    obtain rfl := Except.ok.inj h
    exact iff_of_true (List.mem_append_right _ (List.mem_singleton_self _)) hlt
  · next hle =>
    obtain rfl := Except.ok.inj h
    exact iff_of_false hnot hle

/-- A variable is withheld exactly when an unknown OID is dropped, and the limit is reported exactly
then unless it lies between the two counts. -/
theorem disclosed_iff {varbinds : List SnmpVarBind} {result : List Fact × List CollectorIssue}
    (h : normalizeVarbinds rt digits redactor varbinds registry maxUnknown = .ok result) :
    (Withheld rt digits redactor varbinds registry maxUnknown ↔
      maxUnknown < varbinds.countP (isUnknown registry)) ∧
      ((limitIssue ∈ result.2 ↔ Withheld rt digits redactor varbinds registry maxUnknown) ↔
        ¬ (varbinds.countP (isUnknown registry) ≤ maxUnknown ∧
          maxUnknown < unmatchedCount registry varbinds)) := by
  obtain ⟨cs, hcs, -⟩ := Except.bind_eq_ok.mp h
  have hwithheld : Withheld rt digits redactor varbinds registry maxUnknown ↔
      maxUnknown < varbinds.countP (isUnknown registry) := by
    have hempty := exists_isEmpty_iff (Nat.zero_le _) hcs
    rw [Nat.zero_add] at hempty
    rw [← hempty]
    constructor
    · rintro ⟨cs', hcs', hc⟩
      obtain rfl := Except.ok.inj (hcs.symm.trans hcs')
      exact hc
    · exact fun hc => ⟨cs, hcs, hc⟩
  have hcount : varbinds.countP (isUnknown registry) ≤ unmatchedCount registry varbinds :=
    List.countP_mono_left fun varbind _ hunknown => (Bool.and_eq_true_iff.mp hunknown).2
  refine ⟨hwithheld, ?_⟩
  rw [limitIssue_mem_iff h, hwithheld]
  omega

/-! ### Two unmatched OIDs and a limit of one -/

def unsupportedVarBind : SnmpVarBind := { sampleVarBind "9.2" "" with unsupported := true }

theorem disclosed_sample : ∃ result, normalizeVarbinds (.ofDigests []) (fun _ => false)
    sampleRedactor [sampleVarBind "9.1" "x", sampleVarBind "9.2" "y"] [] 1 = .ok result ∧
      limitIssue ∈ result.2 := by
  have hreturns : (normalizeVarbinds (.ofDigests []) (fun _ => false) sampleRedactor
      [sampleVarBind "9.1" "x", sampleVarBind "9.2" "y"] [] 1).isOk = true := by
    decide +kernel
  obtain ⟨result, hresult⟩ := Except.exists_of_isOk hreturns
  obtain ⟨hwithheld, hdisclosed⟩ := disclosed_iff hresult
  exact ⟨result, hresult, (hdisclosed.mpr (by decide)).mpr (hwithheld.mpr (by decide))⟩

/-- One OID is retained and the other has its issue, and the limit is reported all the same. -/
theorem not_disclosed : ∃ result, normalizeVarbinds (.ofDigests []) (fun _ => false)
    sampleRedactor [sampleVarBind "9.1" "x", unsupportedVarBind] [] 1 = .ok result ∧
      ¬ (limitIssue ∈ result.2 ↔ Withheld (.ofDigests []) (fun _ => false) sampleRedactor
        [sampleVarBind "9.1" "x", unsupportedVarBind] [] 1) := by
  have hreturns : (normalizeVarbinds (.ofDigests []) (fun _ => false) sampleRedactor
      [sampleVarBind "9.1" "x", unsupportedVarBind] [] 1).isOk = true := by
    decide +kernel
  obtain ⟨result, hresult⟩ := Except.exists_of_isOk hreturns
  refine ⟨result, hresult, fun hiff => ?_⟩
  obtain ⟨cs, hcs, hc⟩ := hiff.mp ((limitIssue_mem_iff hresult).mpr (by decide))
  exact absurd ((exists_isEmpty_iff (Nat.zero_le _) hcs).mp hc) (by decide)

end FieldDiscovery.Snmp
