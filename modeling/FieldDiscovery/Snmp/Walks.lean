import FieldDiscovery.ActiveDirectory.Entries
import FieldDiscovery.Lib.Except
import FieldDiscovery.Lib.Runtime

/-!
# Walks over tables

`PySnmpTransport.collect`. The rows of all tables share one budget, which a batch, a walk or a root
may use up. A walk that yields its rows in any batches leaves as much of the budget as its rows do
not take (`readWalk_yields`), so the budget cuts the concatenated walks at one place, and reaching it
is always reported (`collect_truncates`).
-/

open List (Forall₂)

namespace FieldDiscovery.Snmp

open Py
open ActiveDirectory (CollectorIssue)

/-- `SnmpVarBind`. The value is text, as `prettyPrint` renders it. -/
structure SnmpVarBind where
  oid : Str
  value : Str
  unsupported : Bool := false
  deriving DecidableEq

/-- `SnmpResponse` -/
structure SnmpResponse where
  varbinds : List SnmpVarBind
  issues : List CollectorIssue := []
  truncated : Bool := false

/-! ## Responses of the agent -/

/-- A variable of a response, with the name of the class of its value. -/
structure RawVarBind where
  oid : Str
  className : Str
  prettyPrint : Str

/-- A response of the SNMP library: the error indication and the error status by their texts. -/
structure Response where
  errorIndication : Option Str := none
  errorStatus : Option Str := none
  varbinds : List RawVarBind

/-- What the library's commands yield or raise, for one engine, credential and target. A walk knows
how many tables were walked before it, and in how large batches it is asked to answer. -/
structure Agent where
  create : Except Exc Unit
  getCmd : List Str → Except Exc Response
  bulkWalkCmd : Nat → Str → Nat → List (Except Exc Response)

section

variable (rt : Runtime)

/-- `_response_varbinds` -/
def responseVarbinds (response : Response) : Except Exc (List SnmpVarBind) :=
  match response.errorIndication with
  | some indication =>
    let text := rt.casefold indication
    if ["authentication", "unknown user", "wrong digest"].any fun token => contains (str token) text
    then .error (.collectorAuthentication (str "SNMP authentication failed"))
    else .error (.retryableCollector (str "SNMP target did not respond"))
  | none =>
    match response.errorStatus with
    | some text =>
      if contains (str "authorization") (rt.casefold text) ∨
          contains (str "access") (rt.casefold text) then
        .error (.collectorAuthentication (str "SNMP authorization failed"))
      else .error (.snmpProtocol (str "SNMP agent returned an error status"))
    | none =>
      .ok (response.varbinds.map fun varbind =>
        { oid := varbind.oid
          value := varbind.prettyPrint
          unsupported := ["nosuch", "endofmib"].any fun name =>
            contains (str name) (rt.casefold varbind.className) })

/-! ## The budget of rows -/

/-- The local variables of `collect`. -/
structure WalkState where
  values : List SnmpVarBind
  remaining : Nat
  truncated : Bool := false

/-- `async for response in bulk_walk_cmd(...)` -/
def readWalk : List (Except Exc Response) → WalkState → Except Exc WalkState
  | [], s => .ok s
  | response :: responses, s => do
    let batch ← responseVarbinds rt (← response)
    let truncated := s.truncated || decide (s.remaining < batch.length)
    let batch := if s.remaining < batch.length then batch.take s.remaining else batch
    let s := ⟨s.values ++ batch, s.remaining - batch.length, truncated⟩
    if s.remaining = 0 then .ok { s with truncated := true } else readWalk responses s

/-- `for root in table_oids`; `cancelled` is what the event says at each root. -/
def readTables (agent : Agent) (cancelled : Nat → Bool) :
    List Str → Nat → WalkState → Except Exc WalkState
  | [], _, s => .ok s
  | root :: roots, walked, s =>
    if cancelled walked then .error .cancelled
    else if s.remaining = 0 then .ok { s with truncated := true }
    else do
      let s ← readWalk rt (agent.bulkWalkCmd walked root (min 25 s.remaining)) s
      if s.truncated then .ok s else readTables agent cancelled roots (walked + 1) s

/-- The values of the scalars, which are asked for together. -/
def readScalars (agent : Agent) (scalarOids : List Str) : Except Exc (List SnmpVarBind) :=
  if scalarOids = [] then .ok [] else (agent.getCmd scalarOids).bind (responseVarbinds rt)

/-- `CollectorError` and `asyncio.CancelledError`, which pass through. -/
def passesThrough : Exc → Bool
  | .collector _ | .collectorAuthentication _ | .retryableCollector _ | .adCollection _
  | .adAuthorization _ | .targetApproval _ | .unknownCollector _ | .unifi _ | .snmpProtocol _
  | .cancelled => true
  | _ => false

/-- `except (CollectorError, asyncio.CancelledError): raise`, else `RetryableCollectorError`. -/
def translateError {α : Type} : Except Exc α → Except Exc α
  | .ok a => .ok a
  | .error e =>
    if passesThrough e then .error e
    else .error (.retryableCollector (str "SNMP transport failed"))

def tableLimitIssue : CollectorIssue := ⟨str "table_limit", str "SNMP table row limit reached"⟩

/-- `PySnmpTransport.collect`. The target is reached before the `try`. -/
def collect (agent : Agent) (cancelled : Nat → Bool) (scalarOids tableOids : List Str)
    (maxTableRows : Nat) : Except Exc SnmpResponse := do
  agent.create
  let s ← translateError do
    let values ← readScalars rt agent scalarOids
    readTables rt agent cancelled tableOids 0 ⟨values, maxTableRows, false⟩
  return ⟨s.values, if s.truncated then [tableLimitIssue] else [], s.truncated⟩

end

/-! ## Walks without errors -/

section

variable {rt : Runtime}

/-- The responses are in order, without an error, and hold these rows between them. -/
inductive Yields (rt : Runtime) : List (Except Exc Response) → List SnmpVarBind → Prop where
  | nil : Yields rt [] []
  | cons {response : Response} {batch rows : List SnmpVarBind}
      {responses : List (Except Exc Response)} (hbatch : responseVarbinds rt response = .ok batch)
      (hrest : Yields rt responses rows) : Yields rt (.ok response :: responses) (batch ++ rows)

/-- A walk takes its rows off the budget, however they are split, and marks a budget that is used
up. -/
theorem readWalk_yields {responses : List (Except Exc Response)} {rows : List SnmpVarBind}
    (h : Yields rt responses rows) {s : WalkState} (hs : s.truncated = false)
    (hpos : 0 < s.remaining) :
    readWalk rt responses s = .ok ⟨s.values ++ rows.take s.remaining, s.remaining - rows.length,
      decide (s.remaining ≤ rows.length)⟩ := by
  induction h generalizing s with
  | nil =>
    rw [readWalk, List.take_nil, List.append_nil, List.length_nil, Nat.sub_zero,
      decide_eq_false (by omega), ← hs]
  | @cons response batch rows responses hbatch _ ih =>
    rw [readWalk, Except.ok_bind, hbatch, Except.ok_bind]
    simp only [hs, Bool.false_or, List.length_append]
    by_cases hcut : s.remaining < batch.length
    · -- the budget ends inside the batch
      rw [if_pos hcut, List.length_take, Nat.min_eq_left hcut.le, if_pos (Nat.sub_self _),
        List.take_append_of_le_length hcut.le, decide_eq_true (by omega : s.remaining ≤ _)]
      congr 2
      omega
    · rw [if_neg hcut]
      have htake : (batch ++ rows).take s.remaining =
          batch ++ rows.take (s.remaining - batch.length) := by
        rw [List.take_append, List.take_of_length_le (by omega)]
      by_cases hend : s.remaining - batch.length = 0
      · rw [if_pos hend, htake, hend, List.take_zero, List.append_nil,
          decide_eq_true (by omega : s.remaining ≤ _)]
        congr 2
        omega
      · rw [if_neg hend, ih (decide_eq_false hcut) (Nat.pos_of_ne_zero hend), htake,
          List.append_assoc]
        simp only [WalkState.mk.injEq, Except.ok.injEq, true_and]
        exact ⟨by omega, decide_eq_decide.mpr (by omega)⟩

/-- Over all tables the budget takes the first rows of the concatenated walks. -/
theorem readTables_yields {agent : Agent} {cancelled : Nat → Bool}
    (hcancel : ∀ walked, cancelled walked = false) {roots : List Str} {walked : Nat}
    {walks : List (List SnmpVarBind)}
    (h : Forall₂ (fun p rows => ∀ n, 1 ≤ n → Yields rt (agent.bulkWalkCmd p.2 p.1 n) rows)
      (roots.zipIdx walked) walks) {s : WalkState} (hs : s.truncated = false)
    (hpos : 0 < s.remaining) :
    readTables rt agent cancelled roots walked s =
      .ok ⟨s.values ++ walks.flatten.take s.remaining, s.remaining - walks.flatten.length,
        decide (s.remaining ≤ walks.flatten.length)⟩ := by
  induction roots generalizing walked walks s with
  | nil =>
    obtain rfl : walks = [] := List.forall₂_nil_left_iff.mp h
    rw [readTables, List.flatten_nil, List.take_nil, List.append_nil, List.length_nil, Nat.sub_zero,
      decide_eq_false (by omega), ← hs]
  | cons root roots ih =>
    obtain ⟨rows, walks, hrows, hrest, rfl⟩ := List.forall₂_cons_left_iff.mp h
    have hwalk := readWalk_yields (hrows (min 25 s.remaining) (by omega)) hs hpos
    simp only at hwalk
    rw [readTables, hcancel, if_neg Bool.false_ne_true, if_neg (by omega), hwalk, Except.ok_bind]
    simp only [List.flatten_cons, List.length_append]
    by_cases hend : s.remaining ≤ rows.length
    · -- the budget ends inside this walk
      rw [if_pos (decide_eq_true hend), List.take_append_of_le_length hend, decide_eq_true hend,
        decide_eq_true (by omega : s.remaining ≤ _)]
      congr 2
      omega
    · have htake : (rows ++ walks.flatten).take s.remaining =
          rows ++ walks.flatten.take (s.remaining - rows.length) := by
        rw [List.take_append, List.take_of_length_le (by omega)]
      rw [if_neg (by rwa [decide_eq_true_eq]), ih hrest (decide_eq_false hend)
        (Nat.sub_pos_of_lt (Nat.lt_of_not_le hend)), htake, List.take_of_length_le (by omega : rows.length ≤ _),
        List.append_assoc]
      simp only [WalkState.mk.injEq, Except.ok.injEq, true_and]
      exact ⟨by omega, decide_eq_decide.mpr (by omega)⟩

/-- The response holds the scalars and as many rows of the walks as the budget has. It is marked
exactly when the budget is used up, so a row that is withheld is reported. -/
theorem collect_truncates {agent : Agent} {cancelled : Nat → Bool} {scalarOids tableOids : List Str}
    {maxTableRows : Nat} {scalars : List SnmpVarBind} {walks : List (List SnmpVarBind)}
    (hrows : 1 ≤ maxTableRows) (hcancel : ∀ walked, cancelled walked = false)
    (hcreate : agent.create = .ok ()) (hnone : scalarOids = [] → scalars = [])
    (hscalars : scalarOids ≠ [] → ∃ response, agent.getCmd scalarOids = .ok response ∧
      responseVarbinds rt response = .ok scalars)
    (hwalks : Forall₂ (fun p rows => ∀ n, 1 ≤ n → Yields rt (agent.bulkWalkCmd p.2 p.1 n) rows)
      tableOids.zipIdx walks) :
    ∃ response, collect rt agent cancelled scalarOids tableOids maxTableRows = .ok response ∧
      response.varbinds = scalars ++ walks.flatten.take maxTableRows ∧
      (response.truncated = true ↔ maxTableRows ≤ walks.flatten.length) ∧
      (response.varbinds ≠ scalars ++ walks.flatten →
        response.truncated = true ∧ tableLimitIssue ∈ response.issues) := by
  have hread : readScalars rt agent scalarOids = .ok scalars := by
    unfold readScalars
    split
    · next hempty => rw [hnone hempty]
    · next hne =>
      obtain ⟨response, hresponse, hvarbinds⟩ := hscalars hne
      rw [hresponse]
      exact hvarbinds
  have htables := readTables_yields hcancel hwalks
    (s := ⟨scalars, maxTableRows, false⟩) rfl hrows
  let truncated := decide (maxTableRows ≤ walks.flatten.length)
  refine ⟨⟨scalars ++ walks.flatten.take maxTableRows, if truncated then [tableLimitIssue] else [],
    truncated⟩, ?_, rfl, decide_eq_true_iff, fun hwithheld => ?_⟩
  · unfold collect
    rw [hcreate, Except.ok_bind, hread, Except.ok_bind, htables]
    rfl
  · have hcut : truncated = true := by
      rw [decide_eq_true_iff]
      by_contra hfits
      exact hwithheld (congrArg (scalars ++ ·) (List.take_of_length_le (by omega)))
    rw [if_pos hcut]
    exact ⟨hcut, List.mem_singleton_self _⟩

/-! ### Two tables, of which the second is cut -/

def sampleRow (oid value : String) : RawVarBind := ⟨str oid, str "OctetString", str value⟩

def sampleVarBind (oid value : String) : SnmpVarBind := { oid := str oid, value := str value }

theorem Yields.one {response : Response} {row : SnmpVarBind} {rows : List SnmpVarBind}
    {responses : List (Except Exc Response)} (h : responseVarbinds rt response = .ok [row])
    (hrest : Yields rt responses rows) : Yields rt (.ok response :: responses) (row :: rows) :=
  .cons h hrest

/-- An agent that answers with one batch for the first table and with two for the second, and with a
scalar. -/
def sampleAgent : Agent where
  create := .ok ()
  getCmd _ := .ok { varbinds := [sampleRow "1.0" "core"] }
  bulkWalkCmd
    | 0, _, _ => [.ok { varbinds := [sampleRow "1.1.1" "a"] }]
    | _, _, _ => [.ok { varbinds := [sampleRow "1.2.1" "b"] },
        .ok { varbinds := [sampleRow "1.2.2" "c"] }]

theorem collect_truncates_sample : ∃ response,
    collect (.ofDigests []) sampleAgent (fun _ => false) [str "1.0"] [str "1.1", str "1.2"] 2 =
        .ok response ∧
      response.varbinds =
        [sampleVarBind "1.0" "core", sampleVarBind "1.1.1" "a", sampleVarBind "1.2.1" "b"] ∧
      response.truncated = true ∧ tableLimitIssue ∈ response.issues := by
  have hwalks : Forall₂ (fun p rows => ∀ n, 1 ≤ n →
      Yields (.ofDigests []) (sampleAgent.bulkWalkCmd p.2 p.1 n) rows)
      [str "1.1", str "1.2"].zipIdx [[sampleVarBind "1.1.1" "a"],
        [sampleVarBind "1.2.1" "b", sampleVarBind "1.2.2" "c"]] :=
    .cons (fun _ _ => .one rfl .nil) (.cons (fun _ _ => .one rfl (.one rfl .nil)) .nil)
  obtain ⟨response, hrun, hvarbinds, -, hwithheld⟩ :=
    @collect_truncates (.ofDigests []) sampleAgent _ [str "1.0"] _ 2 [sampleVarBind "1.0" "core"] _
      (by decide) (fun _ => rfl) rfl (fun hempty => nomatch hempty) (fun _ => ⟨_, rfl, rfl⟩) hwalks
  refine ⟨response, hrun, hvarbinds, hwithheld ?_⟩
  rw [hvarbinds]
  decide

end

end FieldDiscovery.Snmp
