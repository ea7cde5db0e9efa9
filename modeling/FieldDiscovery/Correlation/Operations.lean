import FieldDiscovery.Lib.UnionFindRuns
import FieldDiscovery.Correlation.Partition

/-!
# The calls of a correlation

The `find` and `union` calls that `correlate` makes on one batch, in their order
(`correlationCalls`). After each of them the parent table is as `Grouping` says, and the devices are
the closure of the pairs that all of them unite (`correlate_groups`).
-/

namespace FieldDiscovery.Correlation

open Py UnionFind

/-! ## The calls -/

/-- `if find(first_id) == find(other_id): continue`, and else `union(first_id, other_id)`. -/
def mergeStepCalls (fuel : Nat) (first : Claim) (st : MergeState) (other : Claim) :
    List (Operation Str) :=
  let (parent, firstRoot) := find fuel st.parent first.1
  let (_, otherRoot) := find fuel parent other.1
  [.find first.1, .find other.1] ++
    if firstRoot = otherRoot then [] else [.union first.1 other.1]

/-- The calls of one key. -/
def mergeKeyCalls (fuel : Nat) (st : MergeState) (entry : Str × List Claim) :
    List (Operation Str) :=
  match sortedBy Prod.fst entry.2 with
  | [] => []
  | first :: rest => callsOf (mergeStep fuel entry.1 first) (mergeStepCalls fuel first) st rest

/-- The calls of the merge loop. -/
def mergeCalls (ordered : List DeviceObservation) : List (Operation Str) :=
  callsOf (mergeKey ordered.length) (mergeKeyCalls ordered.length)
    { parent := fun id => id, decisions := [] } (sortedBy Prod.fst (stableIndex ordered))

/-- `groups[find(observation.observation_id)]`, for every observation. -/
def groupCalls (ordered : List DeviceObservation) : List (Operation Str) :=
  ordered.map fun o => .find o.id

/-- Every call of `correlate`. -/
def correlationCalls (observations : List DeviceObservation) : List (Operation Str) :=
  mergeCalls (ordered observations) ++ groupCalls (ordered observations)

/-! ## The table they leave -/

theorem run_mergeStepCalls (fuel : Nat) (key : Str) (first : Claim) (st : MergeState)
    (other : Claim) : run fuel st.parent (mergeStepCalls fuel first st other) =
      (mergeStep fuel key first st other).parent := by
  simp only [mergeStepCalls, mergeStep, run_append]
  split <;> rfl

theorem run_mergeKeyCalls (fuel : Nat) (st : MergeState) (entry : Str × List Claim) :
    run fuel st.parent (mergeKeyCalls fuel st entry) = (mergeKey fuel st entry).parent := by
  unfold mergeKeyCalls mergeKey
  cases sortedBy Prod.fst entry.2 with
  | nil => rfl
  | cons first rest => exact run_callsOf (run_mergeStepCalls fuel entry.1 first) st rest

/-- The merge loop leaves the table that its calls leave. -/
theorem run_mergeCalls (ordered : List DeviceObservation) :
    run ordered.length (fun id => id) (mergeCalls ordered) = (merge ordered).parent :=
  run_callsOf (run_mergeKeyCalls ordered.length) { parent := fun id => id, decisions := [] }
    (sortedBy Prod.fst (stableIndex ordered))

/-- The roots that the grouping loop reads are those that its calls return. -/
theorem groupLoop_eq_run (fuel : Nat) (parent : Str → Str) (l : List DeviceObservation) :
    groupLoop fuel parent l = (List.range l.length).zipWith
      (fun i o => ((find fuel (run fuel parent (groupCalls (l.take i))) o.id).2, o)) l := by
  induction l generalizing parent with
  | nil => rfl
  | cons o l ih =>
    simp only [groupLoop]
    rw [ih, List.length_cons, List.range_succ_eq_map, List.zipWith_cons_cons,
      List.zipWith_map_left]
    rfl

/-! ## Their items -/

section

variable {observations : List DeviceObservation}

theorem mem_registered_of_index {entry : Str × List Claim}
    (hentry : entry ∈ sortedBy Prod.fst (stableIndex (ordered observations))) {c : Claim}
    (hc : c ∈ sortedBy Prod.fst entry.2) : c.1 ∈ registered observations := by
  rw [mem_sortedBy, groupBy_group (mem_sortedBy.mp hentry)] at hc
  obtain ⟨o, ho, hid, -⟩ := mem_stableClaims.mp (List.mem_filter.mp hc).1
  exact mem_registered.mpr ⟨o, mem_ordered.mp ho, hid.symm⟩

theorem mem_registered_of_mergeStepCalls {fuel : Nat} {first other : Claim} {st : MergeState}
    (hfirst : first.1 ∈ registered observations) (hother : other.1 ∈ registered observations) :
    ∀ op ∈ mergeStepCalls fuel first st other, ∀ x ∈ op.items, x ∈ registered observations := by
  have hpair : ∀ x ∈ [first.1, other.1], x ∈ registered observations :=
    List.forall_mem_cons.mpr ⟨hfirst, List.forall_mem_singleton.mpr hother⟩
  intro op hop x hx
  simp only [mergeStepCalls, List.mem_append, List.mem_cons, List.not_mem_nil, or_false] at hop
  rcases hop with (rfl | rfl) | hop
  · exact hpair x (List.mem_singleton.mp hx ▸ List.mem_cons_self)
  · exact hpair x (List.mem_singleton.mp hx ▸ List.mem_cons_of_mem _ List.mem_cons_self)
  · split at hop
    · cases hop
    · obtain rfl := List.mem_singleton.mp hop
      exact hpair x hx

/-- Every call is about registered observations. -/
theorem mem_registered_of_calls :
    ∀ op ∈ correlationCalls observations, ∀ x ∈ op.items, x ∈ registered observations := by
  intro op hop
  rcases List.mem_append.mp hop with hop | hop
  · refine forall_callsOf (P := fun op => ∀ x ∈ op.items, x ∈ registered observations)
      (fun st entry hentry => ?_) _ op hop
    have hids := fun c => mem_registered_of_index (c := c) hentry
    unfold mergeKeyCalls
    generalize sortedBy Prod.fst entry.2 = claims at hids
    cases claims with
    | nil => rintro op ⟨⟩
    | cons first rest =>
      refine forall_callsOf (fun st' other hother => ?_) st
      exact mem_registered_of_mergeStepCalls (hids first List.mem_cons_self)
        (hids other (List.mem_cons_of_mem _ hother))
  · obtain ⟨o, ho, rfl⟩ := List.mem_map.mp hop
    intro x hx
    exact mem_registered.mpr ⟨o, mem_ordered.mp ho, (List.mem_singleton.mp hx).symm⟩

@[simp] theorem united_groupCalls (l : List DeviceObservation) : united (groupCalls l) = [] := by
  induction l with
  | nil => rfl
  | cons o l ih => exact ih

/-- Two observations end at one root exactly when the unions of the calls link them. -/
theorem finalRoot_eq_iff_merged {a b : DeviceObservation} :
    finalRoot observations a = finalRoot observations b ↔
      Merged (united (correlationCalls observations)) a.id b.id := by
  have hitems : ∀ op ∈ mergeCalls (ordered observations), ∀ x ∈ op.items,
      x ∈ registered observations :=
    fun op hop => mem_registered_of_calls op (List.mem_append_left _ hop)
  have hgrouping := (run_grouping (card_registered_le observations) hitems).2
  rw [run_mergeCalls] at hgrouping
  rw [correlationCalls, united_append, united_groupCalls, List.append_nil]
  exact hgrouping.closure a.id b.id

end

/-! ## Main theorem -/

/-- However far a correlation has come in its calls, they have all returned; no parent stands above
its item, `find` ends from everywhere and changes no class, every class has its least ID as its
root, and the classes are the closure of the united pairs. The devices of an accepted batch are the
closure of all of them. -/
theorem correlate_groups (observations : List DeviceObservation) :
    (∀ calls, calls <+: correlationCalls observations →
      Runs (fun id => id) calls (run (ordered observations).length (fun id => id) calls) ∧
      Grouping (registered observations) (run (ordered observations).length (fun id => id) calls)
        (united calls)) ∧
    ∀ (rt : Runtime) (so : SetOrder) (r : CorrelationResult),
      correlate rt so observations = .ok r → ∀ a ∈ observations, ∀ b ∈ observations,
        (SameDevice r a.id b.id ↔ Merged (united (correlationCalls observations)) a.id b.id) := by
  constructor
  · intro calls hcalls
    exact run_grouping (card_registered_le observations)
      fun op hop => mem_registered_of_calls op (hcalls.subset hop)
  · intro rt so r h a ha b hb
    rw [(correlate_accepted h).sameDevice_iff_root ha hb, finalRoot_eq_iff_merged]

theorem correlate_groups_sample :
    ∃ r, correlate Sample.runtime .insertion [Sample.c, Sample.b, Sample.a] = .ok r ∧
      united (correlationCalls [Sample.c, Sample.b, Sample.a]) = [(str "a", str "b")] ∧
      SameDevice r (str "a") (str "b") := by
  obtain ⟨r, h⟩ := Except.exists_of_isOk (by decide +kernel :
    (correlate Sample.runtime .insertion [Sample.c, Sample.b, Sample.a]).isOk = true)
  have hunited : united (correlationCalls [Sample.c, Sample.b, Sample.a]) =
      [(str "a", str "b")] := by decide +kernel
  refine ⟨r, h, hunited, ?_⟩
  refine ((correlate_groups _).2 _ _ r h Sample.a (by simp) Sample.b (by simp)).mpr ?_
  rw [hunited]
  exact .rel _ _ List.mem_cons_self

end FieldDiscovery.Correlation
