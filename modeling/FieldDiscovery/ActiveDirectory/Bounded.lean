import FieldDiscovery.ActiveDirectory.Ranges

/-!
# The number of searches

What `max_entries`, the limit of members and the number of groups say about the number of searches.
They bound the answers that make headway, and not the others: a server that sends an empty page with a
fresh cookie every time is asked forever.
-/

namespace FieldDiscovery.ActiveDirectory

open Py

section

variable (rt : Runtime) (printable : CodePoint → Bool)

/-- A call of `_run_query`, with what its server answers. -/
structure QueryCall where
  limits : Limits
  spec : QuerySpec
  server : ℕ → Response

/-- A call of `_expand_group_ranges`, with what its server answers. -/
structure ExpandCall where
  limits : Limits
  groups : List ADRecord
  server : ℕ → Response

/-- The query is over after at most `bound` searches. -/
def QueryCall.EndsWithin (call : QueryCall) (bound : ℕ) : Prop :=
  Answers.EndsWithin (queryStep rt printable call.limits call.spec) QueryRun.Final (.reading {})
    call.server bound

/-- The expansion is over after at most `bound` searches. -/
def ExpandCall.EndsWithin (call : ExpandCall) (bound : ℕ) : Prop :=
  Answers.EndsWithin (rangeStep rt printable call.limits) RangeRun.Final
    (enterGroups rt [] call.groups []) call.server bound

/-- Some function of the entry limit, the limit of members and the number of groups bounds the
searches of the calls. -/
def SearchesBounded (queries : Set QueryCall) (expansions : Set ExpandCall) : Prop :=
  ∃ f : ℕ → ℕ → ℕ → ℕ,
    (∀ call ∈ queries,
      call.EndsWithin rt printable (f call.limits.maxEntries maxAttributeValues 0)) ∧
    ∀ call ∈ expansions, call.EndsWithin rt printable
      (f call.limits.maxEntries maxAttributeValues call.groups.length)

/-- The pages among the first `n` that carry a fresh cookie and no new record. -/
def QueryCall.idleAnswers (call : QueryCall) (n : ℕ) : ℕ :=
  Answers.wasted (queryStep rt printable call.limits call.spec)
    (queryIdle rt printable call.limits call.spec) (.reading {}) call.server n

/-- The answers among the first `n` that keep a range going without a new record, or a group going
without a further member. -/
def ExpandCall.idleAnswers (call : ExpandCall) (n : ℕ) : ℕ :=
  Answers.wasted (rangeStep rt printable call.limits) (rangeIdle rt printable call.limits)
    (enterGroups rt [] call.groups []) call.server n

variable {rt printable}

/-! ## A server that never ends -/

/-- Empty pages, each with a longer cookie. -/
def endlessServer (n : ℕ) : Response :=
  .page { entries := [], cookie := List.replicate (n + 1) 0 }

/-- The query asks on: it has no record, and every cookie it saw is shorter than the next. -/
theorem after_endlessServer (rt : Runtime) (printable : CodePoint → Bool) (limits : Limits)
    (spec : QuerySpec) (n : ℕ) :
    ∃ q, Answers.after (queryStep rt printable limits spec) (.reading {}) endlessServer n =
      .reading q ∧ q.records = [] ∧ ∀ cookie ∈ q.seenCookies, cookie.length ≤ n := by
  induction n with
  | zero => exact ⟨{}, rfl, rfl, fun _ hmem => absurd hmem List.not_mem_nil⟩
  | succ n ih =>
    obtain ⟨q, hq, hrecords, hseen⟩ := ih
    have hfresh : List.replicate (n + 1) (0 : Byte) ∉ q.seenCookies := by
      intro hmem
      have hlength := hseen _ hmem
      rw [List.length_replicate] at hlength
      omega
    have hgo : ¬ (List.replicate (n + 1) (0 : Byte) = [] ∨
        limits.maxEntries ≤ q.records.length) := by
      have hpos := limits.maxEntries_pos
      simp only [List.replicate_succ, reduceCtorEq, hrecords, List.length_nil, false_or]
      omega
    refine ⟨{ q with
      issues := q.issues ++ []
      seenCookies := List.replicate (n + 1) 0 :: q.seenCookies
      cookie := List.replicate (n + 1) 0 }, ?_, hrecords, ?_⟩
    · show queryStep rt printable limits spec (Answers.after _ _ _ n) (endlessServer n) = _
      rw [hq]
      unfold queryStep endlessServer readPage
      simp only [readEntries, referralIssues, if_true]
      rw [if_neg hgo, if_neg hfresh]
    · intro cookie hmem
      rcases List.mem_cons.mp hmem with rfl | hmem
      · rw [List.length_replicate]
      · exact (hseen cookie hmem).trans n.le_succ

theorem not_searches_bounded :
    ¬ ∀ rt printable queries expansions, SearchesBounded rt printable queries expansions := by
  intro h
  obtain ⟨f, hf, -⟩ := h (Runtime.ofDigests []) isAscii Set.univ ∅
  let call : QueryCall :=
    ⟨⟨1, le_rfl, by decide⟩, ⟨str "user", [], [], [], [], "objectGUID"⟩, endlessServer⟩
  obtain ⟨n, -, hfinal⟩ := hf call trivial
  obtain ⟨q, hq, -⟩ := after_endlessServer (Runtime.ofDigests []) isAscii call.limits call.spec n
  rw [hq] at hfinal
  exact hfinal

/-! ## The bound -/

/-- Two families are bounded by one function when each of them is. -/
theorem exists_common_bound {ι κ : Type*} {P : ι → ℕ → Prop} {Q : κ → ℕ → Prop}
    (hP : ∀ i m n, m ≤ n → P i m → P i n) (hQ : ∀ i m n, m ≤ n → Q i m → Q i n)
    (I : Set ι) (K : Set κ) (size : ι → ℕ) (size' : κ → ℕ × ℕ) :
    (∃ f : ℕ → ℕ → ℕ → ℕ, (∀ i ∈ I, P i (f (size i) maxAttributeValues 0)) ∧
        ∀ k ∈ K, Q k (f (size' k).1 maxAttributeValues (size' k).2)) ↔
      (∃ f : ℕ → ℕ, ∀ i ∈ I, P i (f (size i))) ∧ ∃ f : ℕ × ℕ → ℕ, ∀ k ∈ K, Q k (f (size' k)) := by
  constructor
  · rintro ⟨f, hf, hf'⟩
    exact ⟨⟨fun n => f n maxAttributeValues 0, hf⟩,
      ⟨fun p => f p.1 maxAttributeValues p.2, hf'⟩⟩
  · rintro ⟨⟨f, hf⟩, ⟨f', hf'⟩⟩
    refine ⟨fun n _ m => max (f n) (f' (n, m)), fun i hi => ?_, fun k hk => ?_⟩
    · exact hP _ _ _ (le_max_left _ _) (hf i hi)
    · exact hQ _ _ _ (le_max_right _ _) (hf' k hk)

/-- The searches of any calls are bounded by the limits and the number of groups exactly when the
answers that make no headway are. -/
theorem searches_bounded_iff (rt : Runtime) (printable : CodePoint → Bool)
    (queries : Set QueryCall) (expansions : Set ExpandCall) :
    SearchesBounded rt printable queries expansions ↔ ∃ g : ℕ → ℕ → ℕ → ℕ,
      (∀ call ∈ queries, ∀ n,
        call.idleAnswers rt printable n ≤ g call.limits.maxEntries maxAttributeValues 0) ∧
      ∀ call ∈ expansions, ∀ n, call.idleAnswers rt printable n ≤
        g call.limits.maxEntries maxAttributeValues call.groups.length := by
  have hqueries := Answers.bounded_iff queries (fun call => call.limits.maxEntries)
    (fun _ => .reading {}) QueryCall.server (fun n => n + 1) (fun _ => 1)
    (fun call => query_potential rt printable call.limits call.spec) (fun _ => le_rfl)
    (fun _ => le_rfl)
  have hexpansions := Answers.bounded_iff expansions
    (fun call => (call.limits.maxEntries, call.groups.length))
    (fun call => enterGroups rt [] call.groups []) ExpandCall.server
    (fun p => p.2 * (maxAttributeValues + 1) * (p.1 + 2))
    (fun p => (maxAttributeValues + 1) * (p.1 + 2))
    (fun call => range_potential rt printable call.limits)
    (fun call => rangePotential_enterGroups rt call.limits [] call.groups []) (fun _ => le_rfl)
  unfold SearchesBounded
  rw [exists_common_bound
      (P := fun (call : QueryCall) n => call.EndsWithin rt printable n)
      (Q := fun (call : ExpandCall) n => call.EndsWithin rt printable n)
      (fun _ _ _ hmn h => h.mono hmn) (fun _ _ _ hmn h => h.mono hmn) queries expansions
      (fun call => call.limits.maxEntries)
      (fun call => (call.limits.maxEntries, call.groups.length)),
    exists_common_bound
      (P := fun (call : QueryCall) bound => ∀ n, call.idleAnswers rt printable n ≤ bound)
      (Q := fun (call : ExpandCall) bound => ∀ n, call.idleAnswers rt printable n ≤ bound)
      (fun _ _ _ hmn h n => (h n).trans hmn) (fun _ _ _ hmn h n => (h n).trans hmn) queries
      expansions (fun call => call.limits.maxEntries)
      (fun call => (call.limits.maxEntries, call.groups.length))]
  exact and_congr hqueries hexpansions

end

end FieldDiscovery.ActiveDirectory
