import Mathlib

/-!
# Loops that a server answers

A loop asks a server and moves on by each answer until it is final. The server is any sequence of
answers. A potential that every answer lowers bounds the number of questions; an answer that makes no
headway may raise it by a fixed amount, and then the bound counts these idle answers
(`Answers.le_of_not_final`). Over any family of loops, the number of questions is therefore bounded
by a size of the loop exactly when the number of idle answers is (`Answers.bounded_iff`).
-/

namespace Answers

variable {S A : Type*} (step : S → A → S) (idle : S → A → Bool)

/-- The state after the first `n` answers. -/
def after (s : S) (server : ℕ → A) : ℕ → S
  | 0 => s
  | n + 1 => step (after s server n) (server n)

/-- The idle ones among the first `n` answers. -/
def wasted (s : S) (server : ℕ → A) : ℕ → ℕ
  | 0 => 0
  | n + 1 => wasted s server n + if idle (after step s server n) (server n) then 1 else 0

/-- The loop is over after at most `bound` answers. -/
def EndsWithin (final : S → Prop) (s : S) (server : ℕ → A) (bound : ℕ) : Prop :=
  ∃ n ≤ bound, final (after step s server n)

/-- A final state takes no answer and wastes none; in every other state an answer lowers the
potential, an idle one up to `cost`. -/
structure Potential (final : S → Prop) (potential : S → ℕ) (cost : ℕ) : Prop where
  absorbing : ∀ s a, final s → step s a = s
  busy : ∀ s a, final s → idle s a = false
  lower : ∀ s a, ¬ final s →
    potential (step s a) + 1 ≤ potential s + if idle s a then cost else 0

variable {step idle} {final : S → Prop} {potential : S → ℕ} {cost : ℕ}

theorem Potential.after_eq (h : Potential step idle final potential cost) {s : S}
    {server : ℕ → A} {n : ℕ} (hn : final (after step s server n)) :
    ∀ m, n ≤ m → after step s server m = after step s server n := by
  intro m hm
  induction m, hm using Nat.le_induction with
  | base => rfl
  | succ m _ ih =>
    show step (after step s server m) (server m) = _
    rw [ih]
    exact h.absorbing _ _ hn

/-- The potential pays for every answer up to the end of the loop. -/
theorem Potential.potential_after (h : Potential step idle final potential cost) (s : S)
    (server : ℕ → A) : ∀ n, (∀ m < n, ¬ final (after step s server m)) →
      potential (after step s server n) + n ≤ potential s + cost * wasted step idle s server n
  | 0, _ => by simp [after, wasted]
  | n + 1, hn => by
    have ih := h.potential_after s server n fun m hm => hn m (hm.trans n.lt_succ_self)
    have hlower := h.lower _ (server n) (hn n n.lt_succ_self)
    simp only [after, wasted]
    split
    · next hidle =>
      rw [if_pos hidle] at hlower
      rw [Nat.mul_add, Nat.mul_one]
      omega
    · next hidle =>
      rw [if_neg hidle] at hlower
      simp only [Nat.add_zero]
      omega

/-- A loop that goes on has paid for its answers with its potential and with idle answers. -/
theorem Potential.le_of_not_final (h : Potential step idle final potential cost) {s : S}
    {server : ℕ → A} {n : ℕ} (hn : ¬ final (after step s server n)) :
    n ≤ potential s + cost * wasted step idle s server n := by
  have hbefore : ∀ m < n, ¬ final (after step s server m) := by
    intro m hm hfinal
    exact hn (h.after_eq hfinal n hm.le ▸ hfinal)
  exact (Nat.le_add_left _ _).trans (h.potential_after s server n hbefore)

theorem EndsWithin.mono {s : S} {server : ℕ → A} {m n : ℕ}
    (h : EndsWithin step final s server m) (hmn : m ≤ n) : EndsWithin step final s server n := by
  obtain ⟨k, hk, hfinal⟩ := h
  exact ⟨k, hk.trans hmn, hfinal⟩

/-- All idle answers come before the end of the loop. -/
theorem Potential.wasted_le (h : Potential step idle final potential cost) {s : S}
    {server : ℕ → A} {n : ℕ} (hn : final (after step s server n)) :
    ∀ m, wasted step idle s server m ≤ n := by
  intro m
  have hle : wasted step idle s server m ≤ min m n := by
    induction m with
    | zero => simp [wasted]
    | succ m ih =>
      unfold wasted
      by_cases hm : m < n
      · split <;> omega
      · have hfinal : final (after step s server m) := by
          rw [h.after_eq hn m (not_lt.mp hm)]
          exact hn
        rw [h.busy _ _ hfinal]
        simp only [Bool.false_eq_true, if_false]
        omega
  exact hle.trans (min_le_right _ _)

/-- Over a family of loops with potentials that a size bounds, the answers until the end are bounded
by the size exactly when the idle answers are. -/
theorem bounded_iff {ι σ : Type*} (family : Set ι) (size : ι → σ) (start : ι → S)
    (server : ι → ℕ → A) {cost : ι → ℕ} {potential : ι → S → ℕ} {step : ι → S → A → S}
    {idle : ι → S → A → Bool} (bound charge : σ → ℕ)
    (h : ∀ i, Potential (step i) (idle i) final (potential i) (cost i))
    (hbound : ∀ i, potential i (start i) ≤ bound (size i))
    (hcharge : ∀ i, cost i ≤ charge (size i)) :
    (∃ f : σ → ℕ, ∀ i ∈ family, EndsWithin (step i) final (start i) (server i) (f (size i))) ↔
      ∃ g : σ → ℕ, ∀ i ∈ family, ∀ n, wasted (step i) (idle i) (start i) (server i) n ≤
        g (size i) := by
  constructor
  · rintro ⟨f, hf⟩
    refine ⟨f, fun i hi m => ?_⟩
    obtain ⟨n, hn, hfinal⟩ := hf i hi
    exact ((h i).wasted_le hfinal m).trans hn
  · rintro ⟨g, hg⟩
    refine ⟨fun s => bound s + charge s * g s + 1, fun i hi => ⟨_, le_rfl, ?_⟩⟩
    by_contra hn
    have hle := (h i).le_of_not_final hn
    have hmul := Nat.mul_le_mul (hcharge i) (hg i hi (bound (size i) +
      charge (size i) * g (size i) + 1))
    dsimp only at hle
    have := hbound i
    omega

end Answers
