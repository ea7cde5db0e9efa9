import FieldDiscovery.Lib.Machine
import Mathlib.Algebra.Order.Ring.Nat
import Mathlib.Algebra.BigOperators.Group.List.Basic

/-!
# The effort of a run

A machine takes steps of its own and steps of its environment. A potential that the own steps lower
and the others do not raise bounds the own steps of a run (`Machine.countP_own_le`). The potential is
often a sum over the slots of a list of which a step sets one (`Py.sum_map_set`).
-/

namespace Machine

variable {S A : Type*} {step : S → A → Option S}

/-- The own steps of a run are paid for by its potential. -/
theorem countP_own_le {I : S → Prop} (own : A → Bool) (potential : S → ℕ)
    (hI : ∀ s a s', I s → step s a = some s' → I s')
    (hstep : ∀ s a s', I s → step s a = some s' → potential s' + (own a).toNat ≤ potential s)
    {s s' : S} {actions : List A} (hs : I s) (hrun : run step s actions = some s') :
    actions.countP own + potential s' ≤ potential s := by
  induction actions generalizing s with
  | nil =>
    cases hrun
    exact (Nat.zero_add _).le
  | cons a actions ih =>
    obtain ⟨s₁, h₁, hrest⟩ := run_cons.mp hrun
    have hlower := hstep s a s₁ hs h₁
    have htail := ih (hI s a s₁ hs h₁) hrest
    rw [List.countP_cons]
    cases hown : own a with
    | false =>
      rw [hown, Bool.toNat_false] at hlower
      rw [if_neg Bool.false_ne_true]
      omega
    | true =>
      rw [hown, Bool.toNat_true] at hlower
      rw [if_pos rfl]
      omega

end Machine

namespace Py

theorem sum_map_set {α : Type*} (f : α → ℕ) {l : List α} {i : ℕ} {a : α} (hi : l[i]? = some a)
    (a' : α) : ((l.set i a').map f).sum + f a = (l.map f).sum + f a' := by
  induction l generalizing i with
  | nil => cases hi
  | cons b l ih =>
    cases i with
    | zero =>
      cases hi
      rw [List.set_cons_zero, List.map_cons, List.map_cons, List.sum_cons, List.sum_cons]
      omega
    | succ i =>
      have htail := ih hi
      rw [List.set_cons_succ, List.map_cons, List.map_cons, List.sum_cons, List.sum_cons]
      omega

end Py
