import Mathlib.Data.List.Basic

/-!
# Lists woven into one

`Woven l r w`: the list `w` is made of the elements of `l` and of `r`, those of each in their order.
What is computed element by element from `w` is woven of what is computed from `l` and from `r`
(`Woven.flatMap`).
-/

variable {α β : Type*}

inductive Woven : List α → List α → List α → Prop where
  | nil : Woven [] [] []
  | left {a : α} {l r w : List α} : Woven l r w → Woven (a :: l) r (a :: w)
  | right {a : α} {l r w : List α} : Woven l r w → Woven l (a :: r) (a :: w)

namespace Woven

variable {l r w : List α}

theorem mem_iff (h : Woven l r w) {a : α} : a ∈ w ↔ a ∈ l ∨ a ∈ r := by
  induction h with
  | nil => simp
  | left _ ih => rw [List.mem_cons, List.mem_cons, ih, or_assoc]
  | right _ ih => rw [List.mem_cons, List.mem_cons, ih, or_left_comm]

/-- What holds of all elements holds of those of both lists. -/
theorem forall_iff (h : Woven l r w) {p : α → Prop} :
    (∀ a ∈ w, p a) ↔ (∀ a ∈ l, p a) ∧ ∀ a ∈ r, p a := by
  simp only [h.mem_iff, or_imp, forall_and]

theorem append_left (h : Woven l r w) (front : List α) : Woven (front ++ l) r (front ++ w) := by
  induction front with
  | nil => exact h
  | cons a front ih => exact ih.left

theorem append_right (h : Woven l r w) (front : List α) : Woven l (front ++ r) (front ++ w) := by
  induction front with
  | nil => exact h
  | cons a front ih => exact ih.right

theorem flatMap (h : Woven l r w) (f : α → List β) :
    Woven (l.flatMap f) (r.flatMap f) (w.flatMap f) := by
  induction h with
  | nil => exact nil
  | @left a _ _ _ _ ih => exact ih.append_left (f a)
  | @right a _ _ _ _ ih => exact ih.append_right (f a)

end Woven
