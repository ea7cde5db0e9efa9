import Mathlib.Data.List.Basic

/-!
# Joining with a separator

A pair of lists is written as one list with a separator between them. The separator may occur in the
parts, and then another pair may be written the same: two pairs are joined alike exactly when they
are equal or a piece that ends at a separator has moved from one part to the other
(`joined_eq_iff`). Any number of parts are joined alike exactly when they have the same pieces between
separators (`intercalate_eq_iff`). The pieces of one list start those of another exactly when the one
list, with a separator behind it, starts the other (`splitOn_prefix_iff`).
-/

namespace Separated

variable {α : Type*} {sep : α}

/-- The parts with a separator between them. -/
def joined (sep : α) (p : List α × List α) : List α := p.1 ++ sep :: p.2

/-- A piece of the second part has moved to the end of the first. -/
def Shifts (sep : α) (p q : List α × List α) : Prop :=
  ∃ piece, q.1 = p.1 ++ sep :: piece ∧ p.2 = piece ++ sep :: q.2

variable {p q : List α × List α}

theorem Shifts.joined_eq (h : Shifts sep p q) : joined sep p = joined sep q := by
  obtain ⟨piece, hfirst, hsecond⟩ := h
  unfold joined
  rw [hfirst, hsecond, List.append_assoc, List.cons_append]

/-- A pair does not shift to one whose first part is as short. -/
theorem Shifts.length_lt (h : Shifts sep p q) : p.1.length < q.1.length := by
  obtain ⟨piece, hfirst, -⟩ := h
  rw [hfirst, List.length_append, List.length_cons]
  omega

theorem joined_eq_iff :
    joined sep p = joined sep q ↔ p = q ∨ Shifts sep p q ∨ Shifts sep q p := by
  constructor
  · intro h
    obtain ⟨a, b⟩ := p
    obtain ⟨c, d⟩ := q
    rcases List.append_eq_append_iff.mp h with ⟨piece, hfirst, hsecond⟩ | ⟨piece, hfirst, hsecond⟩
    · cases piece with
      | nil =>
        rw [List.append_nil] at hfirst
        rw [List.nil_append] at hsecond
        exact .inl (Prod.ext hfirst.symm (List.cons.inj hsecond).2)
      | cons x piece =>
        obtain ⟨rfl, htail⟩ := List.cons.inj hsecond
        exact .inr (.inl ⟨piece, hfirst, htail⟩)
    · cases piece with
      | nil =>
        rw [List.append_nil] at hfirst
        rw [List.nil_append] at hsecond
        exact .inl (Prod.ext hfirst (List.cons.inj hsecond).2.symm)
      | cons x piece =>
        obtain ⟨rfl, htail⟩ := List.cons.inj hsecond
        exact .inr (.inr ⟨piece, hfirst, htail⟩)
  · rintro (rfl | h | h)
    · rfl
    · exact h.joined_eq
    · exact h.joined_eq.symm

/-- First parts without the separator are told apart. -/
theorem joined_inj (hp : sep ∉ p.1) (hq : sep ∉ q.1) : joined sep p = joined sep q ↔ p = q := by
  rw [joined_eq_iff]
  refine ⟨?_, Or.inl⟩
  rintro (h | ⟨piece, hfirst, -⟩ | ⟨piece, hfirst, -⟩)
  · exact h
  · exact absurd (hfirst ▸ List.mem_append_right _ List.mem_cons_self) hq
  · exact absurd (hfirst ▸ List.mem_append_right _ List.mem_cons_self) hp

/-! ## Any number of parts -/

variable [DecidableEq α]

/-- The pieces between separators, in the parts and between them; no parts are one empty piece. -/
def pieces (sep : α) (parts : List (List α)) : List (List α) :=
  if parts = [] then [[]] else parts.flatMap (List.splitOn sep)

theorem splitOn_intercalate (parts : List (List α)) :
    ([sep].intercalate parts).splitOn sep = pieces sep parts := by
  unfold pieces
  induction parts with
  | nil => rfl
  | cons a parts ih =>
    cases parts with
    | nil => simp
    | cons b parts =>
      rw [List.intercalate_cons_cons, List.append_assoc, List.singleton_append,
        List.splitOn_append_cons_of_beq _ _ (beq_self_eq_true sep), ih]
      simp

theorem intercalate_eq_iff {parts parts' : List (List α)} :
    [sep].intercalate parts = [sep].intercalate parts' ↔ pieces sep parts = pieces sep parts' := by
  rw [← splitOn_intercalate, ← splitOn_intercalate]
  constructor
  · exact congrArg _
  · intro h
    have hsplit : ∀ l : List α, [sep].intercalate (l.splitOn sep) = l := fun _ =>
      List.intercalate_splitOn sep
    rw [← hsplit ([sep].intercalate parts), h, hsplit]

theorem length_splitOn (l : List α) : (l.splitOn sep).length = l.count sep + 1 := by
  induction l with
  | nil => rfl
  | cons a l ih =>
    rw [List.splitOn_cons_eq_if_modifyHead, List.count_cons]
    split
    · rw [List.length_cons, ih]
    · rw [List.length_modifyHead, ih, Nat.add_zero]

theorem length_pieces {parts : List (List α)} (h : parts ≠ []) :
    (pieces sep parts).length = parts.flatten.count sep + parts.length := by
  unfold pieces
  rw [if_neg h]
  clear h
  induction parts with
  | nil => rfl
  | cons a parts ih =>
    rw [List.flatMap_cons, List.length_append, length_splitOn, ih, List.flatten_cons,
      List.count_append, List.length_cons]
    omega

/-- There are as many pieces as parts exactly when no part holds the separator. -/
theorem length_pieces_eq_iff {parts : List (List α)} (h : parts ≠ []) :
    (pieces sep parts).length = parts.length ↔ ∀ part ∈ parts, sep ∉ part := by
  rw [length_pieces h, Nat.add_eq_right, List.count_eq_zero]
  simp

/-! ## Prefixes of pieces -/

theorem splitOn_injective {l m : List α} (h : l.splitOn sep = m.splitOn sep) : l = m := by
  have hjoin := congrArg (List.intercalate [sep]) h
  rwa [List.intercalate_splitOn, List.intercalate_splitOn] at hjoin

omit [DecidableEq α] in
theorem intercalate_append {parts parts' : List (List α)} (h : parts ≠ []) (h' : parts' ≠ []) :
    [sep].intercalate (parts ++ parts') =
      [sep].intercalate parts ++ sep :: [sep].intercalate parts' := by
  induction parts with
  | nil => exact absurd rfl h
  | cons a parts ih =>
    rw [List.cons_append, List.intercalate_cons_of_ne_nil (by simp [h'])]
    cases parts with
    | nil => rw [List.nil_append, List.intercalate_singleton, List.append_assoc]; rfl
    | cons b parts =>
      rw [ih (List.cons_ne_nil _ _), List.intercalate_cons_cons]
      simp only [List.append_assoc]

theorem splitOn_prefix_iff {l m : List α} :
    l.splitOn sep <+: m.splitOn sep ↔ l = m ∨ l ++ [sep] <+: m := by
  constructor
  · rintro ⟨more, hmore⟩
    cases more with
    | nil =>
      rw [List.append_nil] at hmore
      exact .inl (splitOn_injective hmore)
    | cons a more =>
      have hjoin := congrArg (List.intercalate [sep]) hmore
      rw [intercalate_append (List.splitOn_ne_nil sep l) (List.cons_ne_nil _ _),
        List.intercalate_splitOn, List.intercalate_splitOn] at hjoin
      exact .inr ⟨[sep].intercalate (a :: more), by rw [← hjoin, List.append_assoc]; rfl⟩
  · rintro (rfl | ⟨rest, rfl⟩)
    · exact List.prefix_rfl
    · rw [List.append_assoc, List.singleton_append, List.splitOn_append_cons_self]
      exact List.prefix_append ..

/-- Of two lists whose pieces start those of a third, the one with fewer pieces is shorter. -/
theorem splitOn_prefix_length {k l m : List α} (hk : k.splitOn sep <+: m.splitOn sep)
    (hl : l.splitOn sep <+: m.splitOn sep) :
    k.length < l.length ↔ (k.splitOn sep).length < (l.splitOn sep).length := by
  have hlonger : ∀ {k l : List α}, k.splitOn sep <+: l.splitOn sep →
      (k.splitOn sep).length < (l.splitOn sep).length → k.length < l.length := by
    intro k l hstarts hlt
    rcases splitOn_prefix_iff.mp hstarts with rfl | hstarts
    · exact absurd hlt (Nat.lt_irrefl _)
    · have hle := hstarts.length_le
      rw [List.length_append, List.length_singleton] at hle
      omega
  refine ⟨fun hlt => ?_, fun hlt => hlonger (List.prefix_of_prefix_length_le hk hl (Nat.le_of_lt hlt)) hlt⟩
  by_contra hge
  have hstarts := List.prefix_of_prefix_length_le hl hk (Nat.le_of_not_lt hge)
  rcases Nat.lt_or_eq_of_le (Nat.le_of_not_lt hge) with hlt' | heq
  · exact absurd (hlonger hstarts hlt') (by omega)
  · rw [splitOn_injective (hstarts.eq_of_length heq)] at hlt
    exact absurd hlt (Nat.lt_irrefl _)

end Separated
