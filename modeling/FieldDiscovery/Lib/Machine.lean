import Mathlib.Data.List.Basic

/-!
# Runs of a machine

A machine takes actions; an action that is not enabled gives `none`. `Along P` says that every action
of a run meets `P` in the state where it is taken. An invariant that every such action preserves holds
at the end of the run (`run_invariant`).
-/

namespace Machine

variable {S A : Type*} (step : S → A → Option S)

/-- The state after the actions. -/
def run (s : S) (actions : List A) : Option S := actions.foldlM step s

/-- Every action meets `P` in the state where it is taken. -/
def Along (P : S → A → Prop) : S → List A → Prop
  | _, [] => True
  | s, a :: actions => P s a ∧ ∀ s', step s a = some s' → Along P s' actions

instance decidableAlong (P : S → A → Prop) [∀ s a, Decidable (P s a)] :
    ∀ (s : S) (actions : List A), Decidable (Along step P s actions)
  | _, [] => isTrue trivial
  | s, a :: actions =>
    match h : step s a with
    | none => decidable_of_iff (P s a) (by simp [Along, h])
    | some s' =>
      have := decidableAlong P s' actions
      decidable_of_iff (P s a ∧ Along step P s' actions) (by simp [Along, h])

variable {step}

@[simp] theorem run_nil (s : S) : run step s [] = some s := rfl

theorem run_cons {s s' : S} {a : A} {actions : List A} :
    run step s (a :: actions) = some s' ↔
      ∃ s₁, step s a = some s₁ ∧ run step s₁ actions = some s' := by
  unfold run
  rw [List.foldlM_cons, Option.bind_eq_bind, Option.bind_eq_some_iff]

theorem run_append {s s' : S} {as bs : List A} :
    run step s (as ++ bs) = some s' ↔
      ∃ s₁, run step s as = some s₁ ∧ run step s₁ bs = some s' := by
  unfold run
  rw [List.foldlM_append, Option.bind_eq_bind, Option.bind_eq_some_iff]

variable {P : S → A → Prop}

theorem along_append {s : S} {as bs : List A} : Along step P s (as ++ bs) ↔
    Along step P s as ∧ ∀ s', run step s as = some s' → Along step P s' bs := by
  induction as generalizing s with
  | nil => simp [Along]
  | cons a as ih =>
    simp only [List.cons_append, Along, ih, run_cons]
    constructor
    · rintro ⟨ha, h⟩
      exact ⟨⟨ha, fun s₁ hs₁ => (h s₁ hs₁).1⟩, fun s' ⟨s₁, hs₁, hs'⟩ => (h s₁ hs₁).2 s' hs'⟩
    · rintro ⟨⟨ha, h⟩, h'⟩
      exact ⟨ha, fun s₁ hs₁ => ⟨h s₁ hs₁, fun s' hs' => h' s' ⟨s₁, hs₁, hs'⟩⟩⟩

theorem along_of_forall {Q : A → Prop} {s : S} {actions : List A} (h : ∀ a ∈ actions, Q a) :
    Along step (fun _ a => Q a) s actions := by
  induction actions generalizing s with
  | nil => trivial
  | cons a actions ih =>
    exact ⟨h a List.mem_cons_self, fun s' _ => ih fun b hb => h b (List.mem_cons_of_mem _ hb)⟩

/-- What every action of the run preserves holds at its end. -/
theorem run_invariant {I : S → Prop}
    (hstep : ∀ s a s', I s → P s a → step s a = some s' → I s') {s s' : S} {actions : List A}
    (hs : I s) (halong : Along step P s actions) (hrun : run step s actions = some s') : I s' := by
  induction actions generalizing s with
  | nil =>
    cases hrun
    exact hs
  | cons a actions ih =>
    obtain ⟨s₁, h₁, hrun⟩ := run_cons.mp hrun
    exact ih (hstep s a s₁ hs halong.1 h₁) (halong.2 s₁ h₁) hrun

/-- What a step keeps exactly when its action meets `P` holds throughout a run exactly when every
action does. -/
theorem throughout_iff {I J : S → Prop} (hI : ∀ s a s', I s → step s a = some s' → I s')
    (hJ : ∀ s a s', I s → J s → step s a = some s' → (J s' ↔ P s a)) {s s' : S}
    {actions : List A} (hs : I s) (hs' : J s) (hrun : run step s actions = some s') :
    (∀ front, front <+: actions → ∀ t, run step s front = some t → J t) ↔
      Along step P s actions := by
  induction actions generalizing s with
  | nil =>
    refine iff_of_true (fun front hfront t ht => ?_) trivial
    rw [List.prefix_nil.mp hfront] at ht
    cases ht
    exact hs'
  | cons a actions ih =>
    obtain ⟨s₁, h₁, hrest⟩ := run_cons.mp hrun
    have hstep := hJ s a s₁ hs hs' h₁
    have hI₁ := hI s a s₁ hs h₁
    constructor
    · intro h
      have hone : J s₁ := h [a] ⟨actions, rfl⟩ s₁ (run_cons.mpr ⟨s₁, h₁, rfl⟩)
      refine ⟨hstep.mp hone, fun s₂ h₂ => ?_⟩
      cases h₁.symm.trans h₂
      refine (ih hI₁ hone hrest).mp fun front hfront t ht => ?_
      exact h (a :: front) (List.cons_prefix_cons.mpr ⟨rfl, hfront⟩) t (run_cons.mpr ⟨s₁, h₁, ht⟩)
    · intro h front hfront t ht
      cases front with
      | nil =>
        cases ht
        exact hs'
      | cons b front =>
        obtain ⟨hb, hrestFront⟩ := List.cons_prefix_cons.mp hfront
        obtain ⟨s₂, h₂, ht⟩ := run_cons.mp ht
        rw [hb] at h₂
        cases h₁.symm.trans h₂
        exact (ih hI₁ (hstep.mpr h.1) hrest).mpr (h.2 s₁ h₁) front hrestFront t ht

/-- A measure that every action lowers bounds the length of a run. -/
theorem run_length_le (measure : S → ℕ)
    (hstep : ∀ s a s', step s a = some s' → measure s' < measure s) {s s' : S} {actions : List A}
    (hrun : run step s actions = some s') : actions.length + measure s' ≤ measure s := by
  induction actions generalizing s with
  | nil =>
    cases hrun
    simp
  | cons a actions ih =>
    obtain ⟨s₁, h₁, hrun⟩ := run_cons.mp hrun
    have hlower := hstep s a s₁ h₁
    have hrest := ih hrun
    rw [List.length_cons]
    omega

end Machine
