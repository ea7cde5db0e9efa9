import FieldDiscovery.Lib.Except
import FieldDiscovery.Lib.Table

/-!
# Runs that are repeated on what they left

A step reads and extends a store and keeps variables of its own. It replays when a second run over
any store that holds what the first one left finds every row in its place: nothing is written, and
the variables end as they did. Steps that replay compose to loops that replay. And as a store only
grows, a loop leaves it as it was exactly when none of its steps has anything to write.
-/

namespace Py

variable {σ δ ε α : Type*}

section

variable [Preorder δ] {get : σ → δ} {put : σ → δ → σ}

/-- A run of the step only extends the store, and then a run of the second step over any extension of
what it left changes nothing but the variables. -/
def Replayed (get : σ → δ) (put : σ → δ → σ) (step again : σ → Except ε σ) : Prop :=
  ∀ s s', step s = .ok s' → get s ≤ get s' ∧ ∀ d, get s' ≤ d → again (put s d) = .ok (put s' d)

/-- The second step is the first one. -/
abbrev Replays (get : σ → δ) (put : σ → δ → σ) (step : σ → Except ε σ) : Prop :=
  Replayed get put step step

theorem Replayed.foldlM {step again : σ → α → Except ε σ} {l : List α}
    (h : ∀ a ∈ l, Replayed get put (fun s => step s a) fun s => again s a) :
    Replayed get put (fun s => l.foldlM step s) fun s => l.foldlM again s := by
  induction l with
  | nil =>
    rintro s s' ⟨⟩
    exact ⟨le_rfl, fun _ _ => rfl⟩
  | cons a l ih =>
    intro s s' hrun
    simp only [List.foldlM_cons] at hrun ⊢
    obtain ⟨s₁, hfirst, hrest⟩ := Except.bind_eq_ok.mp hrun
    obtain ⟨hle₁, hagain₁⟩ := h a List.mem_cons_self s s₁ hfirst
    obtain ⟨hle₂, hagain₂⟩ := ih (fun a ha => h a (List.mem_cons_of_mem _ ha)) s₁ s' hrest
    refine ⟨hle₁.trans hle₂, fun d hd => ?_⟩
    exact Except.bind_eq_ok.mpr ⟨put s₁ d, hagain₁ d (hle₂.trans hd), hagain₂ d hd⟩

end

/-- Every step of a run that ends has been taken. -/
theorem exists_step_of_foldlM {step : σ → α → Except ε σ} {l : List α} {s s' : σ}
    (h : l.foldlM step s = .ok s') {a : α} (ha : a ∈ l) : ∃ s₁ s₂, step s₁ a = .ok s₂ := by
  induction l generalizing s with
  | nil => cases ha
  | cons b l ih =>
    rw [List.foldlM_cons] at h
    obtain ⟨s₁, hfirst, hrest⟩ := Except.bind_eq_ok.mp h
    rcases List.mem_cons.mp ha with rfl | ha
    · exact ⟨s, s₁, hfirst⟩
    · exact ih hrest ha

/-! ## Runs that write nothing -/

section

variable [PartialOrder δ] {get : σ → δ} {step : σ → α → Except ε σ} {l : List α}

/-- The store only grows. -/
def Grows (get : σ → δ) (step : σ → Except ε σ) : Prop :=
  ∀ s s', step s = .ok s' → get s ≤ get s'

theorem Grows.foldlM (h : ∀ a ∈ l, Grows get fun s => step s a) :
    Grows get fun s => l.foldlM step s := by
  induction l with
  | nil =>
    rintro s s' ⟨⟩
    exact le_rfl
  | cons a l ih =>
    intro s s' hrun
    simp only [List.foldlM_cons] at hrun
    obtain ⟨s₁, hfirst, hrest⟩ := Except.bind_eq_ok.mp hrun
    exact (h a List.mem_cons_self s s₁ hfirst).trans
      (ih (fun a ha => h a (List.mem_cons_of_mem _ ha)) s₁ s' hrest)

/-- A loop leaves the store as it was exactly when every step has nothing to write there. -/
theorem Grows.foldlM_quiet_iff (h : ∀ a ∈ l, Grows get fun s => step s a) {d : δ} {Q : α → Prop}
    (hquiet : ∀ a ∈ l, ∀ s s', get s = d → step s a = .ok s' → (get s' = d ↔ Q a)) {s s' : σ}
    (hs : get s = d) (hrun : l.foldlM step s = .ok s') : get s' = d ↔ ∀ a ∈ l, Q a := by
  induction l generalizing s with
  | nil =>
    cases hrun
    exact iff_of_true hs (by simp)
  | cons a l ih =>
    rw [List.foldlM_cons] at hrun
    obtain ⟨s₁, hfirst, hrest⟩ := Except.bind_eq_ok.mp hrun
    have htail : ∀ a ∈ l, Grows get fun s => step s a :=
      fun a ha => h a (List.mem_cons_of_mem _ ha)
    have hhead := hquiet a List.mem_cons_self s s₁ hs hfirst
    have hlast := fun hs₁ : get s₁ = d =>
      ih htail (fun a ha => hquiet a (List.mem_cons_of_mem _ ha)) hs₁ hrest
    rw [List.forall_mem_cons]
    constructor
    · intro hs'
      -- the store lies between `d` and `d` after the first step
      have hs₁ : get s₁ = d := by
        refine le_antisymm ?_ ?_
        · rw [← hs']
          exact Grows.foldlM htail s₁ s' hrest
        · rw [← hs]
          exact h a List.mem_cons_self s s₁ hfirst
      exact ⟨hhead.mp hs₁, (hlast hs₁).mp hs'⟩
    · rintro ⟨hq, hrestQuiet⟩
      exact (hlast (hhead.mpr hq)).mpr hrestQuiet

end

/-! ## Tables -/

namespace Sql.Table

variable {κ : Type*} {key : α → Option κ}

/-- A table is below every table that extends it. -/
instance : PartialOrder (Table key) where
  le := Extends
  le_refl := .refl
  le_trans _ _ _ := .trans
  le_antisymm _ _ h h' := eq_of_rows (h.eq_of_length (h.length_le.antisymm h'.length_le))

/-- A row that went in is ignored from then on. -/
theorem insertOrIgnore_of_le [DecidableEq κ] {t d : Table key} {a : α} {k : κ}
    (h : t.insertOrIgnore a ≤ d) (hk : key a = some k) : d.insertOrIgnore a = d := by
  obtain ⟨id, hid⟩ := exists_find_insertOrIgnore t hk
  exact insertOrIgnore_eq_self hk (Extends.find h hid)

/-- A row changes nothing exactly when its key is taken. -/
theorem insertOrIgnore_quiet_iff [DecidableEq κ] {t : Table key} {a : α} :
    t.insertOrIgnore a = t ↔ t.Taken a := by
  unfold insertOrIgnore
  split
  · next h => exact iff_of_true rfl h
  · next h =>
    refine iff_of_false (fun heq => ?_) h
    have hlength := congrArg (fun t : Table key => t.rows.length) heq
    simp [push] at hlength

end Sql.Table

end Py
