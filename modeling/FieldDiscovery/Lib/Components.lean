import Mathlib.Data.List.Basic
import Mathlib.Logic.Relation

/-!
# Components with a shared log

Every component moves on its own; its next state and what it then reports are determined by its state.
The reports are appended to one log, and any component may move next. When all reports of different
components commute, every order of the moves ends in the same states with the same log, by
Church–Rosser (`Commuting.unique`); otherwise two orders end with different logs
(`commuting_of_unique`).
-/

namespace Components

open Relation

variable {C α : Type*} (next : C → Option (C × List α))

/-- One component moves on and appends its report to the log. -/
inductive Step : List C × List α → List C × List α → Prop
  | move {parts : List C} {log report : List α} {c c' : C} (i : ℕ) (hget : parts[i]? = some c)
      (hnext : next c = some (c', report)) : Step (parts, log) (parts.set i c', log ++ report)

/-- No component moves any more. -/
def Final (parts : List C) : Prop := ∀ c ∈ parts, next c = none

/-- The moves of one component, with what it reports. -/
inductive Run : C → List (List α) → C → Prop
  | nil (c : C) : Run c [] c
  | cons {c c' c'' : C} {report : List α} {reports : List (List α)}
      (hnext : next c = some (c', report)) (h : Run c' reports c'') :
      Run c (report :: reports) c''

/-- The component comes to an end. -/
def Ends (c : C) : Prop := ∃ reports c', Run next c reports c' ∧ next c' = none

/-- A report that a component makes sometime. -/
def Reports (c : C) (report : List α) : Prop :=
  ∃ reports d d', Run next c reports d ∧ next d = some (d', report)

/-- The reports of different components commute. -/
def Commuting (parts : List C) : Prop :=
  ∀ (i j : ℕ) (c d : C), i ≠ j → parts[i]? = some c → parts[j]? = some d → ∀ x y,
    Reports next c x → Reports next d y → x ++ y = y ++ x

variable {next}

/-! ## One order is as good as another -/

theorem Reports.of_next {c c' : C} {report x : List α} (hnext : next c = some (c', report))
    (h : Reports next c' x) : Reports next c x := by
  obtain ⟨reports, d, d', hrun, hlast⟩ := h
  exact ⟨report :: reports, d, d', .cons hnext hrun, hlast⟩

theorem Commuting.step {s t : List C × List α} (hs : Commuting next s.1) (hstep : Step next s t) :
    Commuting next t.1 := by
  obtain @⟨parts, log, report, c, c', i, hget, hnext⟩ := hstep
  -- what a component reports after its move, it reports before
  have hback : ∀ (j : ℕ) (d : C), (parts.set i c')[j]? = some d →
      ∃ d₀, parts[j]? = some d₀ ∧ ∀ x, Reports next d x → Reports next d₀ x := by
    intro j d hd
    rw [List.getElem?_set] at hd
    split at hd
    · next hij =>
      subst hij
      split at hd
      · cases hd
        exact ⟨c, hget, fun _ => Reports.of_next hnext⟩
      · cases hd
    · exact ⟨d, hd, fun _ h => h⟩
  intro j k c d hjk hc hd x y hx hy
  obtain ⟨c₀, hc₀, hback₁⟩ := hback j c hc
  obtain ⟨d₀, hd₀, hback₂⟩ := hback k d hd
  exact hs j k c₀ d₀ hjk hc₀ hd₀ x y (hback₁ x hx) (hback₂ y hy)

/-- Two moves from one state lead on to a common state. -/
theorem Commuting.diamond {s t u : List C × List α} (hs : Commuting next s.1)
    (ht : Step next s t) (hu : Step next s u) :
    t = u ∨ ∃ v, Step next t v ∧ Step next u v := by
  obtain @⟨parts, log, x, c, c', i, hc, hc'⟩ := ht
  obtain @⟨_, _, y, d, d', j, hd, hd'⟩ := hu
  by_cases hij : i = j
  · subst hij
    cases hc.symm.trans hd
    cases hc'.symm.trans hd'
    exact Or.inl rfl
  · right
    have hcomm : x ++ y = y ++ x :=
      hs i j c d hij hc hd x y ⟨[], c, c', .nil c, hc'⟩ ⟨[], d, d', .nil d, hd'⟩
    have ht : Step next (parts.set i c', log ++ x)
        ((parts.set i c').set j d', log ++ x ++ y) :=
      .move j (by rwa [List.getElem?_set_ne hij]) hd'
    have hu : Step next (parts.set j d', log ++ y)
        ((parts.set j d').set i c', log ++ y ++ x) :=
      .move i (by rwa [List.getElem?_set_ne (Ne.symm hij)]) hc'
    rw [List.set_comm _ _ (Ne.symm hij), List.append_assoc, ← hcomm, ← List.append_assoc] at hu
    exact ⟨_, ht, hu⟩

theorem final_of_reflTransGen {r : List C × List α → List C × List α → Prop}
    (hr : ∀ s t, r s t → Step next s t) {s t : List C × List α} (hs : Final next s.1)
    (h : ReflTransGen r s t) : t = s := by
  rcases h.cases_head with rfl | ⟨u, hstep, -⟩
  · rfl
  · obtain ⟨i, hget, hnext⟩ := hr s u hstep
    have hnone := hs _ (List.mem_of_getElem? hget)
    rw [hnext] at hnone
    cases hnone

/-- All orders of the moves end alike. -/
theorem Commuting.unique {s t u : List C × List α} (hs : Commuting next s.1)
    (ht : ReflTransGen (Step next) s t) (hu : ReflTransGen (Step next) s u)
    (htfinal : Final next t.1) (hufinal : Final next u.1) : t = u := by
  let r : List C × List α → List C × List α → Prop := fun s t => Step next s t ∧ Commuting next s.1
  have hlift : ∀ {t}, ReflTransGen (Step next) s t → ReflTransGen r s t ∧ Commuting next t.1 := by
    intro t ht
    induction ht with
    | refl => exact ⟨.refl, hs⟩
    | tail _ hstep ih => exact ⟨ih.1.tail ⟨hstep, ih.2⟩, ih.2.step hstep⟩
  have hjoin : Join (ReflTransGen r) t u := by
    refine church_rosser ?_ (hlift ht).1 (hlift hu).1
    rintro a b c ⟨hab, ha⟩ ⟨hac, -⟩
    rcases ha.diamond hab hac with rfl | ⟨v, hbv, hcv⟩
    · exact ⟨b, .refl, .refl⟩
    · exact ⟨v, .single ⟨hbv, ha.step hab⟩, .single ⟨hcv, ha.step hac⟩⟩
  obtain ⟨v, htv, huv⟩ := hjoin
  rw [← final_of_reflTransGen (fun _ _ h => h.1) htfinal htv,
    final_of_reflTransGen (fun _ _ h => h.1) hufinal huv]

/-! ## Two orders that differ -/

theorem Ends.of_next {c c' : C} {report : List α} (hnext : next c = some (c', report))
    (h : Ends next c') : Ends next c := by
  obtain ⟨reports, d, hrun, hd⟩ := h
  exact ⟨report :: reports, d, .cons hnext hrun, hd⟩

/-- A component has one end. -/
theorem Run.unique {c d d' : C} {reports reports' : List (List α)} (h : Run next c reports d)
    (h' : Run next c reports' d') (hd : next d = none) (hd' : next d' = none) : d = d' := by
  induction h generalizing reports' with
  | nil =>
    cases h' with
    | nil => rfl
    | cons hnext _ =>
      rw [hd] at hnext
      cases hnext
  | cons hnext _ ih =>
    cases h' with
    | nil =>
      rw [hd'] at hnext
      cases hnext
    | cons hnext' h' =>
      cases hnext.symm.trans hnext'
      exact ih h' hd

/-- What a component has become in a run of all of them. -/
theorem run_of_reflTransGen {s t : List C × List α} (h : ReflTransGen (Step next) s t) {i : ℕ}
    {c : C} (hc : s.1[i]? = some c) : ∃ reports d, Run next c reports d ∧ t.1[i]? = some d := by
  induction h using ReflTransGen.head_induction_on generalizing c with
  | refl => exact ⟨[], c, .nil c, hc⟩
  | head hstep _ ih =>
    obtain @⟨parts, log, report, e, e', j, hget, hnext⟩ := hstep
    by_cases hij : j = i
    · subst hij
      cases hget.symm.trans hc
      obtain ⟨reports, d, hrun, hd⟩ :=
        ih (List.getElem?_set_self (List.getElem?_eq_some_iff.mp hget).1)
      exact ⟨report :: reports, d, .cons hnext hrun, hd⟩
    · exact ih (by rwa [List.getElem?_set_ne hij])

/-- Every component of a run was there before. -/
theorem exists_run_of_mem {s t : List C × List α} (h : ReflTransGen (Step next) s t) {d : C}
    (hd : d ∈ t.1) : ∃ c ∈ s.1, ∃ reports, Run next c reports d := by
  induction h using ReflTransGen.head_induction_on with
  | refl => exact ⟨d, hd, [], .nil d⟩
  | head hstep _ ih =>
    obtain @⟨parts, log, report, e, e', j, hget, hnext⟩ := hstep
    obtain ⟨c, hc, reports, hrun⟩ := ih
    rcases List.mem_or_eq_of_mem_set hc with hc | rfl
    · exact ⟨c, hc, reports, hrun⟩
    · exact ⟨e, List.mem_of_getElem? hget, report :: reports, .cons hnext hrun⟩

theorem Ends.of_run {c c' : C} {reports : List (List α)} (hrun : Run next c reports c')
    (h : Ends next c) : Ends next c' := by
  induction hrun with
  | nil => exact h
  | cons hnext _ ih =>
    refine ih ?_
    obtain ⟨reports', d, hrun', hd⟩ := h
    cases hrun' with
    | nil =>
      rw [hnext] at hd
      cases hd
    | cons hnext' hrun' =>
      cases hnext.symm.trans hnext'
      exact ⟨_, d, hrun', hd⟩

/-- A component moves on while the others wait. -/
theorem Run.lift {c c' : C} {reports : List (List α)} (hrun : Run next c reports c')
    {parts : List C} {i : ℕ} (hget : parts[i]? = some c) (log : List α) :
    ReflTransGen (Step next) (parts, log) (parts.set i c', log ++ reports.flatten) := by
  have hlt : i < parts.length := (List.getElem?_eq_some_iff.mp hget).1
  induction hrun generalizing parts log with
  | nil c =>
    rw [List.flatten_nil, List.append_nil]
    obtain ⟨_, rfl⟩ := List.getElem?_eq_some_iff.mp hget
    rw [List.set_getElem_self]
  | @cons c c' c'' report reports hnext _ ih =>
    refine .head (.move i hget hnext) ?_
    rw [List.flatten_cons, ← List.append_assoc]
    have hrest := ih (List.getElem?_set_self hlt) (log ++ report) (by rwa [List.length_set])
    rwa [List.set_set] at hrest

/-- When all components end, some order of the moves ends, whatever the log was. -/
theorem exists_final (rest : List C) (ended : List C) (hended : Final next ended)
    (hrest : ∀ c ∈ rest, Ends next c) : ∃ parts suffix, Final next parts ∧ ∀ log,
      ReflTransGen (Step next) (ended ++ rest, log) (parts, log ++ suffix) := by
  induction rest generalizing ended with
  | nil =>
    refine ⟨ended, [], hended, fun log => ?_⟩
    rw [List.append_nil, List.append_nil]
  | cons c rest ih =>
    obtain ⟨reports, c', hrun, hc'⟩ := hrest c List.mem_cons_self
    have hended' : Final next (ended ++ [c']) := by
      intro d hd
      rcases List.mem_append.mp hd with hd | hd
      · exact hended d hd
      · rw [List.mem_singleton.mp hd]
        exact hc'
    obtain ⟨parts, suffix, hfinal, hrun'⟩ :=
      ih (ended ++ [c']) hended' fun d hd => hrest d (List.mem_cons_of_mem _ hd)
    refine ⟨parts, reports.flatten ++ suffix, hfinal, fun log => ?_⟩
    have hget : (ended ++ c :: rest)[ended.length]? = some c := by simp
    have hmove := hrun.lift hget log
    rw [List.set_append_right _ _ (Nat.le_refl _), Nat.sub_self, List.set_cons_zero,
      List.append_cons ended c' rest] at hmove
    rw [← List.append_assoc]
    exact hmove.trans (hrun' _)

/-- Reports that do not commute show in the log. -/
theorem commuting_of_unique {parts : List C} (log : List α) (hends : ∀ c ∈ parts, Ends next c)
    (hunique : ∀ t u, ReflTransGen (Step next) (parts, log) t →
      ReflTransGen (Step next) (parts, log) u → Final next t.1 → Final next u.1 → t.2 = u.2) :
    Commuting next parts := by
  rintro i j c d hij hc hd x y ⟨reports, c₁, c₂, hrun, hnext⟩ ⟨reports', d₁, d₂, hrun', hnext'⟩
  have hi : i < parts.length := (List.getElem?_eq_some_iff.mp hc).1
  have hj : j < parts.length := (List.getElem?_eq_some_iff.mp hd).1
  -- both components go to where they make the two reports
  let before := (parts.set i c₁).set j d₁
  let log₀ := log ++ reports.flatten ++ reports'.flatten
  have hbefore : ReflTransGen (Step next) (parts, log) (before, log₀) :=
    (hrun.lift hc log).trans (hrun'.lift (by rwa [List.getElem?_set_ne hij]) _)
  have hc₁ : before[i]? = some c₁ := by
    rw [List.getElem?_set_ne (Ne.symm hij), List.getElem?_set_self hi]
  have hd₁ : before[j]? = some d₁ := List.getElem?_set_self (by rwa [List.length_set])
  -- they make them in either order
  let after := (before.set i c₂).set j d₂
  have hxy : ReflTransGen (Step next) (parts, log) (after, log₀ ++ x ++ y) :=
    (hbefore.tail (.move i hc₁ hnext)).tail
      (.move j (by rwa [List.getElem?_set_ne hij]) hnext')
  have hyx : ReflTransGen (Step next) (parts, log) (after, log₀ ++ y ++ x) := by
    have hswap : after = (before.set j d₂).set i c₂ := List.set_comm _ _ hij
    rw [hswap]
    exact (hbefore.tail (.move j hd₁ hnext')).tail
      (.move i (by rwa [List.getElem?_set_ne (Ne.symm hij)]) hnext)
  -- and all components end as they do from there
  have hafter : ∀ e ∈ after, Ends next e := by
    intro e he
    rcases List.mem_or_eq_of_mem_set he with he | rfl
    · rcases List.mem_or_eq_of_mem_set he with he | rfl
      · rcases List.mem_or_eq_of_mem_set he with he | rfl
        · rcases List.mem_or_eq_of_mem_set he with he | rfl
          · exact hends e he
          · exact (hends c (List.mem_of_getElem? hc)).of_run hrun
        · exact (hends d (List.mem_of_getElem? hd)).of_run hrun'
      · exact ((hends c (List.mem_of_getElem? hc)).of_run hrun).of_run (.cons hnext (.nil _))
    · exact ((hends d (List.mem_of_getElem? hd)).of_run hrun').of_run (.cons hnext' (.nil _))
  obtain ⟨final, suffix, hfinal, hrest⟩ :=
    exists_final after [] (fun _ h => absurd h List.not_mem_nil) hafter
  have hlogs := hunique _ _ (hxy.trans (hrest _)) (hyx.trans (hrest _)) hfinal hfinal
  simp only [List.append_assoc, List.append_cancel_left_eq] at hlogs
  rw [← List.append_assoc, ← List.append_assoc] at hlogs
  exact List.append_cancel_right hlogs

end Components
