import FieldDiscovery.Lib.Regex

/-!
# Replacing the runs of a character class

`re.sub("[p]{n,}", r, s)` for `0 < n`. A greedy match of the pattern is the maximal run of the class
at a position, so the rewritten text is described by one induction over the runs of the text
(`rewriteRuns_induction`), and every property of it below is an instance of that induction.
-/

namespace Py

namespace Re

/-- `a{n,}` -/
def atLeast : Nat → Re → Re
  | 0, a => star a
  | n + 1, a => seq a (atLeast n a)

theorem head?_iterate_chr {p : CodePoint → Bool} {fuel : Nat} {s : Str} (h : s.length ≤ fuel)
    (prev : Option CodePoint) :
    (iterate (chr p).run fuel prev s).head? = some (s.takeWhile p, s.dropWhile p) := by
  induction s generalizing fuel prev with
  | nil => cases fuel <;> rfl
  | cons c s ih =>
    cases fuel with
    | zero => simp at h
    | succ fuel =>
      rw [iterate, run]
      by_cases hc : p c = true
      · have hrest := ih (Nat.le_of_succ_le_succ h) (lastOr prev [c])
        simp [hc, List.head?_append, hrest]
      · simp [hc]

theorem head?_run_atLeast {p : CodePoint → Bool} {n : Nat} {s : Str} (prev : Option CodePoint) :
    ((atLeast n (chr p)).run prev s).head? =
      if n ≤ (s.takeWhile p).length then some (s.takeWhile p, s.dropWhile p) else none := by
  induction n generalizing s prev with
  | zero =>
    rw [atLeast, run, if_pos (Nat.zero_le _)]
    exact head?_iterate_chr le_rfl prev
  | succ n ih =>
    rw [atLeast, run]
    cases s with
    | nil => simp [run]
    | cons c s =>
      by_cases hc : p c = true
      · have hrest := ih (s := s) (lastOr prev [c])
        simp only [run, hc, if_true, List.flatMap_cons, List.flatMap_nil, List.append_nil,
          List.head?_map, hrest, List.takeWhile_cons_of_pos, List.dropWhile_cons_of_pos,
          List.length_cons, Nat.add_le_add_iff_right]
        split <;> rfl
      · simp [run, hc]

end Re

/-- The pattern `[p]{n,}`. -/
def runsOf (n : Nat) (p : CodePoint → Bool) : Pattern := [.re (.atLeast n (.chr p))]

/-- `re.sub("[p]{n,}", r, s)` -/
def rewriteRuns (n : Nat) (p : CodePoint → Bool) (r s : Str) : Str :=
  rewrite (runsOf n p) (fun _ => r) s

section

variable {n : Nat} {p : CodePoint → Bool} {r : Str}

theorem piecesAt_runsOf (hn : 0 < n) (prev : Option CodePoint) (s : Str) :
    piecesAt (runsOf n p) prev s =
      if n ≤ (s.takeWhile p).length then some [s.takeWhile p] else none := by
  have hmatch : matchAt (runsOf n p) prev s =
      ((Re.atLeast n (.chr p)).run prev s).head?.map fun m => ([m.1], m.2) := by
    rw [matchAt, runsOf, matchParts]
    simp [matchParts, ← List.map_eq_flatMap]
  rw [piecesAt, hmatch, Re.head?_run_atLeast]
  by_cases h : n ≤ (s.takeWhile p).length
  · have hne : s.takeWhile p ≠ [] := List.ne_nil_of_length_pos (Nat.lt_of_lt_of_le hn h)
    simp [h, hne]
  · simp [h]

/-- What precedes a position does not matter, and the skipped letters are dropped. -/
theorem subFrom_runsOf (hn : 0 < n) (f : List Str → Except Empty Str) (skip : Nat)
    (prev prev' : Option CodePoint) (s : Str) :
    subFrom (runsOf n p) f skip prev s = subFrom (runsOf n p) f 0 prev' (s.drop skip) := by
  induction s generalizing skip prev with
  | nil => simp [subFrom]
  | cons c s ih =>
    cases skip with
    | zero => simp only [List.drop_zero, subFrom, piecesAt_runsOf hn]
    | succ skip =>
      rw [subFrom, List.drop_succ_cons]
      exact ih skip (some c)

theorem rewrite_eq {q : Pattern} {f : List Str → Str} {s t : Str}
    (h : sub (ε := Empty) q (fun pieces => .ok (f pieces)) s = .ok t) : rewrite q f s = t := by
  rw [rewrite, h]

theorem sub_rewriteRuns (s : Str) :
    subFrom (ε := Empty) (runsOf n p) (fun _ => .ok r) 0 none s = .ok (rewriteRuns n p r s) := by
  cases h : subFrom (ε := Empty) (runsOf n p) (fun _ => .ok r) 0 none s with
  | error e => exact e.elim
  | ok t => rw [rewriteRuns, rewrite_eq h]

@[simp] theorem rewriteRuns_nil : rewriteRuns n p r [] = [] := rfl

/-- A run that is too short stays. -/
theorem rewriteRuns_keep (hn : 0 < n) {c : CodePoint} {s : Str}
    (h : ((c :: s).takeWhile p).length < n) :
    rewriteRuns n p r (c :: s) = c :: rewriteRuns n p r s := by
  apply rewrite_eq
  rw [sub, subFrom, piecesAt_runsOf hn, if_neg (Nat.not_le.mpr h),
    subFrom_runsOf hn _ 0 (some c) none, List.drop_zero, sub_rewriteRuns]
  rfl

/-- A run that is long enough becomes the replacement. -/
theorem rewriteRuns_run (hn : 0 < n) {s : Str} (h : n ≤ (s.takeWhile p).length) :
    rewriteRuns n p r s = r ++ rewriteRuns n p r (s.dropWhile p) := by
  apply rewrite_eq
  cases s with
  | nil => simp at h; omega
  | cons c s =>
    have hc : p c = true := by
      by_contra hc
      simp [hc] at h
      omega
    have hdrop : s.drop ((s.takeWhile p).length) = s.dropWhile p := by
      conv_lhs => rw [← List.takeWhile_append_dropWhile (p := p) (l := s)]
      rw [List.drop_append_of_le_length (by simp), List.takeWhile_append_dropWhile]
      simp
    have hpieces : [(c :: s).takeWhile p].flatten.length - 1 = (s.takeWhile p).length := by
      simp [hc]
    rw [sub, subFrom, piecesAt_runsOf hn, if_pos h, List.dropWhile_cons_of_pos hc]
    simp only [hpieces]
    rw [subFrom_runsOf hn _ _ (some c) none, hdrop, sub_rewriteRuns]
    rfl

/-- The induction over the runs of a text. -/
theorem rewriteRuns_induction (hn : 0 < n) {motive : Str → Str → Prop} (nil : motive [] [])
    (keep : ∀ c s t, ((c :: s).takeWhile p).length < n → motive s t → motive (c :: s) (c :: t))
    (run : ∀ u s t, n ≤ u.length → u.all p = true → (∀ c ∈ s.head?, p c = false) → motive s t →
      motive (u ++ s) (r ++ t)) (s : Str) : motive s (rewriteRuns n p r s) := by
  induction hlen : s.length using Nat.strong_induction_on generalizing s with
  | _ len ih =>
    subst hlen
    cases s with
    | nil => exact nil
    | cons c s =>
      by_cases h : n ≤ ((c :: s).takeWhile p).length
      · have hshorter : ((c :: s).dropWhile p).length < (c :: s).length := by
          have hsum := congrArg List.length
            (List.takeWhile_append_dropWhile (p := p) (l := c :: s))
          rw [List.length_append] at hsum
          omega
        have hhead : ∀ d ∈ ((c :: s).dropWhile p).head?, p d = false := by
          intro d hd
          simpa [Option.mem_def.mp hd] using List.head?_dropWhile_not p (c :: s)
        rw [rewriteRuns_run hn h]
        have hrun := run _ _ _ h List.all_takeWhile hhead (ih _ hshorter _ rfl)
        rwa [List.takeWhile_append_dropWhile] at hrun
      · rw [rewriteRuns_keep hn (Nat.not_le.mp h)]
        exact keep c s _ (Nat.not_le.mp h) (ih _ (Nat.lt_succ_self _) s rfl)

theorem all_rewriteRuns {q : CodePoint → Bool} (hn : 0 < n) (hr : r.all q = true) {s : Str}
    (hs : s.all q = true) : (rewriteRuns n p r s).all q = true := by
  refine rewriteRuns_induction hn (motive := fun s t => s.all q = true → t.all q = true)
    (fun _ => rfl) ?_ ?_ s hs
  · intro c s t _ ih h
    rw [List.all_cons, Bool.and_eq_true] at h ⊢
    exact ⟨h.1, ih h.2⟩
  · intro u s t _ _ _ ih h
    rw [List.all_append, Bool.and_eq_true] at h ⊢
    exact ⟨hr, ih h.2⟩

/-- With `[p]+` every letter of the class is replaced. -/
theorem all_rewriteRuns_one {q : CodePoint → Bool} (hr : r.all q = true)
    (hq : ∀ c, p c = false → q c = true) (s : Str) : (rewriteRuns 1 p r s).all q = true := by
  refine rewriteRuns_induction Nat.one_pos (motive := fun _ t => t.all q = true) rfl ?_ ?_ s
  · intro c s t hshort ih
    have hc : p c = false := by
      by_contra hc
      simp [hc] at hshort
    rw [List.all_cons, hq c hc, ih]
    rfl
  · intro u s t _ _ _ ih
    rw [List.all_append, hr, ih]
    rfl

/-- A text whose runs are all too short stays. -/
theorem rewriteRuns_eq_self (hn : 0 < n) {s : Str}
    (hs : ∀ u, u <:+: s → u.all p = true → u.length < n) : rewriteRuns n p r s = s := by
  refine rewriteRuns_induction hn (motive := fun s t =>
    (∀ u, u <:+: s → u.all p = true → u.length < n) → t = s) (fun _ => rfl) ?_ ?_ s hs
  · intro c s t _ ih h
    rw [ih fun u hu => h u (List.infix_cons hu)]
  · intro u s t hlen hu _ _ h
    have := h u (List.prefix_append u s).isInfix hu
    omega

end

/-! ## Spaced texts -/

/-- No two adjacent letters are in the class. -/
def Spaced (p : CodePoint → Bool) (s : Str) : Prop :=
  s.IsChain fun a b => p a = false ∨ p b = false

namespace Spaced

variable {p : CodePoint → Bool} {s t : Str}

theorem of_all_not (h : s.all (fun c => !p c) = true) : Spaced p s := by
  unfold Spaced
  induction s with
  | nil => exact .nil
  | cons c s ih =>
    rw [List.all_cons, Bool.and_eq_true] at h
    exact List.isChain_cons.mpr ⟨fun d _ => Or.inl (by simpa using h.1), ih h.2⟩

/-- A single separator between texts that do not touch it keeps them spaced. -/
theorem between (hs : Spaced p s) (ht : Spaced p t) (hlast : ∀ c ∈ s.getLast?, p c = false)
    (hhead : ∀ c ∈ t.head?, p c = false) (d : CodePoint) : Spaced p (s ++ [d] ++ t) := by
  rw [List.append_assoc]
  apply List.isChain_append.mpr
  refine ⟨hs, List.isChain_cons.mpr ⟨fun c hc => Or.inr (hhead c hc), ht⟩, ?_⟩
  intro c hc _ _
  exact Or.inl (hlast c hc)

theorem run_length_lt {u : Str} (hs : Spaced p s) (hu : u <:+: s) (hall : u.all p = true) :
    u.length < 2 := by
  have hchain := List.IsChain.infix hs hu
  cases u with
  | nil => simp
  | cons a u =>
    cases u with
    | nil => simp
    | cons b u =>
      have hab := (List.isChain_cons_cons.mp hchain).1
      simp only [List.all_cons, Bool.and_eq_true] at hall
      simp [hall.1, hall.2.1] at hab

/-- Runs of at least two letters, replaced by one letter, leave a spaced text. -/
theorem rewriteRuns (d : CodePoint) (s : Str) : Spaced p (rewriteRuns 2 p [d] s) := by
  refine (rewriteRuns_induction (by omega) (motive := fun s t =>
    Spaced p t ∧ ∀ c ∈ t.head?, p c = true → ∃ e ∈ s.head?, p e = true) ?_ ?_ ?_ s).1
  · exact ⟨.nil, by simp⟩
  · intro c s t hshort ⟨ht, hhead⟩
    refine ⟨List.isChain_cons.mpr ⟨?_, ht⟩, ?_⟩
    · intro b hb
      by_contra hcb
      simp only [not_or, Bool.not_eq_false] at hcb
      obtain ⟨e, he, hpe⟩ := hhead b hb hcb.2
      cases s with
      | nil => simp at he
      | cons e' s =>
        obtain rfl : e' = e := by simpa using he
        simp [hcb.1, hpe] at hshort
    · intro e he hpe
      exact ⟨e, by simpa using he, hpe⟩
  · intro u s t hlen hu hnext ⟨ht, hhead⟩
    refine ⟨List.isChain_cons.mpr ⟨?_, ht⟩, ?_⟩
    · intro b hb
      by_contra hcb
      simp only [not_or, Bool.not_eq_false] at hcb
      obtain ⟨e, he, hpe⟩ := hhead b hb hcb.2
      rw [hnext e he] at hpe
      exact Bool.noConfusion hpe
    · intro _ _ _
      cases u with
      | nil => simp at hlen
      | cons c u =>
        rw [List.all_cons, Bool.and_eq_true] at hu
        exact ⟨c, by simp, hu.1⟩

end Spaced

end Py
