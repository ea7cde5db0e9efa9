import Mathlib.Data.List.Infix

/-!
# Openings in a stream

A stream in which a word may only stand as the opening of one whole. What is read so far may end in
the middle of a whole; `Pending` says what is left open. A scanner that keeps little of what it has
read must keep what `Carries` asks for: an opening that starts before the part kept has been seen.
Then what is open after the next chunk can be told from the part kept and the chunk
(`pending_append_iff`).
-/

namespace Openings

variable {α : Type*} {marker whole : List α}

/-- Every occurrence of the marker starts an occurrence of the whole. -/
def Allowed (marker whole s : List α) : Prop := ∀ t, t <:+ s → marker <+: t → whole <+: t

/-- Every occurrence of the marker starts the whole, except that the last one may be cut off: it is
`p`, and no occurrence is cut off when `p` is empty. -/
structure Pending (marker whole s p : List α) : Prop where
  cut : p ≠ [] → p <:+ s ∧ marker <+: p ∧ p <+: whole ∧ p ≠ whole
  allowed : ∀ t, t <:+ s → marker <+: t → whole <+: t ∨ t = p

/-- An occurrence of the marker that starts before `c` has all of the marker, and the whole, in `s`. -/
structure Carries (marker whole s c : List α) : Prop where
  suffix : c <:+ s
  marker_le : ∀ t, t <:+ s → c.length < t.length → marker.length ≤ t.length
  seen : ∀ t, t <:+ s → c.length < t.length → marker <+: t → whole <+: t

/-! ## Suffixes -/

theorem suffix_append_cases {s t u : List α} (h : t <:+ s ++ u) :
    t <:+ u ∨ ∃ x, x ≠ [] ∧ x <:+ s ∧ t = x ++ u := by
  rcases List.suffix_or_suffix_of_suffix h (List.suffix_append s u) with ht | ⟨x, rfl⟩
  · exact .inl ht
  · cases x with
    | nil => exact .inl (List.suffix_refl u)
    | cons b x =>
      refine .inr ⟨b :: x, List.cons_ne_nil b x, ?_, rfl⟩
      exact List.suffix_append_self_iff.mp h

theorem prefix_of_prefix_append {s t u : List α} (h : s <+: t ++ u) (hlength : s.length ≤ t.length) :
    s <+: t := List.prefix_of_prefix_length_le h (List.prefix_append t u) hlength

/-- An occurrence in `s` followed by `u` that is not one in `u` starts in `s`. -/
theorem infix_append_of_infix {w s u : List α} (h : w <:+: s ++ u) :
    w <:+: u ∨ ∃ x, x ≠ [] ∧ x <:+ s ∧ w <+: x ++ u := by
  obtain ⟨t, hw, ht⟩ := List.infix_iff_prefix_suffix.mp h
  rcases suffix_append_cases ht with ht | ⟨x, hx, hxs, rfl⟩
  · exact .inl (hw.isInfix.trans ht.isInfix)
  · exact .inr ⟨x, hx, hxs, hw⟩

/-! ## What is carried -/

/-- A word no longer than the marker is in `s ++ u`, and not in `s`, when it is in `c ++ u`. -/
theorem Carries.infix_append_iff {s c u w : List α} (hc : Carries marker whole s c)
    (hw : w.length ≤ marker.length) (hs : ¬ w <:+: s) : w <:+: s ++ u ↔ w <:+: c ++ u := by
  obtain ⟨front, rfl⟩ := hc.suffix
  constructor
  · rw [List.append_assoc]
    intro h
    rcases infix_append_of_infix h with h | ⟨x, hx, hxs, hprefix⟩
    · exact h
    · have hsuffix : x ++ c <:+ front ++ c := List.suffix_append_self_iff.mpr hxs
      have hlong : c.length < (x ++ c).length := by
        have := List.length_pos_of_ne_nil hx
        rw [List.length_append]
        omega
      have hle := hc.marker_le _ hsuffix hlong
      rw [← List.append_assoc] at hprefix
      have hinside := prefix_of_prefix_append hprefix (hw.trans hle)
      exact absurd (hinside.isInfix.trans hsuffix.isInfix) hs
  · rw [List.append_assoc]
    exact fun h => List.infix_append_of_infix_right h

/-- What is open in `s ++ u` can be told from `c ++ u`. -/
theorem Carries.pending_append_iff {s c u p : List α} (hc : Carries marker whole s c) :
    Pending marker whole (s ++ u) p ↔ Pending marker whole (c ++ u) p := by
  have hsuffix : c ++ u <:+ s ++ u := List.suffix_append_self_iff.mpr hc.suffix
  -- an occurrence that is not in `c ++ u` has the whole
  have hearly : ∀ t, t <:+ s ++ u → ¬ t <:+ c ++ u → marker <+: t → whole <+: t := by
    intro t ht hnot hmarker
    obtain ⟨front, rfl⟩ := hc.suffix
    rw [List.append_assoc] at ht
    rcases suffix_append_cases ht with ht | ⟨x, hx, hxs, rfl⟩
    · exact absurd ht hnot
    · have hxc : x ++ c <:+ front ++ c := List.suffix_append_self_iff.mpr hxs
      have hlong : c.length < (x ++ c).length := by
        have := List.length_pos_of_ne_nil hx
        rw [List.length_append]
        omega
      rw [← List.append_assoc] at hmarker ⊢
      have hinside := prefix_of_prefix_append hmarker (hc.marker_le _ hxc hlong)
      exact (hc.seen _ hxc hlong hinside).trans (List.prefix_append _ _)
  constructor
  · intro h
    refine ⟨fun hp => ?_, fun t ht => h.allowed t (ht.trans hsuffix)⟩
    obtain ⟨hps, hmarker, hcut, hne⟩ := h.cut hp
    refine ⟨?_, hmarker, hcut, hne⟩
    by_contra hnot
    exact hne (hcut.eq_of_length (Nat.le_antisymm hcut.length_le
      (hearly p hps hnot hmarker).length_le))
  · intro h
    refine ⟨fun hp => ?_, fun t ht hmarker => ?_⟩
    · obtain ⟨hps, hrest⟩ := h.cut hp
      exact ⟨hps.trans hsuffix, hrest⟩
    · by_cases hin : t <:+ c ++ u
      · exact h.allowed t hin hmarker
      · exact .inl (hearly t ht hin hmarker)

/-- What is open carries itself. -/
theorem Pending.carries {s p : List α} (h : Pending marker whole s p) (hp : p ≠ []) :
    Carries marker whole s p := by
  obtain ⟨hps, hmarker, -⟩ := h.cut hp
  refine ⟨hps, fun t _ hlong => hmarker.length_le.trans hlong.le, fun t ht hlong ht' => ?_⟩
  rcases h.allowed t ht ht' with hwhole | rfl
  · exact hwhole
  · exact absurd hlong (Nat.lt_irrefl _)

/-- When nothing is open, one element less than the marker has is enough. -/
theorem Pending.carries_drop {s : List α} (h : Pending marker whole s []) (hmarker : marker ≠ []) :
    Carries marker whole s (s.drop (s.length - (marker.length - 1))) := by
  refine ⟨List.drop_suffix _ s, fun t ht hlong => ?_, fun t ht _ ht' => ?_⟩
  · have hle := ht.length_le
    rw [List.length_drop] at hlong
    omega
  · rcases h.allowed t ht ht' with hwhole | rfl
    · exact hwhole
    · exact absurd (List.prefix_nil.mp ht') hmarker

/-- The end of a part that was kept is the end of the stream. -/
theorem Carries.drop_append {s c u : List α} {n : Nat} (hc : Carries marker whole s c)
    (hn : n ≤ (c ++ u).length) :
    (c ++ u).drop ((c ++ u).length - n) = (s ++ u).drop ((s ++ u).length - n) := by
  obtain ⟨front, rfl⟩ := hc.suffix
  have hlength : (front ++ c ++ u).length - n = front.length + ((c ++ u).length - n) := by
    simp only [List.length_append] at hn ⊢
    omega
  rw [hlength, ← List.drop_drop, List.append_assoc, List.drop_left]

/-! ## The end of the stream -/

theorem pending_nil_iff {s : List α} (hmarker : marker ≠ []) :
    Pending marker whole s [] ↔ Allowed marker whole s := by
  constructor
  · intro h t ht ht'
    rcases h.allowed t ht ht' with hwhole | rfl
    · exact hwhole
    · exact absurd (List.prefix_nil.mp ht') hmarker
  · exact fun h => ⟨fun hp => absurd rfl hp, fun t ht ht' => .inl (h t ht ht')⟩

/-- A stream that ends in the middle of a whole is not allowed. -/
theorem Pending.not_allowed {s p : List α} (h : Pending marker whole s p) (hp : p ≠ []) :
    ¬ Allowed marker whole s := by
  intro hallowed
  obtain ⟨hps, hmarker, hcut, hne⟩ := h.cut hp
  exact hne (hcut.eq_of_length (Nat.le_antisymm hcut.length_le
    (hallowed p hps hmarker).length_le))

section

variable {a : α} {m w : List α}

/-- An occurrence of the marker in an incomplete whole is at its start, when the first element of the
marker does not come again. -/
theorem eq_of_prefix_whole (hfresh : a ∉ w) {p t : List α} (hp : p <+: a :: w) (ht : t <:+ p)
    (hmarker : a :: m <+: t) : t = p := by
  cases p with
  | nil => exact List.suffix_nil.mp ht
  | cons b p =>
    rcases List.suffix_cons_iff.mp ht with rfl | ht
    · rfl
    · obtain ⟨rest, rfl⟩ := hmarker
      obtain ⟨-, hpw⟩ := List.cons_prefix_cons.mp hp
      exact absurd (hpw.subset (ht.subset List.mem_cons_self)) hfresh

/-- An allowed stream may be cut anywhere, and then at most one occurrence of the marker is cut
off. -/
theorem Allowed.exists_pending (hfresh : a ∉ w) {s u : List α}
    (h : Allowed (a :: m) (a :: w) (s ++ u)) : ∃ p, Pending (a :: m) (a :: w) s p := by
  have hcut : ∀ t, t <:+ s → a :: m <+: t → a :: w <+: t ∨ t <+: a :: w := by
    intro t ht hmarker
    have hwhole := h (t ++ u) (List.suffix_append_self_iff.mpr ht)
      (hmarker.trans (List.prefix_append t u))
    exact List.prefix_or_prefix_of_prefix hwhole (List.prefix_append t u)
  by_cases hopen : ∃ t, t <:+ s ∧ a :: m <+: t ∧ ¬ a :: w <+: t
  · obtain ⟨p, hps, hmarker, hnot⟩ := hopen
    have hpw := (hcut p hps hmarker).resolve_left hnot
    refine ⟨p, fun _ => ⟨hps, hmarker, hpw, fun heq => hnot (heq ▸ List.prefix_refl _)⟩,
      fun t ht ht' => ?_⟩
    by_cases hwhole : a :: w <+: t
    · exact .inl hwhole
    · have htw := (hcut t ht ht').resolve_left hwhole
      rcases List.suffix_or_suffix_of_suffix ht hps with hsuffix | hsuffix
      · exact .inr (eq_of_prefix_whole hfresh hpw hsuffix ht')
      · exact .inr (eq_of_prefix_whole hfresh htw hsuffix hmarker).symm
  · refine ⟨[], fun hp => absurd rfl hp, fun t ht ht' => .inl ?_⟩
    by_contra hnot
    exact hopen ⟨t, ht, ht', hnot⟩

/-- A complete whole at the start of a stream leaves open what the rest leaves open. -/
theorem pending_whole_append_iff (hfresh : a ∉ w) {s p : List α}
    (hne : p ≠ a :: w ++ s) : Pending (a :: m) (a :: w) (a :: w ++ s) p ↔
      Pending (a :: m) (a :: w) s p := by
  have hlater : ∀ t, t <:+ a :: w ++ s → a :: m <+: t → t <:+ s ∨ t = a :: w ++ s := by
    intro t ht hmarker
    rcases suffix_append_cases ht with ht | ⟨x, hx, hxs, rfl⟩
    · exact .inl ht
    · cases x with
      | nil => exact absurd rfl hx
      | cons b x =>
        obtain ⟨rfl, -⟩ := List.cons_prefix_cons.mp hmarker
        rcases List.suffix_cons_iff.mp hxs with heq | hxs
        · exact .inr (congrArg (· ++ s) heq)
        · exact absurd (hxs.subset List.mem_cons_self) hfresh
  constructor
  · intro h
    refine ⟨fun hp => ?_, fun t ht => h.allowed t (ht.trans (List.suffix_append _ s))⟩
    obtain ⟨hps, hmarker, hrest⟩ := h.cut hp
    exact ⟨(hlater p hps hmarker).resolve_right hne, hmarker, hrest⟩
  · intro h
    refine ⟨fun hp => ?_, fun t ht hmarker => ?_⟩
    · obtain ⟨hps, hrest⟩ := h.cut hp
      exact ⟨hps.trans (List.suffix_append _ s), hrest⟩
    · rcases hlater t ht hmarker with ht | rfl
      · exact h.allowed t ht hmarker
      · exact .inl (List.prefix_append _ s)

end

end Openings
