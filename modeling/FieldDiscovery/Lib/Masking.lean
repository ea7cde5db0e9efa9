import FieldDiscovery.Lib.Str

/-!
# Masking

`Masks F s t`: `t` is `s` with disjoint stretches replaced by placeholders from `F`, everything
else kept in place. Every rewrite of a redactor is of this kind.

The point of the relation is `Masks.free`. A word that overlaps no placeholder, on either side
or by containment, can only occur in `t` inside a stretch that was kept, so masking never makes it
appear. Together with `replace_free`, which says that replacing a word removes it, a word once
removed stays removed through any later rewrite.
-/

namespace Py

variable {α : Type*}

/-! ## The relation -/

/-- `t` is `s` with disjoint stretches replaced by placeholders. -/
inductive Masks (F : List α → Prop) : List α → List α → Prop
  | nil : Masks F [] []
  | keep (c : α) {s t : List α} : Masks F s t → Masks F (c :: s) (c :: t)
  | mask (hidden : List α) {p s t : List α} : F p → Masks F s t → Masks F (hidden ++ s) (p ++ t)

namespace Masks

variable {F : List α → Prop} {s t s' t' : List α}

theorem refl (s : List α) : Masks F s s := by
  induction s with
  | nil => exact .nil
  | cons c s ih => exact .keep c ih

theorem append (h : Masks F s t) (h' : Masks F s' t') : Masks F (s ++ s') (t ++ t') := by
  induction h with
  | nil => exact h'
  | keep c _ ih => exact .keep c ih
  | mask hidden hp _ ih =>
    rw [List.append_assoc, List.append_assoc]
    exact .mask hidden hp ih

/-- A whole stretch behind one placeholder. -/
theorem whole (hidden : List α) {p : List α} (hp : F p) : Masks F hidden p := by
  simpa using Masks.mask hidden hp .nil

/-- A stretch behind a placeholder, between two that are kept. -/
theorem between (u hidden v : List α) {p : List α} (hp : F p) :
    Masks F (u ++ hidden ++ v) (u ++ p ++ v) :=
  ((refl u).append (whole hidden hp)).append (refl v)

theorem mono {G : List α → Prop} (hFG : ∀ p, F p → G p) (h : Masks F s t) : Masks G s t := by
  induction h with
  | nil => exact .nil
  | keep c _ ih => exact .keep c ih
  | mask hidden hp _ ih => exact .mask hidden (hFG _ hp) ih

/-- A letter that every placeholder shows is never lost. -/
theorem mem (h : Masks F s t) {c : α} (hF : ∀ p, F p → c ∈ p) (hc : c ∈ s) : c ∈ t := by
  induction h with
  | nil => exact hc
  | keep d _ ih =>
    rcases List.mem_cons.mp hc with rfl | hc
    · exact List.mem_cons_self
    · exact List.mem_cons_of_mem d (ih hc)
  | mask hidden hp _ _ => exact List.mem_append_left _ (hF _ hp)

/-- Masking changes nothing, or leaves a placeholder. -/
theorem eq_or_holds (h : Masks F s t) : t = s ∨ ∃ p, F p ∧ p <:+: t := by
  induction h with
  | nil => exact Or.inl rfl
  | keep c _ ih =>
    rcases ih with rfl | ⟨p, hp, hin⟩
    · exact Or.inl rfl
    · exact Or.inr ⟨p, hp, hin.trans (List.suffix_cons c _).isInfix⟩
  | mask hidden hp _ _ => exact Or.inr ⟨_, hp, (List.prefix_append _ _).isInfix⟩

end Masks

/-! ## Words that overlap no placeholder -/

/-- `w` and `p` share no stretch when written side by side, and neither contains the other. -/
structure Apart (w p : List α) : Prop where
  notInside : ¬ w <:+: p
  notAround : ¬ p <:+: w
  notBefore : ∀ u, u ≠ [] → u <:+ w → ¬ u <+: p
  notAfter : ∀ u, u ≠ [] → u <+: w → ¬ u <:+ p

theorem prefix_or_prefix {u a b : List α} (h : u <+: a ++ b) : u <+: a ∨ a <+: u :=
  List.prefix_or_prefix_of_prefix h (List.prefix_append a b)

section Apart

variable {w p s t : List α}

theorem Apart.ne_nil (h : Apart w p) : w ≠ [] := by
  intro hw
  subst hw
  exact h.notInside List.nil_infix

/-- Words without a common letter overlap nowhere. -/
theorem Apart.of_disjoint [DecidableEq α] (hw : w ≠ []) (hp : p ≠ [])
    (h : w.all (· ∉ p) = true) : Apart w p := by
  have hnot : ∀ {u : List α}, u ≠ [] → u ⊆ w → ¬ u ⊆ p := by
    intro u hu huw hup
    obtain ⟨c, u', rfl⟩ := List.exists_cons_of_ne_nil hu
    exact of_decide_eq_true (List.all_eq_true.mp h c (huw List.mem_cons_self))
      (hup List.mem_cons_self)
  exact
    { notInside := fun hin => hnot hw (List.Subset.refl w) hin.subset
      notAround := fun hin => hnot hp hin.subset (List.Subset.refl p)
      notBefore := fun u hu hsuffix hstarts => hnot hu hsuffix.subset hstarts.subset
      notAfter := fun u hu hstarts hsuffix => hnot hu hstarts.subset hsuffix.subset }

/-- A word that occurs in `p ++ t` occurs in `t`. -/
theorem Apart.infix_append (h : Apart w p) (hw : w <:+: p ++ t) : w <:+: t := by
  obtain ⟨a, b, hab⟩ := hw
  have hpre : a <+: p ++ t := ⟨w ++ b, by rw [← hab, List.append_assoc]⟩
  rcases prefix_or_prefix hpre with ⟨q, rfl⟩ | ⟨q, rfl⟩
  · -- the word starts inside `p`, or right after it
    have hwq : w <+: q ++ t := by
      refine ⟨b, ?_⟩
      rw [List.append_assoc, List.append_assoc] at hab
      exact List.append_cancel_left hab
    by_cases hq : q = []
    · rw [hq, List.nil_append] at hwq
      exact hwq.isInfix
    · rcases prefix_or_prefix hwq with hin | hout
      · exact absurd (hin.isInfix.trans (List.suffix_append a q).isInfix) h.notInside
      · exact absurd (List.suffix_append a q) (h.notAfter q hq hout)
  · -- the word starts after `p`
    refine ⟨q, b, ?_⟩
    rw [List.append_assoc, List.append_assoc] at hab
    rw [List.append_assoc]
    exact List.append_cancel_left hab

/-- The end of the word at the front of a masked text stands at the front of the text. -/
theorem Masks.opens_source {F : List α → Prop} (hF : ∀ p, F p → Apart w p)
    (h : Masks F s t) {u : List α} (hu : u <:+ w) (hut : u <+: t) : u <+: s := by
  induction h generalizing u with
  | nil => exact hut
  | keep c _ ih =>
    cases u with
    | nil => exact List.nil_prefix
    | cons d u =>
      obtain ⟨hd, htail⟩ := List.cons_prefix_cons.mp hut
      have hu' : u <:+ w := (List.suffix_cons d u).trans hu
      exact List.cons_prefix_cons.mpr ⟨hd, ih hu' htail⟩
  | mask hidden hp _ _ =>
    by_cases hne : u = []
    · rw [hne]
      exact List.nil_prefix
    · rcases prefix_or_prefix hut with hin | hout
      · exact absurd hin ((hF _ hp).notBefore u hne hu)
      · exact absurd (hout.isInfix.trans hu.isInfix) (hF _ hp).notAround

/-- Masking makes no word appear that overlaps no placeholder. -/
theorem Masks.free {F : List α → Prop} (hF : ∀ p, F p → Apart w p) (h : Masks F s t)
    (hs : ¬ w <:+: s) : ¬ w <:+: t := by
  induction h with
  | nil => exact hs
  | keep c hst ih =>
    intro hw
    rcases List.infix_cons_iff.mp hw with hpre | hin
    · exact hs ((hst.keep c).opens_source hF (List.suffix_refl w) hpre).isInfix
    · exact ih (fun hin' => hs (hin'.trans (List.suffix_cons c _).isInfix)) hin
  | mask hidden hp _ ih =>
    intro hw
    exact ih (fun hin => hs (hin.trans (List.suffix_append hidden _).isInfix))
      ((hF _ hp).infix_append hw)

end Apart

/-! ## Replacing a word -/

section Replace

variable {w p : Str}

theorem replaceFrom_masks {F : Str → Prop} (hp : F p) (skip : Nat) (s : Str) :
    Masks F (s.drop skip) (replaceFrom w p skip s) := by
  induction s generalizing skip with
  | nil =>
    rw [List.drop_nil]
    cases skip <;> exact .nil
  | cons c s ih =>
    cases skip with
    | succ skip => exact ih skip
    | zero =>
      unfold replaceFrom
      split
      · have hsplit : c :: s = (c :: s.take (w.length - 1)) ++ s.drop (w.length - 1) := by
          rw [List.cons_append, List.take_append_drop]
        rw [List.drop_zero, hsplit]
        exact .mask _ hp (ih _)
      · exact .keep c (ih 0)

/-- Replacing a word masks its occurrences. -/
theorem replace_masks {F : Str → Prop} (hp : F p) (w s : Str) : Masks F s (replace w p s) :=
  replaceFrom_masks hp 0 s

/-- Replacing a word by a placeholder it does not overlap leaves no occurrence of it. -/
theorem replaceFrom_free (h : Apart w p) (skip : Nat) (s : Str) :
    ¬ w <:+: replaceFrom w p skip s := by
  induction s generalizing skip with
  | nil =>
    intro hw
    have hnil : replaceFrom w p skip [] = [] := by cases skip <;> rfl
    rw [hnil] at hw
    exact h.ne_nil (List.infix_nil.mp hw)
  | cons c s ih =>
    cases skip with
    | succ skip => exact ih skip
    | zero =>
      unfold replaceFrom
      split
      · exact fun hw => ih _ (h.infix_append hw)
      · next hnot =>
        intro hw
        rcases List.infix_cons_iff.mp hw with hpre | hin
        · have hmasks : Masks (· = p) (c :: s) (c :: replaceFrom w p 0 s) :=
            .keep c (replaceFrom_masks (F := (· = p)) rfl 0 s)
          exact hnot (hmasks.opens_source (fun _ hq => hq ▸ h) (List.suffix_refl w) hpre)
        · exact ih 0 hin

theorem replace_free (h : Apart w p) (s : Str) : ¬ w <:+: replace w p s :=
  replaceFrom_free h 0 s

theorem replace_eq_self {s : Str} (h : ¬ w <:+: s) : replace w p s = s := by
  unfold replace
  induction s with
  | nil => rfl
  | cons c s ih =>
    rw [replaceFrom, if_neg fun hpre => h hpre.isInfix,
      ih fun hin => h (hin.trans (List.suffix_cons c s).isInfix)]

/-- Where the word occurs, the placeholder shows. -/
theorem mem_replace {s : Str} (hw : w <:+: s) (hs : s ≠ []) {c : CodePoint} (hc : c ∈ p) :
    c ∈ replace w p s := by
  unfold replace
  induction s with
  | nil => exact absurd rfl hs
  | cons d s ih =>
    rw [replaceFrom]
    split
    · exact List.mem_append_left _ hc
    · next hnot =>
      have hin : w <:+: s := (List.infix_cons_iff.mp hw).resolve_left hnot
      have hne : s ≠ [] := by
        rintro rfl
        rw [List.infix_nil.mp hin] at hnot
        exact hnot List.nil_prefix
      exact List.mem_cons_of_mem d (ih hin hne)

end Replace

end Py
