import FieldDiscovery.Lib.Masking
import FieldDiscovery.Redaction.Redactor

/-!
# Every pass masks

Each pass of `text` replaces disjoint stretches of its input by the placeholder and keeps the rest
(`Hides`). Only the passes over authorization sequences put quotation marks of their own around
the placeholder (`Masked`); the other passes keep those that stand there.
-/

namespace FieldDiscovery.Redaction

open Py

/-- The placeholder text, as the passes write it. -/
def Placeholder (p : Str) : Prop :=
  p = redacted ∨ p = str "\"" ++ redacted ++ str "\"" ∨ p = str "'" ++ redacted ++ str "'" ∨
    p = str "\\\"" ++ redacted ++ str "\\\""

abbrev Masked : Str → Str → Prop := Masks Placeholder

/-- Masked by the bare placeholder. -/
abbrev Hides : Str → Str → Prop := Masks (· = redacted)

theorem Hides.masked {s t : Str} (h : Hides s t) : Masked s t := h.mono fun _ => Or.inl

section Passes

variable {rt : Runtime}

theorem rewrite_hides {p : Pattern} {f : List Str → Str}
    (hf : ∀ {pieces}, IsMatch p pieces → Hides pieces.flatten (f pieces)) (s : Str) :
    Hides s (rewrite p f s) :=
  rewrite_rel .nil (fun c _ _ h => .keep c h) (fun h h' => h.append h') hf s

theorem sub_hides {p : Pattern} {f : List Str → Except Exc Str}
    (hf : ∀ {pieces t}, IsMatch p pieces → f pieces = .ok t → Hides pieces.flatten t)
    {s t : Str} (h : sub p f s = .ok t) : Hides s t :=
  sub_rel .nil (fun c _ _ h => .keep c h) (fun h h' => h.append h') hf h

theorem redactQuotedAuthorization_hides (pieces : List Str) :
    Hides pieces.flatten (redactQuotedAuthorization pieces) := by
  unfold redactQuotedAuthorization
  split
  · next key opening value closing =>
    have h := Masks.between (F := (· = redacted)) (key ++ opening) value closing rfl
    simpa using h
  · exact .refl _

/-- A value between quotation marks, its text hidden. -/
theorem hides_quoted {quote value : Str} (before : Str) (h : ∃ body, value = quote ++ body ++ quote) :
    Hides (before ++ value) (before ++ (quote ++ redacted ++ quote)) := by
  obtain ⟨body, rfl⟩ := h
  have h := Masks.between (F := (· = redacted)) (before ++ quote) body quote rfl
  simpa using h

theorem jsonField_value {pieces : List Str} (h : IsMatch jsonField pieces) {value : Str}
    (hvalue : pieces[2]? = some value) : ∃ body, value = str "\"" ++ body ++ str "\"" := by
  obtain ⟨prev, s, m, hm, hpiece⟩ := h.piece (i := 2) rfl
  rw [hvalue] at hpiece
  obtain rfl := Option.some.inj hpiece
  exact Re.run_seqs_between (fun m hm => (Re.mem_run_word (w := "\"")).mp hm |>.1) hm

theorem escapedJsonField_value {pieces : List Str} (h : IsMatch escapedJsonField pieces) {value : Str}
    (hvalue : pieces[2]? = some value) : ∃ body, value = str "\\\"" ++ body ++ str "\\\"" := by
  obtain ⟨prev, s, m, hm, hpiece⟩ := h.piece (i := 2) rfl
  rw [hvalue] at hpiece
  obtain rfl := Option.some.inj hpiece
  exact Re.run_seqs_between (fun m hm => (Re.mem_run_word.mp hm).1) hm

theorem redactJsonAuthorization_hides {pieces : List Str} {t : Str} (hmatch : IsMatch jsonField pieces)
    (h : redactJsonAuthorization rt pieces = .ok t) : Hides pieces.flatten t := by
  unfold redactJsonAuthorization at h
  split at h
  · next key separator value =>
    split at h
    · cases h
    · split at h
      · cases h
        simpa using hides_quoted (key ++ separator) (jsonField_value hmatch rfl)
      · cases h
        simpa using Masks.refl (key ++ separator ++ value)
  · cases h
    exact .refl _

theorem redactEscapedJsonAuthorization_hides {pieces : List Str} {t : Str}
    (hmatch : IsMatch escapedJsonField pieces)
    (h : redactEscapedJsonAuthorization rt pieces = .ok t) : Hides pieces.flatten t := by
  unfold redactEscapedJsonAuthorization at h
  split at h
  · next key separator value =>
    split at h
    · cases h
    · split at h
      · cases h
        simpa using hides_quoted (key ++ separator) (escapedJsonField_value hmatch rfl)
      · cases h
        simpa using Masks.refl (key ++ separator ++ value)
  · cases h
    exact .refl _

theorem sequenceQuote_placeholder (serialized : Bool) (key : Str) :
    Placeholder (sequenceQuote serialized key ++ redacted ++ sequenceQuote serialized key) := by
  unfold sequenceQuote
  cases serialized with
  | true => exact Or.inr (Or.inr (Or.inr rfl))
  | false =>
    by_cases hquote : cp '"' ∈ key
    · simp only [hquote, if_true, Bool.false_eq_true, if_false]
      exact Or.inr (Or.inl rfl)
    · simp only [hquote, Bool.false_eq_true, if_false]
      exact Or.inr (Or.inr (Or.inl rfl))

theorem sequenceLoop_masked (serialized : Bool) (pattern : Pattern) (fuel : Nat) (s : Str) :
    Masked s (sequenceLoop rt serialized pattern fuel s) := by
  induction fuel generalizing s with
  | zero => exact .refl s
  | succ fuel ih =>
    unfold sequenceLoop
    split
    · next before key separator bracket rest hsearch =>
      have htext : before ++ ([key, separator, bracket].flatten ++ rest) = s :=
        searchFrom_append hsearch
      have hs : s = (before ++ key ++ separator) ++ (bracket ++ rest) := by
        rw [← htext]
        simp
      simp only
      split
      · generalize hstop : (sequenceEnd serialized (bracket ++ rest)).getD
          (malformedSequenceBoundary (bracket ++ rest)) = stop
        have hmask := Masks.mask ((bracket ++ rest).take stop) (sequenceQuote_placeholder serialized key)
          (ih ((bracket ++ rest).drop stop))
        rw [List.take_append_drop] at hmask
        have h := (Masks.refl (before ++ key ++ separator)).append hmask
        rw [hs]
        simpa using h
      · have h := (Masks.refl (before ++ key ++ separator ++ bracket)).append (ih rest)
        rw [hs]
        simpa using h
    · exact .refl s

theorem redactHeaders_hides (fuel : Nat) (s : Str) : Hides s (redactHeaders rt fuel s) := by
  induction fuel generalizing s with
  | zero => exact .refl s
  | succ fuel ih =>
    unfold redactHeaders
    refine rewrite_hides ?_ s
    intro pieces _
    split
    · next start name value _ =>
      have hmask := Masks.mask (F := (· = redacted)) (value.take (headerBoundary value)) rfl
        (ih (value.drop (headerBoundary value)))
      rw [List.take_append_drop] at hmask
      have h := (Masks.refl (start ++ name)).append hmask
      simpa using h
    · exact .refl _

theorem Redactor.redactAssignments_hides (s : Str) : Hides s (redactAssignments rt s) := by
  refine rewrite_hides ?_ s
  intro pieces _
  split
  · next start name separator value _ =>
    have h := Masks.between (F := (· = redacted)) (start ++ name ++ separator) value [] rfl
    simpa using h
  · exact .refl _

theorem Redactor.redactUserinfo_hides (s : Str) : Hides s (redactUserinfo rt s) := by
  refine rewrite_hides ?_ s
  intro pieces _
  split
  · next scheme user at_ _ =>
    have h := Masks.between (F := (· = redacted)) scheme user at_ rfl
    simpa using h
  · exact .refl _

theorem Redactor.encoded_hides (r : Redactor) (s : Str) : Hides s (r.encoded rt s) := by
  unfold encoded
  simp only
  split
  · exact .whole s rfl
  · exact .refl s

theorem Redactor.hex_hides (r : Redactor) (s : Str) : Hides s (r.hex rt s) := by
  unfold hex
  split
  · split
    · exact .whole s rfl
    · exact .refl s
  · exact .refl s

end Passes

/-! ## The passes in sequence -/

/-- One text comes from another by any number of masking passes. -/
abbrev MaskedPasses : Str → Str → Prop := Relation.ReflTransGen Masked

/-- The same with passes that write the bare placeholder. -/
abbrev HidesPasses : Str → Str → Prop := Relation.ReflTransGen Hides

theorem HidesPasses.masked {s t : Str} (h : HidesPasses s t) : MaskedPasses s t :=
  Relation.ReflTransGen.mono (fun _ _ => Hides.masked) _ _ h

section Sequence

variable {rt : Runtime} {r : Redactor}

theorem Redactor.replaceVariants_hides (s : Str) : HidesPasses s (r.replaceVariants s) := by
  unfold replaceVariants
  induction r.variants generalizing s with
  | nil => exact .refl
  | cons v vs ih => exact .head (replace_masks (F := (· = redacted)) rfl v s) (ih _)

/-- The text as it reaches the passes over authorization sequences. -/
def Redactor.maskForms (rt : Runtime) (r : Redactor) (text : Str) : Str :=
  rewrite hexToken (fun pieces => r.hex rt pieces.flatten)
    (rewrite percentToken (fun pieces => r.encoded rt pieces.flatten) (r.replaceVariants text))

theorem Redactor.maskForms_hides (s : Str) : HidesPasses (r.replaceVariants s) (r.maskForms rt s) := by
  refine .tail ?_ (rewrite_hides (fun _ => r.hex_hides _) _)
  exact .single (rewrite_hides (fun _ => r.encoded_hides _) _)

theorem Redactor.maskFields_hides (s : Str) : HidesPasses s (Redactor.maskFields rt s) := by
  refine .tail ?_ (redactUserinfo_hides _)
  refine .tail ?_ (redactAssignments_hides _)
  refine .tail ?_ (redactHeaders_hides _ _)
  refine .tail ?_ (rewrite_hides (fun _ => redactQuotedAuthorization_hides _) _)
  refine .tail ?_ (rewrite_hides (fun _ => redactQuotedAuthorization_hides _) _)
  exact .single (rewrite_hides (fun _ => redactQuotedAuthorization_hides _) _)

/-- The passes of `text` after those over authorization sequences. -/
def Redactor.maskAuthorization (rt : Runtime) (text : Str) : Except Exc Str := do
  let result ← sub jsonField (redactJsonAuthorization rt) text
  let result ← sub escapedJsonField (redactEscapedJsonAuthorization rt) result
  .ok (maskFields rt result)

theorem Redactor.maskAuthorization_hides {s t : Str} (h : maskAuthorization rt s = .ok t) :
    HidesPasses s t := by
  obtain ⟨s₁, h₁, h⟩ := Except.bind_eq_ok.mp h
  obtain ⟨s₂, h₂, h⟩ := Except.bind_eq_ok.mp h
  cases h
  refine .trans ?_ (maskFields_hides _)
  refine .tail ?_ (sub_hides (fun hmatch => redactEscapedJsonAuthorization_hides hmatch) h₂)
  exact .single (sub_hides (fun hmatch => redactJsonAuthorization_hides hmatch) h₁)

/-- Everything after the replacement of the variants masks. -/
theorem Redactor.text_masked {s t : Str} (h : r.text rt s = .ok t) :
    MaskedPasses (r.replaceVariants s) t := by
  have hlast : HidesPasses (r.maskTokens rt (r.replaceVariants s)) t := maskAuthorization_hides h
  refine .trans ?_ hlast.masked
  refine .tail ?_ (sequenceLoop_masked false _ _ _)
  refine .tail ?_ (sequenceLoop_masked true _ _ _)
  exact (r.maskForms_hides s).masked

theorem Placeholder.redacted_infix {p : Str} (hp : Placeholder p) : redacted <:+: p := by
  rcases hp with rfl | rfl | rfl | rfl
  · exact List.infix_refl _
  all_goals exact List.infix_append _ _ _

/-- A redacted text is the text itself, or shows the placeholder. -/
theorem Redactor.text_eq_or_redacted {s t : Str} (h : r.text rt s = .ok t) :
    t = s ∨ redacted <:+: t := by
  have hpasses : MaskedPasses s t := (r.replaceVariants_hides s).masked.trans (text_masked h)
  clear h
  induction hpasses with
  | refl => exact Or.inl rfl
  | tail _ hstep ih =>
    rcases hstep.eq_or_holds with rfl | ⟨p, hp, hin⟩
    · exact ih
    · exact Or.inr (hp.redacted_infix.trans hin)

end Sequence

/-! ## What a redactor looks for -/

section New

variable {rt : Runtime} {so : SetOrder} {secrets : List Str} {r : Redactor}
  (h : Redactor.new rt so secrets = .ok r)

include h

/-- The variants are the forms of the secrets that are long enough. -/
theorem Redactor.mem_variants_iff {v : Str} : v ∈ r.variants ↔ ∃ secret ∈ secrets,
    4 ≤ secret.length ∧ ∃ forms, secretVariants rt secret = some forms ∧ v ∈ forms := by
  unfold Redactor.new at h
  simp only at h
  split at h
  · cases h
  · next variants hvariants =>
    cases h
    have hall := Option.mapM_eq_some_iff.mp hvariants
    rw [mem_sortedBy, (so.iterate_perm _).mem_iff, List.mem_dedup, List.mem_flatten]
    constructor
    · rintro ⟨forms, hforms, hv⟩
      obtain ⟨secret, hsecret, heq⟩ := hall.exists_of_mem_right hforms
      obtain ⟨hs, hlen⟩ := List.mem_filter.mp hsecret
      exact ⟨secret, hs, of_decide_eq_true hlen, forms, heq, hv⟩
    · rintro ⟨secret, hs, hlen, forms, hforms, hv⟩
      obtain ⟨forms', hmem, heq⟩ :=
        hall.exists_of_mem_left (List.mem_filter.mpr ⟨hs, decide_eq_true hlen⟩)
      obtain rfl : forms = forms' := Option.some.inj (hforms.symm.trans heq)
      exact ⟨forms, hmem, hv⟩

theorem Redactor.mem_registered_iff {folded : Str} : folded ∈ r.registered ↔
    ∃ secret ∈ secrets, 4 ≤ secret.length ∧ rt.casefold secret = folded := by
  unfold Redactor.new at h
  simp only at h
  split at h
  · cases h
  · cases h
    simp only [List.mem_map, List.mem_filter, decide_eq_true_eq, and_assoc]

end New

end FieldDiscovery.Redaction
