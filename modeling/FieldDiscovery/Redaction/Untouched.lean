import FieldDiscovery.Redaction.Masked

/-!
# Texts that redaction leaves as they are

Every pattern but `_HEX_TOKEN` needs one of the characters `%+:=>`. A text without them stays as it
is when it holds no form of a registered secret, and no run of hexadecimal digits that spells one
(`text_eq_self_iff`).
-/

namespace FieldDiscovery.Redaction

open Py Re

/-! ## Patterns that need a character -/

/-- `[%+:=>]` -/
abbrev IsMark (c : CodePoint) : Prop := c ∈ str "%+:=>"

theorem needs_oneOf {s : String} (h : str s ⊆ str "%+:=>") : (oneOf s).Needs IsMark :=
  Needs.chr fun _ hc => h (List.contains_iff_mem.mp hc)

theorem colonSeparator_needs : colonSeparator.Needs IsMark :=
  Needs.seqs (a := lit ':') (by simp) (Needs.word (w := ":") List.mem_cons_self (by decide))

theorem percentToken_needs : percentToken.Needs IsMark :=
  ⟨0, _, rfl, Needs.seqs (a := oneOf "%+") (by simp) (needs_oneOf (by decide))⟩

theorem authSequenceStart_needs : authSequenceStart.Needs IsMark :=
  ⟨1, _, rfl, colonSeparator_needs⟩

theorem escapedAuthSequenceStart_needs : escapedAuthSequenceStart.Needs IsMark :=
  ⟨1, _, rfl, colonSeparator_needs⟩

theorem jsonField_needs : jsonField.Needs IsMark := ⟨1, _, rfl, colonSeparator_needs⟩

theorem escapedJsonField_needs : escapedJsonField.Needs IsMark := ⟨1, _, rfl, colonSeparator_needs⟩

theorem quotedAuthDouble_needs : quotedAuthDouble.Needs IsMark :=
  ⟨0, _, rfl, Needs.seqs (by simp) colonSeparator_needs⟩

theorem quotedAuthSingle_needs : quotedAuthSingle.Needs IsMark :=
  ⟨0, _, rfl, Needs.seqs (by simp) colonSeparator_needs⟩

theorem escapedAuthDouble_needs : escapedAuthDouble.Needs IsMark :=
  ⟨0, _, rfl, Needs.seqs (by simp) colonSeparator_needs⟩

theorem authHeader_needs (rt : Runtime) : (authHeader rt).Needs IsMark :=
  ⟨1, _, rfl, Needs.seqs (a := oneOf ":=") (by simp) (needs_oneOf (by decide))⟩

theorem assignment_needs (rt : Runtime) : (assignment rt).Needs IsMark := by
  refine ⟨2, _, rfl, Needs.seqs (a := alts [word "=>", word "->", word "::", oneOf ":="]) (by simp)
    (Needs.alts ?_)⟩
  simp only [List.forall_mem_cons, List.not_mem_nil, false_implies, implies_true, and_true]
  exact ⟨Needs.word (c := cp '=') (by decide) (by decide),
    Needs.word (c := cp '>') (by decide) (by decide),
    Needs.word (c := cp ':') (by decide) (by decide), needs_oneOf (by decide)⟩

theorem uriUserinfo_needs (rt : Runtime) : (uriUserinfo rt).Needs IsMark :=
  ⟨0, _, rfl, Needs.seqs (a := word "://") (by simp)
    (Needs.word (c := cp ':') (by decide) (by decide))⟩

section Unmarked

variable {rt : Runtime} {s : Str} (hs : ∀ c ∈ s, ¬ IsMark c)

include hs

theorem redactAuthorizationSequences_eq_self {pattern : Pattern} (hp : pattern.Needs IsMark)
    (serialized : Bool) : redactAuthorizationSequences rt serialized pattern s = s := by
  unfold redactAuthorizationSequences
  cases s with
  | nil => rfl
  | cons c s =>
    rw [List.length_cons, sequenceLoop, search, hp.searchFrom hs]

theorem redactHeaders_eq_self (fuel : Nat) : redactHeaders rt fuel s = s := by
  cases fuel with
  | zero => rfl
  | succ fuel => exact (authHeader_needs rt).rewrite hs _

theorem Redactor.maskAuthorization_eq_self : maskAuthorization rt s = .ok s := by
  unfold maskAuthorization maskFields redactAssignments redactUserinfo
  rw [jsonField_needs.sub hs, Except.ok_bind, escapedJsonField_needs.sub hs, Except.ok_bind]
  simp only [quotedAuthDouble_needs.rewrite hs, quotedAuthSingle_needs.rewrite hs,
    escapedAuthDouble_needs.rewrite hs, redactHeaders_eq_self hs, (assignment_needs rt).rewrite hs,
    (uriUserinfo_needs rt).rewrite hs]

end Unmarked

/-! ## Hexadecimal tokens -/

/-- A run of hexadecimal digits that no further digit extends, long enough for `_HEX_TOKEN`. -/
def HexRun (run s : Str) : Prop :=
  ∃ before after, s = before ++ run ++ after ∧ 8 ≤ run.length ∧ run.all isHex = true ∧
    (∀ c ∈ before.getLast?, isHex c = false) ∧ ∀ c ∈ after.head?, isHex c = false

theorem mem_run_hexToken {prev : Option CodePoint} {s : Str} {m : Str × Str} :
    m ∈ (seqs [notBehind isHex, times 8 (chr isHex), star (chr isHex),
      look true (chr isHex)]).run prev s ↔ (∀ c ∈ prev, isHex c = false) ∧ 8 ≤ m.1.length ∧
        m.1.all isHex = true ∧ m.1 ++ m.2 = s ∧ ∀ c ∈ m.2.head?, isHex c = false := by
  have hbehind : ∀ m₁, m₁ ∈ (notBehind isHex).run prev s ↔
      (∀ c ∈ prev, isHex c = false) ∧ m₁ = ([], s) := by
    intro m₁
    cases prev with
    | none => simp [run]
    | some c => cases hc : isHex c <;> simp [run, hc]
  have hahead : ∀ prev s m₁, m₁ ∈ (look true (chr isHex)).run prev s ↔
      (∀ c ∈ s.head?, isHex c = false) ∧ m₁ = ([], s) := by
    intro prev s m₁
    cases s with
    | nil => simp [run]
    | cons c s => cases hc : isHex c <;> simp [run, hc]
  obtain ⟨u, t⟩ := m
  simp only [seqs, mem_run_seq, hbehind, hahead, mem_run_times_chr, mem_run_star_chr, Prod.exists,
    Prod.mk.injEq]
  constructor
  · rintro ⟨_, _, ⟨hprev, rfl, rfl⟩, _, _, ⟨u₁, t₁, ⟨h8, hall₁, rfl⟩, _, _, ⟨u₂, t₂, ⟨hall₂, rfl⟩,
      _, _, ⟨hafter, rfl, rfl⟩, rfl, rfl⟩, rfl, rfl⟩, rfl, rfl⟩
    refine ⟨hprev, ?_, ?_, by simp, hafter⟩
    · simp only [List.nil_append, List.append_nil, List.length_append]
      omega
    · simp [hall₁, hall₂]
  · rintro ⟨hprev, h8, hall, rfl, hafter⟩
    have hsplit : u.take 8 ++ u.drop 8 = u := List.take_append_drop 8 u
    rw [← hsplit, List.all_append, Bool.and_eq_true] at hall
    exact ⟨[], u ++ t, ⟨hprev, rfl, rfl⟩, u, t, ⟨u.take 8, u.drop 8 ++ t,
      ⟨List.length_take_of_le h8, hall.1, by rw [← List.append_assoc, hsplit]⟩, u.drop 8, t,
      ⟨u.drop 8, t, ⟨hall.2, rfl⟩, [], t, ⟨hafter, rfl, rfl⟩, List.append_nil _, rfl⟩, hsplit, rfl⟩,
      rfl, rfl⟩

/-- A match of `_HEX_TOKEN` is the whole run that stands there. -/
theorem piecesAt_hexToken {prev : Option CodePoint} {s : Str} {pieces : List Str}
    (h : piecesAt hexToken prev s = some pieces) : ∃ run after, pieces = [run] ∧ s = run ++ after ∧
      8 ≤ run.length ∧ run.all isHex = true ∧ (∀ c ∈ prev, isHex c = false) ∧
        ∀ c ∈ after.head?, isHex c = false := by
  obtain ⟨-, rest, hmatch, -⟩ := piecesAt_spec h
  obtain ⟨m, hm, hlast⟩ := mem_matchParts_re.mp hmatch
  rw [matchParts, List.mem_singleton, Prod.mk.injEq] at hlast
  obtain ⟨hprev, h8, hall, htext, hafter⟩ := mem_run_hexToken.mp hm
  exact ⟨m.1, m.2, hlast.1, htext.symm, h8, hall, hprev, hafter⟩

theorem piecesAt_hexToken_eq {prev : Option CodePoint} {run after : Str} (h8 : 8 ≤ run.length)
    (hrun : run.all isHex = true) (hprev : ∀ c ∈ prev, isHex c = false)
    (hafter : ∀ c ∈ after.head?, isHex c = false) :
    piecesAt hexToken prev (run ++ after) = some [run] := by
  have hmem : ([run], after) ∈ matchParts hexToken [] prev (run ++ after) :=
    mem_matchParts_re.mpr ⟨(run, after), mem_run_hexToken.mpr ⟨hprev, h8, hrun, rfl, hafter⟩,
      List.mem_singleton_self _⟩
  cases hhead : (matchParts hexToken [] prev (run ++ after)).head? with
  | none => rw [List.head?_eq_none_iff.mp hhead] at hmem; cases hmem
  | some m =>
    obtain ⟨m', hm', hlast⟩ := mem_matchParts_re.mp (List.mem_of_mem_head? hhead)
    rw [matchParts, List.mem_singleton] at hlast
    obtain ⟨-, h8', hall, htext, hafter'⟩ := mem_run_hexToken.mp hm'
    have hsame : m'.1 = run := by
      rw [← takeWhile_append_eq hall hafter', htext, takeWhile_append_eq hrun hafter]
    have hm : m = ([run], m'.2) := by rw [hlast, hsame]; rfl
    have hne : [run].flatten ≠ [] := by
      rw [List.flatten_cons, List.flatten_nil, List.append_nil, ← List.length_pos_iff]
      omega
    rw [piecesAt, matchAt, hhead, hm]
    simp only
    rw [if_neg hne]

/-- What replaces a run shows in the text. -/
theorem mem_subFrom_hexToken {g : List Str → Str} {c : CodePoint} {run after : Str}
    (h8 : 8 ≤ run.length) (hrun : run.all isHex = true)
    (hafter : ∀ c ∈ after.head?, isHex c = false) (hc : c ∈ g [run]) {before t : Str} {skip : Nat}
    {prev : Option CodePoint} (hskip : skip ≤ before.length)
    (hbefore : ∀ c ∈ lastOr prev before, isHex c = false)
    (h : subFrom (ε := Empty) hexToken (fun pieces => .ok (g pieces)) skip prev
      (before ++ (run ++ after)) = .ok t) : c ∈ t := by
  induction before generalizing skip prev t with
  | nil =>
    obtain rfl : skip = 0 := Nat.le_zero.mp hskip
    have hpieces : piecesAt hexToken prev (run ++ after) = some [run] :=
      piecesAt_hexToken_eq h8 hrun hbefore hafter
    obtain ⟨d, u, hu⟩ := List.exists_cons_of_ne_nil
      (List.ne_nil_of_length_pos (by omega : 0 < run.length))
    rw [hu, List.cons_append] at hpieces
    rw [hu, List.nil_append, List.cons_append, subFrom, hpieces] at h
    obtain ⟨replacement, hreplacement, h⟩ := Except.bind_eq_ok.mp h
    obtain ⟨rest, -, h⟩ := Except.bind_eq_ok.mp h
    cases h
    cases hreplacement
    rw [← hu]
    exact List.mem_append_left _ hc
  | cons d before ih =>
    have hlast : ∀ c ∈ lastOr (some d) before, isHex c = false := by
      rwa [lastOr_cons] at hbefore
    cases skip with
    | succ skip =>
      rw [List.cons_append, subFrom] at h
      exact ih (Nat.le_of_succ_le_succ hskip) hlast h
    | zero =>
      rw [List.cons_append, subFrom] at h
      split at h
      · next pieces hpieces =>
        obtain ⟨run', after', rfl, htext, -, hall, -, -⟩ := piecesAt_hexToken hpieces
        obtain ⟨replacement, -, h⟩ := Except.bind_eq_ok.mp h
        obtain ⟨rest, hrest, h⟩ := Except.bind_eq_ok.mp h
        cases h
        refine List.mem_append_right _ (ih ?_ hlast hrest)
        -- the match ends before the last character in front of the run
        by_contra hlong
        have hlen : (d :: before).length ≤ run'.length := by
          simp only [List.flatten_cons, List.flatten_nil, List.append_nil] at hlong
          rw [List.length_cons]
          omega
        have hpre : d :: before <+: run' := by
          refine @List.prefix_of_prefix_length_le _ _ _ (d :: (before ++ (run ++ after))) ?_ ?_ hlen
          · exact List.prefix_append (d :: before) _
          · rw [htext]
            exact List.prefix_append _ _
        have hmem := List.getLast_mem (List.cons_ne_nil d before)
        have hhex := List.all_eq_true.mp hall _ (hpre.subset hmem)
        rw [hbefore _ (by rw [lastOr, List.getLast?_eq_some_getLast (List.cons_ne_nil d before)]; rfl)]
          at hhex
        cases hhex
      · obtain ⟨rest, hrest, h⟩ := Except.bind_eq_ok.mp h
        cases h
        exact List.mem_cons_of_mem d (ih (Nat.zero_le _) hlast hrest)

/-! ## What stays -/

section Stays

variable {rt : Runtime} {r : Redactor} {s : Str}

theorem Redactor.replaceVariants_eq_self (h : ∀ v ∈ r.variants, ¬ v <:+: s) :
    r.replaceVariants s = s := by
  unfold replaceVariants
  induction hvs : r.variants generalizing r with
  | nil => rfl
  | cons v vs ih =>
    rw [hvs] at h
    rw [List.foldl_cons, replace_eq_self (h v List.mem_cons_self)]
    exact ih (r := { variants := vs, registered := [] })
      (fun w hw => h w (List.mem_cons_of_mem v hw)) rfl

theorem bracket_of_masked {s t : Str} (h : MaskedPasses s t) (hs : cp '[' ∈ s) : cp '[' ∈ t := by
  induction h with
  | refl => exact hs
  | tail _ hstep ih =>
    refine hstep.mem (fun p hp => hp.redacted_infix.subset ?_) ih
    exact List.mem_cons_self

/-- A form that occurs leaves the placeholder. -/
theorem Redactor.bracket_of_variant (hne : s ≠ []) {v : Str} (hv : v ∈ r.variants)
    (hin : v <:+: s) : cp '[' ∈ r.replaceVariants s := by
  unfold replaceVariants
  induction hvs : r.variants generalizing r with
  | nil =>
    rw [hvs] at hv
    cases hv
  | cons w vs ih =>
    rw [List.foldl_cons]
    have hrest : HidesPasses (replace w redacted s)
        (vs.foldl (fun s v => replace v redacted s) (replace w redacted s)) :=
      Redactor.replaceVariants_hides (r := { variants := vs, registered := [] }) _
    by_cases hw : w <:+: s
    · exact bracket_of_masked hrest.masked (mem_replace hw hne List.mem_cons_self)
    · rw [hvs] at hv
      rcases List.mem_cons.mp hv with rfl | hv
      · exact absurd hin hw
      · rw [replace_eq_self hw]
        exact ih (r := { variants := vs, registered := [] }) hv rfl

/-- A text without marks stays as it is exactly when it holds no variant and no run that the
redactor takes for a secret. -/
theorem Redactor.text_eq_self_iff (hne : s ≠ []) (hs : ∀ c ∈ s, ¬ IsMark c) (hbracket : cp '[' ∉ s) :
    r.text rt s = .ok s ↔
      (∀ v ∈ r.variants, ¬ v <:+: s) ∧ ∀ run, HexRun run s → r.hex rt run = run := by
  constructor
  · intro h
    have hvariants : ∀ v ∈ r.variants, ¬ v <:+: s := fun v hv hin =>
      hbracket (bracket_of_masked (text_masked h) (bracket_of_variant hne hv hin))
    refine ⟨hvariants, ?_⟩
    rintro run ⟨before, after, htext, h8, hrun, hbefore, hafter⟩
    by_contra hhex
    have hshown : cp '[' ∈ r.hex rt run := by
      rcases (r.hex_hides run).eq_or_holds with hsame | ⟨p, rfl, hin⟩
      · exact absurd hsame hhex
      · exact hin.subset List.mem_cons_self
    have hforms : cp '[' ∈ r.maskForms rt s := by
      unfold maskForms
      rw [replaceVariants_eq_self hvariants, percentToken_needs.rewrite hs, rewrite, sub]
      split
      next t ht =>
      rw [htext, List.append_assoc] at ht
      refine mem_subFrom_hexToken h8 hrun hafter (by simpa using hshown) (Nat.zero_le _) ?_ ht
      intro c hc
      rw [lastOr] at hc
      cases hlast : before.getLast? with
      | none =>
        rw [hlast] at hc
        cases hc
      | some d =>
        rw [hlast] at hc hbefore
        exact hbefore c hc
    have hpasses : MaskedPasses (r.maskForms rt s) s := by
      refine .trans ?_ (maskAuthorization_hides h).masked
      exact .tail (.single (sequenceLoop_masked true _ _ _)) (sequenceLoop_masked false _ _ _)
    exact hbracket (bracket_of_masked hpasses hforms)
  · rintro ⟨hvariants, hruns⟩
    have hhex : rewrite hexToken (fun pieces => r.hex rt pieces.flatten) s = s := by
      refine rewrite_eq_self fun before rest pieces htext hpieces => ?_
      obtain ⟨run, after, rfl, hrest, h8, hrun, hprev, hafter⟩ := piecesAt_hexToken hpieces
      rw [List.flatten_cons, List.flatten_nil, List.append_nil]
      refine hruns run ⟨before, after, by rw [htext, hrest, List.append_assoc], h8, hrun, ?_, hafter⟩
      intro c hc
      apply hprev c
      rw [lastOr, Option.mem_def.mp hc]
      rfl
    unfold text maskTokens
    rw [replaceVariants_eq_self hvariants]
    simp only [percentToken_needs.rewrite hs, hhex,
      redactAuthorizationSequences_eq_self hs escapedAuthSequenceStart_needs,
      redactAuthorizationSequences_eq_self hs authSequenceStart_needs]
    exact maskAuthorization_eq_self hs

end Stays

/-- The text holds a form of the secret, or a run of hexadecimal digits that spells it in some case. -/
def Shows (rt : Runtime) (secret s : Str) : Prop :=
  (∃ forms, secretVariants rt secret = some forms ∧ ∃ form ∈ forms, form <:+: s) ∨
    ∃ run decoded, HexRun run s ∧ (fromHex run).bind decodeUtf8 = some decoded ∧
      rt.casefold decoded = rt.casefold secret

/-- The same, by the secrets that the redactor was built with. -/
theorem text_eq_self_iff_shows {rt : Runtime} {so : SetOrder} {secrets : List Str} {r : Redactor}
    (hr : Redactor.new rt so secrets = .ok r) {s : Str} (hne : s ≠ []) (hs : ∀ c ∈ s, ¬ IsMark c)
    (hbracket : cp '[' ∉ s) : r.text rt s = .ok s ↔
      ∀ secret ∈ secrets, 4 ≤ secret.length → ¬ Shows rt secret s := by
  have hredacted : ∀ run, HexRun run s → redacted ≠ run := by
    rintro run ⟨before, after, htext, -⟩ rfl
    refine hbracket ?_
    rw [htext]
    exact List.mem_append_left _ (List.mem_append_right _ List.mem_cons_self)
  rw [Redactor.text_eq_self_iff hne hs hbracket]
  constructor
  · rintro ⟨hvariants, hruns⟩ secret hsecret hlen (⟨forms, hforms, form, hform, hin⟩ |
      ⟨run, decoded, hrun, hdecode, hfold⟩)
    · exact hvariants form
        ((Redactor.mem_variants_iff hr).mpr ⟨secret, hsecret, hlen, forms, hforms, hform⟩) hin
    · have hhex := hruns run hrun
      have hmem := (Redactor.mem_registered_iff hr).mpr ⟨secret, hsecret, hlen, hfold.symm⟩
      rw [Redactor.hex, hdecode] at hhex
      simp only [if_pos hmem] at hhex
      exact hredacted run hrun hhex
  · intro h
    refine ⟨fun v hv hin => ?_, fun run hrun => ?_⟩
    · obtain ⟨secret, hsecret, hlen, forms, hforms, hform⟩ := (Redactor.mem_variants_iff hr).mp hv
      exact h secret hsecret hlen (.inl ⟨forms, hforms, v, hform, hin⟩)
    · unfold Redactor.hex
      split
      · next decoded hdecode =>
        refine if_neg fun hmem => ?_
        obtain ⟨secret, hsecret, hlen, hfold⟩ := (Redactor.mem_registered_iff hr).mp hmem
        exact h secret hsecret hlen (.inr ⟨run, decoded, hrun, hdecode, hfold.symm⟩)
      · rfl

end FieldDiscovery.Redaction
