import FieldDiscovery.Lib.Runs
import FieldDiscovery.Redaction.Masked

/-!
# Portable file names

`safe_filename` and `validate_filename` of `artifacts.py`.

A stem made from a label is a `SafeStem`: name characters only, no separator at either end and no
two separators side by side. Every such stem passes the validator, and the sanitizer leaves it as it
is up to the length limit (`slug_eq_self`), so a name joined from sanitized parts is changed only
by truncation.
-/

namespace FieldDiscovery.Artifacts

open Py Redaction

/-- `[._-]` -/
def isSeparator (c : CodePoint) : Bool := c == cp '.' || c == cp '_' || c == cp '-'

/-- `[A-Za-z0-9._-]` -/
def isNameChar (c : CodePoint) : Bool := isAsciiAlnum c || isSeparator c

/-- `_SAFE_NAME` -/
def safeName : Pattern := [.re (.seq (.chr isAsciiAlnum) (.upTo 99 (.chr isNameChar)))]

/-- `validate_filename` -/
def validateFilename (filename : Str) : Except Exc Str :=
  if (fullmatch safeName filename).isSome then .ok filename
  else .error (.unsafeArtifactPath (str "artifact filename must be a safe portable basename"))

/-- `\.[A-Za-z0-9]{1,12}` -/
def simpleExtension : Pattern :=
  [.re (.seqs [.lit '.', .chr isAsciiAlnum, .upTo 11 (.chr isAsciiAlnum)])]

/-- `slug` of a label in ASCII. -/
def slug (asciiLabel : Str) : Str :=
  let slug := stripBy isSeparator (rewriteRuns 1 (fun c => !isNameChar c) (str "-") asciiLabel)
  let slug := rewriteRuns 2 isSeparator (str "-") slug
  if slug = [] then str "artifact" else slug

/-- `slug[:maximum].rstrip('._-') or 'artifact'` -/
def bounded (maximum : Nat) (slug : Str) : Str :=
  let stem := (slug.take maximum).rdropWhile isSeparator
  if stem = [] then str "artifact" else stem

/-- The label in ASCII, once redacted. -/
def asciiLabel (rt : Runtime) (cleaned : Str) : Str :=
  rt.nfkdAscii (if contains redacted cleaned then str "artifact" else cleaned)

/-- `safe_filename` -/
def safeFilename (rt : Runtime) (r : Redactor) (label suffix : Str) : Except Exc Str :=
  if suffix ≠ [] ∧ (¬ str "." <+: suffix ∨ (fullmatch simpleExtension suffix).isNone) then
    .error (.unsafeArtifactPath (str "artifact suffix must be a simple extension"))
  else do
    let cleaned ← r.text rt label
    validateFilename (bounded (100 - suffix.length) (slug (asciiLabel rt cleaned)) ++ suffix)

/-! ## Safe stems -/

theorem isNameChar_of_alnum {c : CodePoint} (h : isAsciiAlnum c = true) : isNameChar c = true := by
  rw [isNameChar, h, Bool.true_or]

/-- Letters and digits are no separators. -/
theorem not_separator_of_alnum {c : CodePoint} (h : isAsciiAlnum c = true) :
    isSeparator c = false := by
  have h' : c.val ≠ 46 ∧ c.val ≠ 95 ∧ c.val ≠ 45 := by
    simp only [isAsciiAlnum, isDigit, isLower, isUpper, Bool.or_eq_true, Bool.and_eq_true,
      decide_eq_true_eq] at h
    omega
  have hne : c ≠ cp '.' ∧ c ≠ cp '_' ∧ c ≠ cp '-' :=
    ⟨fun e => h'.1 (congrArg Fin.val e), fun e => h'.2.1 (congrArg Fin.val e),
      fun e => h'.2.2 (congrArg Fin.val e)⟩
  simp [isSeparator, hne.1, hne.2.1, hne.2.2]

theorem alnum_of_name {c : CodePoint} (h : isNameChar c = true) (hsep : isSeparator c = false) :
    isAsciiAlnum c = true := by
  simpa [isNameChar, hsep] using h

theorem isAscii_of_name {c : CodePoint} (h : isNameChar c = true) : isAscii c = true := by
  rw [isNameChar, Bool.or_eq_true] at h
  rcases h with h | h
  · simp only [isAsciiAlnum, isDigit, isLower, isUpper, Bool.or_eq_true, Bool.and_eq_true,
      decide_eq_true_eq] at h
    simp only [isAscii, decide_eq_true_eq]
    omega
  · simp only [isSeparator, Bool.or_eq_true, beq_iff_eq] at h
    rcases h with (rfl | rfl) | rfl
    · rfl
    · rfl
    · rfl

/-- The start of a safe stem. -/
structure SafeStart (s : Str) : Prop where
  ne_nil : s ≠ []
  chars : s.all isNameChar = true
  spaced : Spaced isSeparator s
  head : ∀ c ∈ s.head?, isSeparator c = false

/-- A stem that sanitizing leaves as it is. -/
structure SafeStem (s : Str) : Prop extends SafeStart s where
  last : ∀ c ∈ s.getLast?, isSeparator c = false

namespace SafeStart

variable {s : Str}

theorem take (h : SafeStart s) {n : Nat} (hn : 0 < n) : SafeStart (s.take n) where
  ne_nil := by
    rw [Ne, List.take_eq_nil_iff]
    rintro (rfl | hs)
    · exact Nat.lt_irrefl _ hn
    · exact h.ne_nil hs
  chars := by
    rw [List.all_eq_true]
    intro c hc
    exact List.all_eq_true.mp h.chars c (List.mem_of_mem_take hc)
  spaced := List.IsChain.prefix h.spaced (List.take_prefix n s)
  head := by
    intro c hc
    rw [List.head?_take, if_neg (Nat.pos_iff_ne_zero.mp hn)] at hc
    exact h.head c hc

/-- Stripping separators on the right completes the stem; its first letter stays. -/
theorem rstrip (h : SafeStart s) : SafeStem (s.rdropWhile isSeparator) := by
  have hstart : s.rdropWhile isSeparator <+: s := List.rdropWhile_prefix _ _
  have hne : s.rdropWhile isSeparator ≠ [] := by
    intro hnil
    have hall := List.rdropWhile_eq_nil_iff.mp hnil
    cases s with
    | nil => exact h.ne_nil rfl
    | cons c s =>
      have hc := h.head c rfl
      rw [hall c List.mem_cons_self] at hc
      exact Bool.noConfusion hc
  refine ⟨⟨hne, ?_, List.IsChain.prefix h.spaced hstart, ?_⟩, rdropWhile_getLast _ _⟩
  · rw [List.all_eq_true]
    intro c hc
    exact List.all_eq_true.mp h.chars c (hstart.subset hc)
  · intro c hc
    obtain ⟨t, ht⟩ := hstart
    apply h.head c
    rw [← ht, List.head?_append, Option.mem_def.mp hc]
    rfl

end SafeStart

namespace SafeStem

variable {s t : Str}

theorem of_alnum (hne : s ≠ []) (h : s.all isAsciiAlnum = true) : SafeStem s := by
  have hsep : ∀ c ∈ s, isSeparator c = false := fun c hc =>
    not_separator_of_alnum (List.all_eq_true.mp h c hc)
  refine ⟨⟨hne, ?_, ?_, ?_⟩, ?_⟩
  · rw [List.all_eq_true] at h ⊢
    exact fun c hc => isNameChar_of_alnum (h c hc)
  · apply Spaced.of_all_not
    rw [List.all_eq_true]
    intro c hc
    rw [hsep c hc]
    rfl
  · exact fun c hc => hsep c (List.mem_of_mem_head? hc)
  · exact fun c hc => hsep c (List.mem_of_getLast? hc)

/-- Two stems joined by a dash. -/
theorem dash (hs : SafeStem s) (ht : SafeStem t) : SafeStem (s ++ str "-" ++ t) where
  ne_nil := by simp [hs.ne_nil]
  chars := by
    rw [List.all_append, List.all_append, hs.chars, ht.chars]
    rfl
  spaced := hs.spaced.between ht.spaced hs.last ht.head (cp '-')
  head := by
    intro c hc
    apply hs.head c
    obtain ⟨d, s', rfl⟩ := List.exists_cons_of_ne_nil hs.ne_nil
    simpa using hc
  last := by
    intro c hc
    apply ht.last c
    rwa [List.getLast?_append_of_ne_nil _ ht.ne_nil] at hc

theorem artifact : SafeStem (str "artifact") := of_alnum (by decide) (by decide)

theorem rstrip_eq_self (h : SafeStem s) : s.rdropWhile isSeparator = s := by
  rw [List.rdropWhile_eq_self_iff]
  intro hne
  simpa using h.last _ (List.getLast?_eq_some_getLast hne)

end SafeStem

/-! ## The sanitizer -/

theorem slug_start (s : Str) : SafeStart (slug s) := by
  unfold slug
  simp only
  split
  · exact SafeStem.artifact.toSafeStart
  · next hne =>
    have hchars : (rewriteRuns 1 (fun c => !isNameChar c) (str "-") s).all isNameChar = true := by
      apply all_rewriteRuns_one
      · rfl
      · intro c hc
        simpa using hc
    refine ⟨hne, ?_, Spaced.rewriteRuns _ _, ?_⟩
    · apply all_rewriteRuns (by omega)
      · rfl
      · rw [List.all_eq_true] at hchars ⊢
        intro c hc
        exact hchars c ((stripBy_sublist _ _).subset hc)
    · -- the first letter is no separator, so it opens no run
      intro c hc
      cases hstrip : stripBy isSeparator (rewriteRuns 1 (fun c => !isNameChar c) (str "-") s) with
      | nil => simp [hstrip] at hc
      | cons d u =>
        have hd : isSeparator d = false := stripBy_head isSeparator _ d (by rw [hstrip]; rfl)
        rw [hstrip, rewriteRuns_keep (by omega) (by simp [hd])] at hc
        obtain rfl : d = c := by simpa using hc
        exact hd

/-- A safe stem is its own slug. -/
theorem slug_eq_self {s : Str} (h : SafeStem s) : slug s = s := by
  have hname : rewriteRuns 1 (fun c => !isNameChar c) (str "-") s = s := by
    apply rewriteRuns_eq_self Nat.one_pos
    intro u hu hall
    cases u with
    | nil => exact Nat.one_pos
    | cons c u =>
      have hc := List.all_eq_true.mp h.chars c (hu.subset List.mem_cons_self)
      simp [hc] at hall
  have hruns : rewriteRuns 2 isSeparator (str "-") s = s :=
    rewriteRuns_eq_self (by omega) fun u hu hall => h.spaced.run_length_lt hu hall
  unfold slug
  simp only
  rw [hname, stripBy_eq_self h.head h.last, hruns, if_neg h.ne_nil]

theorem bounded_stem {s : Str} (h : SafeStart s) {maximum : Nat} (hmax : 0 < maximum) :
    SafeStem (bounded maximum s) ∧
      bounded maximum s = (s.take maximum).rdropWhile isSeparator := by
  have hstem := (h.take hmax).rstrip
  unfold bounded
  simp only
  rw [if_neg hstem.ne_nil]
  exact ⟨hstem, rfl⟩

theorem bounded_eq_self {s : Str} (h : SafeStem s) {maximum : Nat} (hmax : s.length ≤ maximum) :
    bounded maximum s = s := by
  unfold bounded
  simp only
  rw [List.take_of_length_le hmax, h.rstrip_eq_self, if_neg h.ne_nil]

theorem nfkdAscii_eq_self (rt : Runtime) {s : Str} (h : s.all isNameChar = true) :
    rt.nfkdAscii s = s := by
  unfold Runtime.nfkdAscii
  induction s with
  | nil => rfl
  | cons c s ih =>
    rw [List.all_cons, Bool.and_eq_true] at h
    rw [List.flatMap_cons, if_pos (isAscii_of_name h.1), ih h.2]
    rfl

/-! ## The validator -/

theorem fullmatch_safeName {s : Str} : (fullmatch safeName s).isSome = true ↔
    (∃ c ∈ s.head?, isAsciiAlnum c = true) ∧ s.all isNameChar = true ∧ s.length ≤ 100 := by
  constructor
  · intro h
    obtain ⟨pieces, hpieces⟩ := Option.isSome_iff_exists.mp h
    obtain ⟨m, hm, hrest⟩ := mem_matchParts_re.mp (fullmatch_eq_some hpieces)
    obtain ⟨c, u, t, hc, hs, -, hbody⟩ := Re.mem_run_seq_chr.mp hm
    obtain ⟨hlen, hall, htext⟩ := Re.mem_run_upTo_chr.mp hbody
    have hend : m.2 = [] := by
      rw [matchParts, List.mem_singleton, Prod.mk.injEq] at hrest
      exact hrest.2.symm
    simp only [hend, List.append_nil] at hlen hall htext
    subst hs htext
    refine ⟨⟨c, rfl, hc⟩, ?_, ?_⟩
    · rw [List.all_cons, isNameChar_of_alnum hc, hall]
      rfl
    · simp only [List.length_cons]
      omega
  · rintro ⟨⟨c, hc, halnum⟩, hall, hlen⟩
    cases s with
    | nil => simp at hc
    | cons d s =>
      obtain rfl : d = c := by simpa using hc
      rw [List.all_cons, Bool.and_eq_true] at hall
      have hmem : ([d :: s], []) ∈ matchParts safeName [] none (d :: s) := by
        refine mem_matchParts_re.mpr ⟨(d :: s, []), ?_, by simp [matchParts]⟩
        refine Re.mem_run_seq_chr.mpr ⟨d, s, s, halnum, rfl, rfl, ?_⟩
        exact Re.mem_run_upTo_chr.mpr ⟨Nat.le_of_succ_le_succ hlen, hall.2, List.append_nil s⟩
      obtain ⟨pieces, hpieces⟩ := exists_fullmatch hmem
      rw [hpieces]
      rfl

theorem SafeStem.validateFilename {s : Str} (h : SafeStem s) (hlen : s.length ≤ 100) :
    validateFilename s = .ok s := by
  rw [Artifacts.validateFilename, if_pos]
  obtain ⟨c, t, rfl⟩ := List.exists_cons_of_ne_nil h.ne_nil
  have hc := List.all_eq_true.mp h.chars c List.mem_cons_self
  exact fullmatch_safeName.mpr ⟨⟨c, rfl, alnum_of_name hc (h.head c rfl)⟩, h.chars, hlen⟩

/-- A label the redactor can read always gets a name, and the name is a safe stem. -/
theorem safeFilename_eq (rt : Runtime) (r : Redactor) (label : Str) :
    safeFilename rt r label [] =
      (r.text rt label).map fun cleaned => bounded 100 (slug (asciiLabel rt cleaned)) := by
  unfold safeFilename
  rw [if_neg (by simp)]
  cases h : r.text rt label with
  | error e => rfl
  | ok cleaned =>
    have hstem := bounded_stem (slug_start (asciiLabel rt cleaned)) (by omega : 0 < 100)
    have hlen : (bounded 100 (slug (asciiLabel rt cleaned))).length ≤ 100 := by
      rw [hstem.2]
      exact (List.rdropWhile_prefix _ _).length_le.trans (List.length_take_le _ _)
    have hvalid := hstem.1.validateFilename hlen
    rw [Except.ok_bind, List.append_nil]
    exact hvalid

end FieldDiscovery.Artifacts
