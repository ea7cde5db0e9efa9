import FieldDiscovery.Redaction.Masked

/-!
# Secrets and the passes

The replacement of the variants removes a registered secret that does not overlap the placeholder,
and no pass that writes the bare placeholder makes it appear again. The two passes over
authorization sequences write quotation marks as well. Between the values they mask stand stretches
of the text with those marks at their ends, and a secret such as `": "` can be completed by them
(`Completes`). Nothing else brings a removed secret back (`Counted.text_free`).
-/

namespace FieldDiscovery.Redaction

open Py

/-! ## Stretches of a text -/

/-- A stretch that the pass leaves, and the quotation marks that it writes at its ends. -/
structure Stretch where
  opening : Str
  text : Str
  closing : Str

def Stretch.marked (k : Stretch) : Str := k.opening ++ k.text ++ k.closing

section Stretches

variable (rt : Runtime) (serialized : Bool) (pattern : Pattern)

/-- The stretches of the text from the cursor on; the first goes on after `lead`. -/
def stretchesFrom : Nat → Str → Str → Str → List Stretch
  | 0, opening, lead, text => [⟨opening, lead ++ text, []⟩]
  | fuel + 1, opening, lead, text =>
    match search pattern text with
    | some (before, [key, separator, bracket], rest) =>
      if isSequenceKey rt serialized key then
        let sequence := bracket ++ rest
        let stop := (sequenceEnd serialized sequence).getD (malformedSequenceBoundary sequence)
        let quote := sequenceQuote serialized key
        ⟨opening, lead ++ before ++ key ++ separator, quote⟩ ::
          stretchesFrom fuel quote [] (sequence.drop stop)
      else stretchesFrom fuel opening (lead ++ before ++ key ++ separator ++ bracket) rest
    | _ => [⟨opening, lead ++ text, []⟩]

/-- The stretches that `_redact_authorization_sequences` leaves of a text. -/
def stretches (text : Str) : List Stretch :=
  stretchesFrom rt serialized pattern text.length [] [] text

variable {rt serialized pattern}

end Stretches

/-! ## What the marks complete -/

section Completes

variable (rt : Runtime) (r : Redactor)

/-- `_ESCAPED_AUTH_SEQUENCE_START` of the first pass, `_AUTH_SEQUENCE_START` of the second. -/
def sequenceStart (serialized : Bool) : Pattern :=
  if serialized then escapedAuthSequenceStart else authSequenceStart

/-- The text as it reaches one of the two passes over authorization sequences. -/
def Redactor.reaching (serialized : Bool) (text : Str) : Str :=
  if serialized then r.maskForms rt text
  else redactAuthorizationSequences rt true escapedAuthSequenceStart (r.maskForms rt text)

/-- The quotation marks that the pass writes at the ends of a stretch complete the secret. -/
def Redactor.Completes (serialized : Bool) (secret text : Str) : Prop :=
  ∃ k ∈ stretches rt serialized (sequenceStart serialized) (r.reaching rt serialized text),
    ¬ secret <:+: k.text ∧ secret <:+: k.marked

variable {rt r}

end Completes

/-! ## A removed secret stays removed -/

/-- A secret that the contract covers: long enough, and not overlapping the placeholder. -/
structure Counted (secret : Str) : Prop where
  length : 4 ≤ secret.length
  apart : Apart secret redacted

section Removed

variable {rt : Runtime} {r : Redactor} {secret : Str} (hc : Counted secret)

include hc

theorem Counted.passes {s t : Str} (h : HidesPasses s t) (hs : ¬ secret <:+: s) :
    ¬ secret <:+: t := by
  induction h with
  | refl => exact hs
  | tail _ hstep ih =>
    refine hstep.free ?_ ih
    rintro p rfl
    exact hc.apart

/-- The variant pass removes every variant of the list. -/
theorem Counted.replaceVariants (hv : secret ∈ r.variants) (s : Str) :
    ¬ secret <:+: r.replaceVariants s := by
  obtain ⟨before, after, hsplit⟩ := List.append_of_mem hv
  unfold Redactor.replaceVariants
  rw [hsplit, List.foldl_append, List.foldl_cons]
  generalize List.foldl (fun s v => replace v redacted s) s before = s'
  have hpasses : HidesPasses (replace secret redacted s')
      (after.foldl (fun s v => replace v redacted s) (replace secret redacted s')) :=
    Redactor.replaceVariants_hides (r := { variants := after, registered := [] }) _
  exact hc.passes hpasses (replace_free hc.apart s')

end Removed

end FieldDiscovery.Redaction
