import FieldDiscovery.Lib.Datetime
import FieldDiscovery.Lib.Runtime
import FieldDiscovery.Lib.IpAddress
import FieldDiscovery.Errors

/-!
# Identity evidence and its normalization

The canonical identity models of `correlation.py`. What a `__post_init__` checks or rewrites is a
field of the structure: text is stripped, bounded and free of NUL, confidences lie in `[0, 1]`, an
interface MAC is its own normal form. The `new` functions are the constructors as the code runs
them, with their errors.
-/

namespace FieldDiscovery.Correlation

open Py

/-! ## Bounded text -/

/-- What `_require_text` guarantees of the text it returns. -/
def IsText (maximum : Nat) (s : Str) : Prop :=
  strip s = s ∧ s ≠ [] ∧ s.length ≤ maximum ∧ cp '\x00' ∉ s

instance (maximum : Nat) (s : Str) : Decidable (IsText maximum s) :=
  inferInstanceAs (Decidable (_ ∧ _))

/-- Stripped, non-empty text of at most `maximum` characters and without NUL. -/
abbrev BoundedText (maximum : Nat) := {s : Str // IsText maximum s}

theorem stripBy_idem (p : CodePoint → Bool) (s : Str) : stripBy p (stripBy p s) = stripBy p s := by
  refine stripBy_eq_self (fun c hc => ?_) fun c hc => ?_
  · unfold stripBy at hc
    have hpre : (s.dropWhile p).rdropWhile p <+: s.dropWhile p := List.rdropWhile_prefix p _
    obtain ⟨t, ht⟩ := hpre
    have hmem : c ∈ (s.dropWhile p).head? := by
      rw [← ht]
      cases hr : (s.dropWhile p).rdropWhile p with
      | nil => rw [hr] at hc; cases hc
      | cons d r => rw [hr] at hc; simpa using hc
    have hnot := List.head?_dropWhile_not p s
    rw [Option.mem_def.mp hmem] at hnot
    simpa using hnot
  · unfold stripBy at hc
    have hne : (s.dropWhile p).rdropWhile p ≠ [] := by
      rintro h
      rw [h] at hc
      cases hc
    have hlast := List.rdropWhile_last_not p (s.dropWhile p) hne
    rw [List.getLast?_eq_some_getLast hne] at hc
    cases hc
    simpa using hlast

theorem isText_strip {value : Str} {maximum : Nat} (h : strip value ≠ [] ∧
    (strip value).length ≤ maximum ∧ cp '\x00' ∉ strip value) : IsText maximum (strip value) :=
  ⟨stripBy_idem _ _, h⟩

/-- `_require_text`. -/
def requireText (value : Str) (field : Str) (maximum : Nat := 512) :
    Except Exc (BoundedText maximum) :=
  let normalized := strip value
  if h : normalized ≠ [] ∧ normalized.length ≤ maximum ∧ cp '\x00' ∉ normalized then
    .ok ⟨normalized, isText_strip h⟩
  else
    .error (.normalization
      (field ++ str " must be non-empty and at most " ++ natStr maximum ++ str " characters"))

theorem isText_a : IsText 512 (str "a") := by decide

/-- Text already returned by `_require_text` is accepted as it is. -/
theorem requireText_val {maximum : Nat} (t : BoundedText maximum) (field : Str) :
    requireText t.val field maximum = .ok t := by
  obtain ⟨s, hs, hne, hlen, hnul⟩ := t
  unfold requireText
  simp only [hs]
  rw [dif_pos ⟨hne, hlen, hnul⟩]

/-! ## Identifier kinds -/

/-- Supported device identity evidence kinds. -/
inductive IdentifierKind where
  | mac
  | serial
  | sourceId
  | hostname
  | ipv4
  deriving DecidableEq

/-- The value of the `StrEnum` member. -/
def IdentifierKind.value : IdentifierKind → Str
  | mac => str "mac"
  | serial => str "serial"
  | sourceId => str "source_id"
  | hostname => str "hostname"
  | ipv4 => str "ipv4"

/-- `kind in _STABLE_KINDS`. -/
def IdentifierKind.isStable : IdentifierKind → Bool
  | mac | serial | sourceId => true
  | hostname | ipv4 => false

theorem IdentifierKind.value_injective : Function.Injective IdentifierKind.value := by
  intro a b
  cases a <;> cases b <;> decide

/-! ## Normalization -/

/-- `_normalize_mac`: twelve hexadecimal digits, however punctuated, in lower-case colon form. -/
def normalizeMac (value : Str) : Except Exc Str :=
  let plain := (strip value).filter fun c => !(c == cp ':' || c == cp '-')
  if plain.length = 12 ∧ plain.all isHex then
    .ok (join (str ":") ((List.range 6).map fun i => ((plain.drop (2 * i)).take 2).map lowerAscii))
  else .error (.normalization (str "MAC address is invalid"))

/-- `_normalize_hostname`. -/
def normalizeHostname (rt : Runtime) (value : Str) : Except Exc Str := do
  let text ← requireText value (str "hostname") 253
  let hostname := rt.casefold (text.val.rdropWhile (· == cp '.'))
  match rt.encodeIdna hostname with
  | none => .error (.normalization (str "hostname is invalid"))
  | some ascii =>
    if (ascii.splitOn (cp '.')).any fun label =>
        label = [] || 63 < label.length || label.head? = some (cp '-') ||
          label.getLast? = some (cp '-') ||
          !label.all fun c => isLower c || isDigit c || c == cp '-' then
      .error (.normalization (str "hostname is invalid"))
    else .ok ascii

/-- `_SERIAL_WHITESPACE.sub(" ", s)`: every run of white space becomes one space. -/
def collapseSpace : Str → Str
  | [] => []
  | c :: s =>
    if isSpace c then
      if s.head?.any isSpace then collapseSpace s else cp ' ' :: collapseSpace s
    else c :: collapseSpace s

/-- `normalize_identifier`. -/
def normalizeIdentifier (rt : Runtime) (kind : IdentifierKind) (value : Str)
    (idNamespace : Option Str) : Except Exc Str :=
  match kind with
  | .mac => normalizeMac value
  | .ipv4 =>
    match ipv4Address (strip value) with
    | some octets => .ok (join (str ".") (octets.map natStr))
    | none => .error (.normalization (str "IPv4 address is invalid"))
  | .hostname => normalizeHostname rt value
  | .serial => do
    let text ← requireText value (str "serial") 256
    .ok (rt.casefold (collapseSpace text.val))
  | .sourceId => do
    let scope ← requireText (idNamespace.getD []) (str "source ID namespace") 128
    let identifier ← requireText value (str "source ID") 256
    .ok (rt.casefold scope.val ++ str ":" ++ rt.casefold identifier.val)

/-! ## Confidence -/

/-- A confidence. Binary floating-point values are rationals, and `NaN` fails the range check. -/
abbrev Confidence := Set.Icc (0 : ℚ) 1

theorem one_isConfidence : (0 : ℚ) ≤ 1 ∧ (1 : ℚ) ≤ 1 := ⟨zero_le_one, le_rfl⟩

/-- The literal `0.8`: the double nearest to four fifths. -/
def mergeThreshold : Confidence :=
  ⟨3602879701896397 / 4503599627370496, by norm_num, by norm_num⟩

/-- The literal `0.5`. -/
def defaultConfidence : Confidence := ⟨1 / 2, by norm_num, by norm_num⟩

/-- The range check of every `__post_init__`. -/
def checkConfidence (confidence : ℚ) : Except Exc Confidence :=
  if h : 0 ≤ confidence ∧ confidence ≤ 1 then .ok ⟨confidence, h⟩
  else .error (.normalization (str "confidence must be between 0 and 1"))

/-- The time zone check of every `__post_init__`; `none` is a naive `datetime`. -/
def checkAware : Option Datetime → Except Exc Datetime
  | some observedAt => .ok observedAt
  | none => .error (.normalization (str "observed_at must include a timezone"))

/-! ## Evidence -/

/-- One source-labelled, time-labelled identity claim. -/
structure IdentityEvidence where
  kind : IdentifierKind
  value : Str
  source : BoundedText 128
  observedAt : Datetime
  confidence : Confidence
  idNamespace : Option Str
  deriving DecidableEq

/-- `IdentityEvidence(...)`, its `__post_init__` included. -/
def IdentityEvidence.new (rt : Runtime) (kind : IdentifierKind) (value source : Str)
    (observedAt : Option Datetime) (confidence : ℚ := 1) (idNamespace : Option Str := none) :
    Except Exc IdentityEvidence := do
  let source ← requireText source (str "source") 128
  let observedAt ← checkAware observedAt
  let confidence ← checkConfidence confidence
  let value ← normalizeIdentifier rt kind value idNamespace
  if kind ≠ .sourceId ∧ idNamespace ≠ none then
    .error (.normalization (str "namespace is valid only for source IDs"))
  else
    let idNamespace := idNamespace.map fun n => rt.casefold (strip n)
    .ok { kind, value, source, observedAt, confidence, idNamespace }

/-- Stable typed lookup key, `f"{kind.value}:{value}"`. -/
def IdentityEvidence.key (e : IdentityEvidence) : Str := e.kind.value ++ str ":" ++ e.value

/-- The evidence can join observations: a stable kind held with confidence at least `0.8`. -/
def IdentityEvidence.merges (e : IdentityEvidence) : Bool :=
  e.kind.isStable && decide (mergeThreshold ≤ e.confidence)

/-- A MAC address in its normal form. -/
abbrev Mac := {m : Str // normalizeMac m = .ok m}

/-- A source observation of one interface belonging to the subject device. -/
structure InterfaceEvidence where
  interfaceKey : BoundedText 512
  source : BoundedText 128
  observedAt : Datetime
  name : Option (BoundedText 256)
  macAddress : Option Mac
  confidence : Confidence

/-- A bounded canonical fact used to disclose cross-source disagreement. -/
structure FactEvidence where
  field : Str
  value : BoundedText 1024
  source : BoundedText 128
  observedAt : Datetime
  confidence : Confidence

/-- `FactEvidence(...)`, its `__post_init__` included. -/
def FactEvidence.new (rt : Runtime) (field value source : Str) (observedAt : Option Datetime)
    (confidence : ℚ := 1) : Except Exc FactEvidence := do
  let field ← requireText field (str "fact field") 128
  let value ← requireText value (str "fact value") 1024
  let source ← requireText source (str "source") 128
  let observedAt ← checkAware observedAt
  let confidence ← checkConfidence confidence
  .ok { field := rt.casefold field.val, value, source, observedAt, confidence }

/-- One collector, passive or import subject before correlation. -/
structure DeviceObservation where
  observationId : BoundedText 512
  source : BoundedText 128
  observedAt : Datetime
  identifiers : List IdentityEvidence
  interfaces : List InterfaceEvidence
  facts : List FactEvidence

/-- `DeviceObservation(...)`, its `__post_init__` included. -/
def DeviceObservation.new (observationId source : Str) (observedAt : Option Datetime)
    (identifiers : List IdentityEvidence) (interfaces : List InterfaceEvidence)
    (facts : List FactEvidence) : Except Exc DeviceObservation := do
  let observationId ← requireText observationId (str "observation ID") 512
  let source ← requireText source (str "source") 128
  let observedAt ← checkAware observedAt
  .ok { observationId, source, observedAt, identifiers, interfaces, facts }

/-- The identifier of an observation. -/
abbrev DeviceObservation.id (o : DeviceObservation) : Str := o.observationId.val

/-! ## The MAC normal form -/

theorem isHex_lowerAscii {c : CodePoint} (h : isHex c = true) : isHex (lowerAscii c) = true ∧
    lowerAscii (lowerAscii c) = lowerAscii c ∧ lowerAscii c ≠ cp ':' ∧ lowerAscii c ≠ cp '-' ∧
    isSpace (lowerAscii c) = false := by
  have hlt : c.val < 103 := by
    simp only [isHex, isDigit, Bool.or_eq_true, Bool.and_eq_true, decide_eq_true_eq] at h
    omega
  have hall : ∀ n : Fin 103, isHex (Fin.ofNat 1114112 n.val) = true →
      isHex (lowerAscii (Fin.ofNat 1114112 n.val)) = true ∧
        lowerAscii (lowerAscii (Fin.ofNat 1114112 n.val)) = lowerAscii (Fin.ofNat 1114112 n.val) ∧
        lowerAscii (Fin.ofNat 1114112 n.val) ≠ cp ':' ∧
        lowerAscii (Fin.ofNat 1114112 n.val) ≠ cp '-' ∧
        isSpace (lowerAscii (Fin.ofNat 1114112 n.val)) = false := by
    decide
  have hc : c = Fin.ofNat 1114112 c.val := by ext; simp
  have := hall ⟨c.val, hlt⟩
  rw [← hc] at this
  exact this h

/-- Normalizing a MAC address twice changes nothing more. -/
theorem normalizeMac_idem {value m : Str} (h : normalizeMac value = .ok m) :
    normalizeMac m = .ok m := by
  unfold normalizeMac at h
  generalize hp : (strip value).filter (fun c => !(c == cp ':' || c == cp '-')) = plain at h
  simp only at h
  split at h
  · next hcond =>
    obtain ⟨hlen, hhex⟩ := hcond
    cases h
    obtain ⟨a, b, c, d, e, f, g, i, j, k, l, n, rfl⟩ : ∃ a b c d e f g i j k l n,
        plain = [a, b, c, d, e, f, g, i, j, k, l, n] := by
      match plain, hlen with
      | [a, b, c, d, e, f, g, i, j, k, l, n], _ => exact ⟨a, b, c, d, e, f, g, i, j, k, l, n, rfl⟩
    simp only [List.all_cons, List.all_nil, Bool.and_true, Bool.and_eq_true] at hhex
    obtain ⟨ha, hb, hc, hd, he, hf, hg, hi, hj, hk, hl, hn⟩ := hhex
    have hjoin : join (str ":") ((List.range 6).map fun x =>
        (([a, b, c, d, e, f, g, i, j, k, l, n].drop (2 * x)).take 2).map lowerAscii) =
        [lowerAscii a, lowerAscii b, cp ':', lowerAscii c, lowerAscii d, cp ':', lowerAscii e,
          lowerAscii f, cp ':', lowerAscii g, lowerAscii i, cp ':', lowerAscii j, lowerAscii k,
          cp ':', lowerAscii l, lowerAscii n] := rfl
    rw [hjoin]
    have hstrip : strip [lowerAscii a, lowerAscii b, cp ':', lowerAscii c, lowerAscii d, cp ':',
        lowerAscii e, lowerAscii f, cp ':', lowerAscii g, lowerAscii i, cp ':', lowerAscii j,
        lowerAscii k, cp ':', lowerAscii l, lowerAscii n] = [lowerAscii a, lowerAscii b, cp ':',
        lowerAscii c, lowerAscii d, cp ':', lowerAscii e, lowerAscii f, cp ':', lowerAscii g,
        lowerAscii i, cp ':', lowerAscii j, lowerAscii k, cp ':', lowerAscii l, lowerAscii n] :=
      stripBy_eq_self (by simpa using (isHex_lowerAscii ha).2.2.2.2)
        (by simpa using (isHex_lowerAscii hn).2.2.2.2)
    unfold normalizeMac
    simp only [hstrip]
    have hkeep : ∀ {x : CodePoint}, isHex x = true →
        (!(lowerAscii x == cp ':' || lowerAscii x == cp '-')) = true := by
      intro x hx
      obtain ⟨-, -, h1, h2, -⟩ := isHex_lowerAscii hx
      simp [h1, h2]
    have hcolon : (!(cp ':' == cp ':' || cp ':' == cp '-')) = false := by decide
    simp only [List.filter_cons, List.filter_nil, hcolon, hkeep ha, hkeep hb, hkeep hc, hkeep hd,
      hkeep he, hkeep hf, hkeep hg, hkeep hi, hkeep hj, hkeep hk, hkeep hl, hkeep hn, if_true,
      Bool.false_eq_true, if_false]
    rw [if_pos]
    · congr 1
      have hlow : ∀ {x : CodePoint}, isHex x = true → lowerAscii (lowerAscii x) = lowerAscii x :=
        fun hx => (isHex_lowerAscii hx).2.1
      show [lowerAscii (lowerAscii a), lowerAscii (lowerAscii b), cp ':',
        lowerAscii (lowerAscii c), lowerAscii (lowerAscii d), cp ':', lowerAscii (lowerAscii e),
        lowerAscii (lowerAscii f), cp ':', lowerAscii (lowerAscii g), lowerAscii (lowerAscii i),
        cp ':', lowerAscii (lowerAscii j), lowerAscii (lowerAscii k), cp ':',
        lowerAscii (lowerAscii l), lowerAscii (lowerAscii n)] = _
      rw [hlow ha, hlow hb, hlow hc, hlow hd, hlow he, hlow hf, hlow hg, hlow hi, hlow hj, hlow hk,
        hlow hl, hlow hn]
    · refine ⟨rfl, ?_⟩
      simp only [List.all_cons, List.all_nil, Bool.and_true, Bool.and_eq_true]
      exact ⟨(isHex_lowerAscii ha).1, (isHex_lowerAscii hb).1, (isHex_lowerAscii hc).1,
        (isHex_lowerAscii hd).1, (isHex_lowerAscii he).1, (isHex_lowerAscii hf).1,
        (isHex_lowerAscii hg).1, (isHex_lowerAscii hi).1, (isHex_lowerAscii hj).1,
        (isHex_lowerAscii hk).1, (isHex_lowerAscii hl).1, (isHex_lowerAscii hn).1⟩
  · cases h

/-- `InterfaceEvidence(...)`, its `__post_init__` included. -/
def InterfaceEvidence.new (interfaceKey source : Str) (observedAt : Option Datetime)
    (name macAddress : Option Str := none) (confidence : ℚ := 1) :
    Except Exc InterfaceEvidence := do
  let interfaceKey ← requireText interfaceKey (str "interface key") 512
  let source ← requireText source (str "source") 128
  let observedAt ← checkAware observedAt
  let confidence ← checkConfidence confidence
  let name ← name.mapM fun n => requireText n (str "interface name") 256
  let macAddress ← macAddress.mapM fun m =>
    match h : normalizeMac m with
    | .ok mac => .ok (⟨mac, normalizeMac_idem h⟩ : Mac)
    | .error e => .error e
  .ok { interfaceKey, source, observedAt, name, macAddress, confidence }

/-- The MAC of an interface as identity evidence of its device. -/
def InterfaceEvidence.macIdentity (i : InterfaceEvidence) : Option IdentityEvidence :=
  i.macAddress.map fun mac =>
    { kind := .mac, value := mac.val, source := i.source, observedAt := i.observedAt,
      confidence := i.confidence, idNamespace := none }

end FieldDiscovery.Correlation
