import FieldDiscovery.Correlation.Evidence
import FieldDiscovery.Nmap.Admitted

/-!
# From a host to an observation

`_host_observation` of `nmap_import.py`, and the hosts for which it returns.

The parser bounds every text by one limit and asks of a name only that it is not empty. The
evidence constructors ask for more: identifiers in their normal form, facts that are not blank and
have at most 1024 characters, confidences in `[0, 1]`. `Importable` is what they ask for beyond
what the parser has checked.
-/

namespace FieldDiscovery.Nmap

open Py Correlation

/-! ## The observation of a host -/

/-- `_SOURCE` -/
def source : Str := str "nmap"

/-- The literal `0.9`. -/
def vendorConfidence : ℚ := 8106479329266893 / 9007199254740992

/-- The literal `0.8`. -/
def ipv4Confidence : ℚ := 3602879701896397 / 4503599627370496

/-- The literal `0.7`. -/
def hostnameConfidence : ℚ := 3152519739159347 / 4503599627370496

section

variable (rt : Runtime) (observedAt : Datetime)

/-- The vendor of a MAC address as a fact. -/
def vendorFacts (vendor : Option Str) : Except Exc (List FactEvidence) :=
  match vendor with
  | none => .ok []
  | some v =>
    if v = [] then .ok []
    else do
      let fact ← FactEvidence.new rt (str "vendor") v source (some observedAt) vendorConfidence
      .ok [fact]

/-- The evidence of one address. -/
def addressEvidence (a : NmapAddress) :
    Except Exc (List IdentityEvidence × List FactEvidence) :=
  if a.addressType = str "mac" then do
    let identifier ← IdentityEvidence.new rt .mac a.address source (some observedAt)
    let facts ← vendorFacts rt observedAt a.vendor
    .ok ([identifier], facts)
  else if a.addressType = str "ipv4" then do
    let identifier ←
      IdentityEvidence.new rt .ipv4 a.address source (some observedAt) ipv4Confidence
    .ok ([identifier], [])
  else .ok ([], [])

/-- The state of a host as a fact. -/
def stateFacts (state : Option Str) : Except Exc (List FactEvidence) :=
  match state with
  | none => .ok []
  | some s =>
    if s = [] then .ok []
    else do
      let fact ← FactEvidence.new rt (str "host_state") s source (some observedAt)
      .ok [fact]

/-- `(match.accuracy or 0) / 100` -/
def accuracyConfidence (accuracy : Option Int) : Except Exc ℚ :=
  match toDouble ((accuracy.getD 0 : ℤ) / 100) with
  | some confidence => .ok confidence
  | none => .error .overflow

/-- An OS match as a fact. -/
def osFact (m : NmapOsMatch) : Except Exc FactEvidence := do
  let confidence ← accuracyConfidence m.accuracy
  FactEvidence.new rt (str "os_guess") m.name source (some observedAt) confidence

/-- `script.output or "(no output)"` -/
def scriptOutput (s : NmapScript) : Str := if s.output = [] then str "(no output)" else s.output

/-- `f"nse:{script.script_id}"` -/
def scriptField (s : NmapScript) : Str := str "nse:" ++ s.scriptId

/-- The output of a host script as a fact. -/
def scriptFact (s : NmapScript) : Except Exc FactEvidence :=
  FactEvidence.new rt (scriptField s) (scriptOutput s) source (some observedAt)

/-- `f"nmap:{digest}:{index}"` -/
def observationId (digest : Str) (index : Nat) : Str :=
  str "nmap:" ++ digest ++ str ":" ++ natStr index

/-- `_host_observation` -/
def hostObservation (digest : Str) (index : Nat) (h : NmapHost) :
    Except Exc DeviceObservation := do
  let addresses ← h.addresses.mapM (addressEvidence rt observedAt)
  let hostnames ← h.hostnames.mapM fun item =>
    IdentityEvidence.new rt .hostname item.name source (some observedAt) hostnameConfidence
  let state ← stateFacts rt observedAt h.state
  let osGuesses ← h.osMatches.mapM (osFact rt observedAt)
  let scripts ← h.scripts.mapM (scriptFact rt observedAt)
  DeviceObservation.new (observationId digest index) source (some observedAt)
    (addresses.flatMap Prod.fst ++ hostnames) []
    (addresses.flatMap Prod.snd ++ state ++ osGuesses ++ scripts)

end

/-! ## When the constructors return -/

section

variable {rt : Runtime} {observedAt : Datetime}

theorem requireText_returns {value field : Str} {maximum : Nat} :
    (∃ t, requireText value field maximum = .ok t) ↔
      strip value ≠ [] ∧ (strip value).length ≤ maximum ∧ NulFree (strip value) := by
  unfold requireText NulFree
  simp only
  split
  · next h => exact iff_of_true ⟨_, rfl⟩ h
  · next h => exact iff_of_false (by simp) h

theorem source_returns : ∃ t, requireText source (str "source") 128 = .ok t :=
  requireText_returns.mpr (by unfold NulFree; decide)

theorem checkConfidence_returns {confidence : ℚ} :
    (∃ c, checkConfidence confidence = .ok c) ↔ 0 ≤ confidence ∧ confidence ≤ 1 := by
  unfold checkConfidence
  split
  · next h => exact iff_of_true ⟨_, rfl⟩ h
  · next h => exact iff_of_false (by simp) h

theorem identity_returns {kind : IdentifierKind} {value : Str} {confidence : ℚ}
    (hconfidence : 0 ≤ confidence ∧ confidence ≤ 1) :
    (∃ e, IdentityEvidence.new rt kind value source (some observedAt) confidence = .ok e) ↔
      ∃ n, normalizeIdentifier rt kind value none = .ok n := by
  obtain ⟨s, hs⟩ := source_returns
  obtain ⟨c, hc⟩ := checkConfidence_returns.mpr hconfidence
  unfold IdentityEvidence.new
  rw [hs, Except.ok_bind, checkAware, Except.ok_bind, hc, Except.ok_bind,
    Except.exists_bind_eq_ok (P := True), and_true]
  intro n _
  simp

theorem fact_returns {field value : Str} {confidence : ℚ} :
    (∃ f, FactEvidence.new rt field value source (some observedAt) confidence = .ok f) ↔
      (∃ t, requireText field (str "fact field") 128 = .ok t) ∧
      (∃ t, requireText value (str "fact value") 1024 = .ok t) ∧
      0 ≤ confidence ∧ confidence ≤ 1 := by
  obtain ⟨s, hs⟩ := source_returns
  unfold FactEvidence.new
  apply Except.exists_bind_eq_ok
  intro f _
  apply Except.exists_bind_eq_ok
  intro v _
  rw [hs, Except.ok_bind, checkAware, Except.ok_bind, ← checkConfidence_returns,
    Except.exists_bind_eq_ok (P := True), and_true]
  intro c _
  exact iff_of_true ⟨_, rfl⟩ trivial

/-! ## Importable hosts -/

/-- A text that a fact can carry. -/
def FactText (s : Str) : Prop := strip s ≠ [] ∧ (strip s).length ≤ 1024

instance factTextDecidable (s : Str) : Decidable (FactText s) := inferInstanceAs (Decidable (_ ∧ _))

theorem NulFree.strip {s : Str} (h : NulFree s) : NulFree (strip s) :=
  fun hmem => h ((stripBy_sublist isSpace s).subset hmem)

theorem factText_returns {value field : Str} (h : NulFree value) :
    (∃ t, requireText value field 1024 = .ok t) ↔ FactText value := by
  rw [requireText_returns, FactText, and_iff_left h.strip]

/-- What the normalizer asks of one address. -/
def AddressImportable (a : NmapAddress) : Prop :=
  (a.addressType = str "mac" → (normalizeMac a.address).isOk = true ∧
    ∀ v ∈ a.vendor, v ≠ [] → FactText v) ∧
  (a.addressType = str "ipv4" → (ipv4Address (strip a.address)).isSome = true)

instance addressImportableDecidable (a : NmapAddress) : Decidable (AddressImportable a) :=
  inferInstanceAs (Decidable (_ ∧ _))

/-- What the normalizer asks of a host, beyond what the parser has checked. -/
structure Importable (rt : Runtime) (index : Nat) (h : NmapHost) : Prop where
  /-- The observation ID has at most 512 characters. -/
  index : (natStr index).length ≤ 442
  /-- MAC addresses have twelve hexadecimal digits, IPv4 addresses are dotted quads, and the vendor
  of a MAC address is not blank and has at most 1024 characters. -/
  addresses : ∀ a ∈ h.addresses, AddressImportable a
  /-- Host names are valid IDNA names. -/
  hostnames : ∀ n ∈ h.hostnames, (normalizeHostname rt n.name).isOk = true
  state : ∀ s ∈ h.state, s ≠ [] → FactText s
  /-- The accuracy of an OS match is a percentage. -/
  osMatches : ∀ m ∈ h.osMatches, FactText m.name ∧ 0 ≤ m.accuracy.getD 0 ∧ m.accuracy.getD 0 ≤ 100
  /-- The field of a script has at most 128 characters. -/
  scripts : ∀ s ∈ h.scripts, (strip (scriptField s)).length ≤ 128 ∧ FactText (scriptOutput s)

instance importableDecidable (rt : Runtime) (index : Nat) (h : NmapHost) :
    Decidable (Importable rt index h) :=
  decidable_of_iff ((natStr index).length ≤ 442 ∧ (∀ a ∈ h.addresses, AddressImportable a) ∧
      (∀ n ∈ h.hostnames, (normalizeHostname rt n.name).isOk = true) ∧
      (∀ s ∈ h.state, s ≠ [] → FactText s) ∧
      (∀ m ∈ h.osMatches, FactText m.name ∧ 0 ≤ m.accuracy.getD 0 ∧ m.accuracy.getD 0 ≤ 100) ∧
      ∀ s ∈ h.scripts, (strip (scriptField s)).length ≤ 128 ∧ FactText (scriptOutput s))
    ⟨fun h => ⟨h.1, h.2.1, h.2.2.1, h.2.2.2.1, h.2.2.2.2.1, h.2.2.2.2.2⟩,
      fun h => ⟨h.index, h.addresses, h.hostnames, h.state, h.osMatches, h.scripts⟩⟩

theorem isOk_iff_exists {α : Type} {x : Except Exc α} : x.isOk = true ↔ ∃ a, x = .ok a := by
  cases x with
  | error e => simp [Except.isOk, Except.toBool]
  | ok a => simp [Except.isOk, Except.toBool]

/-- The literal confidences are confidences. -/
theorem confidences_valid : (0 ≤ vendorConfidence ∧ vendorConfidence ≤ 1) ∧
    (0 ≤ ipv4Confidence ∧ ipv4Confidence ≤ 1) ∧
    (0 ≤ hostnameConfidence ∧ hostnameConfidence ≤ 1) := by
  unfold vendorConfidence ipv4Confidence hostnameConfidence
  norm_num

theorem vendorFacts_returns {vendor : Option Str} (h : ∀ v ∈ vendor, NulFree v) :
    (∃ f, vendorFacts rt observedAt vendor = .ok f) ↔ ∀ v ∈ vendor, v ≠ [] → FactText v := by
  unfold vendorFacts
  cases vendor with
  | none => simp
  | some v =>
    by_cases hv : v = []
    · simp [hv]
    · have hfield : ∃ t, requireText (str "vendor") (str "fact field") 128 = .ok t :=
        requireText_returns.mpr (by unfold NulFree; decide)
      simp only [hv, if_false, Option.mem_some_iff, forall_eq', ne_eq, not_false_eq_true,
        true_implies]
      rw [Except.exists_bind_eq_ok (P := True), and_true, fact_returns,
        factText_returns (h v rfl)]
      · exact ⟨fun h => h.2.1, fun h => ⟨hfield, h, confidences_valid.1⟩⟩
      · intro f _
        exact iff_of_true ⟨_, rfl⟩ trivial

theorem stateFacts_returns {state : Option Str} (h : ∀ s ∈ state, NulFree s) :
    (∃ f, stateFacts rt observedAt state = .ok f) ↔ ∀ s ∈ state, s ≠ [] → FactText s := by
  unfold stateFacts
  cases state with
  | none => simp
  | some s =>
    by_cases hs : s = []
    · simp [hs]
    · have hfield : ∃ t, requireText (str "host_state") (str "fact field") 128 = .ok t :=
        requireText_returns.mpr (by unfold NulFree; decide)
      simp only [hs, if_false, Option.mem_some_iff, forall_eq', ne_eq, not_false_eq_true,
        true_implies]
      rw [Except.exists_bind_eq_ok (P := True), and_true, fact_returns,
        factText_returns (h s rfl)]
      · exact ⟨fun h => h.2.1, fun h => ⟨hfield, h, by norm_num, by norm_num⟩⟩
      · intro f _
        exact iff_of_true ⟨_, rfl⟩ trivial

theorem addressEvidence_returns {a : NmapAddress} (h : ∀ v ∈ a.vendor, NulFree v) :
    (∃ e, addressEvidence rt observedAt a = .ok e) ↔ AddressImportable a := by
  have hkinds : str "mac" ≠ str "ipv4" := by decide
  unfold addressEvidence AddressImportable
  by_cases hmac : a.addressType = str "mac"
  · have hipv4 : a.addressType ≠ str "ipv4" := hmac ▸ hkinds
    simp only [hmac, hkinds, if_true, true_implies, false_implies, and_true]
    rw [Except.exists_bind_eq_ok (P := ∀ v ∈ a.vendor, v ≠ [] → FactText v),
      identity_returns (by norm_num), isOk_iff_exists]
    · rfl
    · intro identifier _
      rw [Except.exists_bind_eq_ok (P := True), and_true, vendorFacts_returns h]
      intro facts _
      exact iff_of_true ⟨_, rfl⟩ trivial
  · by_cases hipv4 : a.addressType = str "ipv4"
    · simp only [hipv4, hkinds.symm, if_true, if_false, true_implies, false_implies, true_and]
      rw [Except.exists_bind_eq_ok (P := True), and_true,
        identity_returns confidences_valid.2.1, normalizeIdentifier]
      · cases hquad : ipv4Address (strip a.address) with
        | none => simp
        | some octets => simp
      · intro identifier _
        exact iff_of_true ⟨_, rfl⟩ trivial
    · simp [hmac, hipv4]

theorem osFact_returns {m : NmapOsMatch} (h : NulFree m.name) :
    (∃ f, osFact rt observedAt m = .ok f) ↔
      FactText m.name ∧ 0 ≤ m.accuracy.getD 0 ∧ m.accuracy.getD 0 ≤ 100 := by
  have hfield : ∃ t, requireText (str "os_guess") (str "fact field") 128 = .ok t :=
    requireText_returns.mpr (by unfold NulFree; decide)
  rw [← toDouble_percent, osFact]
  -- `unfold` would evaluate the rounding to prove the equation of the `match`
  delta accuracyConfidence
  cases hd : toDouble ((m.accuracy.getD 0 : ℤ) / 100) with
  | none => simp
  | some d =>
    rw [Except.ok_bind, fact_returns, factText_returns h]
    simp [hfield]

theorem scriptField_returns {s : NmapScript} (h : NulFree s.scriptId) :
    (∃ t, requireText (scriptField s) (str "fact field") 128 = .ok t) ↔
      (strip (scriptField s)).length ≤ 128 := by
  have hnul : NulFree (scriptField s) := by
    intro hmem
    rcases List.mem_append.mp hmem with h' | h'
    · exact absurd h' (by decide)
    · exact h h'
  have hne : strip (scriptField s) ≠ [] := by
    intro hempty
    have hn : cp 'n' ∈ scriptField s := List.mem_append_left _ (by decide)
    unfold strip stripBy at hempty
    have hall := List.rdropWhile_eq_nil_iff.mp hempty
    have hfirst : cp 'n' ∈ (scriptField s).dropWhile isSpace := by
      rw [scriptField, str]
      exact List.mem_cons_self
    exact absurd (hall _ hfirst) (by decide)
  rw [requireText_returns, and_iff_right hne, and_iff_left hnul.strip]

theorem scriptFact_returns {s : NmapScript} (hid : NulFree s.scriptId) (hout : NulFree s.output) :
    (∃ f, scriptFact rt observedAt s = .ok f) ↔
      (strip (scriptField s)).length ≤ 128 ∧ FactText (scriptOutput s) := by
  have hnul : NulFree (scriptOutput s) := by
    unfold scriptOutput
    split
    · unfold NulFree
      decide
    · exact hout
  rw [scriptFact, fact_returns, scriptField_returns hid, factText_returns hnul]
  norm_num

theorem observationId_returns {data : List Byte} {index : Nat} :
    (∃ t, requireText (observationId (rt.sha256 data) index) (str "observation ID") 512 = .ok t) ↔
      (natStr index).length ≤ 442 := by
  have hdigits : ∀ c ∈ natStr index, isDigit c = true := List.all_eq_true.mp (natStr_digits index)
  have hhex : ∀ c ∈ rt.sha256 data, isHex c = true := List.all_eq_true.mp (rt.sha256_hex data)
  have hstrip : strip (observationId (rt.sha256 data) index) =
      observationId (rt.sha256 data) index := by
    apply stripBy_eq_self
    · simp [observationId, str]
      decide
    · intro c hc
      have hne : natStr index ≠ [] := by
        unfold natStr
        split
        · simp
        · next hindex => simpa [Nat.digits_ne_nil_iff_ne_zero] using hindex
      rw [observationId, List.getLast?_append_of_ne_nil _ hne] at hc
      have hdigit := hdigits c (List.mem_of_mem_getLast? hc)
      simp only [isDigit, Bool.and_eq_true, decide_eq_true_eq] at hdigit
      simp only [isSpace]
      simp
      omega
  have hnul : NulFree (observationId (rt.sha256 data) index) := by
    intro hmem
    simp only [observationId, List.mem_append] at hmem
    rcases hmem with ((h | h) | h) | h
    · exact absurd h (by decide)
    · exact absurd (hhex _ h) (by decide)
    · exact absurd h (by decide)
    · exact absurd (hdigits _ h) (by decide)
  have hlength : (observationId (rt.sha256 data) index).length = 70 + (natStr index).length := by
    simp only [observationId, List.length_append, rt.sha256_length]
    have hstart : (str "nmap:").length = 5 := by decide
    have hcolon : (str ":").length = 1 := by decide
    omega
  rw [requireText_returns, hstrip, and_iff_left hnul, hlength]
  constructor
  · intro h
    omega
  · intro h
    refine ⟨?_, by omega⟩
    intro hempty
    rw [hempty] at hlength
    simp at hlength
    omega

theorem hostObservation_returns {data : List Byte} {index : Nat} {h : NmapHost}
    (hadmitted : HostAdmitted h) :
    (∃ o, hostObservation rt observedAt (rt.sha256 data) index h = .ok o) ↔
      Importable rt index h := by
  have hsource := source_returns
  have hnew : ∀ identifiers facts,
      (∃ o, DeviceObservation.new (observationId (rt.sha256 data) index) source (some observedAt)
        identifiers [] facts = .ok o) ↔ (natStr index).length ≤ 442 := by
    intro identifiers facts
    unfold DeviceObservation.new
    rw [Except.exists_bind_eq_ok (P := True), and_true, observationId_returns]
    intro t _
    obtain ⟨s, hs⟩ := hsource
    rw [hs, Except.ok_bind, checkAware, Except.ok_bind]
    exact iff_of_true ⟨_, rfl⟩ trivial
  have hchain : (∃ o, hostObservation rt observedAt (rt.sha256 data) index h = .ok o) ↔
      (∀ a ∈ h.addresses, AddressImportable a) ∧
      (∀ n ∈ h.hostnames, (normalizeHostname rt n.name).isOk = true) ∧
      (∀ s ∈ h.state, s ≠ [] → FactText s) ∧
      (∀ m ∈ h.osMatches,
        FactText m.name ∧ 0 ≤ m.accuracy.getD 0 ∧ m.accuracy.getD 0 ≤ 100) ∧
      (∀ s ∈ h.scripts, (strip (scriptField s)).length ≤ 128 ∧ FactText (scriptOutput s)) ∧
      (natStr index).length ≤ 442 := by
    unfold hostObservation
    have haddresses : (∃ as, h.addresses.mapM (addressEvidence rt observedAt) = .ok as) ↔
        ∀ a ∈ h.addresses, AddressImportable a := by
      rw [Except.exists_mapM_eq_ok]
      exact forall₂_congr fun a ha => addressEvidence_returns (hadmitted.vendor a ha)
    rw [← haddresses]
    apply Except.exists_bind_eq_ok
    intro addresses _
    have hhostnames : (∃ ns, (h.hostnames.mapM fun item => IdentityEvidence.new rt .hostname
        item.name source (some observedAt) hostnameConfidence) = .ok ns) ↔
        ∀ n ∈ h.hostnames, (normalizeHostname rt n.name).isOk = true := by
      rw [Except.exists_mapM_eq_ok]
      apply forall₂_congr
      intro n _
      rw [identity_returns confidences_valid.2.2, normalizeIdentifier, isOk_iff_exists]
    rw [← hhostnames]
    apply Except.exists_bind_eq_ok
    intro hostnames _
    rw [← @stateFacts_returns rt observedAt _ hadmitted.state]
    apply Except.exists_bind_eq_ok
    intro state _
    have hosMatches : (∃ fs, h.osMatches.mapM (osFact rt observedAt) = .ok fs) ↔
        ∀ m ∈ h.osMatches,
          FactText m.name ∧ 0 ≤ m.accuracy.getD 0 ∧ m.accuracy.getD 0 ≤ 100 := by
      rw [Except.exists_mapM_eq_ok]
      exact forall₂_congr fun m hm => osFact_returns (hadmitted.osMatches m hm).2
    rw [← hosMatches]
    apply Except.exists_bind_eq_ok
    intro osGuesses _
    have hscripts : (∃ fs, h.scripts.mapM (scriptFact rt observedAt) = .ok fs) ↔
        ∀ s ∈ h.scripts,
          (strip (scriptField s)).length ≤ 128 ∧ FactText (scriptOutput s) := by
      rw [Except.exists_mapM_eq_ok]
      exact forall₂_congr fun s hs =>
        scriptFact_returns (hadmitted.scripts s hs).2.1 (hadmitted.scripts s hs).2.2
    rw [← hscripts]
    apply Except.exists_bind_eq_ok
    intro scripts _
    exact hnew _ _
  rw [hchain]
  constructor
  · rintro ⟨ha, hn, hs, ho, hsc, hi⟩
    exact ⟨hi, ha, hn, hs, ho, hsc⟩
  · rintro ⟨hi, ha, hn, hs, ho, hsc⟩
    exact ⟨ha, hn, hs, ho, hsc, hi⟩

/-- The importer builds an observation for every host of a scan exactly when every host is
importable. -/
theorem observations_iff_importable {limits : ParserLimits} {p : PullParser}
    {chunks : List (Except Exc (List Byte))} {scan : NmapScan}
    (h : parseStream rt limits p chunks = .ok scan) (data : List Byte) (observedAt : Datetime) :
    (∀ index host, scan.hosts[index]? = some host →
      ∃ o, hostObservation rt observedAt (rt.sha256 data) index host = .ok o) ↔
    ∀ index host, scan.hosts[index]? = some host → Importable rt index host := by
  have hadmitted := parseStream_admitted h
  apply forall₂_congr
  intro index host
  apply imp_congr_right
  intro hhost
  exact hostObservation_returns (hadmitted host (List.mem_of_getElem? hhost))

end

/-! ## Hosts that are importable and hosts that are not -/

mutual

/-- The events of an element that has been read. -/
def Element.events : Element → List XmlEvent
  | ⟨tag, attrib, text, children⟩ =>
    .start tag attrib :: (eventsOfAll children ++ [.finish ⟨tag, attrib, text, children⟩])

def eventsOfAll : List Element → List XmlEvent
  | [] => []
  | e :: es => e.events ++ eventsOfAll es

end

/-- The pull parser on one document: its events become available with its last byte. -/
def PullParser.ofDocument (document : List Byte) (root : Element) : PullParser where
  State := List Byte
  initial := []
  feed fed chunk :=
    let fed := fed ++ chunk
    if fed = document then .ok (fed, root.events)
    else if fed <+: document then .ok (fed, [])
    else .ok (fed, [.error (str "not well-formed (invalid token)")])
  close fed :=
    if fed = document then .ok () else .error (.xmlParse (str "no element found"))

/-- `scan.finished_at is None and scan.exit_status is None` does not hold. -/
def NmapScan.completed (scan : NmapScan) : Bool :=
  scan.finishedAt.isSome || scan.exitStatus.isSome

/-- An element without text. -/
def element (tag : String) (attrib : List (String × String)) (children : List Element) : Element :=
  ⟨str tag, attrib.map fun a => (str a.1, str a.2), none, children⟩

/-- A finished scan of one host that is called `my_printer`. -/
def printerDocument : List Byte :=
  bytes ("<nmaprun><host><hostnames><hostname name=\"my_printer\"/></hostnames></host>" ++
    "<runstats><finished time=\"0\" exit=\"success\"/></runstats></nmaprun>")

def printerRoot : Element :=
  element "nmaprun" [] [
    element "host" [] [
      element "hostnames" [] [element "hostname" [("name", "my_printer")] []]],
    element "runstats" [] [element "finished" [("time", "0"), ("exit", "success")] []]]

/-- The scan of that document. -/
def printerScan : Except Exc NmapScan :=
  parseStream (Runtime.ofDigests []) {} (.ofDocument printerDocument printerRoot)
    [.ok printerDocument, .ok []]

/-- `1970-01-01T00:00:00+00:00` -/
def epoch : Datetime := ⟨epochDay * microsPerDay, 0, epoch_inCalendar, zero_offset⟩

/-- The scan is completed, and its host has no observation. -/
theorem printer_not_importable : ∃ scan host, printerScan = .ok scan ∧ scan.completed = true ∧
    scan.hosts[0]? = some host ∧ ∀ o, hostObservation (Runtime.ofDigests []) epoch
      ((Runtime.ofDigests []).sha256 printerDocument) 0 host ≠ .ok o := by
  have hrun : printerScan.toOption.bind (fun scan => scan.hosts[0]?.map fun host =>
      (scan.completed, (hostObservation (Runtime.ofDigests []) epoch
        ((Runtime.ofDigests []).sha256 printerDocument) 0 host).isOk)) = some (true, false) := by
    decide +kernel
  cases hscan : printerScan with
  | error e => simp [hscan, Except.toOption] at hrun
  | ok scan =>
    cases hhost : scan.hosts[0]? with
    | none => simp [hscan, Except.toOption, hhost] at hrun
    | some host =>
      simp only [hscan, Except.toOption, Option.bind_some, hhost, Option.map_some,
        Option.some.injEq, Prod.mk.injEq] at hrun
      refine ⟨scan, host, rfl, hrun.1, hhost, ?_⟩
      intro o ho
      rw [ho] at hrun
      exact Bool.noConfusion hrun.2

/-- A finished scan of a web server. -/
def webServerDocument : List Byte :=
  bytes ("<nmaprun><host><status state=\"up\"/><address addr=\"192.168.1.20\" addrtype=\"ipv4\"/>" ++
    "<address addr=\"00:11:22:33:44:55\" addrtype=\"mac\" vendor=\"Fixture\"/>" ++
    "<hostnames><hostname name=\"web\"/></hostnames>" ++
    "<ports><port protocol=\"tcp\" portid=\"80\"/></ports></host>" ++
    "<runstats><finished time=\"0\" exit=\"success\"/></runstats></nmaprun>")

def webServerRoot : Element :=
  element "nmaprun" [] [
    element "host" [] [
      element "status" [("state", "up")] [],
      element "address" [("addr", "192.168.1.20"), ("addrtype", "ipv4")] [],
      element "address" [("addr", "00:11:22:33:44:55"), ("addrtype", "mac"), ("vendor", "Fixture")] [],
      element "hostnames" [] [element "hostname" [("name", "web")] []],
      element "ports" [] [element "port" [("protocol", "tcp"), ("portid", "80")] []]],
    element "runstats" [] [element "finished" [("time", "0"), ("exit", "success")] []]]

/-- The scan of that document. -/
def webServerScan : Except Exc NmapScan :=
  parseStream (Runtime.ofDigests []) {} (.ofDocument webServerDocument webServerRoot)
    [.ok webServerDocument, .ok []]

/-- The web server has an observation, and the printer has none. -/
theorem observations_iff_importable_sample :
    (∃ scan host, webServerScan = .ok scan ∧ scan.hosts = [host] ∧ host.addresses.length = 2 ∧
      ∃ o, hostObservation (Runtime.ofDigests []) epoch
        ((Runtime.ofDigests []).sha256 webServerDocument) 0 host = .ok o) ∧
    ∃ scan, printerScan = .ok scan ∧ ¬ ∀ index host, scan.hosts[index]? = some host →
      Importable (Runtime.ofDigests []) index host := by
  constructor
  · have hcheck : webServerScan.toOption.any (fun scan => scan.hosts.length = 1 ∧
        ∀ host ∈ scan.hosts, host.addresses.length = 2 ∧
          Importable (Runtime.ofDigests []) 0 host) = true := by
      decide +kernel
    obtain ⟨scan, hscan, hcheck⟩ := (Option.any_eq_true _ _).mp hcheck
    obtain ⟨hlength, himportable⟩ := of_decide_eq_true hcheck
    obtain ⟨host, hhosts⟩ := List.length_eq_one_iff.mp hlength
    have hscan := Except.toOption_eq_some.mp hscan
    have hhost : scan.hosts[0]? = some host := by rw [hhosts]; rfl
    obtain ⟨haddresses, hhost'⟩ := himportable host (hhosts ▸ List.mem_singleton_self host)
    refine ⟨scan, host, hscan, hhosts, haddresses, ?_⟩
    refine (observations_iff_importable hscan webServerDocument epoch).mpr (fun index other hother => ?_)
      0 host hhost
    rw [hhosts] at hother
    cases index with
    | zero => exact Option.some.inj hother ▸ hhost'
    | succ index => cases hother
  · obtain ⟨scan, hscan⟩ := Except.exists_of_isOk (show printerScan.isOk = true by decide +kernel)
    refine ⟨scan, hscan, fun himportable => ?_⟩
    have hcheck : printerScan.toOption.bind (fun scan => scan.hosts[0]?.map fun host =>
        decide (Importable (Runtime.ofDigests []) 0 host)) = some false := by
      decide +kernel
    rw [hscan, Except.toOption, Option.bind_some, Option.map_eq_some_iff] at hcheck
    obtain ⟨host, hhost, hfalse⟩ := hcheck
    exact of_decide_eq_false hfalse (himportable 0 host hhost)

end FieldDiscovery.Nmap
