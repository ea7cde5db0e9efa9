import FieldDiscovery.Nmap.Xml

/-!
# What the nmap parser admits

Every host of a scan that `parse_nmap_xml` returns has passed `_host`, so its texts are free of NUL
and its names are not empty. The proof follows the parser: a host is admitted when it is built, and
the loops over events and chunks only collect hosts that were built.
-/

namespace FieldDiscovery.Nmap

open Py

/-- A text without NUL. -/
def NulFree (s : Str) : Prop := cp '\x00' ∉ s

/-- What `_host` has checked of the texts that the importer turns into evidence. -/
structure HostAdmitted (h : NmapHost) : Prop where
  vendor : ∀ a ∈ h.addresses, ∀ v ∈ a.vendor, NulFree v
  state : ∀ s ∈ h.state, NulFree s
  osMatches : ∀ m ∈ h.osMatches, m.name ≠ [] ∧ NulFree m.name
  scripts : ∀ s ∈ h.scripts, s.scriptId ≠ [] ∧ NulFree s.scriptId ∧ NulFree s.output

section

variable {rt : Runtime} {limits : ParserLimits}

theorem bounded_nulFree {value result : Option Str} {field : String}
    (h : bounded limits value field = .ok result) : ∀ s ∈ result, NulFree s := by
  unfold bounded at h
  cases value with
  | none =>
    cases h
    simp
  | some v =>
    simp only at h
    split at h
    · cases h
    · split at h
      · cases h
      · next hnul =>
        cases h
        simpa [NulFree] using hnul

theorem script_admitted {phase : String} {e : Element} {s : NmapScript}
    (h : script limits phase e = .ok s) :
    s.scriptId ≠ [] ∧ NulFree s.scriptId ∧ NulFree s.output := by
  obtain ⟨scriptId, hid, h⟩ := Except.bind_eq_ok.mp h
  simp only at h
  split at h
  · cases h
  · next hne =>
    obtain ⟨output, hout, h⟩ := Except.bind_eq_ok.mp h
    cases output with
    | none => cases h
    | some output =>
      cases h
      cases scriptId with
      | none => exact absurd rfl hne
      | some i => exact ⟨hne, bounded_nulFree hid i rfl, bounded_nulFree hout output rfl⟩

theorem address_admitted {e : Element} {a : NmapAddress} (h : address limits e = .ok a) :
    ∀ v ∈ a.vendor, NulFree v := by
  obtain ⟨_, -, h⟩ := Except.bind_eq_ok.mp h
  obtain ⟨_, -, h⟩ := Except.bind_eq_ok.mp h
  obtain ⟨vendor, hvendor, h⟩ := Except.bind_eq_ok.mp h
  cases h
  exact bounded_nulFree hvendor

theorem osMatch_admitted {e : Element} {m : NmapOsMatch} (h : osMatch rt limits e = .ok m) :
    m.name ≠ [] ∧ NulFree m.name := by
  obtain ⟨name, hname, h⟩ := Except.bind_eq_ok.mp h
  simp only at h
  split at h
  · cases h
  · next hne =>
    obtain ⟨_, -, h⟩ := Except.bind_eq_ok.mp h
    obtain ⟨_, -, h⟩ := Except.bind_eq_ok.mp h
    obtain ⟨_, -, h⟩ := Except.bind_eq_ok.mp h
    cases h
    cases name with
    | none => exact absurd rfl hne
    | some n => exact ⟨hne, bounded_nulFree hname n rfl⟩

/-- The results of a successful loop satisfy what each of them satisfies. -/
theorem mapM_forall {α β : Type} {f : α → Except Exc β} {P : β → Prop} {l : List α} {bs : List β}
    (hf : ∀ a b, f a = .ok b → P b) (h : l.mapM f = .ok bs) : ∀ b ∈ bs, P b := by
  intro b hb
  obtain ⟨a, -, hab⟩ := (Except.mapM_eq_ok.mp h).exists_of_mem_right hb
  exact hf a b hab

theorem host_admitted {e : Element} {h : NmapHost} (hhost : host rt limits e = .ok h) :
    HostAdmitted h := by
  obtain ⟨addresses, haddresses, hhost⟩ := Except.bind_eq_ok.mp hhost
  split at hhost
  · cases hhost
  obtain ⟨hostnames, -, hhost⟩ := Except.bind_eq_ok.mp hhost
  split at hhost
  · cases hhost
  obtain ⟨osMatches, hos, hhost⟩ := Except.bind_eq_ok.mp hhost
  obtain ⟨⟨ports, count⟩, -, hhost⟩ := Except.bind_eq_ok.mp hhost
  obtain ⟨scripts, hscripts, hhost⟩ := Except.bind_eq_ok.mp hhost
  split at hhost
  · cases hhost
  obtain ⟨startedAt, -, hhost⟩ := Except.bind_eq_ok.mp hhost
  obtain ⟨endedAt, -, hhost⟩ := Except.bind_eq_ok.mp hhost
  obtain ⟨state, hstate, hhost⟩ := Except.bind_eq_ok.mp hhost
  obtain ⟨stateReason, -, hhost⟩ := Except.bind_eq_ok.mp hhost
  cases hhost
  exact ⟨mapM_forall (fun _ _ => address_admitted) haddresses, bounded_nulFree hstate,
    mapM_forall (fun _ _ => osMatch_admitted) hos,
    mapM_forall (fun _ _ => script_admitted) hscripts⟩

/-! ## The stream -/

/-- One event keeps the collected hosts admitted. -/
theorem handleEvent_admitted {s s' : ScanState} {event : XmlEvent}
    (hs : ∀ h ∈ s.hosts, HostAdmitted h) (h : handleEvent rt limits s event = .ok s') :
    ∀ h ∈ s'.hosts, HostAdmitted h := by
  cases event with
  | start tag attrib =>
    unfold handleEvent at h
    simp only at h
    split at h
    · cases h
    · split at h
      · cases h
        exact hs
      · split at h
        · cases h
        · cases h
          exact hs
  | error detail => cases h
  | finish e =>
    obtain ⟨s₁, h₁, h⟩ := Except.bind_eq_ok.mp h
    cases h
    unfold finishElement at h₁
    split at h₁
    · obtain ⟨info, -, h₁⟩ := Except.bind_eq_ok.mp h₁
      cases h₁
      exact hs
    · split at h₁
      · split at h₁
        · cases h₁
        · obtain ⟨built, hbuilt, h₁⟩ := Except.bind_eq_ok.mp h₁
          cases h₁
          intro h hh
          rcases List.mem_append.mp hh with hh | hh
          · exact hs h hh
          · obtain rfl := List.mem_singleton.mp hh
            exact host_admitted hbuilt
      · split at h₁
        · cases h₁
          exact hs
        · split at h₁
          · obtain ⟨scripts, -, h₁⟩ := Except.bind_eq_ok.mp h₁
            cases h₁
            exact hs
          · cases h₁
            exact hs

theorem readChunks_admitted {p : PullParser} {chunks : List (Except Exc (List Byte))}
    {g : GuardState} {state : p.State} {s s' : ScanState} (hs : ∀ h ∈ s.hosts, HostAdmitted h)
    (h : readChunks rt limits p g state s chunks = .ok s') : ∀ h ∈ s'.hosts, HostAdmitted h := by
  have hend : ∀ {g : GuardState} {state : p.State} {s : ScanState},
      (if g.total = 0 then xmlError (str "nmap XML document is empty")
        else if g.pendingDoctype ≠ [] then
          xmlError (str "incomplete DTD declaration is prohibited")
        else do
          p.close state
          .ok s : Except Exc ScanState) = .ok s' → s = s' := by
    intro g state s h
    split at h
    · cases h
    · split at h
      · cases h
      · obtain ⟨_, -, h⟩ := Except.bind_eq_ok.mp h
        cases h
        rfl
  induction chunks generalizing g state s with
  | nil =>
    obtain rfl := hend h
    exact hs
  | cons chunk chunks ih =>
    cases chunk with
    | error e => cases h
    | ok chunk =>
      cases chunk with
      | nil =>
        obtain rfl := hend h
        exact hs
      | cons b chunk =>
        obtain ⟨g', -, h⟩ := Except.bind_eq_ok.mp h
        obtain ⟨⟨state', events⟩, -, h⟩ := Except.bind_eq_ok.mp h
        obtain ⟨s₁, h₁, h⟩ := Except.bind_eq_ok.mp h
        exact ih (Except.foldlM_invariant hs (fun _ _ _ _ => handleEvent_admitted) h₁) h

/-- Every host that the parser returns is admitted. -/
theorem parseStream_admitted {p : PullParser} {chunks : List (Except Exc (List Byte))}
    {scan : NmapScan} (h : parseStream rt limits p chunks = .ok scan) :
    ∀ h ∈ scan.hosts, HostAdmitted h := by
  obtain ⟨s, hs, h⟩ := Except.bind_eq_ok.mp h
  have hread : readChunks rt limits p {} p.initial {} chunks = .ok s := by
    unfold wrapParseError at hs
    split at hs
    · cases hs
    · exact hs
  have hhosts : scan.hosts = s.hosts := by
    unfold scanOf at h
    split at h
    · cases h
    · iterate 9 obtain ⟨_, -, h⟩ := Except.bind_eq_ok.mp h
      cases h
      rfl
  rw [hhosts]
  exact readChunks_admitted (by simp) hread

end

end FieldDiscovery.Nmap
