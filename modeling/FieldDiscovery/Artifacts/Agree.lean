import FieldDiscovery.Artifacts.Writes
import FieldDiscovery.Lib.Machine

/-!
# The listing agrees with the writes

A run of writes that return and of prunes keeps a ledger of the records that the writes returned, less
those that a prune took away. As long as the reader takes the names and the metadata of the writes,
`expired` lists the records of the ledger that have expired, and no others (`expired_agrees`).
-/

namespace FieldDiscovery.Artifacts

open Py Redaction List

/-- A store, and the records of its artifacts with their expiry. -/
structure Kept where
  directory : Directory
  ledger : List (ArtifactMetadata × Utc)

section

variable (setting : Setting)

/-- A write that returns adds its record. -/
def Kept.written (s : Kept) (request : WriteRequest) :
    Except Exc ArtifactMetadata × Traced Directory → Option Kept
  | (.ok metadata, t) => do
    let expires ← request.now.add request.retention.toNat
    some ⟨t.current, s.ledger ++ [(metadata, expires)]⟩
  | (.error _, _) => none

/-- A prune that returns takes away the records that had expired. -/
def Kept.pruned (s : Kept) (now : Utc) (dryRun : Bool) :
    Except Exc (List ArtifactMetadata) × Traced Directory → Option Kept
  | (.ok _, t) =>
    some ⟨t.current, if dryRun then s.ledger else s.ledger.filter fun a => ¬ a.2 ≤ now⟩
  | (.error _, _) => none

/-- An operation that returns. -/
def Operation.keep (s : Kept) : Operation → Option Kept
  | .writeText request uuids content => s.written request
      (Artifacts.writeText setting.rt setting.store request uuids content (.start s.directory))
  | .writeJson request uuids value => s.written request
      (Artifacts.writeJson setting.rt setting.store setting.scalar request uuids value
        (.start s.directory))
  | .prune now dryRun =>
    s.pruned now dryRun (pruneExpired setting.reader now dryRun (.start s.directory))

/-- The reader takes what the operation writes, and its media type has no pair of surrogates. -/
def Operation.Readable : Operation → Prop
  | .writeText request uuids content =>
    (textSubmission setting request uuids content).Fits setting ∧ IsPaired request.mediaType
  | .writeJson request uuids value => (jsonSubmission setting request uuids value).Fits setting
  | .prune _ _ => True

end

/-! ## The entries of a ledger -/

variable {setting : Setting} {rt : Runtime} {reader : Reader} {d : Directory}

/-- These entries are in the directory, and it has no other metadata file. -/
structure Holds (d : Directory) (entries : List (Entry rt)) : Prop where
  keysNodup : d.KeysNodup
  fits : ∀ e ∈ entries, e.Fits
  paired : ∀ e ∈ entries, IsPaired e.request.mediaType
  metadata : ∀ e ∈ entries, d.get e.metadataName = some e.data
  content : ∀ e ∈ entries, d.get e.filename ≠ none
  nodup : (entries.map Entry.metadataName).Nodup
  only : ∀ name, metadataSuffix <:+ name → d.get name ≠ none →
    ∃ e ∈ entries, name = e.metadataName

namespace Holds

variable {entries : List (Entry rt)}

/-- The entries in the order of their names. -/
theorem lists (h : Holds d entries) : Lists d (sortedBy Entry.metadataName entries) := by
  refine ⟨?_, fun e he => ?_⟩
  · rw [map_sortedBy]
    unfold metadataNames
    have hmap := map_sortedBy (id : Str → Str)
      ((d.map Prod.fst).filter fun name => metadataSuffix <:+ name)
    rw [map_id, map_id] at hmap
    rw [hmap]
    have hperm : ((d.map Prod.fst).filter fun name => metadataSuffix <:+ name).Perm
        (entries.map Entry.metadataName) := by
      rw [perm_ext_iff_of_nodup (h.keysNodup.filter _) h.nodup]
      intro name
      rw [mem_filter, decide_eq_true_eq]
      constructor
      · rintro ⟨hmem, hsuffix⟩
        obtain ⟨e, he, heq⟩ := h.only name hsuffix fun hnone => Dict.get_eq_none.mp hnone hmem
        exact mem_map.mpr ⟨e, he, heq.symm⟩
      · intro hname
        obtain ⟨e, he, rfl⟩ := mem_map.mp hname
        refine ⟨?_, suffix_append _ _⟩
        by_contra hmem
        have hnone := Dict.get_eq_none.mpr hmem
        rw [h.metadata e he] at hnone
        cases hnone
    exact (((perm_insertionSort _ _).trans hperm).trans (perm_insertionSort _ _).symm).eq_of_pairwise'
      (pairwise_insertionSort _ _) (pairwise_insertionSort _ _)
  · have he := mem_sortedBy.mp he
    exact ⟨h.fits e he, h.metadata e he⟩

theorem sound (h : Holds d entries) : Sound rt d := by
  refine ⟨h.keysNodup, fun name data hget hsuffix => ?_⟩
  obtain ⟨e, he, rfl⟩ := h.only name hsuffix (by rw [hget]; exact Option.some_ne_none _)
  rw [h.metadata e he] at hget
  exact ⟨e, h.fits e he, rfl, (Option.some.inj hget).symm⟩

/-- `expired` lists the records of the entries that have expired. -/
theorem expired_eq (h : Holds d entries) (now : Utc) : ∃ items,
    expired reader now d = .ok items ∧
      items.Perm ((entries.filter fun e => e.expires ≤ now).map Entry.record) := by
  refine ⟨_, expired_entries reader h.lists now, ?_⟩
  have hreread : ∀ e ∈ (sortedBy Entry.metadataName entries).filter fun e => e.expires ≤ now,
      e.reread = e.record := fun e he =>
    e.reread_eq (h.paired e (mem_sortedBy.mp (mem_filter.mp he).1))
  rw [map_congr_left hreread]
  exact ((sortedBy_perm _ _).filter _).map _

/-- One more entry, under names that are free. -/
theorem withEntry (h : Holds d entries) {e : Entry rt} (hfits : e.Fits)
    (hpaired : IsPaired e.request.mediaType) (hmetadata : d.get e.metadataName = none) :
    Holds (withEntry d e) (entries ++ [e]) := by
  have hne : ∀ e' ∈ entries, e.filename ≠ e'.filename := by
    intro e' he' heq
    have hsome := h.metadata e' he'
    rw [← Entry.metadataName_inj.mpr heq, hmetadata] at hsome
    cases hsome
  have hget : ∀ e' : Entry rt, e.filename ≠ e'.filename →
      (Artifacts.withEntry d e).get e'.filename = d.get e'.filename ∧
        (Artifacts.withEntry d e).get e'.metadataName = d.get e'.metadataName := by
    intro e' hname
    unfold Artifacts.withEntry withMetadata
    rw [Dict.get_set, if_neg hname, Dict.get_set, if_neg (e'.filename_ne_metadataName e).symm,
      Dict.get_set, if_neg (e.filename_ne_metadataName e'), Dict.get_set,
      if_neg fun heq => hname (Entry.metadataName_inj.mp heq)]
    exact ⟨rfl, rfl⟩
  have hown : (Artifacts.withEntry d e).get e.metadataName = some e.data := by
    unfold Artifacts.withEntry withMetadata
    rw [Dict.get_set, if_neg (e.filename_ne_metadataName e), Dict.get_set_self]
  constructor
  · exact (h.keysNodup.set _ _).set _ _
  · exact forall_mem_append.mpr ⟨h.fits, forall_mem_singleton.mpr hfits⟩
  · exact forall_mem_append.mpr ⟨h.paired, forall_mem_singleton.mpr hpaired⟩
  · refine forall_mem_append.mpr ⟨fun e' he' => ?_, forall_mem_singleton.mpr hown⟩
    rw [(hget e' (hne e' he')).2]
    exact h.metadata e' he'
  · refine forall_mem_append.mpr ⟨fun e' he' => ?_, forall_mem_singleton.mpr ?_⟩
    · rw [(hget e' (hne e' he')).1]
      exact h.content e' he'
    · unfold Artifacts.withEntry
      rw [Dict.get_set_self]
      exact Option.some_ne_none _
  · rw [map_append, map_singleton]
    refine h.nodup.append (nodup_singleton _) ?_
    rw [disjoint_singleton]
    intro hmem
    obtain ⟨e', he', heq⟩ := mem_map.mp hmem
    exact hne e' he' (Entry.metadataName_inj.mp heq.symm)
  · intro name hsuffix hsome
    unfold Artifacts.withEntry withMetadata at hsome
    have hname : e.filename ≠ name := by
      rintro rfl
      exact e.unreserved hsuffix
    rw [Dict.get_set, if_neg hname, Dict.get_set] at hsome
    split at hsome
    · next heq => exact ⟨e, mem_append_right _ mem_cons_self, heq.symm⟩
    · obtain ⟨e', he', heq⟩ := h.only name hsuffix hsome
      exact ⟨e', mem_append_left _ he', heq⟩

/-- The entries that a prune leaves. -/
theorem pruned (h : Holds d entries) (now : Utc) :
    Holds (((sortedBy Entry.metadataName entries).filter fun e => e.expires ≤ now).foldl removed d)
      (entries.filter fun e => ¬ e.expires ≤ now) := by
  have hmem : ∀ e : Entry rt, e ∈ (sortedBy Entry.metadataName entries).filter
      (fun e => e.expires ≤ now) ↔ e ∈ entries ∧ e.expires ≤ now := by
    intro e
    rw [mem_filter, mem_sortedBy, decide_eq_true_eq]
  have hkept : ∀ e ∈ entries.filter (fun e => ¬ e.expires ≤ now), e ∈ entries ∧
      ¬ e.expires ≤ now := by
    intro e he
    rwa [mem_filter, decide_eq_true_eq] at he
  have hne : ∀ e ∈ entries.filter (fun e => ¬ e.expires ≤ now), ∀ e' ∈ entries,
      e'.expires ≤ now → e.filename ≠ e'.filename := by
    intro e he e' he' hexpired heq
    obtain ⟨he, hlater⟩ := hkept e he
    have hsame := inj_on_of_nodup_map h.nodup he he' (Entry.metadataName_inj.mpr heq)
    exact hlater (hsame ▸ hexpired)
  have hget : ∀ e ∈ entries.filter (fun e => ¬ e.expires ≤ now),
      ((((sortedBy Entry.metadataName entries).filter fun e => e.expires ≤ now).foldl removed
        d).get e.filename = d.get e.filename) ∧
      ((((sortedBy Entry.metadataName entries).filter fun e => e.expires ≤ now).foldl removed
        d).get e.metadataName = d.get e.metadataName) := by
    intro e he
    rw [get_foldl_removed h.keysNodup, get_foldl_removed h.keysNodup, if_neg, if_neg]
    · exact ⟨rfl, rfl⟩
    · rintro ⟨e', he', heq | heq⟩
      · exact e'.filename_ne_metadataName e heq.symm
      · exact hne e he e' ((hmem e').mp he').1 ((hmem e').mp he').2 (Entry.metadataName_inj.mp heq)
    · rintro ⟨e', he', heq | heq⟩
      · exact hne e he e' ((hmem e').mp he').1 ((hmem e').mp he').2 heq
      · exact e.filename_ne_metadataName e' heq
  constructor
  · exact keysNodup_foldl_removed h.keysNodup _
  · exact fun e he => h.fits e (hkept e he).1
  · exact fun e he => h.paired e (hkept e he).1
  · intro e he
    rw [(hget e he).2]
    exact h.metadata e (hkept e he).1
  · intro e he
    rw [(hget e he).1]
    exact h.content e (hkept e he).1
  · exact h.nodup.sublist (Sublist.map _ filter_sublist)
  · intro name hsuffix hsome
    rw [get_foldl_removed h.keysNodup] at hsome
    split at hsome
    · exact absurd rfl hsome
    next hnot =>
    obtain ⟨e, he, rfl⟩ := h.only name hsuffix hsome
    refine ⟨e, mem_filter.mpr ⟨he, ?_⟩, rfl⟩
    rw [decide_eq_true_eq]
    exact fun hexpired => hnot ⟨e, (hmem e).mpr ⟨he, hexpired⟩, Or.inr rfl⟩

end Holds

/-! ## Runs -/

/-- A publication that returns stores an entry under free names. -/
theorem publishEntry_ok {e : Entry rt} {uuids : Uuid × Uuid} {metadata : ArtifactMetadata}
    {t : Traced Directory} (h : publishEntry e uuids (.start d) = (.ok metadata, t)) :
    metadata = e.record ∧ t.current = withEntry d e ∧ d.get e.metadataName = none := by
  unfold Traced.start at h
  by_cases hfirst : d.get (staging uuids.1) = none
  swap
  · rw [publishEntry_first hfirst] at h
    cases h
  by_cases hmetadata : d.get e.metadataName = none
  swap
  · rw [publishEntry_metadata hfirst hmetadata] at h
    cases h
  by_cases hsecond : (withMetadata d e).get (staging uuids.2) = none
  swap
  · rw [publishEntry_second hfirst hmetadata hsecond] at h
    cases h
  by_cases hcontent : d.get e.filename = none
  · rw [publishEntry_stored hfirst hmetadata hsecond hcontent] at h
    cases h
    exact ⟨rfl, rfl, hmetadata⟩
  · rw [publishEntry_content hfirst hmetadata hsecond hcontent] at h
    cases h

/-- A store whose ledger lists the entries of its directory. -/
def Kept.Agrees (rt : Runtime) (s : Kept) : Prop :=
  ∃ entries : List (Entry rt), Holds s.directory entries ∧
    s.ledger = entries.map fun e => (e.record, e.expires)

theorem agrees_nil : Kept.Agrees rt ⟨[], []⟩ :=
  ⟨[], ⟨nodup_nil, by simp, by simp, by simp, by simp, nodup_nil, fun _ _ h => absurd rfl h⟩, rfl⟩

/-- A write that returns. -/
theorem agrees_written {s s' : Kept} {submission : Submission} (h : s.Agrees setting.rt)
    (hfits : submission.Fits setting) (hpaired : IsPaired submission.request.mediaType)
    {request : WriteRequest} (hnow : request.now = submission.request.now)
    (hretention : request.retention = submission.request.retention)
    (hstep : s.written request (submission.call setting (.start s.directory)) = some s') :
    s'.Agrees setting.rt := by
  obtain ⟨entries, hholds, hledger⟩ := h
  rcases hcall : submission.call setting (.start s.directory) with ⟨outcome, t⟩
  rw [hcall] at hstep
  cases outcome with
  | error e => cases hstep
  | ok metadata =>
    obtain ⟨payload, t₁, hresult, hwrite⟩ := Call.bind_eq_ok hcall
    obtain ⟨hpayload, rfl⟩ := Prod.mk.inj hresult
    obtain ⟨⟨metadata', data⟩, t₂, hresult, -⟩ := Call.bind_eq_ok hwrite
    have hprepare := (Prod.mk.inj hresult).1
    obtain ⟨e, hrequest, rfl, hexpires, rfl, rfl⟩ := prepare_ok hprepare
    obtain ⟨hfilename, htext⟩ := hfits _ _ _ hpayload hprepare
    rw [← hrequest] at hprepare hwrite hfilename hpaired
    rw [write_prepared hprepare] at hwrite
    obtain ⟨rfl, hcurrent, hfree⟩ := publishEntry_ok hwrite
    unfold Kept.written at hstep
    rw [hnow, hretention, hexpires] at hstep
    cases hstep
    refine ⟨entries ++ [e], ?_, ?_⟩
    · rw [hcurrent]
      exact hholds.withEntry ⟨hfilename, htext⟩ hpaired hfree
    · rw [hledger, map_append]
      rfl

theorem agrees_pruned {s s' : Kept} {now : Utc} {dryRun : Bool} (h : s.Agrees rt)
    (hstep : s.pruned now dryRun (pruneExpired reader now dryRun (.start s.directory)) = some s') :
    s'.Agrees rt := by
  obtain ⟨entries, hholds, hledger⟩ := h
  cases dryRun with
  | true =>
    have hdry := pruneExpired_dry reader s.directory now
    rcases hcall : pruneExpired reader now true (.start s.directory) with ⟨outcome, t⟩
    rw [hcall] at hstep hdry
    cases outcome with
    | error e => cases hstep
    | ok items =>
      cases hstep
      obtain rfl : t = ⟨s.directory, []⟩ := hdry
      exact ⟨entries, hholds, hledger⟩
  | false =>
    have hpresent : Present s.directory
        ((sortedBy Entry.metadataName entries).filter fun e => e.expires ≤ now) :=
      hholds.lists.expired_present hholds.keysNodup fun e he _ =>
        hholds.content e (mem_sortedBy.mp he)
    have hprune := pruneExpired_eq [] (expired_entries reader hholds.lists now)
    rw [Call.bind_ok (pruneItems_run [] hholds.keysNodup hpresent)] at hprune
    unfold Traced.start at hstep
    rw [hprune] at hstep
    cases hstep
    refine ⟨_, hholds.pruned now, ?_⟩
    rw [if_neg (by decide), hledger, filter_map]
    rfl

theorem agrees_keep {s s' : Kept} {operation : Operation} (h : s.Agrees setting.rt)
    (hreadable : operation.Readable setting) (hstep : operation.keep setting s = some s') :
    s'.Agrees setting.rt := by
  cases operation with
  | writeText request uuids content =>
    exact agrees_written h hreadable.1 hreadable.2 rfl rfl hstep
  | writeJson request uuids value =>
    exact agrees_written h hreadable (by decide : IsPaired (str "application/json")) rfl rfl hstep
  | prune now dryRun => exact agrees_pruned h hstep

/-- After any run of writes that return and of prunes, whose names and metadata the reader takes,
`expired` returns the records of the artifacts that have expired, each once and no others. -/
theorem expired_agrees {operations : List Operation} {s : Kept}
    (hreadable : ∀ operation ∈ operations, operation.Readable setting)
    (hrun : Machine.run (Operation.keep setting) ⟨[], []⟩ operations = some s) (now : Utc) :
    ∃ items, expired setting.reader now s.directory = .ok items ∧
      items.Perm ((s.ledger.filter fun a => a.2 ≤ now).map Prod.fst) := by
  obtain ⟨entries, hholds, hledger⟩ : s.Agrees setting.rt :=
    Machine.run_invariant (P := fun _ operation => operation.Readable setting)
      (fun s operation s' hs hreadable hstep => agrees_keep hs hreadable hstep) agrees_nil
      (Machine.along_of_forall hreadable) hrun
  obtain ⟨items, hitems, hperm⟩ := hholds.expired_eq now
  refine ⟨items, hitems, ?_⟩
  rw [hledger, filter_map, map_map]
  exact hperm

/-- A write, and a prune before it expires. -/
def Sample.operations : List Operation :=
  [.writeText (textRequest (str "a.log")) identifiers (str "up"), .prune ⟨0, zero_inCalendar⟩ false]

theorem expired_agrees_sample : ∃ s,
    Machine.run (Operation.keep Sample.setting) ⟨[], []⟩ Sample.operations = some s ∧
      ∃ items, expired Sample.setting.reader Utc.max s.directory = .ok items ∧
        items.Perm ((s.ledger.filter fun a => a.2 ≤ Utc.max).map Prod.fst) := by
  obtain ⟨s, hrun⟩ := Option.isSome_iff_exists.mp (by decide +kernel :
    (Machine.run (Operation.keep Sample.setting) ⟨[], []⟩ Sample.operations).isSome = true)
  have hfits : (textSubmission Sample.setting (Sample.textRequest (str "a.log"))
      Sample.identifiers (str "up")).Fits Sample.setting := by decide +kernel
  have hreadable : ∀ operation ∈ Sample.operations, operation.Readable Sample.setting := by
    intro operation hoperation
    simp only [Sample.operations, mem_cons, not_mem_nil, or_false] at hoperation
    rcases hoperation with rfl | rfl
    · exact ⟨hfits, (by decide : IsPaired (str "text/plain"))⟩
    · exact trivial
  exact ⟨s, hrun, expired_agrees hreadable hrun Utc.max⟩

/-- A name of 87 letters: the write returns, and afterwards the listing of the store raises. -/
def Sample.longName : List Operation :=
  [.writeText (textRequest (List.replicate 87 (cp 'a'))) identifiers (str "up")]

theorem expired_raises_for_long_name : ¬ ∀ s now,
    Machine.run (Operation.keep Sample.setting) ⟨[], []⟩ Sample.longName = some s →
      ∃ items, expired Sample.setting.reader now s.directory = .ok items ∧
        items.Perm ((s.ledger.filter fun a => a.2 ≤ now).map Prod.fst) := by
  intro h
  have hraises : (Machine.run (Operation.keep Sample.setting) ⟨[], []⟩ Sample.longName).map
      (fun s => (expired Sample.setting.reader Utc.max s.directory).isOk) = some false := by
    decide +kernel
  obtain ⟨s, hrun, hfails⟩ := Option.map_eq_some_iff.mp hraises
  obtain ⟨items, hitems, -⟩ := h s Utc.max hrun
  rw [hitems] at hfails
  cases hfails

end FieldDiscovery.Artifacts
