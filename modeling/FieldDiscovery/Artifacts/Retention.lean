import FieldDiscovery.Artifacts.Entries

/-!
# Retention over a readable store

In a `Sound` directory every metadata file is that of an entry the reader takes. `expired` then lists
the entries that have expired, in the order of their names (`expired_entries`), and applied retention
removes two files for each (`pruneItems_run`), or raises at the first whose content is not there
(`pruneItem_missing`). So it completes and leaves nothing expired exactly when every expired entry has
its content (`prunes_iff`).
-/

namespace FieldDiscovery.Artifacts

open Py Redaction List

variable {rt : Runtime} {reader : Reader} {d : Directory}

/-! ## The names of an entry -/

namespace Entry

theorem filename_ne_metadataName (e e' : Entry rt) : e.filename ≠ e'.metadataName := by
  intro h
  refine e.unreserved ?_
  change metadataSuffix <:+ e.filename
  rw [h]
  exact suffix_append _ _

theorem metadataName_inj {e e' : Entry rt} :
    e.metadataName = e'.metadataName ↔ e.filename = e'.filename :=
  append_left_inj metadataSuffix

theorem filename_ne_staging (e : Entry rt) (uuid : Uuid) : e.filename ≠ staging uuid := by
  intro h
  refine staging_not_name uuid ?_
  rw [← h]
  exact e.valid

theorem metadataName_ne_staging (e : Entry rt) (uuid : Uuid) : e.metadataName ≠ staging uuid := by
  intro h
  refine staging_not_suffixed uuid ?_
  rw [← h]
  exact suffix_append _ _

end Entry

/-! ## Listing -/

/-- Every metadata file is that of an entry which the reader takes. -/
structure Sound (rt : Runtime) (d : Directory) : Prop where
  keysNodup : d.KeysNodup
  readable : ∀ name data, d.get name = some data → metadataSuffix <:+ name →
    ∃ e : Entry rt, e.Fits ∧ name = e.metadataName ∧ data = e.data

theorem nodup_metadataNames (h : d.KeysNodup) : (metadataNames d).Nodup :=
  (sortedBy_perm id _).nodup_iff.mpr (Nodup.filter _ h)

theorem mem_metadataNames {name : Str} :
    name ∈ metadataNames d ↔ d.get name ≠ none ∧ metadataSuffix <:+ name := by
  unfold metadataNames
  rw [mem_sortedBy, mem_filter, decide_eq_true_eq, Ne, Dict.get_eq_none, not_not]

/-- These entries have their metadata files in the directory, and no other file is one. -/
structure Lists (d : Directory) (l : List (Entry rt)) : Prop where
  names : metadataNames d = l.map Entry.metadataName
  stored : ∀ e ∈ l, e.Fits ∧ d.get e.metadataName = some e.data

theorem Sound.lists (h : Sound rt d) : ∃ l : List (Entry rt), Lists d l := by
  have hall : ∀ names : List Str, (∀ name ∈ names, d.get name ≠ none ∧ metadataSuffix <:+ name) →
      ∃ l : List (Entry rt), names = l.map Entry.metadataName ∧
        ∀ e ∈ l, e.Fits ∧ d.get e.metadataName = some e.data := by
    intro names hnames
    induction names with
    | nil => exact ⟨[], rfl, fun e he => absurd he not_mem_nil⟩
    | cons name names ih =>
      obtain ⟨l, hl, hstored⟩ := ih fun n hn => hnames n (mem_cons_of_mem _ hn)
      obtain ⟨hget, hsuffix⟩ := hnames name mem_cons_self
      obtain ⟨data, hdata⟩ := Option.ne_none_iff_exists'.mp hget
      obtain ⟨e, hfits, rfl, rfl⟩ := h.readable name data hdata hsuffix
      refine ⟨e :: l, by rw [hl, map_cons], fun e' he' => ?_⟩
      rcases mem_cons.mp he' with rfl | he'
      · exact ⟨hfits, hdata⟩
      · exact hstored e' he'
  obtain ⟨l, hl, hstored⟩ := hall (metadataNames d) fun name hname => mem_metadataNames.mp hname
  exact ⟨l, hl, hstored⟩

namespace Lists

variable {l : List (Entry rt)}

theorem nodup (h : Lists d l) (hd : d.KeysNodup) : (l.map Entry.metadataName).Nodup :=
  h.names ▸ nodup_metadataNames hd

/-- An entry whose metadata file is there is listed under its name. -/
theorem exists_mem (h : Lists d l) {e : Entry rt} (he : d.get e.metadataName ≠ none) :
    ∃ e' ∈ l, e'.metadataName = e.metadataName := by
  have hmem : e.metadataName ∈ metadataNames d := mem_metadataNames.mpr ⟨he, suffix_append _ _⟩
  rw [h.names] at hmem
  exact mem_map.mp hmem

end Lists

theorem readAll_entries {l : List (Entry rt)}
    (h : ∀ e ∈ l, e.Fits ∧ d.get e.metadataName = some e.data) :
    readAll reader d (l.map Entry.metadataName) = .ok (l.map Entry.reread) := by
  induction l with
  | nil => rfl
  | cons e l ih =>
    obtain ⟨hfits, hget⟩ := h e mem_cons_self
    rw [map_cons, readAll, Entry.readMetadata_eq hfits reader hget, Except.ok_bind,
      ih fun e' he' => h e' (mem_cons_of_mem _ he')]
    rfl

theorem expiredBy_entries (now : Utc) (l : List (Entry rt)) :
    expiredBy reader now (l.map Entry.reread) =
      .ok ((l.filter fun e => e.expires ≤ now).map Entry.reread) := by
  induction l with
  | nil => rfl
  | cons e l ih =>
    have hexpires : e.reread.expiresAt = e.expires.isoformat := rfl
    rw [map_cons, expiredBy, hexpires, Datetime.fromisoformat_isoformat]
    simp only [Utc.stamp]
    rw [ih, Except.ok_bind]
    have hle : (⟨e.expires.val, 0, e.expires.isLt, by decide⟩ : Datetime).instant ≤ now.val ↔
        e.expires ≤ now := by
      simp only [Datetime.instant, Fin.le_def]
      omega
    by_cases h : e.expires ≤ now
    · rw [if_pos (hle.mpr h), filter_cons_of_pos (by simpa using h), map_cons]
    · rw [if_neg (fun h' => h (hle.mp h')), filter_cons_of_neg (by simpa using h)]

/-- `expired` lists the entries that have expired. -/
theorem expired_entries (reader : Reader) {l : List (Entry rt)} (h : Lists d l) (now : Utc) :
    expired reader now d = .ok ((l.filter fun e => e.expires ≤ now).map Entry.reread) := by
  unfold expired
  rw [h.names, readAll_entries h.stored, Except.ok_bind, expiredBy_entries]

/-! ## Removal -/

/-- The directory without the files of an entry. -/
def removed (d : Directory) (e : Entry rt) : Directory := (d.del e.filename).del e.metadataName

theorem keysNodup_removed (hd : d.KeysNodup) (e : Entry rt) : (removed d e).KeysNodup :=
  (hd.del _).del _

theorem get_removed (hd : d.KeysNodup) (e : Entry rt) (name : Str) : (removed d e).get name =
    if name = e.filename ∨ name = e.metadataName then none else d.get name := by
  unfold removed
  rw [Dict.get_del (hd.del _), Dict.get_del hd]
  by_cases hmetadata : e.metadataName = name
  · rw [if_pos hmetadata, if_pos (Or.inr hmetadata.symm)]
  · rw [if_neg hmetadata]
    by_cases hfilename : e.filename = name
    · rw [if_pos hfilename, if_pos (Or.inl hfilename.symm)]
    · rw [if_neg hfilename, if_neg]
      rintro (h | h)
      · exact hfilename h.symm
      · exact hmetadata h.symm

/-- Another entry keeps its files. -/
theorem get_removed_of_ne (hd : d.KeysNodup) {e e' : Entry rt} (h : e.filename ≠ e'.filename) :
    (removed d e).get e'.filename = d.get e'.filename ∧
      (removed d e).get e'.metadataName = d.get e'.metadataName := by
  rw [get_removed hd, get_removed hd, if_neg, if_neg]
  · exact ⟨rfl, rfl⟩
  · rintro (h' | h')
    · exact e.filename_ne_metadataName e' h'.symm
    · exact h (Entry.metadataName_inj.mp h').symm
  · rintro (h' | h')
    · exact h h'.symm
    · exact e'.filename_ne_metadataName e h'

variable (passed : List Directory)

theorem pruneItem_reread (e : Entry rt) : pruneItem e.reread = (do
    Directory.stat fileErrors e.filename
    Directory.stat fileErrors e.metadataName
    Directory.unlink fileErrors e.filename
    Directory.unlink fileErrors e.metadataName : Call (Traced Directory) Exc Unit) := rfl

theorem pruneItem_run (hd : d.KeysNodup) {e : Entry rt} (hcontent : d.get e.filename ≠ none)
    (hmetadata : d.get e.metadataName ≠ none) : pruneItem e.reread ⟨d, passed⟩ =
      (.ok (), ⟨removed d e, passed ++ [d, d.del e.filename]⟩) := by
  obtain ⟨content, hcontent⟩ := Option.ne_none_iff_exists'.mp hcontent
  obtain ⟨data, hmetadata⟩ := Option.ne_none_iff_exists'.mp hmetadata
  have hstill : (d.del e.filename).get e.metadataName = some data := by
    rw [Dict.get_del hd, if_neg (e.filename_ne_metadataName e), hmetadata]
  rw [pruneItem_reread, Call.bind_ok (Directory.stat_present hcontent), Call.bind_ok (Directory.stat_present hmetadata),
    Call.bind_ok (Directory.unlink_present hcontent)]
  refine (Directory.unlink_present hstill).trans ?_
  rw [append_assoc]
  rfl

theorem pruneItem_missing {e : Entry rt} (hcontent : d.get e.filename = none) :
    pruneItem e.reread ⟨d, passed⟩ = (.error .fileNotFound, ⟨d, passed⟩) := by
  rw [pruneItem_reread]
  exact Call.bind_error (Directory.stat_missing hcontent)

/-- The directories that the removal of these entries passes through. -/
def trail : Directory → List (Entry rt) → List Directory
  | _, [] => []
  | d, e :: l => d :: d.del e.filename :: trail (removed d e) l

/-- Entries that have both files, with different names. -/
structure Present (d : Directory) (l : List (Entry rt)) : Prop where
  content : ∀ e ∈ l, d.get e.filename ≠ none
  metadata : ∀ e ∈ l, d.get e.metadataName ≠ none
  nodup : (l.map Entry.metadataName).Nodup

theorem filename_ne_of_nodup {e : Entry rt} {l : List (Entry rt)}
    (h : ((e :: l).map Entry.metadataName).Nodup) : ∀ e' ∈ l, e.filename ≠ e'.filename := by
  intro e' he' heq
  rw [map_cons, nodup_cons] at h
  refine h.1 ?_
  rw [Entry.metadataName_inj.mpr heq]
  exact mem_map_of_mem he'

theorem Present.tail {e : Entry rt} {l : List (Entry rt)} (hd : d.KeysNodup)
    (h : Present d (e :: l)) : Present (removed d e) l := by
  obtain ⟨hcontent, hmetadata, hnodup⟩ := h
  have hne := filename_ne_of_nodup hnodup
  refine ⟨fun e' he' => ?_, fun e' he' => ?_, hnodup.tail⟩
  · rw [(get_removed_of_ne hd (hne e' he')).1]
    exact hcontent e' (mem_cons_of_mem _ he')
  · rw [(get_removed_of_ne hd (hne e' he')).2]
    exact hmetadata e' (mem_cons_of_mem _ he')

theorem pruneItems_run {l : List (Entry rt)} (hd : d.KeysNodup) (h : Present d l) :
    pruneItems (l.map Entry.reread) ⟨d, passed⟩ =
      (.ok (), ⟨l.foldl removed d, passed ++ trail d l⟩) := by
  induction l generalizing d passed with
  | nil =>
    rw [trail, append_nil]
    rfl
  | cons e l ih =>
    have hitem := pruneItem_run passed hd (h.content e mem_cons_self)
      (h.metadata e mem_cons_self)
    rw [map_cons, pruneItems, Call.bind_ok hitem, ih _ (keysNodup_removed hd e) (h.tail hd),
      append_assoc]
    rfl

/-- Removal raises when the content of an entry is not there. -/
theorem pruneItems_raises {l : List (Entry rt)} (hd : d.KeysNodup)
    (hmetadata : ∀ e ∈ l, d.get e.metadataName ≠ none) (hnodup : (l.map Entry.metadataName).Nodup)
    {e : Entry rt} (he : e ∈ l) (hcontent : d.get e.filename = none) :
    ∃ t, pruneItems (l.map Entry.reread) ⟨d, passed⟩ = (.error .fileNotFound, t) := by
  induction l generalizing d passed with
  | nil => exact absurd he not_mem_nil
  | cons first l ih =>
    rw [map_cons, pruneItems]
    by_cases hfirst : d.get first.filename = none
    · exact ⟨_, Call.bind_error (pruneItem_missing passed hfirst)⟩
    · have hne := filename_ne_of_nodup hnodup
      have he : e ∈ l := by
        rcases mem_cons.mp he with rfl | he
        · exact absurd hcontent hfirst
        · exact he
      rw [Call.bind_ok (pruneItem_run passed hd hfirst (hmetadata first mem_cons_self))]
      refine ih _ (keysNodup_removed hd first) (fun e' he' => ?_) hnodup.tail he ?_
      · rw [(get_removed_of_ne hd (hne e' he')).2]
        exact hmetadata e' (mem_cons_of_mem _ he')
      · rw [(get_removed_of_ne hd (hne e he)).1]
        exact hcontent

theorem get_foldl_removed (hd : d.KeysNodup) (l : List (Entry rt)) (name : Str) :
    (l.foldl removed d).get name =
      if ∃ e ∈ l, name = e.filename ∨ name = e.metadataName then none else d.get name := by
  induction l generalizing d with
  | nil => simp
  | cons e l ih =>
    rw [foldl_cons, ih (keysNodup_removed hd e), get_removed hd]
    by_cases h : ∃ e ∈ l, name = e.filename ∨ name = e.metadataName
    · have h' : ∃ e' ∈ e :: l, name = e'.filename ∨ name = e'.metadataName := by
        obtain ⟨e', he', hname⟩ := h
        exact ⟨e', mem_cons_of_mem _ he', hname⟩
      rw [if_pos h, if_pos h']
    · rw [if_neg h]
      refine if_congr ?_ rfl rfl
      constructor
      · exact fun hname => ⟨e, mem_cons_self, hname⟩
      · rintro ⟨e', he', hname⟩
        rcases mem_cons.mp he' with rfl | he'
        · exact hname
        · exact absurd ⟨e', he', hname⟩ h

theorem keysNodup_foldl_removed (hd : d.KeysNodup) (l : List (Entry rt)) :
    (l.foldl removed d).KeysNodup := by
  induction l generalizing d with
  | nil => exact hd
  | cons e l ih => exact ih (keysNodup_removed hd e)

/-- A directory with fewer files is as readable. -/
theorem Sound.mono {d' : Directory} (h : Sound rt d) (hd' : d'.KeysNodup)
    (hget : ∀ name data, metadataSuffix <:+ name → d'.get name = some data →
      d.get name = some data) : Sound rt d' :=
  ⟨hd', fun name data hdata hsuffix => h.readable name data (hget name data hsuffix hdata) hsuffix⟩

theorem Sound.foldl_removed (h : Sound rt d) (l : List (Entry rt)) :
    Sound rt (l.foldl removed d) := by
  refine h.mono (keysNodup_foldl_removed h.keysNodup l) fun name data _ hdata => ?_
  rw [get_foldl_removed h.keysNodup] at hdata
  split at hdata
  · cases hdata
  · exact hdata

/-! ## Completion -/

/-- Applied retention completes, and nothing expired is left. -/
def Prunes (reader : Reader) (now : Utc) (d : Directory) : Prop :=
  (pruneExpired reader now false (.start d)).1.isOk = true ∧
    expired reader now (pruneExpired reader now false (.start d)).2.current = .ok []

theorem pruneExpired_eq {items : List ArtifactMetadata} {now : Utc}
    (h : expired reader now d = .ok items) : pruneExpired reader now false ⟨d, passed⟩ =
      (do pruneItems items; pure items : Call (Traced Directory) Exc (List ArtifactMetadata))
        ⟨d, passed⟩ := by
  unfold pruneExpired
  have hreads : Directory.reads (expired reader now) ⟨d, passed⟩ = (.ok items, ⟨d, passed⟩) := by
    unfold Directory.reads
    rw [h]
  rw [Call.bind_ok hreads]
  rfl

theorem pruneExpired_dry (reader : Reader) (d : Directory) (now : Utc) :
    (pruneExpired reader now true (.start d)).2 = ⟨d, []⟩ := by
  unfold pruneExpired
  cases h : expired reader now d with
  | error e =>
    have hreads : Directory.reads (expired reader now) (.start d) = (.error e, .start d) := by
      unfold Directory.reads
      rw [Traced.start, h]
    rw [Call.bind_error hreads]
    rfl
  | ok items =>
    have hreads : Directory.reads (expired reader now) (.start d) = (.ok items, .start d) := by
      unfold Directory.reads
      rw [Traced.start, h]
    rw [Call.bind_ok hreads]
    rfl

theorem pruneExpired_applied {l : List (Entry rt)} (h : Lists d l) (now : Utc) :
    (pruneExpired reader now false (.start d)).2 =
      (pruneItems ((l.filter fun e => e.expires ≤ now).map Entry.reread) (.start d)).2 := by
  have heq := pruneExpired_eq [] (expired_entries reader h now)
  unfold Traced.start
  rw [heq]
  cases hrun : pruneItems ((l.filter fun e => e.expires ≤ now).map Entry.reread) ⟨d, []⟩ with
  | mk outcome t =>
    cases outcome with
    | ok _ => rw [Call.bind_ok hrun]; rfl
    | error e => rw [Call.bind_error hrun]

theorem Lists.expired_present {l : List (Entry rt)} (h : Lists d l) (hd : d.KeysNodup) {now : Utc}
    (hcontent : ∀ e ∈ l, e.expires ≤ now → d.get e.filename ≠ none) :
    Present d (l.filter fun e => e.expires ≤ now) := by
  refine ⟨fun e he => ?_, fun e he => ?_, ?_⟩
  · rw [mem_filter, decide_eq_true_eq] at he
    exact hcontent e he.1 he.2
  · rw [(h.stored e (mem_filter.mp he).1).2]
    exact Option.some_ne_none _
  · exact (h.nodup hd).sublist (filter_sublist.map _)

/-- The content of a metadata file fixes the expiry. -/
theorem Entry.expires_eq {e e' : Entry rt} (he : e.Fits) (he' : e'.Fits)
    (hname : e.metadataName = e'.metadataName) (hdata : e.data = e'.data) :
    e.expires = e'.expires := by
  have reader : Reader := ⟨id, fun _ => none, fun _ => none⟩
  have hread := Entry.readMetadata_eq he reader (d := [(e.metadataName, e.data)])
    (Dict.get_set_self [] _ _)
  have hread' := Entry.readMetadata_eq he' reader (d := [(e'.metadataName, e'.data)])
    (Dict.get_set_self [] _ _)
  rw [hname, hdata] at hread
  have hreread := Except.ok.inj (hread.symm.trans hread')
  have htext : e.reread.expiresAt = e'.reread.expiresAt := by rw [hreread]
  change e.expires.isoformat = e'.expires.isoformat at htext
  exact Utc.isoformat_strictMono.injective htext

/-- After the removal of what has expired, nothing expired is left. -/
theorem expired_foldl_removed {l : List (Entry rt)} (hsound : Sound rt d) (h : Lists d l)
    (now : Utc) :
    expired reader now ((l.filter fun e => e.expires ≤ now).foldl removed d) = .ok [] := by
  obtain ⟨l', h'⟩ := (hsound.foldl_removed (l.filter fun e => e.expires ≤ now)).lists
  rw [expired_entries reader h', filter_eq_nil_iff.mpr, map_nil]
  intro e' he' hexpires
  rw [decide_eq_true_eq] at hexpires
  obtain ⟨hfits', hstored'⟩ := h'.stored e' he'
  rw [get_foldl_removed hsound.keysNodup] at hstored'
  split at hstored'
  · cases hstored'
  next hkept =>
  obtain ⟨e, he, hname⟩ := h.exists_mem (e := e') (by rw [hstored']; exact Option.some_ne_none _)
  obtain ⟨hfits, hstored⟩ := h.stored e he
  rw [hname, hstored', Option.some.injEq] at hstored
  refine hkept ⟨e, mem_filter.mpr ⟨he, ?_⟩, Or.inr hname.symm⟩
  rw [Entry.expires_eq hfits hfits' hname hstored.symm]
  simpa using hexpires

/-- Applied retention completes and leaves nothing expired exactly when every expired entry has its
content. -/
theorem prunes_iff {l : List (Entry rt)} (hsound : Sound rt d) (h : Lists d l) (now : Utc) :
    Prunes reader now d ↔ ∀ e ∈ l, e.expires ≤ now → d.get e.filename ≠ none := by
  have hprune := pruneExpired_eq [] (expired_entries reader h now)
  constructor
  · intro hcompletes e he hexpires hcontent
    have hmem : e ∈ l.filter fun e => e.expires ≤ now :=
      mem_filter.mpr ⟨he, by simpa using hexpires⟩
    obtain ⟨t, ht⟩ := pruneItems_raises [] hsound.keysNodup
      (l := l.filter fun e => e.expires ≤ now)
      (fun e he => by
        rw [(h.stored e (mem_filter.mp he).1).2]
        exact Option.some_ne_none _)
      ((h.nodup hsound.keysNodup).sublist (Sublist.map _ filter_sublist)) hmem hcontent
    rw [Call.bind_error ht] at hprune
    have hok := hcompletes.1
    unfold Traced.start at hok
    rw [hprune] at hok
    cases hok
  · intro hcontent
    have hrun := pruneItems_run [] hsound.keysNodup
      (h.expired_present hsound.keysNodup hcontent)
    rw [Call.bind_ok hrun] at hprune
    unfold Prunes Traced.start
    rw [hprune]
    exact ⟨rfl, expired_foldl_removed hsound h now⟩

end FieldDiscovery.Artifacts
