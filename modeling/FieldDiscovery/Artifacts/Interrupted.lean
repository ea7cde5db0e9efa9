import FieldDiscovery.Artifacts.Writes
import FieldDiscovery.Lib.Machine

/-!
# Writes and prunes that stop on the way

A program that stops between two calls leaves the directory of that moment. Every metadata file is still
that of an entry (`Sound`), but its content may not be there: a write publishes the metadata first, and
applied retention removes the content first. A store where every metadata file has its content is
`Complete`; a metadata file without it stays for good and stops every later removal that reaches it.
-/

namespace FieldDiscovery.Artifacts

open Py Redaction List

variable {rt : Runtime} {reader : Reader} {d d' : Directory}

/-! ## Complete directories -/

/-- Every metadata file has its content. -/
def Complete (rt : Runtime) (d : Directory) : Prop :=
  ∀ e : Entry rt, d.get e.metadataName ≠ none → d.get e.filename ≠ none

/-- The directories differ in other files than those of entries. -/
def Agrees (rt : Runtime) (d d' : Directory) : Prop :=
  ∀ e : Entry rt, d.get e.filename = d'.get e.filename ∧
    d.get e.metadataName = d'.get e.metadataName

theorem Agrees.complete_iff (h : Agrees rt d d') : Complete rt d ↔ Complete rt d' := by
  unfold Complete
  refine forall_congr' fun e => ?_
  rw [(h e).1, (h e).2]

theorem Agrees.refl (d : Directory) : Agrees rt d d := fun _ => ⟨rfl, rfl⟩

theorem agrees_staging (d : Directory) (uuid : Uuid) (data : List Byte) :
    Agrees rt (d.set (staging uuid) data) d := by
  intro e
  rw [Dict.get_set, if_neg (e.filename_ne_staging uuid).symm, Dict.get_set,
    if_neg (e.metadataName_ne_staging uuid).symm]
  exact ⟨rfl, rfl⟩

theorem Agrees.set (h : Agrees rt d d') (name : Str) (data : List Byte) :
    Agrees rt (d.set name data) (d'.set name data) := by
  intro e
  rw [Dict.get_set, Dict.get_set, Dict.get_set, Dict.get_set, (h e).1, (h e).2]
  exact ⟨rfl, rfl⟩

section

variable {e : Entry rt}

theorem not_complete_withMetadata (hcontent : d.get e.filename = none) :
    ¬ Complete rt (withMetadata d e) := by
  intro h
  refine h e ?_ ?_
  · rw [withMetadata, Dict.get_set_self]
    exact Option.some_ne_none _
  · rw [withMetadata, Dict.get_set, if_neg (e.filename_ne_metadataName e).symm, hcontent]

/-- The files of an entry under another name are the same in all three directories. -/
theorem get_withMetadata {e' : Entry rt} (h : e.filename ≠ e'.filename) :
    (withMetadata d e).get e'.filename = d.get e'.filename ∧
      (withMetadata d e).get e'.metadataName = d.get e'.metadataName := by
  unfold withMetadata
  rw [Dict.get_set, if_neg (e'.filename_ne_metadataName e).symm, Dict.get_set,
    if_neg fun heq => h (Entry.metadataName_inj.mp heq)]
  exact ⟨rfl, rfl⟩

theorem complete_withMetadata (hfree : d.get e.metadataName = none)
    (hcontent : d.get e.filename ≠ none) : Complete rt (withMetadata d e) ↔ Complete rt d := by
  refine forall_congr' fun e' => ?_
  by_cases h : e.filename = e'.filename
  · have hname := Entry.metadataName_inj.mpr h
    rw [← h, ← hname]
    refine iff_of_true (fun _ => ?_) (fun hsome => absurd hfree hsome)
    rw [withMetadata, Dict.get_set, if_neg (e.filename_ne_metadataName e).symm]
    exact hcontent
  · rw [(get_withMetadata h).1, (get_withMetadata h).2]

theorem complete_withEntry (hfree : d.get e.metadataName = none) :
    Complete rt (withEntry d e) ↔ Complete rt d := by
  refine forall_congr' fun e' => ?_
  unfold withEntry
  rw [Dict.get_set, if_neg (e.filename_ne_metadataName e'), Dict.get_set]
  by_cases h : e.filename = e'.filename
  · have hname := Entry.metadataName_inj.mpr h
    rw [if_pos h, ← hname]
    exact iff_of_true (fun _ => Option.some_ne_none _) (fun hsome => absurd hfree hsome)
  · rw [if_neg h, (get_withMetadata h).1, (get_withMetadata h).2]

end

/-! ## Sound directories -/

theorem Sound.set (h : Sound rt d) {name : Str} {data : List Byte}
    (hname : metadataSuffix <:+ name → ∃ e : Entry rt, e.Fits ∧ name = e.metadataName ∧
      data = e.data) : Sound rt (d.set name data) := by
  refine ⟨h.keysNodup.set name data, fun name' data' hget hsuffix => ?_⟩
  rw [Dict.get_set] at hget
  split at hget
  · next heq =>
    subst heq
    cases hget
    exact hname hsuffix
  · exact h.readable name' data' hget hsuffix

theorem Sound.set_staging (h : Sound rt d) (uuid : Uuid) (data : List Byte) :
    Sound rt (d.set (staging uuid) data) :=
  h.set fun hsuffix => absurd hsuffix (staging_not_suffixed uuid)

theorem Sound.set_filename (h : Sound rt d) (e : Entry rt) (data : List Byte) :
    Sound rt (d.set e.filename data) :=
  h.set fun hsuffix => absurd hsuffix e.unreserved

theorem Sound.set_metadata (h : Sound rt d) {e : Entry rt} (hfits : e.Fits) :
    Sound rt (d.set e.metadataName e.data) :=
  h.set fun _ => ⟨e, hfits, rfl, rfl⟩

theorem Sound.del (h : Sound rt d) (name : Str) : Sound rt (d.del name) := by
  refine h.mono (h.keysNodup.del name) fun name' data _ hget => ?_
  rw [Dict.get_del h.keysNodup] at hget
  split at hget
  · cases hget
  · exact hget

theorem sound_nil : Sound rt [] := ⟨nodup_nil, fun _ _ h => by cases h⟩

theorem complete_nil : Complete rt [] := fun _ h => absurd rfl h

/-! ## A write -/

/-- The write stops between the publication of its metadata and that of its content. -/
def StopsBetween (d : Directory) (filename : Str) (uuids : Uuid × Uuid) (stop : Option Nat) : Prop :=
  d.get (staging uuids.1) = none ∧ d.get (filename ++ metadataSuffix) = none ∧
    d.get filename = none ∧ ∃ n, stop = some n ∧ 3 ≤ n ∧
      -- without a second temporary file the metadata is taken away sooner
      n < if d.get (staging uuids.2) = none then 7 else 5

section

variable {e : Entry rt} {uuids : Uuid × Uuid}

theorem sound_staged (h : Sound rt d) (uuid : Uuid) (data : List Byte) :
    ∀ s ∈ staged d uuid data, Sound rt s := by
  intro s hs
  simp only [staged, mem_cons, not_mem_nil, or_false] at hs
  rcases hs with rfl | rfl | rfl
  · exact h
  · exact h.set_staging uuid []
  · exact h.set_staging uuid data

theorem sound_metadataTrail (h : Sound rt d) (hfits : e.Fits) :
    ∀ s ∈ metadataTrail d e uuids, Sound rt s := by
  intro s hs
  rcases mem_append.mp hs with hs | hs
  · exact sound_staged h _ _ s hs
  · rw [mem_singleton.mp hs]
    exact (h.set_staging _ _).set_metadata hfits

theorem sound_contentTrail (h : Sound rt d) (hfits : e.Fits) :
    ∀ s ∈ contentTrail d e uuids, Sound rt s := by
  intro s hs
  have hmetadata : Sound rt (withMetadata d e) := h.set_metadata hfits
  rcases mem_append.mp hs with hs | hs
  · exact sound_staged hmetadata _ _ s hs
  · rw [mem_singleton.mp hs]
    exact (hmetadata.set_staging _ _).set_filename e _

/-- What a write passes through, case by case. -/
theorem publishEntry_trace (d : Directory) (e : Entry rt) (uuids : Uuid × Uuid) :
    ((publishEntry e uuids (.start d)).2 = ⟨d, []⟩ ∧ d.get (staging uuids.1) ≠ none) ∨
    ((publishEntry e uuids (.start d)).2 = ⟨d, staged d uuids.1 e.data⟩ ∧
      d.get e.metadataName ≠ none) ∨
    (d.get (staging uuids.1) = none ∧ d.get e.metadataName = none ∧
      (((publishEntry e uuids (.start d)).2 =
          ⟨d, metadataTrail d e uuids ++ [withMetadata d e]⟩ ∧ d.get (staging uuids.2) ≠ none) ∨
        (d.get (staging uuids.2) = none ∧
          (((publishEntry e uuids (.start d)).2 = ⟨d, metadataTrail d e uuids ++
              staged (withMetadata d e) uuids.2 e.payload ++ [withMetadata d e]⟩ ∧
              d.get e.filename ≠ none) ∨
            ((publishEntry e uuids (.start d)).2 =
              ⟨withEntry d e, metadataTrail d e uuids ++ contentTrail d e uuids⟩ ∧
              d.get e.filename = none))))) := by
  unfold Traced.start
  by_cases hfirst : d.get (staging uuids.1) = none
  · by_cases hmetadata : d.get e.metadataName = none
    · refine Or.inr (Or.inr ⟨hfirst, hmetadata, ?_⟩)
      have hstaging : (withMetadata d e).get (staging uuids.2) = d.get (staging uuids.2) := by
        rw [withMetadata, Dict.get_set, if_neg (e.metadataName_ne_staging _)]
      by_cases hsecond : d.get (staging uuids.2) = none
      · refine Or.inr ⟨hsecond, ?_⟩
        by_cases hcontent : d.get e.filename = none
        · exact Or.inr ⟨by rw [publishEntry_stored hfirst hmetadata (hstaging.trans hsecond) hcontent,
            nil_append], hcontent⟩
        · exact Or.inl ⟨by rw [publishEntry_content hfirst hmetadata (hstaging.trans hsecond)
            hcontent, nil_append], hcontent⟩
      · exact Or.inl ⟨by rw [publishEntry_second hfirst hmetadata (hstaging ▸ hsecond),
          nil_append], hsecond⟩
    · exact Or.inr (Or.inl ⟨by rw [publishEntry_metadata hfirst hmetadata, nil_append],
        hmetadata⟩)
  · exact Or.inl ⟨by rw [publishEntry_first hfirst], hfirst⟩

theorem sound_publishEntry (h : Sound rt d) (hfits : e.Fits) :
    ∀ s ∈ (publishEntry e uuids (.start d)).2.states, Sound rt s := by
  have hmetadata : Sound rt (withMetadata d e) := h.set_metadata hfits
  have htrail : ∀ s ∈ metadataTrail d e uuids, Sound rt s := sound_metadataTrail h hfits
  intro s hs
  unfold Traced.states at hs
  rcases publishEntry_trace d e uuids with ⟨ht, -⟩ | ⟨ht, -⟩ | ⟨-, -, ⟨ht, -⟩ | ⟨-, ⟨ht, -⟩ | ⟨ht, -⟩⟩⟩
  all_goals rw [ht] at hs
  · rw [mem_singleton.mp hs]
    exact h
  · rcases mem_append.mp hs with hs | hs
    · exact sound_staged h _ _ s hs
    · rw [mem_singleton.mp hs]
      exact h
  · simp only [mem_append, mem_singleton] at hs
    rcases hs with (hs | rfl) | rfl
    · exact htrail s hs
    · exact hmetadata
    · exact h
  · simp only [mem_append, mem_singleton] at hs
    rcases hs with ((hs | hs) | rfl) | rfl
    · exact htrail s hs
    · exact sound_staged hmetadata _ _ s hs
    · exact hmetadata
    · exact h
  · simp only [mem_append, mem_singleton] at hs
    rcases hs with (hs | hs) | rfl
    · exact htrail s hs
    · exact sound_contentTrail h hfits s hs
    · exact hmetadata.set_filename e _

theorem staged_agrees (d : Directory) (uuid : Uuid) (data : List Byte) :
    Forall₂ (Agrees rt) (staged d uuid data) [d, d, d] :=
  .cons (.refl d) (.cons (agrees_staging d _ _) (.cons (agrees_staging d _ _) .nil))

theorem metadataTrail_agrees (d : Directory) (e : Entry rt) (uuids : Uuid × Uuid) :
    Forall₂ (Agrees rt) (metadataTrail d e uuids) [d, d, d, withMetadata d e] :=
  rel_append (staged_agrees d _ _) (.cons ((agrees_staging d _ _).set _ _) .nil)

theorem contentTrail_agrees (d : Directory) (e : Entry rt) (uuids : Uuid × Uuid) :
    Forall₂ (Agrees rt) (contentTrail d e uuids)
      [withMetadata d e, withMetadata d e, withMetadata d e, withEntry d e] :=
  rel_append (staged_agrees _ _ _) (.cons ((agrees_staging _ _ _).set _ _) .nil)

/-- Traces that agree state by state agree where they are cut. -/
theorem complete_cut {passed passed' : List Directory} (h : Forall₂ (Agrees rt) passed passed')
    (current : Directory) (stop : Option Nat) :
    Complete rt ((⟨current, passed⟩ : Traced Directory).cut stop) ↔
      Complete rt ((⟨current, passed'⟩ : Traced Directory).cut stop) := by
  cases stop with
  | none => rfl
  | some n =>
    unfold Traced.cut
    simp only
    induction h generalizing n with
    | nil => rfl
    | cons hs _ ih =>
      cases n with
      | zero => exact hs.complete_iff
      | succ n => exact ih n

/-- A write leaves a complete store complete unless it stops in between. -/
theorem complete_publishEntry (stop : Option Nat) :
    Complete rt ((publishEntry e uuids (.start d)).2.cut stop) ↔
      Complete rt d ∧ ¬ StopsBetween d e.request.filename uuids stop := by
  have hstays : ∀ {current : Directory}, (Complete rt current ↔ Complete rt d) →
      (¬ StopsBetween d e.request.filename uuids stop) → (Complete rt current ↔
        Complete rt d ∧ ¬ StopsBetween d e.request.filename uuids stop) := by
    intro current hiff hnot
    rw [hiff, and_iff_left hnot]
  have hlost : ∀ {current : Directory}, ¬ Complete rt current →
      StopsBetween d e.request.filename uuids stop → (Complete rt current ↔
        Complete rt d ∧ ¬ StopsBetween d e.request.filename uuids stop) :=
    fun hnot hstop => iff_of_false hnot fun h => h.2 hstop
  rcases publishEntry_trace d e uuids with ⟨ht, h⟩ | ⟨ht, h⟩ | ⟨hfirst, hfree, ⟨ht, h⟩ |
    ⟨hsecond, ⟨ht, h⟩ | ⟨ht, h⟩⟩⟩
  all_goals rw [ht]
  · refine hstays ?_ fun hstop => h hstop.1
    cases stop <;> rfl
  · refine hstays ?_ fun hstop => h hstop.2.1
    rw [complete_cut (staged_agrees d _ _)]
    rcases stop with _ | _ | _ | _ | n <;> rfl
  · have hcut := complete_cut (rel_append (metadataTrail_agrees d e uuids)
      (.cons (.refl (withMetadata d e)) .nil)) d stop
    by_cases hcontent : d.get e.filename = none
    · have hstops : ∀ n, StopsBetween d e.request.filename uuids (some n) ↔ 3 ≤ n ∧ n < 5 := by
        intro n
        unfold StopsBetween
        simp only [Option.some.injEq, exists_eq_left', if_neg h]
        exact ⟨fun hstop => hstop.2.2.2, fun hn => ⟨hfirst, hfree, hcontent, hn⟩⟩
      rw [hcut]
      rcases stop with _ | _ | _ | _ | _ | _ | n
      · exact hstays Iff.rfl fun hstop => by simpa using hstop.2.2.2
      all_goals first
        | exact hstays Iff.rfl (by rw [hstops]; omega)
        | exact hlost (not_complete_withMetadata hcontent) ((hstops _).mpr (by omega))
    · refine hstays (hcut.trans ?_) fun hstop => hcontent hstop.2.2.1
      have hsame := complete_withMetadata hfree hcontent
      rcases stop with _ | _ | _ | _ | _ | _ | n
      all_goals first
        | exact hsame
        | rfl
  · refine hstays ?_ fun hstop => h hstop.2.2.1
    have hsame := complete_withMetadata hfree h
    rw [complete_cut (rel_append (rel_append (metadataTrail_agrees d e uuids)
      (staged_agrees _ _ _)) (.cons (.refl _) .nil))]
    rcases stop with _ | _ | _ | _ | _ | _ | _ | _ | _ | n
    all_goals first
      | exact hsame
      | rfl
  · have hcut := complete_cut (rel_append (metadataTrail_agrees d e uuids)
      (contentTrail_agrees d e uuids)) (withEntry d e) stop
    have hstops : ∀ n, StopsBetween d e.request.filename uuids (some n) ↔ 3 ≤ n ∧ n < 7 := by
      intro n
      unfold StopsBetween
      simp only [Option.some.injEq, exists_eq_left', if_pos hsecond]
      exact ⟨fun hstop => hstop.2.2.2, fun hn => ⟨hfirst, hfree, h, hn⟩⟩
    rw [hcut]
    rcases stop with _ | _ | _ | _ | _ | _ | _ | _ | _ | n
    · exact hstays (complete_withEntry hfree) fun hstop => by simpa using hstop.2.2.2
    all_goals first
      | exact hstays Iff.rfl (by rw [hstops]; omega)
      | exact hlost (not_complete_withMetadata h) ((hstops _).mpr (by omega))
      | exact hstays (complete_withEntry hfree) (by rw [hstops]; omega)

end

/-! ## A removal -/

/-- Removal keeps what losing the content of an entry, and then its metadata, keeps. -/
theorem pruneItems_keeps {P : Directory → Prop} (hnodup : ∀ s, P s → s.KeysNodup)
    (hdel : ∀ s (e : Entry rt), P s → s.get e.filename ≠ none →
      P (s.del e.filename) ∧ P (removed s e)) {l : List (Entry rt)} {t : Traced Directory}
    (h : ∀ s ∈ t.states, P s) : ∀ s ∈ (pruneItems (l.map Entry.reread) t).2.states, P s := by
  induction l generalizing t with
  | nil => exact h
  | cons e l ih =>
    obtain ⟨d, passed⟩ := t
    have hd : P d := h d (mem_append_right _ mem_cons_self)
    rw [map_cons, pruneItems]
    by_cases hcontent : d.get e.filename = none
    · rw [Call.bind_error (pruneItem_missing passed hcontent)]
      exact h
    by_cases hmetadata : d.get e.metadataName = none
    · obtain ⟨content, hsome⟩ := Option.ne_none_iff_exists'.mp hcontent
      have hitem : pruneItem e.reread ⟨d, passed⟩ = (.error .fileNotFound, ⟨d, passed⟩) := by
        rw [pruneItem_reread, Call.bind_ok (Directory.stat_present hsome)]
        exact Call.bind_error (Directory.stat_missing hmetadata)
      rw [Call.bind_error hitem]
      exact h
    · rw [Call.bind_ok (pruneItem_run passed (hnodup d hd) hcontent hmetadata)]
      refine ih fun s hs => ?_
      simp only [Traced.states, mem_append, mem_cons, not_mem_nil, or_false] at hs
      rcases hs with (hs | rfl | rfl) | rfl
      · exact h s (mem_append_left _ hs)
      · exact hd
      · exact (hdel d e hd hcontent).1
      · exact (hdel d e hd hcontent).2

theorem sound_pruneItems {l : List (Entry rt)} (h : Sound rt d) :
    ∀ s ∈ (pruneItems (l.map Entry.reread) (.start d)).2.states, Sound rt s := by
  refine pruneItems_keeps (P := Sound rt) (fun s hs => hs.keysNodup)
    (fun s e hs _ => ⟨hs.del _, (hs.del _).del _⟩) fun s hs => ?_
  rw [Traced.states, Traced.start, nil_append, mem_singleton] at hs
  exact hs ▸ h

/-- The metadata file of an entry without its content. -/
def Orphan (d : Directory) (e : Entry rt) : Prop :=
  d.get e.metadataName ≠ none ∧ d.get e.filename = none

theorem not_complete_iff : ¬ Complete rt d ↔ ∃ e : Entry rt, Orphan d e := by
  unfold Complete Orphan
  push Not
  rfl

/-- Such a metadata file stays. -/
theorem orphan_pruneItems {l : List (Entry rt)} {e : Entry rt} (hd : d.KeysNodup)
    (h : Orphan d e) :
    ∀ s ∈ (pruneItems (l.map Entry.reread) (.start d)).2.states, Orphan s e := by
  have hall : ∀ s ∈ (pruneItems (l.map Entry.reread) (.start d)).2.states,
      s.KeysNodup ∧ Orphan s e := by
    refine pruneItems_keeps (P := fun s => s.KeysNodup ∧ Orphan s e) (fun s hs => hs.1)
      (fun s first hs hcontent => ?_) fun s hs => ?_
    · obtain ⟨hs, hmetadata, hnone⟩ := hs
      have hne : first.filename ≠ e.filename := fun heq => hcontent (heq ▸ hnone)
      refine ⟨⟨hs.del _, ?_, ?_⟩, keysNodup_removed hs first, ?_, ?_⟩
      · rw [Dict.get_del hs, if_neg (first.filename_ne_metadataName e)]
        exact hmetadata
      · rw [Dict.get_del hs, if_neg hne]
        exact hnone
      · rw [(get_removed_of_ne hs hne).2]
        exact hmetadata
      · rw [(get_removed_of_ne hs hne).1]
        exact hnone
    · rw [Traced.states, Traced.start, nil_append, mem_singleton] at hs
      exact hs ▸ ⟨hd, h⟩
  exact fun s hs => (hall s hs).2

theorem complete_removed (hd : d.KeysNodup) (h : Complete rt d) (e : Entry rt) :
    Complete rt (removed d e) := by
  intro e' hmetadata
  by_cases hname : e.filename = e'.filename
  · rw [get_removed hd, if_pos (Or.inr (Entry.metadataName_inj.mpr hname.symm))] at hmetadata
    exact absurd rfl hmetadata
  · rw [(get_removed_of_ne hd hname).2] at hmetadata
    rw [(get_removed_of_ne hd hname).1]
    exact h e' hmetadata

theorem complete_foldl_removed (hd : d.KeysNodup) (h : Complete rt d) (l : List (Entry rt)) :
    Complete rt (l.foldl removed d) := by
  induction l generalizing d with
  | nil => exact h
  | cons e l ih => exact ih (keysNodup_removed hd e) (complete_removed hd h e)

theorem length_trail (d : Directory) (l : List (Entry rt)) : (trail d l).length = 2 * l.length := by
  induction l generalizing d with
  | nil => rfl
  | cons e l ih =>
    rw [trail, length_cons, length_cons, ih, length_cons]
    omega

/-- Between the two files of an entry the store is not complete. -/
theorem complete_trail {l : List (Entry rt)} (hd : d.KeysNodup) (hcomplete : Complete rt d)
    (h : Present d l) {n : Nat} {s : Directory} (hs : (trail d l)[n]? = some s) :
    Complete rt s ↔ n % 2 = 0 := by
  induction l generalizing d n with
  | nil => cases hs
  | cons e l ih =>
    rcases n with _ | _ | n
    · cases hs
      exact iff_of_true hcomplete rfl
    · cases hs
      refine iff_of_false (fun hc => hc e ?_ ?_) (by decide)
      · rw [Dict.get_del hd, if_neg (e.filename_ne_metadataName e)]
        exact h.metadata e mem_cons_self
      · rw [Dict.get_del hd, if_pos rfl]
    · have hrest : (trail (removed d e) l)[n]? = some s := hs
      rw [ih (keysNodup_removed hd e) (complete_removed hd hcomplete e) (h.tail hd) hrest]
      omega

/-- The removal stops between the two files of an expired artifact. -/
def StopsWithin (reader : Reader) (now : Utc) (d : Directory) (stop : Option Nat) : Prop :=
  ∃ items, expired reader now d = .ok items ∧ ∃ n, stop = some n ∧ n % 2 = 1 ∧ n < 2 * items.length

theorem sound_pruneExpired (h : Sound rt d) (now : Utc) (dryRun : Bool) :
    ∀ s ∈ (pruneExpired reader now dryRun (.start d)).2.states, Sound rt s := by
  obtain ⟨l, hl⟩ := h.lists
  cases dryRun with
  | true =>
    intro s hs
    rw [pruneExpired_dry, Traced.states, nil_append, mem_singleton] at hs
    exact hs ▸ h
  | false =>
    rw [pruneExpired_applied hl]
    exact sound_pruneItems h

/-- Retention leaves a complete store complete unless it stops within an artifact. -/
theorem complete_pruneExpired (h : Sound rt d) (now : Utc) (dryRun : Bool) (stop : Option Nat) :
    Complete rt ((pruneExpired reader now dryRun (.start d)).2.cut stop) ↔
      Complete rt d ∧ ¬ (dryRun = false ∧ StopsWithin reader now d stop) := by
  obtain ⟨l, hl⟩ := h.lists
  cases dryRun with
  | true =>
    rw [pruneExpired_dry, and_iff_left (by simp)]
    cases stop <;> rfl
  | false =>
    rw [pruneExpired_applied hl]
    by_cases hcomplete : Complete rt d
    · have hpresent : Present d (l.filter fun e => e.expires ≤ now) :=
        hl.expired_present h.keysNodup fun e he _ =>
          hcomplete e (by rw [(hl.stored e he).2]; exact Option.some_ne_none _)
      have hrun := pruneItems_run [] h.keysNodup hpresent
      have hstops : StopsWithin reader now d stop ↔
          ∃ n, stop = some n ∧ n % 2 = 1 ∧ n < (trail d (l.filter fun e => e.expires ≤ now)).length := by
        unfold StopsWithin
        rw [expired_entries reader hl now, length_trail]
        simp only [Except.ok.injEq, exists_eq_left', length_map]
      unfold Traced.start
      rw [hrun, hstops, nil_append]
      have hlast := complete_foldl_removed h.keysNodup hcomplete (l.filter fun e => e.expires ≤ now)
      cases stop with
      | none => exact iff_of_true hlast ⟨hcomplete, by simp⟩
      | some n =>
        unfold Traced.cut
        simp only
        cases hn : (trail d (l.filter fun e => e.expires ≤ now))[n]? with
        | none =>
          have hlength := getElem?_eq_none_iff.mp hn
          refine iff_of_true hlast ⟨hcomplete, ?_⟩
          rintro ⟨-, m, hm, -, hlt⟩
          cases hm
          omega
        | some s =>
          have hlength : n < _ := (List.getElem?_eq_some_iff.mp hn).1
          rw [Option.getD_some, complete_trail h.keysNodup hcomplete hpresent hn]
          simp only [hcomplete, true_and, Option.some.injEq, exists_eq_left', hlength, and_true]
          omega
    · refine iff_of_false (fun hafter => ?_) (fun hc => hcomplete hc.1)
      obtain ⟨e, he⟩ := not_complete_iff.mp hcomplete
      obtain ⟨hmetadata, hcontent⟩ := orphan_pruneItems h.keysNodup he _ (Traced.cut_mem _ stop)
      exact hafter e hmetadata hcontent

/-! ## Runs -/

section

variable (setting : Setting)

/-- The directories that an operation passes through. -/
def Operation.trace (d : Directory) : Operation → Traced Directory
  | .writeText request uuids content =>
    (Artifacts.writeText setting.rt setting.store request uuids content (.start d)).2
  | .writeJson request uuids value =>
    (Artifacts.writeJson setting.rt setting.store setting.scalar request uuids value (.start d)).2
  | .prune now dryRun => (pruneExpired setting.reader now dryRun (.start d)).2

/-- The write passes its checks and stops between its two files. -/
def Submission.Interrupted (submission : Submission) (d : Directory) (stop : Option Nat) : Prop :=
  (∃ payload metadata data, submission.payload = .ok payload ∧
    prepare setting.rt setting.store submission.request payload = .ok (metadata, data)) ∧
      StopsBetween d submission.request.filename submission.uuids stop

def Operation.Fits : Operation → Prop
  | .writeText request uuids content => (textSubmission setting request uuids content).Fits setting
  | .writeJson request uuids value => (jsonSubmission setting request uuids value).Fits setting
  | .prune _ _ => True

/-- The operation stops between the two files of an artifact. -/
def Operation.Interrupted (d : Directory) (stop : Option Nat) : Operation → Prop
  | .writeText request uuids content =>
    (textSubmission setting request uuids content).Interrupted setting d stop
  | .writeJson request uuids value =>
    (jsonSubmission setting request uuids value).Interrupted setting d stop
  | .prune now dryRun => dryRun = false ∧ StopsWithin setting.reader now d stop

/-- An operation, and the number of changes after which it stops, if it does. -/
structure Step where
  operation : Operation
  stop : Option Nat

/-- The directory that a step leaves. -/
def Step.after (d : Directory) (step : Step) : Option Directory :=
  some ((step.operation.trace setting d).cut step.stop)

variable {setting}

/-- One submission, cut off anywhere. -/
theorem Submission.step {submission : Submission} (hfits : submission.Fits setting)
    (h : Sound setting.rt d) (stop : Option Nat) :
    Sound setting.rt ((submission.call setting (.start d)).2.cut stop) ∧
      (Complete setting.rt ((submission.call setting (.start d)).2.cut stop) ↔
        Complete setting.rt d ∧ ¬ submission.Interrupted setting d stop) := by
  rcases submission.trace_eq setting d with ⟨ht, hnone⟩ | ⟨e, hrequest, hpayload, hprepare, ht⟩
  · have hcut : (⟨d, []⟩ : Traced Directory).cut stop = d := by cases stop <;> rfl
    rw [ht, hcut, and_iff_left fun hinterrupted => hnone hinterrupted.1]
    exact ⟨h, Iff.rfl⟩
  · obtain ⟨hfilename, htext⟩ := hfits _ _ _ hpayload hprepare
    rw [← hrequest] at hfilename
    rw [ht]
    refine ⟨sound_publishEntry h ⟨hfilename, htext⟩ _ (Traced.cut_mem _ _), ?_⟩
    have hinterrupted : submission.Interrupted setting d stop ↔
        StopsBetween d submission.request.filename submission.uuids stop :=
      and_iff_right ⟨_, _, _, hpayload, hprepare⟩
    rw [complete_publishEntry, hrequest, hinterrupted]

/-- One step of a run. -/
theorem Operation.step {operation : Operation} (hfits : operation.Fits setting)
    (h : Sound setting.rt d) (stop : Option Nat) :
    Sound setting.rt ((operation.trace setting d).cut stop) ∧
      (Complete setting.rt ((operation.trace setting d).cut stop) ↔
        Complete setting.rt d ∧ ¬ operation.Interrupted setting d stop) := by
  cases operation with
  | writeText request uuids content => exact Submission.step hfits h stop
  | writeJson request uuids value => exact Submission.step hfits h stop
  | prune now dryRun =>
    exact ⟨sound_pruneExpired h now dryRun _ (Traced.cut_mem _ _),
      complete_pruneExpired h now dryRun stop⟩

theorem complete_run {steps : List Step} (hfits : ∀ step ∈ steps, step.operation.Fits setting)
    (h : Sound setting.rt d) (hrun : Machine.run (Step.after setting) d steps = some d') :
    Sound setting.rt d' ∧ (Complete setting.rt d' ↔ Complete setting.rt d ∧
      Machine.Along (Step.after setting)
        (fun d step => ¬ step.operation.Interrupted setting d step.stop) d steps) := by
  induction steps generalizing d with
  | nil =>
    cases hrun
    exact ⟨h, (and_iff_left trivial).symm⟩
  | cons step steps ih =>
    obtain ⟨s, hs, hrest⟩ := Machine.run_cons.mp hrun
    obtain ⟨hsound, hcomplete⟩ :=
      Operation.step (hfits step mem_cons_self) h step.stop
    have hs' : (step.operation.trace setting d).cut step.stop = s := Option.some.inj hs
    rw [hs'] at hsound hcomplete
    obtain ⟨hsound', hcomplete'⟩ := ih (fun t ht => hfits t (mem_cons_of_mem _ ht)) hsound hrest
    refine ⟨hsound', ?_⟩
    rw [hcomplete', hcomplete, and_assoc]
    refine and_congr_right fun _ => and_congr_right fun _ => ?_
    constructor
    · intro halong s' hs''
      cases hs.symm.trans hs''
      exact halong
    · exact fun halong => halong s hs

/-- A removal at any time completes exactly when every metadata file has its content. -/
theorem prunes_iff_complete (h : Sound rt d) :
    (∀ now, Prunes reader now d) ↔ Complete rt d := by
  obtain ⟨l, hl⟩ := h.lists
  constructor
  · intro hprunes e hmetadata hcontent
    obtain ⟨e', he', hname⟩ := hl.exists_mem hmetadata
    refine (prunes_iff h hl e'.expires).mp (hprunes _) e' he' le_rfl ?_
    rw [Entry.metadataName_inj.mp hname]
    exact hcontent
  · intro hcomplete now
    refine (prunes_iff h hl now).mpr fun e he _ => hcomplete e ?_
    rw [(hl.stored e he).2]
    exact Option.some_ne_none _

/-- After a run of writes and prunes that may each stop anywhere, whose names and metadata the reader
takes, retention completes at every time and leaves nothing expired exactly when no step of the run
stopped between the two files of an artifact. -/
theorem prunes_after_run {steps : List Step} (hfits : ∀ step ∈ steps, step.operation.Fits setting)
    (hrun : Machine.run (Step.after setting) [] steps = some d) :
    (∀ now, Prunes setting.reader now d) ↔ Machine.Along (Step.after setting)
      (fun d step => ¬ step.operation.Interrupted setting d step.stop) [] steps := by
  obtain ⟨hsound, hcomplete⟩ := complete_run hfits sound_nil hrun
  rw [prunes_iff_complete hsound, hcomplete, and_iff_right complete_nil]

end

/-- The first write is complete, and the second stops with its metadata in a temporary file. -/
def Sample.steps : List Step :=
  [⟨.writeText (textRequest (str "a.log")) identifiers (str "up"), none⟩,
    ⟨.writeText (textRequest (str "b.log")) identifiers (str "up"), some 2⟩]

theorem prunes_after_run_sample : ∃ d,
    Machine.run (Step.after Sample.setting) [] Sample.steps = some d ∧
      ∀ now, Prunes Sample.setting.reader now d := by
  have hfits : ∀ step ∈ Sample.steps, step.operation.Fits Sample.setting := by
    intro step hstep
    simp only [Sample.steps, mem_cons, not_mem_nil, or_false] at hstep
    rcases hstep with rfl | rfl
    · exact (by decide +kernel : (textSubmission Sample.setting (Sample.textRequest (str "a.log"))
        Sample.identifiers (str "up")).Fits Sample.setting)
    · exact (by decide +kernel : (textSubmission Sample.setting (Sample.textRequest (str "b.log"))
        Sample.identifiers (str "up")).Fits Sample.setting)
  refine ⟨_, rfl, (prunes_after_run hfits rfl).mpr ⟨?_, fun s _ => ⟨?_, fun _ _ => trivial⟩⟩⟩
  · rintro ⟨-, -, -, -, n, hn, -⟩
    cases hn
  · rintro ⟨-, -, -, -, n, hn, hle, -⟩
    cases hn
    omega

/-- A write that stops before its content is linked leaves metadata that retention cannot remove. -/
theorem prune_fails_after_stop : ¬ ∀ d now, Machine.run (Step.after Sample.setting) []
    [⟨.writeText (Sample.textRequest (str "a.log")) Sample.identifiers (str "up"), some 4⟩] = some d →
      Prunes Sample.setting.reader now d := by
  intro h
  have hprunes := h _ Utc.max rfl
  exact absurd hprunes.1 (by decide +kernel)

end FieldDiscovery.Artifacts
