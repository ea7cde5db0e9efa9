import FieldDiscovery.Artifacts.Retention

/-!
# The calls of a write

`_publish` makes a temporary file, fills it, links it under its name and takes the temporary name away;
`_write` does so for the metadata and then for the content. Each lemma gives the outcome of one case
with every directory on the way: a name that is taken leaves the directory as it was, and a write that
meets no taken name adds the two files (`publishEntry_stored`). `write_text` and `write_json` hand their
payload to `_write` as a `Submission`.
-/

namespace FieldDiscovery.Artifacts

open Py Redaction List

variable {rt : Runtime} {d : Directory} {passed : List Directory} {uuid : Uuid} {name : Str}
  {payload : List Byte}

/-- The directories on the way to a filled temporary file. -/
def staged (d : Directory) (uuid : Uuid) (payload : List Byte) : List Directory :=
  [d, d.set (staging uuid) [], d.set (staging uuid) payload]

/-! ## One file -/

theorem publish_staging_taken (h : d.get (staging uuid) ≠ none) :
    publish uuid name payload ⟨d, passed⟩ = (.error .fileExists, ⟨d, passed⟩) := by
  unfold publish
  exact Call.bind_error (Directory.openExclusive_taken h)

theorem unlink_staging (h : d.get (staging uuid) = some payload) :
    suppressMissing (Directory.unlink fileErrors (staging uuid)) ⟨d, passed⟩ =
      (.ok (), ⟨d.del (staging uuid), passed ++ [d]⟩) := by
  unfold suppressMissing
  rw [Call.tryExcept_ok (Directory.unlink_present h)]

theorem fill_staging : Directory.fill (ε := Exc) (staging uuid) payload
    ⟨d.set (staging uuid) [], passed ++ [d]⟩ =
      (.ok (), ⟨d.set (staging uuid) payload, passed ++ [d] ++ [d.set (staging uuid) []]⟩) := by
  unfold Directory.fill Traced.next
  rw [Dict.set_set]

theorem publish_taken (h : d.get (staging uuid) = none) (hne : staging uuid ≠ name)
    (htaken : d.get name ≠ none) : publish uuid name payload ⟨d, passed⟩ =
      (.error .fileExists, ⟨d, passed ++ staged d uuid payload⟩) := by
  have hget : (d.set (staging uuid) payload).get (staging uuid) = some payload :=
    Dict.get_set_self _ _ _
  have hname : (d.set (staging uuid) payload).get name ≠ none := by
    rw [Dict.get_set, if_neg hne]
    exact htaken
  have hstage : stage (staging uuid) name payload ⟨d.set (staging uuid) [], passed ++ [d]⟩ =
      (.error .fileExists, ⟨d.set (staging uuid) payload, passed ++ [d] ++
        [d.set (staging uuid) []]⟩) := by
    unfold stage
    rw [Call.bind_ok fill_staging]
    exact Directory.link_taken hget hname
  unfold publish
  rw [Call.bind_ok (Directory.openExclusive_free h),
    Call.tryFinally_ok hstage (unlink_staging hget), Dict.del_set_self h]
  simp [staged]

theorem publish_free (h : d.get (staging uuid) = none) (hne : staging uuid ≠ name)
    (hfree : d.get name = none) : publish uuid name payload ⟨d, passed⟩ =
      (.ok (), ⟨d.set name payload, passed ++ (staged d uuid payload ++
        [(d.set (staging uuid) payload).set name payload])⟩) := by
  have hget : (d.set (staging uuid) payload).get (staging uuid) = some payload :=
    Dict.get_set_self _ _ _
  have hname : (d.set (staging uuid) payload).get name = none := by
    rw [Dict.get_set, if_neg hne]
    exact hfree
  have hlinked : ((d.set (staging uuid) payload).set name payload).get (staging uuid) =
      some payload := by
    rw [Dict.get_set, if_neg hne.symm, hget]
  have hstage : stage (staging uuid) name payload ⟨d.set (staging uuid) [], passed ++ [d]⟩ =
      (.ok (), ⟨(d.set (staging uuid) payload).set name payload, passed ++ [d] ++
        [d.set (staging uuid) []] ++ [d.set (staging uuid) payload]⟩) := by
    unfold stage
    rw [Call.bind_ok fill_staging]
    exact Directory.link_free hget hname
  unfold publish
  rw [Call.bind_ok (Directory.openExclusive_free h),
    Call.tryFinally_ok hstage (unlink_staging hlinked), Dict.del_set_of_ne hne.symm,
    Dict.del_set_self h]
  simp [staged]

/-! ## Both files -/

variable {store : ArtifactStore} {request : WriteRequest} {e : Entry rt} {uuids : Uuid × Uuid}

theorem write_rejected {error : Exc} (h : prepare rt store request payload = .error error) :
    write rt store request uuids payload ⟨d, passed⟩ = (.error error, ⟨d, passed⟩) := by
  unfold write
  refine Call.bind_error (m := Call.ofExcept _) ?_
  rw [Call.ofExcept_run, h]

/-- `_write` after its checks. -/
def publishEntry (e : Entry rt) (uuids : Uuid × Uuid) :
    Call (Traced Directory) Exc ArtifactMetadata := do
  publish uuids.1 e.metadataName e.data
  .onError (publish uuids.2 e.filename e.payload) (Directory.unlink fileErrors e.metadataName)
  pure e.record

theorem write_prepared (h : prepare rt store e.request e.payload = .ok (e.record, e.data))
    (t : Traced Directory) :
    write rt store e.request uuids e.payload t = publishEntry e uuids t := by
  unfold write
  rw [h]
  rfl

section

variable (d e uuids)

/-- The directory with the metadata file. -/
def withMetadata : Directory := d.set e.metadataName e.data

/-- The directory with both files. -/
def withEntry : Directory := (withMetadata d e).set e.filename e.payload

/-- The directories up to the one with the metadata file. -/
def metadataTrail : List Directory :=
  staged d uuids.1 e.data ++ [(d.set (staging uuids.1) e.data).set e.metadataName e.data]

/-- The directories from there to the one with both files. -/
def contentTrail : List Directory :=
  staged (withMetadata d e) uuids.2 e.payload ++
    [((withMetadata d e).set (staging uuids.2) e.payload).set e.filename e.payload]

end

theorem publishEntry_first (h : d.get (staging uuids.1) ≠ none) :
    publishEntry e uuids ⟨d, passed⟩ = (.error .fileExists, ⟨d, passed⟩) := by
  unfold publishEntry
  exact Call.bind_error (publish_staging_taken h)

theorem publishEntry_metadata (h : d.get (staging uuids.1) = none)
    (htaken : d.get e.metadataName ≠ none) : publishEntry e uuids ⟨d, passed⟩ =
      (.error .fileExists, ⟨d, passed ++ staged d uuids.1 e.data⟩) := by
  unfold publishEntry
  exact Call.bind_error (publish_taken h (e.metadataName_ne_staging _).symm htaken)

section

variable (h : d.get (staging uuids.1) = none) (hfree : d.get e.metadataName = none)

include h hfree

theorem publish_metadata : publish uuids.1 e.metadataName e.data ⟨d, passed⟩ =
    (.ok (), ⟨withMetadata d e, passed ++ metadataTrail d e uuids⟩) :=
  publish_free h (e.metadataName_ne_staging _).symm hfree

/-- The content is not published, and the metadata file is taken away again. -/
theorem publishEntry_undone {states : List Directory}
    (hcontent : publish uuids.2 e.filename e.payload
      ⟨withMetadata d e, passed ++ metadataTrail d e uuids⟩ =
        (.error .fileExists, ⟨withMetadata d e, passed ++ metadataTrail d e uuids ++ states⟩)) :
    publishEntry e uuids ⟨d, passed⟩ = (.error .fileExists,
      ⟨d, passed ++ metadataTrail d e uuids ++ states ++ [withMetadata d e]⟩) := by
  have hget : (withMetadata d e).get e.metadataName = some e.data := Dict.get_set_self _ _ _
  have hdel : (withMetadata d e).del e.metadataName = d := Dict.del_set_self hfree _
  have hunlink : Directory.unlink fileErrors e.metadataName
      ⟨withMetadata d e, passed ++ metadataTrail d e uuids ++ states⟩ =
        (.ok (), ⟨d, passed ++ metadataTrail d e uuids ++ states ++ [withMetadata d e]⟩) := by
    rw [Directory.unlink_present hget, hdel]
  unfold publishEntry
  rw [Call.bind_ok (publish_metadata h hfree)]
  refine Call.bind_error (m := Call.onError _ _) ?_
  unfold Call.onError
  rw [Call.tryExcept_error hcontent, Call.bind_ok hunlink]
  rfl

theorem publishEntry_second (hstaging : (withMetadata d e).get (staging uuids.2) ≠ none) :
    publishEntry e uuids ⟨d, passed⟩ = (.error .fileExists,
      ⟨d, passed ++ metadataTrail d e uuids ++ [withMetadata d e]⟩) := by
  have hcontent : publish uuids.2 e.filename e.payload
      ⟨withMetadata d e, passed ++ metadataTrail d e uuids⟩ =
        (.error .fileExists, ⟨withMetadata d e, passed ++ metadataTrail d e uuids ++ []⟩) := by
    rw [append_nil]
    exact publish_staging_taken hstaging
  have hundone := publishEntry_undone h hfree hcontent
  rwa [append_nil] at hundone

theorem publishEntry_content (hstaging : (withMetadata d e).get (staging uuids.2) = none)
    (htaken : d.get e.filename ≠ none) : publishEntry e uuids ⟨d, passed⟩ = (.error .fileExists,
      ⟨d, passed ++ metadataTrail d e uuids ++ staged (withMetadata d e) uuids.2 e.payload ++
        [withMetadata d e]⟩) := by
  have htaken' : (withMetadata d e).get e.filename ≠ none := by
    unfold withMetadata
    rw [Dict.get_set, if_neg (e.filename_ne_metadataName e).symm]
    exact htaken
  exact publishEntry_undone h hfree
    (publish_taken hstaging (e.filename_ne_staging _).symm htaken')

theorem publishEntry_stored (hstaging : (withMetadata d e).get (staging uuids.2) = none)
    (hcontent : d.get e.filename = none) : publishEntry e uuids ⟨d, passed⟩ = (.ok e.record,
      ⟨withEntry d e, passed ++ metadataTrail d e uuids ++ contentTrail d e uuids⟩) := by
  have hcontent' : (withMetadata d e).get e.filename = none := by
    unfold withMetadata
    rw [Dict.get_set, if_neg (e.filename_ne_metadataName e).symm]
    exact hcontent
  unfold publishEntry
  rw [Call.bind_ok (publish_metadata h hfree)]
  exact Call.bind_ok (Call.onError_ok
    (publish_free hstaging (e.filename_ne_staging _).symm hcontent'))

end

/-! ## The calls on a store -/

/-- A call on the store. -/
inductive Operation where
  | writeText (request : WriteRequest) (uuids : Uuid × Uuid) (content : Str)
  | writeJson (request : WriteRequest) (uuids : Uuid × Uuid) (value : Value)
  | prune (now : Utc) (dryRun : Bool)

/-- What the store and the interpreter give to every call. -/
structure Setting where
  rt : Runtime
  store : ArtifactStore
  scalar : Str → Except Exc Json
  reader : Reader

/-- What a write hands to `_write`. -/
structure Submission where
  request : WriteRequest
  uuids : Uuid × Uuid
  payload : Except Exc (List Byte)

section

variable (setting : Setting)

def textSubmission (request : WriteRequest) (uuids : Uuid × Uuid) (content : Str) : Submission :=
  ⟨request, uuids, textPayload setting.rt setting.store content⟩

def jsonSubmission (request : WriteRequest) (uuids : Uuid × Uuid) (value : Value) : Submission :=
  ⟨⟨request.filename, request.category, request.retention, str "application/json", request.now⟩,
    uuids, jsonPayload setting.rt setting.store setting.scalar value⟩

/-- `write_text` and `write_json` once their payload is made. -/
def Submission.call (submission : Submission) :
    Call (Traced Directory) Exc ArtifactMetadata := do
  let payload ← Call.ofExcept submission.payload
  write setting.rt setting.store submission.request submission.uuids payload

/-- The name and the metadata of the write, if it passes its checks, pass those of the reader. -/
def Submission.Fits (submission : Submission) : Prop :=
  ∀ payload metadata data, submission.payload = .ok payload →
    prepare setting.rt setting.store submission.request payload = .ok (metadata, data) →
      submission.request.filename.length ≤ 86 ∧ metadata.text.length ≤ maxMetadataBytes

instance (submission : Submission) : Decidable (submission.Fits setting) :=
  match hpayload : submission.payload with
  | .error _ => isTrue fun payload metadata data h _ => by
      rw [hpayload] at h
      cases h
  | .ok payload =>
    match hprepare : prepare setting.rt setting.store submission.request payload with
    | .error _ => isTrue fun payload' metadata data h hok => by
        rw [hpayload] at h
        cases h
        rw [hprepare] at hok
        cases hok
    | .ok (metadata, data) =>
      decidable_of_iff (submission.request.filename.length ≤ 86 ∧
        metadata.text.length ≤ maxMetadataBytes)
        ⟨fun hfits payload' metadata' data' h hok => by
          rw [hpayload] at h
          cases h
          rw [hprepare] at hok
          cases hok
          exact hfits, fun hfits => hfits payload metadata data hpayload hprepare⟩

end

/-- A submission leaves the directory alone or publishes an entry. -/
theorem Submission.trace_eq (setting : Setting) (submission : Submission) (d : Directory) :
    ((submission.call setting (.start d)).2 = ⟨d, []⟩ ∧
      ¬ ∃ payload metadata data, submission.payload = .ok payload ∧
        prepare setting.rt setting.store submission.request payload = .ok (metadata, data)) ∨
    ∃ e : Entry setting.rt, e.request = submission.request ∧ submission.payload = .ok e.payload ∧
      prepare setting.rt setting.store submission.request e.payload = .ok (e.record, e.data) ∧
      submission.call setting (.start d) = publishEntry e submission.uuids (.start d) := by
  unfold Submission.call
  cases hpayload : submission.payload with
  | error error =>
    refine Or.inl ⟨rfl, ?_⟩
    rintro ⟨payload, metadata, data, heq, -⟩
    cases heq
  | ok payload =>
    cases hprepare : prepare setting.rt setting.store submission.request payload with
    | error error =>
      refine Or.inl ⟨?_, ?_⟩
      · have hwrite : write setting.rt setting.store submission.request submission.uuids payload
            ⟨d, []⟩ = (.error error, ⟨d, []⟩) := write_rejected hprepare
        exact congrArg Prod.snd hwrite
      · rintro ⟨payload', metadata, data, heq, hok⟩
        cases heq
        rw [hprepare] at hok
        cases hok
    | ok result =>
      obtain ⟨metadata, data⟩ := result
      obtain ⟨e, hrequest, hpayload', -, rfl, rfl⟩ := prepare_ok hprepare
      refine Or.inr ⟨e, hrequest, by rw [hpayload'], by rw [hpayload', hprepare], ?_⟩
      subst hpayload'
      rw [← hrequest] at hprepare ⊢
      exact write_prepared hprepare _

/-! ## A store of two artifacts -/

namespace Sample

def setting : Setting where
  rt := Runtime.ofDigests []
  store := ⟨⟨[], []⟩, 4194304, fun _ => none, by decide⟩
  scalar _ := .error .type
  reader := ⟨id, fun _ => none, fun _ => none⟩

def sameDigit (c : Char) (h : isHex (cp c) = true) : Uuid where
  hex := List.replicate 32 (cp c)
  hex_length := length_replicate
  hex_all := by simp [h]

def identifiers : Uuid × Uuid := (sameDigit 'a' (by decide), sameDigit 'b' (by decide))

/-- A text of one day's retention, written at the start of the calendar. -/
def textRequest (filename : Str) : WriteRequest :=
  ⟨filename, str "log", microsPerDay, str "text/plain", ⟨0, zero_inCalendar⟩⟩

end Sample

end FieldDiscovery.Artifacts
