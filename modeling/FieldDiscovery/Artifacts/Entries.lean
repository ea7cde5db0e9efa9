import FieldDiscovery.Artifacts.Store

/-!
# What the store writes it can read

An `Entry` is an artifact that passes the checks of `_write`. Its record is read back from its metadata
file when the name of that file and the size of its content pass the checks of the reader as well
(`Entry.Fits`): the suffix takes fourteen of the hundred letters of a name, and the writer does not
bound the media type. A media type comes back as `joinPairs` makes it.
-/

namespace FieldDiscovery.Artifacts

open Py Redaction

/-! ## Names -/

theorem validateFilename_ok {filename s : Str} (h : validateFilename filename = .ok s) :
    s = filename ∧ (fullmatch safeName filename).isSome = true := by
  unfold validateFilename at h
  split at h
  · next hmatch => exact ⟨(Except.ok.inj h).symm, hmatch⟩
  · cases h

theorem validateFilename_of_match {filename : Str}
    (h : (fullmatch safeName filename).isSome = true) : validateFilename filename = .ok filename :=
  if_pos h

/-- A name with its suffix is a name when it is short enough. -/
theorem validateFilename_suffixed {filename : Str}
    (h : (fullmatch safeName filename).isSome = true) (hlength : filename.length ≤ 86) :
    validateFilename (filename ++ metadataSuffix) = .ok (filename ++ metadataSuffix) := by
  obtain ⟨⟨c, hc, halnum⟩, hall, -⟩ := fullmatch_safeName.mp h
  refine validateFilename_of_match (fullmatch_safeName.mpr ⟨⟨c, ?_, halnum⟩, ?_, ?_⟩)
  · cases filename with
    | nil => cases hc
    | cons d s => exact hc
  · rw [List.all_append, hall]
    decide
  · have hsuffix : metadataSuffix.length = 14 := rfl
    rw [List.length_append]
    omega

theorem staging_not_name (uuid : Uuid) :
    ¬ (fullmatch safeName (staging uuid)).isSome = true := by
  intro h
  obtain ⟨⟨c, hc, halnum⟩, -⟩ := fullmatch_safeName.mp h
  cases hc
  exact absurd halnum (by decide)

theorem staging_not_suffixed (uuid : Uuid) : ¬ metadataSuffix <:+ staging uuid := by
  intro h
  have hne : uuid.hex ≠ [] := by
    intro hnil
    have hlength := uuid.hex_length
    rw [hnil] at hlength
    cases hlength
  have hlast : (staging uuid).getLast? = uuid.hex.getLast? :=
    List.getLast?_append_of_ne_nil _ hne
  obtain ⟨s, hs⟩ := h
  have hn : (staging uuid).getLast? = some (cp 'n') := by
    rw [← hs, List.getLast?_append_of_ne_nil _ (by decide)]
    rfl
  rw [hn] at hlast
  have hhex := List.all_eq_true.mp uuid.hex_all _ (List.mem_of_getLast? hlast.symm)
  exact absurd hhex (by decide)

/-! ## Texts without surrogates -/

theorem isPaired_of_lt {s : Str} (h : ∀ c ∈ s, c.val < 0xD800) : IsPaired s := by
  unfold IsPaired
  induction s with
  | nil => exact List.isChain_nil
  | cons c s ih =>
    have hc := h c List.mem_cons_self
    refine (ih fun d hd => h d (List.mem_cons_of_mem _ hd)).cons fun d _ hpair => ?_
    have hhigh := hpair.1
    simp only [isHighSurrogate, Bool.and_eq_true, decide_eq_true_eq] at hhigh
    omega

theorem isPaired_of_all {s : Str} {p : CodePoint → Bool} (hs : s.all p = true)
    (hp : ∀ c, p c = true → c.val < 0xD800) : IsPaired s :=
  isPaired_of_lt fun c hc => hp c (List.all_eq_true.mp hs c hc)

theorem isPaired_filename {filename : Str} (h : (fullmatch safeName filename).isSome = true) :
    IsPaired filename := by
  refine isPaired_of_all (fullmatch_safeName.mp h).2.1 fun c hc => ?_
  have := isAscii_of_name hc
  simp only [isAscii, decide_eq_true_eq] at this
  omega

theorem isPaired_category {category : Str}
    (h : (fullmatch safeCategory category).isSome = true) : IsPaired category := by
  obtain ⟨pieces, hpieces⟩ := Option.isSome_iff_exists.mp h
  obtain ⟨m, hm, hrest⟩ := mem_matchParts_re.mp (fullmatch_eq_some hpieces)
  obtain ⟨c, u, t, hc, hs, -, hbody⟩ := Re.mem_run_seq_chr.mp hm
  obtain ⟨-, hall, htext⟩ := Re.mem_run_upTo_chr.mp hbody
  have hend : m.2 = [] := by
    rw [matchParts, List.mem_singleton, Prod.mk.injEq] at hrest
    exact hrest.2.symm
  simp only [hend, List.append_nil] at hall htext
  subst hs htext
  have hlower : ∀ d : CodePoint, isLower d = true → d.val < 0xD800 := by
    intro d hd
    simp only [isLower, Bool.and_eq_true, decide_eq_true_eq] at hd
    omega
  refine isPaired_of_lt fun d hd => ?_
  rcases List.mem_cons.mp hd with rfl | hd
  · exact hlower d hc
  · have hclass := List.all_eq_true.mp hall d hd
    simp only [Bool.or_eq_true, beq_iff_eq] at hclass
    rcases hclass with ((hclass | hclass) | rfl) | rfl
    · exact hlower d hclass
    · simp only [isDigit, Bool.and_eq_true, decide_eq_true_eq] at hclass
      omega
    · decide
    · decide

theorem isPaired_isoformat (t : Utc) : IsPaired t.isoformat :=
  isPaired_of_all (Datetime.isoformat_ascii _) fun c hc => by
    simp only [decide_eq_true_eq] at hc
    omega

theorem isPaired_sha256 (rt : Runtime) (payload : List Byte) : IsPaired (rt.sha256 payload) := by
  refine isPaired_of_all (rt.sha256_hex payload) fun c hc => ?_
  simp only [isHex, isDigit, Bool.or_eq_true, Bool.and_eq_true, decide_eq_true_eq] at hc
  omega

/-! ## Entries -/

/-- An artifact that passes the checks of `_write`. -/
structure Entry (rt : Runtime) where
  request : WriteRequest
  payload : List Byte
  expires : Utc
  valid : (fullmatch safeName request.filename).isSome = true
  unreserved : ¬ metadataSuffix <:+ request.filename
  category : (fullmatch safeCategory request.category).isSome = true
  digits : (natStr payload.length).length ≤ maxIntDigits

namespace Entry

variable {rt : Runtime} (e : Entry rt)

def filename : Str := e.request.filename

/-- The name of the metadata file. -/
def metadataName : Str := e.request.filename ++ metadataSuffix

/-- The record that the write returns. -/
def record : ArtifactMetadata := e.request.metadata rt e.payload e.expires

/-- The content of the metadata file. -/
def data : List Byte := e.record.text.map fun c => Fin.ofNat _ c.val

/-- The record as it is read back. -/
def reread : ArtifactMetadata :=
  { e.record with mediaType := .string (joinPairs e.request.mediaType) }

/-- The reader takes the name and the size of the metadata file. -/
structure Fits : Prop where
  filename_le : e.request.filename.length ≤ 86
  text_le : e.record.text.length ≤ maxMetadataBytes

theorem reread_eq (h : IsPaired e.request.mediaType) : e.reread = e.record := by
  unfold reread
  rw [h.joinPairs_eq]
  rfl

theorem fields_sorted (metadata : ArtifactMetadata) :
    metadata.fields.Pairwise fun a b => a.1 < b.1 := by
  have hkeys : (metadata.fields.map Prod.fst).Pairwise (· < ·) := by
    change ([str "category", str "created_at", str "expires_at", str "filename", str "media_type",
      str "schema_version", str "sha256", str "size_bytes"] : List Str).Pairwise (· < ·)
    decide
  exact List.pairwise_map.mp hkeys

theorem fields_plain : ∀ field ∈ e.record.fields, IsPaired field.1 ∧ field.2.IsPlain := by
  have hkeys : ∀ key ∈ e.record.fields.map Prod.fst, IsPaired key := by
    change ∀ key ∈ ([str "category", str "created_at", str "expires_at", str "filename",
      str "media_type", str "schema_version", str "sha256", str "size_bytes"] : List Str), _
    decide
  intro field hfield
  refine ⟨hkeys _ (List.mem_map_of_mem hfield), ?_⟩
  have hsize : (Json.int e.payload.length).IsPlain := by
    refine ⟨by omega, ?_⟩
    unfold intStr
    rw [if_neg (by omega)]
    exact e.digits
  simp only [ArtifactMetadata.fields, record, WriteRequest.metadata, List.mem_cons,
    List.not_mem_nil, or_false] at hfield
  rcases hfield with rfl | rfl | rfl | rfl | rfl | rfl | rfl | rfl
  all_goals first
    | exact hsize
    | exact trivial
    | exact ⟨by decide, by decide⟩

theorem joined_fields : e.record.fields.map (fun field => (field.1, field.2.joined)) =
    e.reread.fields := by
  have hcategory := (isPaired_category e.category).joinPairs_eq
  have hcreated := (isPaired_isoformat e.request.now).joinPairs_eq
  have hexpires := (isPaired_isoformat e.expires).joinPairs_eq
  have hfilename := (isPaired_filename e.valid).joinPairs_eq
  have hdigest := (isPaired_sha256 rt e.payload).joinPairs_eq
  simp only [ArtifactMetadata.fields, reread, record, WriteRequest.metadata, List.map_cons,
    List.map_nil, Json.joined, hcategory, hcreated, hexpires, hfilename, hdigest]

/-- The record is made of the fields that are read back. -/
theorem metadataOf_reread (reader : Reader) :
    metadataOf reader (.dict e.reread.fields) = some e.reread := by
  have hiso : (Datetime.fromisoformat reader.iso e.expires.isoformat).isSome = true := by
    rw [Datetime.fromisoformat_isoformat]
    rfl
  have hget : ∀ m : ArtifactMetadata,
      Dict.get m.fields (str "schema_version") = some m.schemaVersion ∧
      Dict.get m.fields (str "filename") = some (.string m.filename) ∧
      Dict.get m.fields (str "category") = some m.category ∧
      Dict.get m.fields (str "media_type") = some m.mediaType ∧
      Dict.get m.fields (str "size_bytes") = some m.sizeBytes ∧
      Dict.get m.fields (str "sha256") = some m.sha256 ∧
      Dict.get m.fields (str "created_at") = some m.createdAt ∧
      Dict.get m.fields (str "expires_at") = some (.string m.expiresAt) :=
    fun m => ⟨rfl, rfl, rfl, rfl, rfl, rfl, rfl, rfl⟩
  obtain ⟨h₁, h₂, h₃, h₄, h₅, h₆, h₇, h₈⟩ := hget e.reread
  unfold metadataOf
  simp only [h₁, h₂, h₃, h₄, h₅, h₆, h₇, h₈, Option.bind_eq_bind, Option.bind_some]
  exact if_pos ⟨rfl, e.valid, hiso⟩

/-- The bytes of the metadata file. -/
theorem encode_text : encodeUtf8 e.record.text = some e.data :=
  encodeUtf8_ascii (Json.asciiText_object (fields_sorted e.record)
    fun field hfield => (e.fields_plain field hfield).2)

theorem length_data : e.data.length = e.record.text.length := List.length_map ..

theorem readMetadata_eq {e : Entry rt} (h : e.Fits) (reader : Reader) {d : Directory}
    (hget : d.get e.metadataName = some e.data) :
    readMetadata reader d e.metadataName = .ok e.reread := by
  have hname := validateFilename_suffixed e.valid h.filename_le
  obtain ⟨raw, hraw, -, hloads⟩ := Json.loadsBytes_object reader.floatRepr reader.decode
    (fields_sorted e.record) e.fields_plain
  have hdata : raw = e.data := Option.some.inj (hraw.symm.trans e.encode_text)
  subst hdata
  have hsize : ¬ maxMetadataBytes < e.data.length := by
    rw [length_data]
    exact Nat.not_lt.mpr h.text_le
  unfold readMetadata metadataName at *
  rw [hname, Except.ok_bind, hget]
  simp only
  rw [if_neg hsize, hloads, joined_fields, Option.bind_some, metadataOf_reread]
  simp only
  exact if_neg (fun h => h rfl)

end Entry

/-- What `_write` accepts is an entry. -/
theorem prepare_ok {rt : Runtime} {store : ArtifactStore} {request : WriteRequest}
    {payload : List Byte} {metadata : ArtifactMetadata} {data : List Byte}
    (h : prepare rt store request payload = .ok (metadata, data)) : ∃ e : Entry rt,
      e.request = request ∧ e.payload = payload ∧
        request.now.add request.retention.toNat = some e.expires ∧ metadata = e.record ∧
          data = e.data := by
  unfold prepare at h
  obtain ⟨filename, hvalid, h⟩ := Except.bind_eq_ok.mp h
  obtain ⟨rfl, hmatch⟩ := validateFilename_ok hvalid
  split at h
  · cases h
  next hunreserved =>
  split at h
  · cases h
  next hcategory =>
  split at h
  · cases h
  split at h
  · cases h
  split at h
  · cases h
  next expires hexpires =>
  split at h
  · cases h
  next hdigits =>
  have hcategory : (fullmatch safeCategory request.category).isSome = true := by
    simpa [Option.isSome_iff_ne_none] using hcategory
  have htext : encodeUtf8 (request.metadata rt payload expires).text = some
      ((request.metadata rt payload expires).text.map fun c => Fin.ofNat _ c.val) :=
    Entry.encode_text (⟨request, payload, expires, hmatch, hunreserved, hcategory,
      Nat.not_lt.mp hdigits⟩ : Entry rt)
  rw [htext] at h
  simp only at h
  split at h
  · cases h
  · cases h
    exact ⟨⟨request, payload, expires, hmatch, hunreserved, hcategory, Nat.not_lt.mp hdigits⟩, rfl,
      rfl, hexpires, rfl, rfl⟩

end FieldDiscovery.Artifacts
