import FieldDiscovery.Artifacts.SafeFilename
import FieldDiscovery.Lib.Clock
import FieldDiscovery.Lib.Directory
import FieldDiscovery.Lib.IsoRead
import FieldDiscovery.Lib.JsonLoads
import FieldDiscovery.Redaction.Value

/-!
# The artifact store

`ArtifactStore` of `artifacts.py` over the directory of its root. A write publishes the metadata of an
artifact first and its content second, both through a temporary name; applied retention removes the
content first and the metadata second. `expired` reads every metadata file of the root and raises at
the first that does not pass its checks.

The directory is given by its regular files. The times of a call are in UTC already.
-/

namespace FieldDiscovery.Artifacts

open Py Redaction

/-! ## Metadata -/

/-- `MAX_METADATA_BYTES` -/
def maxMetadataBytes : Nat := 65536

/-- `_METADATA_SUFFIX` -/
def metadataSuffix : Str := str ".metadata.json"

/-- `_SAFE_CATEGORY` -/
def safeCategory : Pattern :=
  [.re (.seq (.chr isLower) (.upTo 31 (.chr fun c =>
    isLower c || isDigit c || c == cp '_' || c == cp '-')))]

/-- `ArtifactMetadata`. Of the fields of a record that was read only two are checked, the others may
hold any value. -/
structure ArtifactMetadata where
  schemaVersion : Json
  filename : Str
  category : Json
  mediaType : Json
  sizeBytes : Json
  sha256 : Json
  createdAt : Json
  expiresAt : Str

/-- `asdict(metadata)`, in the order of the names. -/
def ArtifactMetadata.fields (metadata : ArtifactMetadata) : List (Str × Json) :=
  [(str "category", metadata.category), (str "created_at", metadata.createdAt),
    (str "expires_at", .string metadata.expiresAt), (str "filename", .string metadata.filename),
    (str "media_type", metadata.mediaType), (str "schema_version", metadata.schemaVersion),
    (str "sha256", metadata.sha256), (str "size_bytes", metadata.sizeBytes)]

/-- `json.dumps(asdict(metadata), sort_keys=True, separators=(",", ":"))` -/
def ArtifactMetadata.text (metadata : ArtifactMetadata) : Str :=
  (Json.dict metadata.fields).dumps (.compact true)

/-- What the standard library makes of texts that the store never writes: the `repr` of a float, bytes
outside ASCII, and the other ISO forms. -/
structure Reader where
  floatRepr : Str → Str
  decode : List Byte → Option Str
  iso : Str → Option Stamp

/-- `ArtifactMetadata(**value)`, with the checks on its file name and its expiry. -/
def metadataOf (reader : Reader) : Json → Option ArtifactMetadata
  | .dict items => do
    let schemaVersion ← Dict.get items (str "schema_version")
    let filename ← Dict.get items (str "filename")
    let category ← Dict.get items (str "category")
    let mediaType ← Dict.get items (str "media_type")
    let sizeBytes ← Dict.get items (str "size_bytes")
    let sha256 ← Dict.get items (str "sha256")
    let createdAt ← Dict.get items (str "created_at")
    let expiresAt ← Dict.get items (str "expires_at")
    match filename, expiresAt with
    | .string filename, .string expiresAt =>
      if items.length = 8 ∧ (fullmatch safeName filename).isSome ∧
          (Datetime.fromisoformat reader.iso expiresAt).isSome then
        some ⟨schemaVersion, filename, category, mediaType, sizeBytes, sha256, createdAt, expiresAt⟩
      else none
    | _, _ => none
  | _ => none

/-- `_read_metadata` -/
def readMetadata (reader : Reader) (d : Directory) (name : Str) : Except Exc ArtifactMetadata := do
  let name ← validateFilename name
  match d.get name with
  | none => .error .fileNotFound
  | some raw =>
    if maxMetadataBytes < raw.length then
      .error (.unsafeArtifactPath (str "artifact metadata must be a bounded regular file"))
    else
      match (Json.loadsBytes reader.floatRepr reader.decode raw).bind (metadataOf reader) with
      | none => .error (.unsafeArtifactPath (str "artifact metadata is invalid"))
      | some metadata =>
        if name ≠ metadata.filename ++ metadataSuffix then
          .error (.unsafeArtifactPath (str "artifact metadata filename mismatch"))
        else .ok metadata

/-! ## Publication -/

/-- `ArtifactStore`. The space guard may raise, given the bytes to be written. -/
structure ArtifactStore where
  redactor : Redactor
  maxBytes : Nat
  spaceGuard : Nat → Option Exc
  maxBytes_pos : 1 ≤ maxBytes

/-- The arguments of `_write` besides its payload. `retention` is in microseconds. -/
structure WriteRequest where
  filename : Str
  category : Str
  retention : Int
  mediaType : Str
  now : Utc

/-- The record of an artifact. -/
def WriteRequest.metadata (rt : Runtime) (request : WriteRequest) (payload : List Byte)
    (expires : Utc) : ArtifactMetadata where
  schemaVersion := .int 1
  filename := request.filename
  category := .string request.category
  mediaType := .string request.mediaType
  sizeBytes := .int payload.length
  sha256 := .string (rt.sha256 payload)
  createdAt := .string request.now.isoformat
  expiresAt := expires.isoformat

/-- `_write` up to its space guard: the record, and its bytes. -/
def prepare (rt : Runtime) (store : ArtifactStore) (request : WriteRequest) (payload : List Byte) :
    Except Exc (ArtifactMetadata × List Byte) := do
  let filename ← validateFilename request.filename
  if metadataSuffix <:+ filename then
    .error (.unsafeArtifactPath (str "reserved metadata suffix"))
  else if (fullmatch safeCategory request.category).isNone then
    .error (.artifact (str "artifact category is invalid"))
  else if request.retention ≤ 0 then
    .error (.artifact (str "artifact retention must be positive"))
  else if store.maxBytes < payload.length then
    .error (.artifactTooLarge
      (str "artifact exceeds configured " ++ natStr store.maxBytes ++ str " byte limit"))
  else
    match request.now.add request.retention.toNat with
    | none => .error .overflow
    | some expires =>
      -- an integer of too many digits has no text
      if maxIntDigits < (natStr payload.length).length then .error .value
      else
        match encodeUtf8 (request.metadata rt payload expires).text with
        | none => .error .unicodeEncode
        | some data =>
          match store.spaceGuard (payload.length + data.length) with
          | some e => .error e
          | none => .ok (request.metadata rt payload expires, data)

def fileErrors : FileErrors Exc := ⟨.fileExists, .fileNotFound⟩

/-- `with suppress(FileNotFoundError): m` -/
def suppressMissing (m : Call (Traced Directory) Exc Unit) : Call (Traced Directory) Exc Unit :=
  .tryExcept m fun e => if e = .fileNotFound then pure () else .raise e

/-- `uuid.uuid4().hex` -/
structure Uuid where
  hex : Str
  hex_length : hex.length = 32
  hex_all : hex.all isHex = true

/-- The name of a temporary file. -/
def staging (uuid : Uuid) : Str := str ".staging-" ++ uuid.hex

/-- The file under its temporary name, and then under its own. -/
def stage (temporary filename : Str) (payload : List Byte) : Call (Traced Directory) Exc Unit := do
  Directory.fill temporary payload
  Directory.link fileErrors temporary filename

/-- `_publish` -/
def publish (uuid : Uuid) (filename : Str) (payload : List Byte) : Call (Traced Directory) Exc Unit := do
  Directory.openExclusive fileErrors (staging uuid)
  .tryFinally (stage (staging uuid) filename payload)
    (suppressMissing (Directory.unlink fileErrors (staging uuid)))

/-- `_write`, with the two identifiers that it draws. -/
def write (rt : Runtime) (store : ArtifactStore) (request : WriteRequest) (uuids : Uuid × Uuid)
    (payload : List Byte) : Call (Traced Directory) Exc ArtifactMetadata := do
  let (metadata, data) ← Call.ofExcept (prepare rt store request payload)
  publish uuids.1 (request.filename ++ metadataSuffix) data
  .onError (publish uuids.2 request.filename payload)
    (Directory.unlink fileErrors (request.filename ++ metadataSuffix))
  pure metadata

/-- `text.encode("utf-8")` -/
def encode (text : Str) : Except Exc (List Byte) :=
  match encodeUtf8 text with
  | none => .error .unicodeEncode
  | some data => .ok data

/-- The payload of `write_text`. -/
def textPayload (rt : Runtime) (store : ArtifactStore) (content : Str) : Except Exc (List Byte) := do
  let text ← store.redactor.text rt content
  encode text

mutual

/-- A value as `json.dumps` takes it; `scalar` says how it takes one that is neither text nor
container. -/
def toJson (scalar : Str → Except Exc Json) : Value → Except Exc Json
  | .str s => .ok (.string s)
  | .list items => do
    let items ← toJsonItems scalar items
    .ok (.list items)
  | .tuple items => do
    let items ← toJsonItems scalar items
    .ok (.list items)
  | .mapping items => do
    let items ← toJsonFields scalar items
    .ok (.dict items)
  | .other rendering => scalar rendering

def toJsonItems (scalar : Str → Except Exc Json) : List Value → Except Exc (List Json)
  | [] => .ok []
  | v :: vs => do
    let v ← toJson scalar v
    let vs ← toJsonItems scalar vs
    .ok (v :: vs)

def toJsonFields (scalar : Str → Except Exc Json) :
    List (Str × Value) → Except Exc (List (Str × Json))
  | [] => .ok []
  | (key, v) :: rest => do
    let v ← toJson scalar v
    let rest ← toJsonFields scalar rest
    .ok ((key, v) :: rest)

end

/-- The payload of `write_json`. -/
def jsonPayload (rt : Runtime) (store : ArtifactStore) (scalar : Str → Except Exc Json)
    (value : Value) : Except Exc (List Byte) := do
  let value ← store.redactor.value rt value
  let value ← toJson scalar value
  encode (value.dumps (.compact false))

/-- `write_text` -/
def writeText (rt : Runtime) (store : ArtifactStore) (request : WriteRequest) (uuids : Uuid × Uuid)
    (content : Str) : Call (Traced Directory) Exc ArtifactMetadata := do
  let payload ← Call.ofExcept (textPayload rt store content)
  write rt store request uuids payload

/-- `write_json` -/
def writeJson (rt : Runtime) (store : ArtifactStore) (scalar : Str → Except Exc Json)
    (request : WriteRequest) (uuids : Uuid × Uuid) (value : Value) :
    Call (Traced Directory) Exc ArtifactMetadata := do
  let payload ← Call.ofExcept (jsonPayload rt store scalar value)
  write rt store ⟨request.filename, request.category, request.retention, str "application/json",
    request.now⟩ uuids payload

/-! ## Retention -/

/-- The metadata files of the root, in the order of their names. -/
def metadataNames (d : Directory) : List Str :=
  sortedBy id ((d.map Prod.fst).filter fun name => metadataSuffix <:+ name)

/-- The records of these files. -/
def readAll (reader : Reader) (d : Directory) : List Str → Except Exc (List ArtifactMetadata)
  | [] => .ok []
  | name :: names => do
    let metadata ← readMetadata reader d name
    let rest ← readAll reader d names
    .ok (metadata :: rest)

/-- The records that expire at the cutoff or before. A time without a zone does not compare with it. -/
def expiredBy (reader : Reader) (cutoff : Utc) :
    List ArtifactMetadata → Except Exc (List ArtifactMetadata)
  | [] => .ok []
  | item :: rest =>
    match Datetime.fromisoformat reader.iso item.expiresAt with
    | none => .error .value
    | some .naive => .error .type
    | some (.aware expires) => do
      let rest ← expiredBy reader cutoff rest
      if expires.instant ≤ cutoff.val then .ok (item :: rest) else .ok rest

/-- `expired` -/
def expired (reader : Reader) (now : Utc) (d : Directory) : Except Exc (List ArtifactMetadata) := do
  let metadata ← readAll reader d (metadataNames d)
  expiredBy reader now metadata

/-- What `prune_expired` does with one expired artifact. -/
def pruneItem (metadata : ArtifactMetadata) : Call (Traced Directory) Exc Unit := do
  Directory.stat fileErrors metadata.filename
  Directory.stat fileErrors (metadata.filename ++ metadataSuffix)
  Directory.unlink fileErrors metadata.filename
  Directory.unlink fileErrors (metadata.filename ++ metadataSuffix)

def pruneItems : List ArtifactMetadata → Call (Traced Directory) Exc Unit
  | [] => pure ()
  | metadata :: rest => do
    pruneItem metadata
    pruneItems rest

/-- `prune_expired` -/
def pruneExpired (reader : Reader) (now : Utc) (dryRun : Bool) :
    Call (Traced Directory) Exc (List ArtifactMetadata) := do
  let expired ← Directory.reads (expired reader now)
  if dryRun then pure expired
  else do
    pruneItems expired
    pure expired

end FieldDiscovery.Artifacts
