import FieldDiscovery.Lib.Clock
import FieldDiscovery.Lib.Dict
import FieldDiscovery.Lib.Json
import FieldDiscovery.Lib.Runtime
import FieldDiscovery.Errors

/-!
# Passive observations

The frames and observations of `passive.py`, and what the pipeline does with an observation before
it reaches the sink.
-/

namespace FieldDiscovery.Passive

open Py

/-- The fields of an observation. -/
abbrev Fields := Dict Str Json

/-- `PassiveFrame` -/
structure PassiveFrame where
  protocol : Str
  payload : List Byte
  observedAt : Utc
  interface : Option Str

/-- `PassiveObservation` -/
structure PassiveObservation where
  kind : Str
  fields : Fields
  source : Str
  observedAt : Option Stamp := none
  expiresAt : Option Stamp := none

/-- `_utc` -/
def utc : Stamp → Except Exc Utc
  | .naive => .error .value
  | .aware d =>
    match d.astimezone with
    | some t => .ok t
    | none => .error .overflow

/-- `_normalize_observation` -/
def normalizeObservation (observation : PassiveObservation) (frameTime : Utc) :
    Except Exc PassiveObservation :=
  if observation.kind = [] ∨ observation.source = [] then .error .value
  else if Json.fieldsFinite observation.fields = false then .error .value
  else do
    let observedAt ← utc (observation.observedAt.getD frameTime.stamp)
    let expiresAt ← observation.expiresAt.mapM utc
    .ok { observation with
      observedAt := some observedAt.stamp, expiresAt := expiresAt.map Utc.stamp }

/-- The text that `_fingerprint` digests. -/
def canonical (observation : PassiveObservation) : Str :=
  (Json.dict [(str "fields", .dict observation.fields), (str "kind", .string observation.kind),
    (str "source", .string observation.source)]).dumps (.compact false)

/-- `_fingerprint` -/
def fingerprint (rt : Runtime) (observation : PassiveObservation) : Except Exc Str :=
  match encodeUtf8 (canonical observation) with
  | some data => .ok (rt.sha256 data)
  | none => .error .unicodeEncode

end FieldDiscovery.Passive
