import FieldDiscovery.Lib.JsonText
import FieldDiscovery.Passive.Observation

/-!
# The mDNS parser

`MDNSParser` from the records of a message on: their observations, and the cache that turns expired
records into observations of their own. The records themselves are what `_parse_message` decodes.
-/

namespace FieldDiscovery.Passive.Mdns

open Py

/-! ## Records -/

/-- A text decoded from UTF-8. -/
abbrev Text := {s : Str // Encodable s}

/-- The values that `_parse_rdata` returns, one for each record type. -/
inductive Rdata where
  /-- A -/
  | address (address : Text)
  /-- PTR -/
  | pointer (name : Text)
  /-- SRV -/
  | service (priority weight port : Nat) (target : Text)
  /-- TXT: each key with its value, or its values in order. -/
  | text (values : List (Text × (Text ⊕ List Text)))

/-- `_Record` -/
structure Record where
  name : Text
  ttl : Nat
  value : Rdata

/-- `MDNSParser(...)`; the other bounds limit the decoding of messages. -/
structure Parser where
  maxCacheEntries : Nat
  maxTtlSeconds : Nat
  bounds : 1 ≤ maxCacheEntries ∧ 1 ≤ maxTtlSeconds

theorem defaultCache_bounds : 1 ≤ 4096 ∧ 1 ≤ 604800 := by decide

/-- What became of a record. -/
inductive Lifecycle where
  | announce
  | goodbye
  | expired
  deriving DecidableEq

def Lifecycle.value : Lifecycle → Str
  | announce => str "announce"
  | goodbye => str "goodbye"
  | expired => str "expired"

/-- A value of a TXT record. -/
def txtValue : Text ⊕ List Text → Json
  | .inl value => .string value.val
  | .inr values => .list (values.map fun value => .string value.val)

/-- The kind of the observation of a record. -/
def Rdata.kind : Rdata → Str
  | address _ => str "mdns_address"
  | pointer _ => str "mdns_service"
  | service .. => str "mdns_instance"
  | text _ => str "mdns_txt"

/-- The fields of the observation of a record. -/
def Record.fields (r : Record) (action : Lifecycle) : Fields :=
  let action := (str "action", Json.string action.value)
  match r.value with
  | .pointer name =>
    [(str "service_type", .string r.name.val), (str "instance", .string name.val), action]
  | .service priority weight port target =>
    [(str "instance", .string r.name.val), (str "hostname", .string target.val),
      (str "port", .int port), (str "priority", .int priority), (str "weight", .int weight), action]
  | .address address =>
    [(str "hostname", .string r.name.val), (str "address", .string address.val), action]
  | .text values =>
    [(str "instance", .string r.name.val),
      (str "txt", .dict (values.map fun p => (p.1.val, txtValue p.2))), action]

/-- An observation that the parser makes, with both times in UTC. -/
structure Observed where
  kind : Str
  fields : Fields
  observedAt : Utc
  expiresAt : Utc

/-- The `PassiveObservation`. -/
def Observed.observation (o : Observed) : PassiveObservation where
  kind := o.kind
  fields := o.fields
  source := str "mdns"
  observedAt := some o.observedAt.stamp
  expiresAt := some o.expiresAt.stamp

/-- `_observation` -/
def observe (p : Parser) (r : Record) (observedAt : Utc) : Except Exc Observed :=
  let ttl := min r.ttl p.maxTtlSeconds
  if r.ttl = 0 then .ok ⟨r.value.kind, r.fields .goodbye, observedAt, observedAt⟩
  else
    match observedAt.add (ttl * 1000000) with
    | none => .error .overflow
    | some expiresAt => .ok ⟨r.value.kind, r.fields .announce, observedAt, expiresAt⟩

/-- A `dict` inside a value keeps its order under `repr`. -/
def ordered : Json → Json
  | .dict items => .list (items.map fun p => .list [.string p.1, p.2])
  | v => v

/-- `_identity`: the kind, and a text that tells the other fields apart, sorted by their keys. -/
def identity (kind : Str) (fields : Fields) : Str × Str :=
  (kind, (Json.dict ((fields.filter fun p => p.1 ≠ str "action").map fun p =>
    (p.1, ordered p.2))).dumps {})

/-- The identity of the record that an observation is about. -/
abbrev Observed.identity (o : Observed) : Str × Str := Mdns.identity o.kind o.fields

/-- The action of an observation. -/
def actionOf (fields : Fields) : Option Str :=
  match fields.get (str "action") with
  | some (.string action) => some action
  | _ => none

/-! ## The cache -/

/-- The records that are announced, oldest first; each expires when its observation does. -/
abbrev Cache := Dict (Str × Str) Observed

namespace Cache

/-- `self._cache.pop(identity, None)` -/
def pop (cache : Cache) (identity : Str × Str) : Cache := cache.filter fun e => e.1 ≠ identity

/-- An announcement enters the cache as the newest entry. -/
def announce (p : Parser) (cache : Cache) (o : Observed) : Cache :=
  let cache := cache.pop o.identity ++ [(o.identity, o)]
  cache.drop (cache.length - p.maxCacheEntries)

/-- The observation of an expiry. -/
def expiry (now : Utc) (o : Observed) : Observed :=
  { o with
    fields := o.fields.set (str "action") (.string Lifecycle.expired.value)
    observedAt := now
    expiresAt := now }

/-- `expire`: the entries that stay, and the observations of the others. -/
def expire (cache : Cache) (now : Utc) : Cache × List Observed :=
  (cache.filter fun e => now < e.2.expiresAt,
    (cache.filter fun e => e.2.expiresAt ≤ now).map fun e => expiry now e.2)

/-- The loop of `__call__`: the cache and the observations up to the first that raises. -/
def observeAll (p : Parser) (observedAt : Utc) : Cache → List Record →
    Cache × List Observed × Option Exc
  | cache, [] => (cache, [], none)
  | cache, r :: records =>
    match observe p r observedAt with
    | .error e => (cache, [], some e)
    | .ok o =>
      let cache := if r.ttl = 0 then cache.pop o.identity else cache.announce p o
      let (cache, observed, error) := observeAll p observedAt cache records
      (cache, o :: observed, error)

/-- `__call__`, on a message as `_parse_message` decodes it. What was observed is lost when it
raises. -/
def call (rt : Runtime) (p : Parser) (cache : Cache) (protocol : Str) (observedAt : Utc)
    (message : Except Exc (List Record)) : Cache × List Observed × Option Exc :=
  if rt.casefold protocol ≠ str "mdns" ∧ rt.casefold protocol ≠ str "dns-sd" then
    (cache, [], some (.passiveParse (str "mDNS parser received an unexpected protocol")))
  else
    let (cache, expired) := cache.expire observedAt
    match message with
    | .error e => (cache, expired, some e)
    | .ok records =>
      let (cache, observed, error) := observeAll p observedAt cache records
      (cache, expired ++ observed, error)

end Cache

end FieldDiscovery.Passive.Mdns
