import FieldDiscovery.Lib.Except
import FieldDiscovery.Lib.Machine
import FieldDiscovery.Passive.Dedupe
import FieldDiscovery.Passive.Mdns

/-!
# The lifecycle of an mDNS record

The parser's cache, the duplicate suppression of the pipeline and the maintenance of the service as
one machine. Frames are parsed and their observations checked in any order, as workers do, and the
expiries that maintenance finds go to the sink without a check. In a run that is `Orderly` for a
record, the last observation of the record that the sink got has the action of its latest event
(`lifecycle_ends_right`).
-/

namespace FieldDiscovery.Passive.Mdns

open Py

/-! ## The machine -/

/-- The parser and the duplicate suppression. -/
structure Setup (T : Type) [LinearOrder T] where
  parser : Parser
  window : Option (T →o T)
  dedupeCapacity : Nat

/-- The parser, the observations on their way to the sink, and what the sink got. -/
structure Service (T : Type) where
  cache : Cache := []
  dedupe : DedupeTable T := []
  /-- What the parser returned and no worker has checked yet, with the time of its frame. -/
  pending : List (Observed × Utc) := []
  clock : T
  /-- Every announcement, goodbye and expiry so far. -/
  events : List Observed := []
  delivered : List PassiveObservation := []

/-- One step of a worker, of the maintenance or of the clock. -/
inductive Step (T : Type) where
  | tick (now : T)
  /-- A worker parses a frame. -/
  | frame (protocol : Str) (observedAt : Utc) (message : Except Exc (List Record))
  /-- A worker normalizes an observation and looks for a duplicate. -/
  | check (position : Nat)
  | maintenance (observedAt : Utc)

section

variable {T : Type} [LinearOrder T] (rt : Runtime) (cfg : Setup T)

namespace Service

variable (s : Service T)

/-- The sink gets the observation. -/
def deliver (o : PassiveObservation) : Service T := { s with delivered := s.delivered ++ [o] }

/-- `_normalize_observation`, `_is_duplicate` and the sink; whatever raises loses the observation. -/
def checkObservation (o : Observed) (frameTime : Utc) : Service T :=
  match normalizeObservation o.observation frameTime with
  | .error _ => s
  | .ok normalized =>
    match cfg.window with
    | none => s.deliver normalized
    | some window =>
      match fingerprint rt normalized with
      | .error _ => { s with dedupe := s.dedupe.purge s.clock }
      | .ok f =>
        let verdict := s.dedupe.check window cfg.dedupeCapacity s.clock f
        let s := { s with dedupe := verdict.table }
        if verdict.duplicate then s else s.deliver normalized

end Service

/-- One step, if it is enabled. -/
def serviceStep (s : Service T) : Step T → Option (Service T)
  | .tick now => if s.clock ≤ now then some { s with clock := now } else none
  | .frame protocol observedAt message =>
    let (cache, observed, error) := s.cache.call rt cfg.parser protocol observedAt message
    some { s with
      cache
      pending := s.pending ++ if error.isNone then observed.map fun o => (o, observedAt) else []
      events := s.events ++ observed }
  | .check k =>
    match s.pending[k]? with
    | none => none
    | some (o, frameTime) =>
      some ({ s with pending := s.pending.eraseIdx k }.checkObservation rt cfg o frameTime)
  | .maintenance observedAt =>
    let (cache, expired) := s.cache.expire observedAt
    some { s with
      cache
      events := s.events ++ expired
      delivered := s.delivered ++ expired.map Observed.observation }

/-! ## One record -/

/-- The actions of the observations of a record, in their order. -/
def actions {α : Type} (kind : α → Str) (fields : α → Fields) (id : Str × Str) (l : List α) :
    List (Option Str) :=
  (l.filter fun a => identity (kind a) (fields a) = id).map fun a => actionOf (fields a)

/-- The actions of the events of a record. -/
abbrev eventActions (id : Str × Str) (l : List Observed) : List (Option Str) :=
  actions Observed.kind Observed.fields id l

/-- The actions of a record that wait to be checked. -/
abbrev pendingActions (id : Str × Str) (l : List (Observed × Utc)) : List (Option Str) :=
  actions (fun p => p.1.kind) (fun p => p.1.fields) id l

/-- The actions of a record that the sink got. -/
abbrev deliveredActions (id : Str × Str) (l : List PassiveObservation) : List (Option Str) :=
  actions PassiveObservation.kind PassiveObservation.fields id l

/-- A step that neither loses an event of the record, nor lets one overtake another, nor drops a
change of its action as a duplicate. -/
def Orderly (id : Str × Str) (s : Service T) : Step T → Prop
  | .tick _ => True
  | .frame protocol observedAt message =>
    (s.cache.call rt cfg.parser protocol observedAt message).2.2.isSome = true →
      eventActions id (s.cache.call rt cfg.parser protocol observedAt message).2.1 = []
  | .check k => ∀ p ∈ s.pending[k]?, p.1.identity = id →
      pendingActions id (s.pending.take k) = [] ∧
        ∀ f ∈ (fingerprint rt p.1.observation).toOption,
          (s.dedupe.live s.clock f).isSome = true →
            (deliveredActions id s.delivered).getLast? = some (actionOf p.1.fields)
  | .maintenance observedAt =>
    eventActions id (s.cache.expire observedAt).2 ≠ [] → pendingActions id s.pending = []

/-! ## Observations that pass -/

/-- The observation is normalized as it is, and has a fingerprint. -/
structure Observed.Sound (o : Observed) : Prop where
  kind : o.kind ≠ [] ∧ Encodable o.kind
  finite : Json.fieldsFinite o.fields = true
  writable : Json.FieldsWritable o.fields

/-- What the parser holds and what waits to be checked passes. -/
structure Service.Sound (s : Service T) : Prop where
  cache : ∀ e ∈ s.cache, e.2.Sound
  pending : ∀ p ∈ s.pending, p.1.Sound

end

section

variable {rt : Runtime} {o : Observed}

theorem passive_utc_stamp (t : Utc) : utc t.stamp = .ok t := by
  unfold utc Utc.stamp
  simp only [Utc.astimezone]

theorem Observed.Sound.normalize (h : o.Sound) (frameTime : Utc) :
    normalizeObservation o.observation frameTime = .ok o.observation := by
  have hsource : o.observation.source ≠ [] := by
    show str "mdns" ≠ []
    decide
  unfold normalizeObservation
  rw [if_neg (by rintro (hk | hs); exacts [h.kind.1 hk, hsource hs])]
  have hfinite : Json.fieldsFinite o.observation.fields = true := h.finite
  rw [hfinite, if_neg (by decide)]
  have hobserved : utc (o.observation.observedAt.getD frameTime.stamp) = .ok o.observedAt :=
    passive_utc_stamp _
  have hexpires : o.observation.expiresAt.mapM utc = .ok (some o.expiresAt) := by
    show (utc o.expiresAt.stamp >>= fun t => pure (some t)) = _
    rw [passive_utc_stamp]
    rfl
  rw [hobserved, Except.ok_bind, hexpires]
  rfl

theorem Observed.Sound.fingerprint (h : o.Sound) : ∃ f, fingerprint rt o.observation = .ok f := by
  have hcanonical : Encodable (canonical o.observation) := by
    refine Json.encodable_dumps (by decide) (by decide) _ ?_
    unfold Json.Writable
    rw [Json.fieldsWritable_iff]
    intro p hp
    simp only [List.mem_cons, List.not_mem_nil, or_false] at hp
    rcases hp with rfl | rfl | rfl
    · show Encodable (str "fields") ∧ (Json.dict _).Writable
      refine ⟨by decide, ?_⟩
      unfold Json.Writable
      exact h.writable
    · show Encodable (str "kind") ∧ (Json.string _).Writable
      refine ⟨by decide, ?_⟩
      unfold Json.Writable
      exact h.kind.2
    · show Encodable (str "source") ∧ (Json.string (str "mdns")).Writable
      refine ⟨by decide, ?_⟩
      unfold Json.Writable
      decide
  unfold Passive.fingerprint
  cases hdata : encodeUtf8 (canonical o.observation) with
  | some data => exact ⟨_, rfl⟩
  | none => exact absurd hcanonical (encodeUtf8_eq_none.mp hdata)

/-! ## What the parser makes passes -/

theorem areSound_strings (values : List Text) :
    Json.areFinite (values.map fun v => Json.string v.val) = true ∧
      Json.AreWritable (values.map fun v => Json.string v.val) := by
  induction values with
  | nil => exact ⟨by simp [Json.areFinite], by simp [Json.AreWritable]⟩
  | cons v values ih =>
    rw [List.map_cons]
    constructor
    · unfold Json.areFinite Json.isFinite
      exact ih.1
    · unfold Json.AreWritable Json.Writable
      exact ⟨v.2, ih.2⟩

theorem txtValue_sound (v : Text ⊕ List Text) :
    (txtValue v).isFinite = true ∧ (txtValue v).Writable := by
  cases v with
  | inl value => exact ⟨by simp [txtValue, Json.isFinite], by simp [txtValue, Json.Writable, value.2]⟩
  | inr values =>
    obtain ⟨hfinite, hwritable⟩ := areSound_strings values
    exact ⟨by simpa [txtValue, Json.isFinite] using hfinite,
      by simpa [txtValue, Json.Writable] using hwritable⟩

/-- A field with a sound value under a key of the source. -/
def SoundField (p : Str × Json) : Prop := Encodable p.1 ∧ p.2.isFinite = true ∧ p.2.Writable

theorem soundField_string {key : Str} (hkey : Encodable key) {s : Str} (hs : Encodable s) :
    SoundField (key, .string s) :=
  ⟨hkey, by simp [Json.isFinite], by unfold Json.Writable; exact hs⟩

theorem soundField_int {key : Str} (hkey : Encodable key) (n : Int) : SoundField (key, .int n) :=
  ⟨hkey, by simp [Json.isFinite], by simp [Json.Writable]⟩

theorem sound_of_fields {kind : Str} {fields : Fields} {t u : Utc} (hkind : kind ≠ [])
    (hkind' : Encodable kind) (h : ∀ p ∈ fields, SoundField p) :
    Observed.Sound ⟨kind, fields, t, u⟩ :=
  ⟨⟨hkind, hkind'⟩, Json.fieldsFinite_iff.mpr fun p hp => (h p hp).2.1,
    Json.fieldsWritable_iff.mpr fun p hp => ⟨(h p hp).1, (h p hp).2.2⟩⟩

theorem Observed.Sound.field (h : o.Sound) : ∀ p ∈ o.fields, SoundField p := fun p hp =>
  ⟨(Json.fieldsWritable_iff.mp h.writable p hp).1, Json.fieldsFinite_iff.mp h.finite p hp,
    (Json.fieldsWritable_iff.mp h.writable p hp).2⟩

theorem Lifecycle.value_encodable (a : Lifecycle) : Encodable a.value := by
  cases a <;> decide

theorem Rdata.kind_sound (v : Rdata) : v.kind ≠ [] ∧ Encodable v.kind := by
  cases v with
  | address a => exact ⟨(by decide : str "mdns_address" ≠ []),
      (by decide : Encodable (str "mdns_address"))⟩
  | pointer n => exact ⟨(by decide : str "mdns_service" ≠ []),
      (by decide : Encodable (str "mdns_service"))⟩
  | service _ _ _ _ => exact ⟨(by decide : str "mdns_instance" ≠ []),
      (by decide : Encodable (str "mdns_instance"))⟩
  | text _ => exact ⟨(by decide : str "mdns_txt" ≠ []), (by decide : Encodable (str "mdns_txt"))⟩

theorem Record.fields_sound (r : Record) (a : Lifecycle) : ∀ p ∈ r.fields a, SoundField p := by
  have haction : SoundField (str "action", .string a.value) :=
    soundField_string (by decide) a.value_encodable
  have hname := r.name.2
  unfold Record.fields
  cases r.value with
  | pointer name =>
    simp only [List.forall_mem_cons]
    exact ⟨soundField_string (by decide) hname, soundField_string (by decide) name.2, haction,
      by simp⟩
  | service priority weight port target =>
    simp only [List.forall_mem_cons]
    exact ⟨soundField_string (by decide) hname, soundField_string (by decide) target.2,
      soundField_int (by decide) _, soundField_int (by decide) _, soundField_int (by decide) _,
      haction, by simp⟩
  | address address =>
    simp only [List.forall_mem_cons]
    exact ⟨soundField_string (by decide) hname, soundField_string (by decide) address.2, haction,
      by simp⟩
  | text values =>
    simp only [List.forall_mem_cons]
    have hkey : Encodable (str "txt") := by decide
    refine ⟨soundField_string (by decide) hname, ⟨hkey, ?_, ?_⟩, haction, by simp⟩
    · unfold Json.isFinite
      rw [Json.fieldsFinite_iff]
      intro p hp
      obtain ⟨q, -, rfl⟩ := List.mem_map.mp hp
      exact (txtValue_sound q.2).1
    · unfold Json.Writable
      rw [Json.fieldsWritable_iff]
      intro p hp
      obtain ⟨q, -, rfl⟩ := List.mem_map.mp hp
      exact ⟨q.1.2, (txtValue_sound q.2).2⟩

theorem observe_sound {p : Parser} {r : Record} {t : Utc} (h : observe p r t = .ok o) :
    o.Sound := by
  obtain ⟨hkind, hkind'⟩ := r.value.kind_sound
  unfold observe at h
  simp only at h
  split at h
  · cases h
    exact sound_of_fields hkind hkind' (r.fields_sound _)
  · split at h
    · cases h
    · cases h
      exact sound_of_fields hkind hkind' (r.fields_sound _)

theorem expiry_sound (h : o.Sound) (now : Utc) : (Cache.expiry now o).Sound := by
  refine sound_of_fields h.kind.1 h.kind.2 ?_
  intro p hp
  rcases Dict.mem_set hp with hp | rfl
  · exact h.field p hp
  · exact soundField_string (by decide) (Lifecycle.value_encodable _)

theorem expire_sound {cache : Cache} (h : ∀ e ∈ cache, e.2.Sound) (now : Utc) :
    (∀ e ∈ (cache.expire now).1, e.2.Sound) ∧ ∀ o ∈ (cache.expire now).2, o.Sound := by
  constructor
  · exact fun e he => h e (List.mem_of_mem_filter he)
  · intro o ho
    obtain ⟨e, he, rfl⟩ := List.mem_map.mp ho
    exact expiry_sound (h e (List.mem_of_mem_filter he)) now

theorem announce_sound {cache : Cache} (h : ∀ e ∈ cache, e.2.Sound) (p : Parser) (ho : o.Sound) :
    ∀ e ∈ cache.announce p o, e.2.Sound := by
  intro e he
  rcases List.mem_append.mp (List.mem_of_mem_drop he) with he | he
  · exact h e (List.mem_of_mem_filter he)
  · rw [List.mem_singleton.mp he]
    exact ho

theorem observeAll_sound {p : Parser} {t : Utc} {records : List Record} {cache : Cache}
    (h : ∀ e ∈ cache, e.2.Sound) : (∀ e ∈ (Cache.observeAll p t cache records).1, e.2.Sound) ∧
      ∀ o ∈ (Cache.observeAll p t cache records).2.1, o.Sound := by
  induction records generalizing cache with
  | nil => exact ⟨h, fun o ho => absurd ho List.not_mem_nil⟩
  | cons r records ih =>
    unfold Cache.observeAll
    cases hobserve : observe p r t with
    | error e => exact ⟨h, fun o ho => absurd ho List.not_mem_nil⟩
    | ok o =>
      have ho := observe_sound hobserve
      have hcache : ∀ e ∈ (if r.ttl = 0 then cache.pop o.identity else cache.announce p o),
          e.2.Sound := by
        split
        · exact fun e he => h e (List.mem_of_mem_filter he)
        · exact announce_sound h p ho
      obtain ⟨hcache', hobserved⟩ := ih hcache
      refine ⟨hcache', ?_⟩
      intro o' ho'
      rcases List.mem_cons.mp ho' with rfl | ho'
      · exact ho
      · exact hobserved o' ho'

theorem call_sound {p : Parser} {cache : Cache} (h : ∀ e ∈ cache, e.2.Sound) (protocol : Str)
    (t : Utc) (message : Except Exc (List Record)) :
    (∀ e ∈ (cache.call rt p protocol t message).1, e.2.Sound) ∧
      ∀ o ∈ (cache.call rt p protocol t message).2.1, o.Sound := by
  unfold Cache.call
  split
  · exact ⟨h, fun o ho => absurd ho List.not_mem_nil⟩
  · obtain ⟨hcache, hexpired⟩ := expire_sound h t
    cases message with
    | error e => exact ⟨hcache, hexpired⟩
    | ok records =>
      obtain ⟨hcache', hobserved⟩ := @observeAll_sound p t records _ hcache
      refine ⟨hcache', ?_⟩
      intro o ho
      rcases List.mem_append.mp ho with ho | ho
      · exact hexpired o ho
      · exact hobserved o ho

end

/-! ## Runs -/

section

variable {T : Type} [LinearOrder T] {rt : Runtime} {cfg : Setup T} {id : Str × Str}

theorem actions_append {α : Type} {kind : α → Str} {fields : α → Fields} (l l' : List α) :
    actions kind fields id (l ++ l') = actions kind fields id l ++ actions kind fields id l' := by
  unfold actions
  rw [List.filter_append, List.map_append]

theorem eventActions_append (l l' : List Observed) :
    eventActions id (l ++ l') = eventActions id l ++ eventActions id l' := actions_append l l'

theorem pendingActions_append (l l' : List (Observed × Utc)) :
    pendingActions id (l ++ l') = pendingActions id l ++ pendingActions id l' := actions_append l l'

theorem deliveredActions_append (l l' : List PassiveObservation) :
    deliveredActions id (l ++ l') = deliveredActions id l ++ deliveredActions id l' :=
  actions_append l l'

theorem actions_map {α β : Type} {kind : α → Str} {fields : α → Fields} {kind' : β → Str}
    {fields' : β → Fields} (f : β → α) (hkind : ∀ b, kind (f b) = kind' b)
    (hfields : ∀ b, fields (f b) = fields' b) (l : List β) :
    actions kind fields id (l.map f) = actions kind' fields' id l := by
  unfold actions
  rw [List.filter_map, List.map_map]
  simp only [Function.comp_def, hkind, hfields]

/-- What the sink got of the record, followed by what waits, ends like its events. -/
structure Faithful (id : Str × Str) (s : Service T) : Prop where
  sound : s.Sound
  last : (deliveredActions id s.delivered ++ pendingActions id s.pending).getLast? =
    (eventActions id s.events).getLast?

variable {s s' : Service T}

theorem pendingActions_observed (l : List Observed) (t : Utc) :
    pendingActions id (l.map fun o => (o, t)) = eventActions id l :=
  actions_map (fun o => (o, t)) (fun _ => rfl) (fun _ => rfl) l

theorem deliveredActions_observed (l : List Observed) :
    deliveredActions id (l.map Observed.observation) = eventActions id l :=
  actions_map Observed.observation (fun _ => rfl) (fun _ => rfl) l

theorem Faithful.frame (h : Faithful id s) {protocol : Str} {observedAt : Utc}
    {message : Except Exc (List Record)}
    (horderly : Orderly rt cfg id s (.frame protocol observedAt message))
    (hstep : serviceStep rt cfg s (.frame protocol observedAt message) = some s') :
    Faithful id s' := by
  obtain ⟨hcache, hobserved⟩ :=
    @call_sound rt cfg.parser s.cache h.sound.cache protocol observedAt message
  have hlast := h.last
  simp only [serviceStep, Option.some.injEq] at hstep
  simp only [Orderly] at horderly
  generalize s.cache.call rt cfg.parser protocol observedAt message = result at *
  obtain ⟨cache, observed, error⟩ := result
  subst hstep
  cases error with
  | some e =>
    have hnone : eventActions id observed = [] := horderly rfl
    refine ⟨⟨hcache, ?_⟩, ?_⟩
    · intro p hp
      exact h.sound.pending p (by simpa using hp)
    · show (deliveredActions id s.delivered ++ pendingActions id (s.pending ++ [])).getLast? =
        (eventActions id (s.events ++ observed)).getLast?
      rw [List.append_nil, eventActions_append, hnone, List.append_nil]
      exact hlast
  | none =>
    refine ⟨⟨hcache, ?_⟩, ?_⟩
    · intro p hp
      rcases List.mem_append.mp hp with hp | hp
      · exact h.sound.pending p hp
      · obtain ⟨o, ho, rfl⟩ := List.mem_map.mp hp
        exact hobserved o ho
    · show (deliveredActions id s.delivered ++
        pendingActions id (s.pending ++ observed.map fun o => (o, observedAt))).getLast? =
          (eventActions id (s.events ++ observed)).getLast?
      rw [pendingActions_append, pendingActions_observed, eventActions_append, ← List.append_assoc,
        List.getLast?_append, hlast, List.getLast?_append]

theorem Faithful.maintenance (h : Faithful id s) {observedAt : Utc}
    (horderly : Orderly rt cfg id s (.maintenance observedAt))
    (hstep : serviceStep rt cfg s (.maintenance observedAt) = some s') : Faithful id s' := by
  cases hstep
  obtain ⟨hcache, -⟩ := expire_sound h.sound.cache observedAt
  refine ⟨⟨hcache, h.sound.pending⟩, ?_⟩
  show (deliveredActions id (s.delivered ++ (s.cache.expire observedAt).2.map
      Observed.observation) ++ pendingActions id s.pending).getLast? =
    (eventActions id (s.events ++ (s.cache.expire observedAt).2)).getLast?
  rw [deliveredActions_append, deliveredActions_observed, eventActions_append]
  by_cases hnone : eventActions id (s.cache.expire observedAt).2 = []
  · rw [hnone, List.append_nil, List.append_nil]
    exact h.last
  · have hpending : pendingActions id s.pending = [] := horderly hnone
    have hlast := h.last
    rw [hpending, List.append_nil] at hlast
    rw [hpending, List.append_nil, List.getLast?_append, List.getLast?_append, hlast]

/-- What the check of an observation does: the sink gets it, or it is a live duplicate. -/
theorem checkObservation_spec {o : Observed} (ho : o.Sound) (s : Service T) (frameTime : Utc) :
    (s.checkObservation rt cfg o frameTime).cache = s.cache ∧
      (s.checkObservation rt cfg o frameTime).pending = s.pending ∧
      (s.checkObservation rt cfg o frameTime).events = s.events ∧
      ((s.checkObservation rt cfg o frameTime).delivered = s.delivered ++ [o.observation] ∨
        (s.checkObservation rt cfg o frameTime).delivered = s.delivered ∧
          ∃ f, fingerprint rt o.observation = .ok f ∧ (s.dedupe.live s.clock f).isSome = true) := by
  obtain ⟨f, hf⟩ := @Observed.Sound.fingerprint rt o ho
  unfold Service.checkObservation
  rw [ho.normalize]
  simp only
  cases cfg.window with
  | none => exact ⟨rfl, rfl, rfl, Or.inl rfl⟩
  | some window =>
    simp only [hf]
    split
    · next hdup =>
      obtain ⟨expiry, hlive⟩ := DedupeTable.duplicate_iff.mp hdup
      exact ⟨rfl, rfl, rfl, Or.inr ⟨rfl, f, rfl, by rw [hlive]; rfl⟩⟩
    · exact ⟨rfl, rfl, rfl, Or.inl rfl⟩

theorem actions_single {α : Type} {kind : α → Str} {fields : α → Fields} (a : α) (b : Str × Str)
    (h : identity (kind a) (fields a) = b) : actions kind fields b [a] = [actionOf (fields a)] := by
  simp [actions, h]

theorem actions_other {α : Type} {kind : α → Str} {fields : α → Fields} (a : α) (b : Str × Str)
    (h : identity (kind a) (fields a) ≠ b) : actions kind fields b [a] = [] := by
  simp [actions, h]

/-- The actions that wait, split at one observation. -/
theorem pendingActions_split {pending : List (Observed × Utc)} {k : Nat} {o : Observed}
    {frameTime : Utc} (hk : pending[k]? = some (o, frameTime)) : pendingActions id pending =
      pendingActions id (pending.take k) ++ ((if o.identity = id then [actionOf o.fields] else []) ++
        pendingActions id (pending.drop (k + 1))) := by
  have hsplit : pending = pending.take k ++ ([(o, frameTime)] ++ pending.drop (k + 1)) := by
    obtain ⟨hlt, hget⟩ := List.getElem?_eq_some_iff.mp hk
    rw [← hget, List.singleton_append, List.getElem_cons_drop, List.take_append_drop]
  have hone : pendingActions id [(o, frameTime)] =
      if o.identity = id then [actionOf o.fields] else [] := by
    split
    · next hid => exact actions_single _ _ hid
    · next hid => exact actions_other _ _ hid
  conv_lhs => rw [hsplit]
  rw [pendingActions_append, pendingActions_append, hone]

theorem Faithful.check (h : Faithful id s) {k : Nat} (horderly : Orderly rt cfg id s (.check k))
    (hstep : serviceStep rt cfg s (.check k) = some s') : Faithful id s' := by
  simp only [serviceStep] at hstep
  cases hk : s.pending[k]? with
  | none =>
    rw [hk] at hstep
    cases hstep
  | some p =>
    obtain ⟨o, frameTime⟩ := p
    rw [hk] at hstep
    cases hstep
    have ho := h.sound.pending _ (List.mem_of_getElem? hk)
    obtain ⟨hcache, hpending, hevents, hdelivered⟩ :=
      @checkObservation_spec T _ rt cfg o ho { s with pending := s.pending.eraseIdx k } frameTime
    refine ⟨⟨?_, ?_⟩, ?_⟩
    · rw [hcache]
      exact h.sound.cache
    · rw [hpending]
      exact fun q hq => h.sound.pending q (List.mem_of_mem_eraseIdx hq)
    · have hlast := h.last
      rw [pendingActions_split hk] at hlast
      have hrest : pendingActions id (s.pending.eraseIdx k) =
          pendingActions id (s.pending.take k) ++ pendingActions id (s.pending.drop (k + 1)) := by
        rw [List.eraseIdx_eq_take_drop_succ, pendingActions_append]
      rw [hpending, hevents, ← hlast]
      show (_ ++ pendingActions id (s.pending.eraseIdx k)).getLast? = _
      rw [hrest]
      by_cases hid : o.identity = id
      · obtain ⟨hfirst, hduplicate⟩ := horderly (o, frameTime) hk hid
        have hone : deliveredActions id [o.observation] = [actionOf o.fields] :=
          actions_single _ _ hid
        rw [hfirst, List.nil_append, List.nil_append, if_pos hid]
        rcases hdelivered with hd | ⟨hd, f, hf, hlive⟩
        · rw [hd, deliveredActions_append, hone, List.append_assoc]
        · have hlastDelivered := hduplicate f (by rw [hf]; rfl) hlive
          rw [hd, List.getLast?_append, List.getLast?_append, List.getLast?_append,
            hlastDelivered]
          cases (pendingActions id (s.pending.drop (k + 1))).getLast? <;> rfl
      · have hnone : deliveredActions id [o.observation] = [] := actions_other _ _ hid
        rw [if_neg hid, List.nil_append]
        rcases hdelivered with hd | ⟨hd, -⟩
        · rw [hd, deliveredActions_append, hnone, List.append_nil]
        · rw [hd]

theorem faithful_step (h : Faithful id s) {a : Step T} (horderly : Orderly rt cfg id s a)
    (hstep : serviceStep rt cfg s a = some s') : Faithful id s' := by
  cases a with
  | tick now =>
    obtain ⟨-, hstep⟩ := Option.ite_none_right_eq_some.mp hstep
    cases hstep
    exact ⟨⟨h.sound.cache, h.sound.pending⟩, h.last⟩
  | frame protocol observedAt message => exact h.frame horderly hstep
  | check k => exact h.check horderly hstep
  | maintenance observedAt => exact h.maintenance horderly hstep

/-- In a run that is orderly for a record, as soon as none of its observations waits the last that
the sink got has the action of the latest event. -/
theorem lifecycle_ends_right (rt : Runtime) (cfg : Setup T) (id : Str × Str) (clock : T)
    {steps : List (Step T)}
    (horderly : Machine.Along (serviceStep rt cfg) (Orderly rt cfg id) { clock := clock } steps)
    {s : Service T} (hrun : Machine.run (serviceStep rt cfg) { clock := clock } steps = some s)
    (hidle : pendingActions id s.pending = []) :
    (deliveredActions id s.delivered).getLast? = (eventActions id s.events).getLast? := by
  have h : Faithful id s := by
    refine Machine.run_invariant (fun _ _ _ h ha hstep => faithful_step h ha hstep) ?_ horderly hrun
    exact ⟨⟨fun e he => absurd he List.not_mem_nil, fun p hp => absurd hp List.not_mem_nil⟩, rfl⟩
  have hlast := h.last
  rw [hidle, List.append_nil] at hlast
  exact hlast

end

/-! ## A record that comes back -/

/-- Suppression for thirty seconds, as `sampleConfig` of the pipeline has it. -/
def sampleSetup : Setup ℕ where
  parser := ⟨4096, 604800, defaultCache_bounds⟩
  window := some ⟨fun t => t + 30, DedupeTable.halfMinute_mono⟩
  dedupeCapacity := 4096

/-- A text of the sample. -/
def ascii (s : String) (h : Encodable (str s) := by decide) : Text := ⟨str s, h⟩

/-- The address record of a printer. -/
def printerAddress (ttl : Nat) : Record where
  name := ascii "printer.local"
  ttl := ttl
  value := .address (ascii "10.0.0.9")

/-- `seconds` after `1970-01-01T00:00:00+00:00`. -/
def secondsLater (seconds : Nat) (h : seconds ≤ 3600) : Utc :=
  ⟨epochDay * microsPerDay + seconds * 1000000,
    later_inCalendar h⟩

/-- The record comes in, at the same reading of both clocks. -/
def announcedAt (seconds : Nat) (h : seconds ≤ 3600) (ttl : Nat) : List (Step ℕ) :=
  [.tick seconds, .frame (str "mdns") (secondsLater seconds h) (.ok [printerAddress ttl]), .check 0]

/-- The identity of the record. -/
def printerIdentity : Str × Str :=
  identity (str "mdns_address") ((printerAddress 0).fields .announce)

/-- The record is announced, withdrawn after ten seconds, and announced again. -/
def returning (seconds : Nat) (h : seconds ≤ 3600) : List (Step ℕ) :=
  announcedAt 0 zero_le_hour 120 ++ announcedAt 10 ten_le_hour 0 ++ announcedAt seconds h 120

/-- The text that the fingerprint of the record digests. -/
def printerText (action : String) : Str :=
  str "\x7b\"fields\":\x7b\"action\":\"" ++ str action ++
    str "\",\"address\":\"10.0.0.9\",\"hostname\":\"printer.local\"\x7d," ++
    str "\"kind\":\"mdns_address\",\"source\":\"mdns\"\x7d"

/-- The digests of these texts. -/
def mdnsRuntime : Runtime := .ofDigests [
  (printerText "announce", str "bfecd80c5ae65785162ec265b34eda49918ee6db64a5da97228a9aa65b33d1a7"),
  (printerText "goodbye", str "c25b71a2ab35ccdcfebf90b2cd20aa2254e181ef78455544cafe43c2570be5a6")]

/-- The service after these steps. -/
def afterReturn (seconds : Nat) (h : seconds ≤ 3600) : Option (Service ℕ) :=
  Machine.run (serviceStep mdnsRuntime sampleSetup) { clock := 0 } (returning seconds h)

instance (s : Service ℕ) (a : Step ℕ) :
    Decidable (Orderly mdnsRuntime sampleSetup printerIdentity s a) := by
  cases a <;> unfold Orderly <;> infer_instance

/-- Within the window the second announcement is dropped, and the record stays withdrawn. -/
theorem returning_record_stays_gone : ∃ s, afterReturn 20 (by decide) = some s ∧
    pendingActions printerIdentity s.pending = [] ∧
      (deliveredActions printerIdentity s.delivered).getLast? = some (some (str "goodbye")) ∧
        (eventActions printerIdentity s.events).getLast? = some (some (str "announce")) := by
  have hsummary : (afterReturn 20 (by decide)).map (fun s =>
      (pendingActions printerIdentity s.pending,
        (deliveredActions printerIdentity s.delivered).getLast?,
        (eventActions printerIdentity s.events).getLast?)) =
      some ([], some (some (str "goodbye")), some (some (str "announce"))) := by
    decide +kernel
  obtain ⟨s, hrun, hs⟩ := Option.map_eq_some_iff.mp hsummary
  simp only [Prod.mk.injEq] at hs
  exact ⟨s, hrun, hs⟩

theorem lifecycle_ends_right_sample : ∃ s, afterReturn 40 (by decide) = some s ∧
    (deliveredActions printerIdentity s.delivered).length = 3 ∧
      (deliveredActions printerIdentity s.delivered).getLast? =
        (eventActions printerIdentity s.events).getLast? := by
  have hsummary : (afterReturn 40 (by decide)).map (fun s =>
      (pendingActions printerIdentity s.pending,
        (deliveredActions printerIdentity s.delivered).length)) = some ([], 3) := by
    decide +kernel
  obtain ⟨s, hrun, hs⟩ := Option.map_eq_some_iff.mp hsummary
  simp only [Prod.mk.injEq] at hs
  refine ⟨s, hrun, hs.2, ?_⟩
  exact lifecycle_ends_right mdnsRuntime sampleSetup printerIdentity 0 (by decide +kernel) hrun hs.1

end FieldDiscovery.Passive.Mdns
