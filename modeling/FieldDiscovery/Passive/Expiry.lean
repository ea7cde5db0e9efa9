import FieldDiscovery.Passive.Lifecycle

/-!
# Expiries that reach a caller

Runs of one `MDNSParser`, with a log of what became of its cache entries. A frame expires the due
entries before its message is parsed, and when the message is refused the observations of these
expiries are lost. So every expiry reaches a caller exactly when no message is refused while an entry
is due (`expiries_reported_iff`).
-/

namespace FieldDiscovery.Passive.Mdns

open Py

/-! ## The log of the cache -/

/-- What became of a cache entry. -/
inductive CacheEvent where
  /-- An announcement entered the cache; it refreshes an entry of the same record. -/
  | announced (o : Observed)
  | withdrawn (o : Observed)
  /-- The oldest entry made room. -/
  | evicted (o : Observed)
  /-- Its time was over when the cache was expired. -/
  | elapsed (o : Observed) (now : Utc)

namespace CacheEvent

def observed : CacheEvent → Observed
  | announced o | withdrawn o | evicted o | elapsed o _ => o

/-- The record that the event is about. -/
def identity (e : CacheEvent) : Str × Str := e.observed.identity

/-- The observation that reports an expiry. -/
def report : CacheEvent → Option PassiveObservation
  | elapsed o now => some (Cache.expiry now o).observation
  | _ => none

end CacheEvent

/-- The last event of a record. -/
def lastEvent (log : List CacheEvent) (id : Str × Str) : Option CacheEvent :=
  (log.filter fun e => e.identity = id).getLast?

/-- Every entry that elapsed was due, and nothing had happened to it since its announcement. -/
def OnlyUntouched (log : List CacheEvent) : Prop :=
  ∀ pre o now post, log = pre ++ .elapsed o now :: post →
    lastEvent pre o.identity = some (.announced o) ∧ o.expiresAt ≤ now

/-- The events of `expire`. -/
def elapsedEvents (cache : Cache) (now : Utc) : List CacheEvent :=
  (cache.filter fun e => e.2.expiresAt ≤ now).map fun e => .elapsed e.2 now

section

variable (rt : Runtime) (p : Parser)

/-- The events of an announcement. -/
def announceEvents (cache : Cache) (o : Observed) : List CacheEvent :=
  let cache := cache.pop o.identity ++ [(o.identity, o)]
  .announced o :: (cache.take (cache.length - p.maxCacheEntries)).map fun e => .evicted e.2

/-- The events of the records of a message. -/
def recordEvents (observedAt : Utc) : Cache → List Record → List CacheEvent
  | _, [] => []
  | cache, r :: records =>
    match observe p r observedAt with
    | .error _ => []
    | .ok o =>
      if r.ttl = 0 then .withdrawn o :: recordEvents observedAt (cache.pop o.identity) records
      else announceEvents p cache o ++ recordEvents observedAt (cache.announce p o) records

/-- The protocol is one of the parser's. -/
def isMdns (protocol : Str) : Bool :=
  rt.casefold protocol = str "mdns" || rt.casefold protocol = str "dns-sd"

/-- The events of a frame. -/
def callEvents (cache : Cache) (protocol : Str) (observedAt : Utc)
    (message : Except Exc (List Record)) : List CacheEvent :=
  if isMdns rt protocol then
    elapsedEvents cache observedAt ++
      match message with
      | .error _ => []
      | .ok records => recordEvents p observedAt (cache.expire observedAt).1 records
  else []

/-- The message is malformed, or one of its records would expire past the last representable time. -/
def refuses (observedAt : Utc) : Except Exc (List Record) → Bool
  | .error _ => true
  | .ok records => records.any fun r =>
    r.ttl ≠ 0 && (observedAt.add (min r.ttl p.maxTtlSeconds * 1000000)).isNone

/-! ## Runs -/

/-- The parser, the log of its cache, and what its callers got. -/
structure Tracker where
  cache : Cache := []
  log : List CacheEvent := []
  returned : List PassiveObservation := []
  clock : Utc

/-- A call of the parser. -/
inductive ParserCall where
  | frame (protocol : Str) (observedAt : Utc) (message : Except Exc (List Record))
  | expire (now : Utc)

def ParserCall.time : ParserCall → Utc
  | frame _ observedAt _ => observedAt
  | expire now => now

/-- One call; times do not go back. -/
def trackerStep (s : Tracker) (call : ParserCall) : Option Tracker :=
  if s.clock ≤ call.time then
    match call with
    | .frame protocol observedAt message =>
      let (cache, observed, error) := s.cache.call rt p protocol observedAt message
      some
        { cache
          log := s.log ++ callEvents rt p s.cache protocol observedAt message
          returned := s.returned ++ if error.isNone then observed.map Observed.observation else []
          clock := observedAt }
    | .expire now =>
      let (cache, expired) := s.cache.expire now
      some
        { cache
          log := s.log ++ elapsedEvents s.cache now
          returned := s.returned ++ expired.map Observed.observation
          clock := now }
  else none

/-- The expiries among observations. -/
def expiries (l : List PassiveObservation) : List PassiveObservation :=
  l.filter fun o => actionOf o.fields = some Lifecycle.expired.value

/-- The callers got one expiry for each entry that elapsed, and nothing had happened to it. -/
structure Tracker.Reported (s : Tracker) : Prop where
  expiries : expiries s.returned = s.log.filterMap CacheEvent.report
  untouched : OnlyUntouched s.log

/-- A message that is refused finds no entry due. -/
def Heeded (s : Tracker) : ParserCall → Prop
  | .frame protocol observedAt message => isMdns rt protocol = true →
      refuses p observedAt message = true → ∀ e ∈ s.cache, observedAt < e.2.expiresAt
  | .expire _ => True

instance (s : Tracker) (call : ParserCall) : Decidable (Heeded rt p s call) := by
  unfold Heeded
  split <;> infer_instance

end

/-! ## What the log says about the cache -/

section

variable {log : List CacheEvent} {cache : Cache} {id : Str × Str}

theorem lastEvent_append {events : List CacheEvent} (h : ∀ e ∈ events, e.identity ≠ id) :
    lastEvent (log ++ events) id = lastEvent log id := by
  have hnone : events.filter (fun e => e.identity = id) = [] :=
    List.filter_eq_nil_iff.mpr fun e he => by simp [h e he]
  unfold lastEvent
  rw [List.filter_append, hnone, List.append_nil]

theorem lastEvent_concat {e : CacheEvent} (h : e.identity = id) :
    lastEvent (log ++ [e]) id = some e := by
  unfold lastEvent
  rw [List.filter_append, List.filter_cons, if_pos (decide_eq_true h), List.filter_nil,
    List.getLast?_concat]

theorem OnlyUntouched.concat (h : OnlyUntouched log) {e : CacheEvent}
    (he : ∀ o now, e = .elapsed o now →
      lastEvent log o.identity = some (.announced o) ∧ o.expiresAt ≤ now) :
    OnlyUntouched (log ++ [e]) := by
  intro pre o now post heq
  rcases List.eq_nil_or_concat post with rfl | ⟨post', e', rfl⟩
  · obtain ⟨rfl, hlast⟩ := List.append_inj' heq rfl
    exact he o now (List.cons.inj hlast).1
  · rw [List.concat_eq_append, ← List.cons_append, ← List.append_assoc] at heq
    exact h pre o now post' (List.append_inj' heq rfl).1

/-- Events that are no expiries. -/
theorem OnlyUntouched.append (h : OnlyUntouched log) {events : List CacheEvent}
    (hevents : ∀ e ∈ events, ∀ o now, e ≠ .elapsed o now) : OnlyUntouched (log ++ events) := by
  induction events generalizing log with
  | nil => rwa [List.append_nil]
  | cons e events ih =>
    rw [List.append_cons]
    refine ih (h.concat fun o now heq => ?_) fun e' he' => hevents e' (List.mem_cons_of_mem _ he')
    exact absurd heq (hevents e List.mem_cons_self o now)

/-- The last event of every entry is its announcement. -/
structure Tracked (cache : Cache) (log : List CacheEvent) : Prop where
  nodup : cache.KeysNodup
  entries : ∀ e ∈ cache, e.1 = e.2.identity ∧ lastEvent log e.1 = some (.announced e.2)
  untouched : OnlyUntouched log

/-- Entries of different records, each of them due, elapse one after the other. -/
theorem OnlyUntouched.elapse {now : Utc} (h : OnlyUntouched log) {due : Cache}
    (hnodup : due.KeysNodup) (hdue : ∀ e ∈ due, e.1 = e.2.identity ∧
      lastEvent log e.1 = some (.announced e.2) ∧ e.2.expiresAt ≤ now) :
    OnlyUntouched (log ++ due.map fun e => .elapsed e.2 now) := by
  induction due generalizing log with
  | nil => rwa [List.map_nil, List.append_nil]
  | cons e due ih =>
    obtain ⟨hid, hlast, hover⟩ := hdue e List.mem_cons_self
    have hkeys := List.nodup_cons.mp hnodup
    rw [List.map_cons, List.append_cons]
    refine ih (h.concat fun o now' heq => ?_) hkeys.2 fun e' he' => ?_
    · cases heq
      exact ⟨hid ▸ hlast, hover⟩
    · obtain ⟨hid', hlast', hover'⟩ := hdue e' (List.mem_cons_of_mem _ he')
      refine ⟨hid', ?_, hover'⟩
      rw [lastEvent_append]
      · exact hlast'
      · intro event hevent
        rw [List.mem_singleton.mp hevent]
        show e.2.identity ≠ e'.1
        rw [← hid]
        intro heq
        exact hkeys.1 (heq ▸ List.mem_map_of_mem he')

/-- Two entries of one key are one. -/
theorem Tracked.eq_of_key (h : Tracked cache log) {e e' : (Str × Str) × Observed} (he : e ∈ cache)
    (he' : e' ∈ cache) (heq : e.1 = e'.1) : e = e' := by
  have hget := Dict.get_of_mem h.nodup (k := e.1) (a := e.2) he
  have hget' := Dict.get_of_mem h.nodup (k := e'.1) (a := e'.2) he'
  rw [heq, hget'] at hget
  exact Prod.ext heq (Option.some.inj hget).symm

theorem Tracked.elapse (h : Tracked cache log) (now : Utc) :
    Tracked (cache.expire now).1 (log ++ elapsedEvents cache now) where
  nodup := h.nodup.sublist (List.filter_sublist.map Prod.fst)
  entries := by
    intro e he
    obtain ⟨hmem, hlive⟩ := List.mem_filter.mp he
    obtain ⟨hid, hlast⟩ := h.entries e hmem
    refine ⟨hid, ?_⟩
    rw [lastEvent_append]
    · exact hlast
    · intro event hevent
      obtain ⟨e', he', rfl⟩ := List.mem_map.mp hevent
      obtain ⟨hmem', hover⟩ := List.mem_filter.mp he'
      show e'.2.identity ≠ e.1
      rw [← (h.entries e' hmem').1]
      intro heq
      cases h.eq_of_key hmem' hmem heq
      exact absurd (of_decide_eq_true hlive) (not_lt.mpr (of_decide_eq_true hover))
  untouched := by
    refine h.untouched.elapse (h.nodup.sublist (List.filter_sublist.map Prod.fst)) fun e he => ?_
    obtain ⟨hmem, hover⟩ := List.mem_filter.mp he
    exact ⟨(h.entries e hmem).1, (h.entries e hmem).2, of_decide_eq_true hover⟩

theorem Tracked.pop (h : Tracked cache log) (event : CacheEvent)
    (hevent : ∀ o now, event ≠ .elapsed o now) :
    Tracked (cache.pop event.identity) (log ++ [event]) where
  nodup := h.nodup.sublist (List.filter_sublist.map Prod.fst)
  entries := by
    intro e he
    obtain ⟨hmem, hne⟩ := List.mem_filter.mp he
    refine ⟨(h.entries e hmem).1, ?_⟩
    rw [lastEvent_append]
    · exact (h.entries e hmem).2
    · intro event' hevent'
      rw [List.mem_singleton.mp hevent']
      exact Ne.symm (of_decide_eq_true hne)
  untouched := h.untouched.concat fun o now heq => absurd heq (hevent o now)

theorem Tracked.announce (h : Tracked cache log) (p : Parser) (o : Observed) :
    Tracked (cache.announce p o) (log ++ announceEvents p cache o) := by
  -- the cache with the new entry, before the oldest make room
  have hfull : Tracked (cache.pop o.identity ++ [(o.identity, o)]) (log ++ [.announced o]) := by
    have hpop := h.pop (.announced o) (by simp)
    refine ⟨?_, fun e he => ?_, hpop.untouched⟩
    · unfold Dict.KeysNodup
      rw [List.map_append, List.nodup_append]
      refine ⟨hpop.nodup, List.nodup_singleton _, ?_⟩
      intro key hkey key' hkey'
      obtain ⟨e, he, rfl⟩ := List.mem_map.mp hkey
      rw [List.mem_singleton.mp hkey']
      exact of_decide_eq_true (List.mem_filter.mp he).2
    · rcases List.mem_append.mp he with he | he
      · exact hpop.entries e he
      · rw [List.mem_singleton.mp he]
        exact ⟨rfl, lastEvent_concat rfl⟩
  unfold Cache.announce announceEvents
  simp only
  generalize cache.pop o.identity ++ [(o.identity, o)] = full at hfull ⊢
  generalize full.length - p.maxCacheEntries = n
  rw [List.append_cons]
  have hsplit : Dict.KeysNodup (full.take n ++ full.drop n) := by
    rw [List.take_append_drop]
    exact hfull.nodup
  unfold Dict.KeysNodup at hsplit
  rw [List.map_append, List.nodup_append] at hsplit
  refine ⟨hsplit.2.1, fun e he => ?_, hfull.untouched.append ?_⟩
  · obtain ⟨hid, hlast⟩ := hfull.entries e (List.mem_of_mem_drop he)
    refine ⟨hid, ?_⟩
    rw [lastEvent_append]
    · exact hlast
    · intro event hevent
      obtain ⟨e', he', rfl⟩ := List.mem_map.mp hevent
      show e'.2.identity ≠ e.1
      rw [← (hfull.entries e' (List.mem_of_mem_take he')).1]
      exact hsplit.2.2 _ (List.mem_map_of_mem he') _ (List.mem_map_of_mem he)
  · intro event hevent o' now heq
    obtain ⟨e', -, rfl⟩ := List.mem_map.mp hevent
    cases heq

theorem Tracked.records (h : Tracked cache log) (p : Parser) (observedAt : Utc)
    (records : List Record) : Tracked (Cache.observeAll p observedAt cache records).1
      (log ++ recordEvents p observedAt cache records) := by
  induction records generalizing cache log with
  | nil =>
    rw [recordEvents, List.append_nil]
    exact h
  | cons r records ih =>
    unfold Cache.observeAll recordEvents
    cases hobserve : observe p r observedAt with
    | error e =>
      simp only [List.append_nil]
      exact h
    | ok o =>
      simp only
      split
      · rw [List.append_cons]
        exact ih (h.pop (.withdrawn o) (by simp))
      · rw [← List.append_assoc]
        exact ih (h.announce p o)

theorem isMdns_eq {rt : Runtime} {protocol : Str} :
    (rt.casefold protocol ≠ str "mdns" ∧ rt.casefold protocol ≠ str "dns-sd") ↔
      isMdns rt protocol = false := by
  unfold isMdns
  simp

theorem Tracked.call (h : Tracked cache log) (rt : Runtime) (p : Parser) (protocol : Str)
    (observedAt : Utc) (message : Except Exc (List Record)) :
    Tracked (cache.call rt p protocol observedAt message).1
      (log ++ callEvents rt p cache protocol observedAt message) := by
  unfold Cache.call callEvents
  simp only [isMdns_eq]
  cases hmdns : isMdns rt protocol with
  | false =>
    simp only [if_true, Bool.false_eq_true, if_false, List.append_nil]
    exact h
  | true =>
    simp only [Bool.true_eq_false, if_true, if_false]
    have hexpired := h.elapse observedAt
    cases message with
    | error e =>
      simp only [List.append_nil]
      exact hexpired
    | ok records =>
      rw [← List.append_assoc]
      exact hexpired.records p observedAt records

theorem tracked_step {rt : Runtime} {p : Parser} {s s' : Tracker} {call : ParserCall}
    (h : Tracked s.cache s.log) (hstep : trackerStep rt p s call = some s') :
    Tracked s'.cache s'.log := by
  obtain ⟨-, hstep⟩ := Option.ite_none_right_eq_some.mp hstep
  cases call with
  | frame protocol observedAt message =>
    cases hstep
    exact h.call rt p protocol observedAt message
  | expire now =>
    cases hstep
    exact h.elapse now

/-! ## What the callers get -/

/-- The action of a record's observation is what became of it. -/
theorem actionOf_fields (r : Record) (a : Lifecycle) : actionOf (r.fields a) = some a.value := by
  unfold actionOf Record.fields
  cases r.value with
  | address | pointer | service | text => rfl

theorem actionOf_observe {p : Parser} {r : Record} {t : Utc} {o : Observed}
    (h : observe p r t = .ok o) : actionOf o.fields ≠ some Lifecycle.expired.value := by
  unfold observe at h
  simp only at h
  split at h
  · cases h
    show actionOf (r.fields .goodbye) ≠ _
    rw [actionOf_fields]
    decide
  · split at h
    · cases h
    · cases h
      show actionOf (r.fields .announce) ≠ _
      rw [actionOf_fields]
      decide

theorem actionOf_expiry (now : Utc) (o : Observed) :
    actionOf (Cache.expiry now o).fields = some Lifecycle.expired.value := by
  unfold actionOf Cache.expiry
  simp only [Dict.get_set_self]

/-- What the records of a message bring is no expiry, and it fails on a record that is refused. -/
theorem observeAll_spec (p : Parser) (t : Utc) (records : List Record) (cache : Cache) :
    (∀ o ∈ (Cache.observeAll p t cache records).2.1,
      actionOf o.fields ≠ some Lifecycle.expired.value) ∧
    (Cache.observeAll p t cache records).2.2.isSome = refuses p t (.ok records) ∧
    (recordEvents p t cache records).filterMap CacheEvent.report = [] := by
  induction records generalizing cache with
  | nil => exact ⟨by simp [Cache.observeAll], rfl, rfl⟩
  | cons r records ih =>
    have hrefuses : refuses p t (.ok (r :: records)) =
        ((r.ttl ≠ 0 && (t.add (min r.ttl p.maxTtlSeconds * 1000000)).isNone) ||
          refuses p t (.ok records)) := rfl
    rw [hrefuses]
    unfold Cache.observeAll recordEvents
    cases hobserve : observe p r t with
    | error e =>
      refine ⟨by simp, ?_, rfl⟩
      unfold observe at hobserve
      simp only at hobserve
      split at hobserve
      · cases hobserve
      · next httl =>
        split at hobserve
        · next hadd => simp [httl, hadd]
        · cases hobserve
    | ok o =>
      have haccepted : (r.ttl ≠ 0 && (t.add (min r.ttl p.maxTtlSeconds * 1000000)).isNone) =
          false := by
        unfold observe at hobserve
        simp only at hobserve
        split at hobserve
        · next httl => simp [httl]
        · split at hobserve
          · cases hobserve
          · next hadd => simp [hadd]
      rw [haccepted, Bool.false_or]
      obtain ⟨hactions, herror, hevents⟩ := ih (if r.ttl = 0 then cache.pop o.identity
        else cache.announce p o)
      refine ⟨?_, herror, ?_⟩
      · intro o' ho'
        rcases List.mem_cons.mp ho' with rfl | ho'
        · exact actionOf_observe hobserve
        · exact hactions o' ho'
      · simp only
        split at hevents
        · next httl =>
          rw [if_pos httl, List.filterMap_cons]
          exact hevents
        · next httl =>
          have hannounce : (announceEvents p cache o).filterMap CacheEvent.report = [] := by
            unfold announceEvents
            rw [List.filterMap_cons, List.filterMap_map]
            exact List.filterMap_eq_nil_iff.mpr fun e _ => rfl
          rw [if_neg httl, List.filterMap_append, hannounce, List.nil_append]
          exact hevents

theorem report_elapsedEvents (cache : Cache) (now : Utc) :
    (elapsedEvents cache now).filterMap CacheEvent.report =
      (cache.expire now).2.map Observed.observation := by
  unfold elapsedEvents Cache.expire
  rw [List.filterMap_map, List.map_map]
  exact congrFun (List.filterMap_eq_map (f := fun e : (Str × Str) × Observed =>
    (Cache.expiry now e.2).observation)) _

theorem expiries_expire (cache : Cache) (now : Utc) :
    expiries ((cache.expire now).2.map Observed.observation) =
      (cache.expire now).2.map Observed.observation := by
  refine List.filter_eq_self.mpr fun o ho => ?_
  obtain ⟨o', ho', rfl⟩ := List.mem_map.mp ho
  obtain ⟨e, -, rfl⟩ := List.mem_map.mp ho'
  exact decide_eq_true (actionOf_expiry now e.2)

/-- A frame of the parser's protocol fails on a message that is refused, and what it has observed
holds one expiry for each entry that was due. -/
theorem call_spec {rt : Runtime} (p : Parser) (cache : Cache) {protocol : Str}
    (hmdns : isMdns rt protocol = true) (t : Utc) (message : Except Exc (List Record)) :
    (cache.call rt p protocol t message).2.2.isSome = refuses p t message ∧
      expiries ((cache.call rt p protocol t message).2.1.map Observed.observation) =
        (cache.expire t).2.map Observed.observation ∧
      (callEvents rt p cache protocol t message).filterMap CacheEvent.report =
        (cache.expire t).2.map Observed.observation := by
  unfold Cache.call callEvents
  simp only [isMdns_eq, hmdns, Bool.true_eq_false, if_true, if_false, List.filterMap_append,
    report_elapsedEvents]
  cases message with
  | error e => exact ⟨rfl, expiries_expire cache t, List.append_nil _⟩
  | ok records =>
    obtain ⟨hactions, herror, hevents⟩ := observeAll_spec p t records (cache.expire t).1
    refine ⟨herror, ?_, by simp only [hevents, List.append_nil]⟩
    have hnone : expiries
        ((Cache.observeAll p t (cache.expire t).1 records).2.1.map Observed.observation) = [] := by
      refine List.filter_eq_nil_iff.mpr fun o ho => ?_
      obtain ⟨o', ho', rfl⟩ := List.mem_map.mp ho
      exact fun h => hactions o' ho' (of_decide_eq_true h)
    simp only [List.map_append]
    unfold expiries at hnone ⊢
    rw [List.filter_append, hnone, List.append_nil]
    exact expiries_expire cache t

end

/-! ## Runs -/

section

variable {rt : Runtime} {p : Parser} {s s' : Tracker} {call : ParserCall}

/-- What a frame adds to the log and to what the callers got. -/
theorem trackerStep_frame {protocol : Str} {observedAt : Utc} {message : Except Exc (List Record)}
    (hstep : trackerStep rt p s (.frame protocol observedAt message) = some s') :
    s'.log = s.log ++ callEvents rt p s.cache protocol observedAt message ∧
      s'.returned = s.returned ++
        if (s.cache.call rt p protocol observedAt message).2.2.isNone then
          (s.cache.call rt p protocol observedAt message).2.1.map Observed.observation
        else [] := by
  obtain ⟨-, hstep⟩ := Option.ite_none_right_eq_some.mp hstep
  rcases hcall : s.cache.call rt p protocol observedAt message with ⟨cache, observed, error⟩
  simp only [hcall, Option.some.injEq] at hstep
  rw [← hstep]
  exact ⟨rfl, rfl⟩

/-- A call keeps the account of the expiries exactly when it loses none. -/
theorem expiries_step_iff (h : expiries s.returned = s.log.filterMap CacheEvent.report)
    (hstep : trackerStep rt p s call = some s') :
    expiries s'.returned = s'.log.filterMap CacheEvent.report ↔ Heeded rt p s call := by
  have happend : ∀ out : List PassiveObservation, expiries (s.returned ++ out) =
      s.log.filterMap CacheEvent.report ++ expiries out := by
    intro out
    rw [← h]
    exact List.filter_append _ _
  cases call with
  | expire now =>
    obtain ⟨-, hstep⟩ := Option.ite_none_right_eq_some.mp hstep
    cases hstep
    simp only [happend, List.filterMap_append, report_elapsedEvents, List.append_cancel_left_eq]
    exact iff_of_true (expiries_expire s.cache now) trivial
  | frame protocol observedAt message =>
    obtain ⟨hlog, hreturned⟩ := trackerStep_frame hstep
    rw [hlog, hreturned, happend, List.filterMap_append, List.append_cancel_left_eq]
    unfold Heeded
    cases hmdns : isMdns rt protocol with
    | false =>
      refine iff_of_true ?_ fun hprotocol => by rw [hmdns] at hprotocol; cases hprotocol
      unfold Cache.call callEvents
      simp only [isMdns_eq, hmdns, if_true, Bool.false_eq_true, if_false]
      rfl
    | true =>
      obtain ⟨herror, hobserved, hevents⟩ := call_spec p s.cache hmdns observedAt message
      rw [hevents]
      cases hrefuses : refuses p observedAt message with
      | false =>
        rw [hrefuses] at herror
        have hnone : (s.cache.call rt p protocol observedAt message).2.2.isNone = true := by
          rw [Option.isNone_iff_eq_none, ← Option.not_isSome_iff_eq_none, herror]
          exact Bool.false_ne_true
        rw [hnone, if_pos rfl]
        exact iff_of_true hobserved fun _ hrefused => by rw [hrefuses] at hrefused; cases hrefused
      | true =>
        rw [hrefuses] at herror
        have hsome : (s.cache.call rt p protocol observedAt message).2.2.isNone = false := by
          rw [← Option.not_isSome, herror]
          rfl
        rw [hsome, if_neg Bool.false_ne_true]
        have hnil : ([] : List PassiveObservation) =
            (s.cache.expire observedAt).2.map Observed.observation ↔
              ∀ e ∈ s.cache, observedAt < e.2.expiresAt := by
          unfold Cache.expire
          rw [eq_comm, List.map_eq_nil_iff, List.map_eq_nil_iff, List.filter_eq_nil_iff]
          simp only [decide_eq_true_eq, not_le]
        exact hnil.trans ⟨fun h _ _ => h, fun h => h hmdns hrefuses⟩

/-- At every point of a run the callers have got one expiry for each entry that elapsed, and for no
other entry, exactly when no message was refused while an entry was due. -/
theorem expiries_reported_iff (rt : Runtime) (p : Parser) (clock : Utc) {calls : List ParserCall}
    (hrun : Machine.run (trackerStep rt p) { clock := clock } calls = some s) :
    (∀ front, front <+: calls → ∀ t,
        Machine.run (trackerStep rt p) { clock := clock } front = some t → t.Reported) ↔
      Machine.Along (trackerStep rt p) (Heeded rt p) { clock := clock } calls := by
  have hinit : Tracked [] [] :=
    ⟨List.nodup_nil, fun e he => absurd he List.not_mem_nil, fun pre o now post heq => by
      cases pre <;> cases heq⟩
  rw [← Machine.throughout_iff (I := fun s : Tracker => Tracked s.cache s.log)
    (J := fun s : Tracker => expiries s.returned = s.log.filterMap CacheEvent.report)
    (fun _ _ _ hs hstep => tracked_step hs hstep) (fun _ _ _ _ h hstep => expiries_step_iff h hstep)
    hinit rfl hrun]
  refine forall₄_congr fun front hfront t ht => ⟨fun h => h.expiries, fun h => ⟨h, ?_⟩⟩
  have htracked : Tracked t.cache t.log := Machine.run_invariant (P := fun _ _ => True)
    (I := fun s : Tracker => Tracked s.cache s.log)
    (fun _ _ _ hs _ hstep => tracked_step hs hstep) hinit
    (Machine.along_of_forall fun _ _ => trivial) ht
  exact htracked.untouched

end

/-! ## A message that is cut off -/

/-- A printer announces its address for two minutes, and after three a message comes in. -/
def afterAnnouncement (message : Except Exc (List Record)) : List ParserCall :=
  [.frame (str "mdns") (secondsLater 0 zero_le_hour) (.ok [printerAddress 120]),
    .frame (str "mdns") (secondsLater 180 (by decide)) message]

/-- The parser after the message. -/
def trackerAfter (message : Except Exc (List Record)) : Option Tracker :=
  Machine.run (trackerStep mdnsRuntime sampleSetup.parser) { clock := secondsLater 0 zero_le_hour }
    (afterAnnouncement message)

/-- A query brings the expiry to the caller. -/
theorem expiries_reported_sample : ∃ s, trackerAfter (.ok []) = some s ∧
    (expiries s.returned).length = 1 ∧ s.Reported := by
  have hsummary : (trackerAfter (.ok [])).map (fun s => (expiries s.returned).length) = some 1 := by
    decide +kernel
  obtain ⟨s, hrun, hs⟩ := Option.map_eq_some_iff.mp hsummary
  exact ⟨s, hrun, hs, (expiries_reported_iff _ _ _ hrun).mpr (by decide +kernel) _
    (List.prefix_refl _) s hrun⟩

/-- A message that is cut off in its header loses the expiry. -/
theorem expiries_not_reported : ¬ ∀ (rt : Runtime) (p : Parser) clock calls s,
    Machine.run (trackerStep rt p) { clock := clock } calls = some s → s.Reported := by
  intro h
  have hsummary : (trackerAfter (.error (.passiveParse (str "truncated mDNS header")))).map
      (fun s => ((expiries s.returned).length, (s.log.filterMap CacheEvent.report).length)) =
        some (0, 1) := by
    decide +kernel
  obtain ⟨s, hrun, hs⟩ := Option.map_eq_some_iff.mp hsummary
  have hreported := (h _ _ _ _ s hrun).expiries
  rw [hreported] at hs
  cases (Prod.mk.inj hs).1.symm.trans (Prod.mk.inj hs).2

end FieldDiscovery.Passive.Mdns
