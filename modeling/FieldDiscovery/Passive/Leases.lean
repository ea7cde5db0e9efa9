import FieldDiscovery.Lib.Except
import FieldDiscovery.Lib.Recent
import FieldDiscovery.Passive.Dhcp

/-!
# Reuse of DHCP addresses

`DhcpParser`: `parse_dhcp` with an ordered map of the leases that were acknowledged last, which
discloses that an address was acknowledged to another client. What it discloses depends on the ACKs of
the earlier frames alone: the client of the latest ACK of the address, as long as the address is among
the most recent ones (`reuse_exact`).
-/

namespace FieldDiscovery.Passive.Dhcp

open Py Recent Redaction

/-- `DhcpParser(...)` -/
structure DhcpParser where
  redactor : Redactor
  maxTrackedLeases : Nat
  positive : 1 ≤ maxTrackedLeases

/-- `self._leases`: clients under their addresses. -/
abbrev Leases := Dict Str Str

/-- A field that is a text; the parser leaves `None` in the others. -/
def textField (fields : Fields) (key : Str) : Option Str :=
  match fields.get key with
  | some (.string value) => some value
  | _ => none

/-- `fields.get("client_mac") or fields.get("client_identifier")` -/
def clientOf (fields : Fields) : Option Str :=
  ((textField fields (str "client_mac")).filter (· ≠ [])).orElse fun _ =>
    (textField fields (str "client_identifier")).filter (· ≠ [])

/-- The address and the client of an ACK; a message without one of them is of no account. -/
def ackOf (message : PassiveObservation) : Option (Str × Str) :=
  if textField message.fields (str "message_type") ≠ some (str "ack") then none
  else
    match textField message.fields (str "assigned_address"), clientOf message.fields with
    | some assigned, some client => some (assigned, client)
    | _, _ => none

/-- The observation of a reuse. -/
def reuse (message : PassiveObservation) (assigned previous client : Str) : PassiveObservation where
  kind := str "dhcp_address_reuse"
  fields := [
    (str "address", .string assigned),
    (str "previous_client", .string previous),
    (str "current_client", .string client),
    (str "interface", (message.fields.get (str "interface")).getD .null)]
  source := str "passive.dhcp"
  observedAt := message.observedAt

/-- The reuse that an ACK is, if the leases name another client. -/
def reusesOf (leases : Leases) (message : PassiveObservation) (assigned client : Str) :
    List PassiveObservation :=
  match leases.get assigned with
  | some previous => if previous ≠ client then [reuse message assigned previous client] else []
  | none => []

section

variable (rt : Runtime) (p : DhcpParser)

/-- `__call__`, with all that it yields consumed: the leases, the observations, and what it raises. -/
def call (leases : Leases) (frame : PassiveFrame) : Leases × List PassiveObservation × Option Exc :=
  match parseDhcp rt p.redactor frame with
  | .error e => (leases, [], some e)
  | .ok [] => (leases, [], some .lookup)
  | .ok (message :: _) =>
    match ackOf message with
    | none => (leases, [message], none)
    | some (assigned, client) =>
      (touch p.maxTrackedLeases leases (assigned, client),
        message :: reusesOf leases message assigned client, none)

/-- `self._leases` after some frames. -/
def leasesAfter (frames : List PassiveFrame) : Leases :=
  frames.foldl (fun leases frame => (call rt p leases frame).1) []

/-- The message of a frame that is parsed. -/
def messageOf (frame : PassiveFrame) : Option PassiveObservation :=
  match parseDhcp rt p.redactor frame with
  | .ok (message :: _) => some message
  | _ => none

/-- The ACKs among the frames, with their addresses and clients. -/
def acks (frames : List PassiveFrame) : List (Str × Str) :=
  frames.filterMap fun frame => (messageOf rt p frame).bind ackOf

end

/-! ## Acknowledgements -/

/-- The message names a client under a key. -/
def Names (message : PassiveObservation) (key client : Str) : Prop :=
  message.fields.get key = some (.string client) ∧ client ≠ []

/-- The message acknowledges an address to a client, which is named by its MAC address, or by its
identifier where there is no MAC address. -/
structure Acknowledges (message : PassiveObservation) (assigned client : Str) : Prop where
  ack : message.fields.get (str "message_type") = some (.string (str "ack"))
  assigned : message.fields.get (str "assigned_address") = some (.string assigned)
  client : Names message (str "client_mac") client ∨
    (∀ mac, ¬ Names message (str "client_mac") mac) ∧ Names message (str "client_identifier") client

/-- The ACKs of the frames, in the order of the frames. -/
inductive AcksOf (rt : Runtime) (r : Redactor) : List PassiveFrame → List (Str × Str) → Prop where
  | nil : AcksOf rt r [] []
  | ack {frame : PassiveFrame} {frames : List PassiveFrame} {message : PassiveObservation}
      {assigned client : Str} {history : List (Str × Str)} : parseDhcp rt r frame = .ok [message] →
      Acknowledges message assigned client → AcksOf rt r frames history →
      AcksOf rt r (frame :: frames) ((assigned, client) :: history)
  | other {frame : PassiveFrame} {frames : List PassiveFrame} {history : List (Str × Str)} :
      (∀ message assigned client, parseDhcp rt r frame = .ok [message] →
        ¬ Acknowledges message assigned client) →
      AcksOf rt r frames history → AcksOf rt r (frame :: frames) history

theorem textField_eq_some {fields : Fields} {key value : Str} :
    textField fields key = some value ↔ fields.get key = some (.string value) := by
  unfold textField
  split
  · next h => rw [h, Option.some.injEq, Option.some.injEq, Json.string.injEq]
  · next h => exact iff_of_false (fun hvalue => by cases hvalue) (h value)

theorem filter_textField {message : PassiveObservation} {key client : Str} :
    (textField message.fields key).filter (· ≠ []) = some client ↔ Names message key client := by
  rw [Option.filter_eq_some_iff, textField_eq_some, decide_eq_true_eq]
  rfl

theorem clientOf_eq_some {message : PassiveObservation} {client : Str} :
    clientOf message.fields = some client ↔ Names message (str "client_mac") client ∨
      (∀ mac, ¬ Names message (str "client_mac") mac) ∧
        Names message (str "client_identifier") client := by
  unfold clientOf
  cases hmac : (textField message.fields (str "client_mac")).filter (· ≠ []) with
  | none =>
    have hnone : ∀ mac, ¬ Names message (str "client_mac") mac := by
      intro mac hnames
      cases hmac.symm.trans (filter_textField.mpr hnames)
    rw [Option.orElse_none, filter_textField, or_iff_right (hnone client), and_iff_right hnone]
  | some mac =>
    have hnames := filter_textField.mp hmac
    rw [Option.orElse_some, ← hmac, filter_textField, or_iff_left fun h => h.1 mac hnames]

theorem ackOf_eq_some {message : PassiveObservation} {assigned client : Str} :
    ackOf message = some (assigned, client) ↔ Acknowledges message assigned client := by
  unfold ackOf
  constructor
  · intro h
    split at h
    · cases h
    · next htype =>
      split at h
      · next hassigned hclient =>
        cases h
        exact ⟨textField_eq_some.mp (not_not.mp htype), textField_eq_some.mp hassigned,
          clientOf_eq_some.mp hclient⟩
      · cases h
  · rintro ⟨htype, hassigned, hclient⟩
    rw [if_neg (not_not.mpr (textField_eq_some.mpr htype)), textField_eq_some.mpr hassigned,
      clientOf_eq_some.mpr hclient]

/-! ## Messages -/

variable {rt : Runtime} {p : DhcpParser}

/-- A frame that is parsed gives one message, which has its interface and its time. -/
theorem parseDhcp_eq_ok {r : Redactor} {frame : PassiveFrame} {parsed : List PassiveObservation}
    (h : parseDhcp rt r frame = .ok parsed) :
    ∃ message, parsed = [message] ∧ message.kind = str "dhcp_message" ∧
      message.fields.get (str "interface") = some (optional Json.string frame.interface) ∧
      message.observedAt = some frame.observedAt.stamp := by
  unfold parseDhcp at h
  simp only [Except.bind_eq_ok] at h
  obtain ⟨_, -, _, -, _, -, _, -, _, -, _, -, _, -, _, -, _, -, _, -, _, -, _, -, _, -, _, -, h⟩ := h
  exact ⟨_, (Except.ok.inj h).symm, rfl, rfl, rfl⟩

theorem messageOf_eq_some {frame : PassiveFrame} {message : PassiveObservation} :
    messageOf rt p frame = some message ↔ parseDhcp rt p.redactor frame = .ok [message] := by
  unfold messageOf
  cases hparse : parseDhcp rt p.redactor frame with
  | error e => simp
  | ok parsed =>
    obtain ⟨m, rfl, -⟩ := parseDhcp_eq_ok hparse
    simp

theorem acksOf_acks (frames : List PassiveFrame) : AcksOf rt p.redactor frames (acks rt p frames) := by
  induction frames with
  | nil => exact .nil
  | cons frame frames ih =>
    unfold acks
    cases hack : (messageOf rt p frame).bind ackOf with
    | none =>
      rw [List.filterMap_cons, hack]
      refine .other ?_ ih
      intro message assigned client hparse hmessage
      rw [messageOf_eq_some.mpr hparse, Option.bind_some, ackOf_eq_some.mpr hmessage] at hack
      cases hack
    | some ack =>
      rw [List.filterMap_cons, hack]
      obtain ⟨message, hmessage, hack⟩ := Option.bind_eq_some_iff.mp hack
      exact .ack (messageOf_eq_some.mp hmessage) (ackOf_eq_some.mp hack) ih

/-- The leases take the ACK of a frame, and nothing of other frames. -/
theorem call_leases (leases : Leases) (frame : PassiveFrame) : (call rt p leases frame).1 =
    ((messageOf rt p frame).bind ackOf).elim leases (touch p.maxTrackedLeases leases) := by
  unfold call messageOf
  cases hparse : parseDhcp rt p.redactor frame with
  | error e => rfl
  | ok parsed =>
    obtain ⟨m, rfl, -⟩ := parseDhcp_eq_ok hparse
    simp only [Option.bind_some]
    cases ackOf m with
    | none => rfl
    | some ack => rfl

theorem foldl_call (leases : Leases) (frames : List PassiveFrame) :
    frames.foldl (fun leases frame => (call rt p leases frame).1) leases =
      (acks rt p frames).foldl (touch p.maxTrackedLeases) leases := by
  induction frames generalizing leases with
  | nil => rfl
  | cons frame frames ih =>
    rw [List.foldl_cons, ih, call_leases]
    unfold acks
    cases hack : (messageOf rt p frame).bind ackOf with
    | none =>
      rw [List.filterMap_cons, hack]
      rfl
    | some ack =>
      rw [List.filterMap_cons, hack]
      rfl

theorem mem_reusesOf {leases : Leases} {message o : PassiveObservation} {assigned client : Str} :
    o ∈ reusesOf leases message assigned client ↔ ∃ previous, leases.get assigned = some previous ∧
      previous ≠ client ∧ o = reuse message assigned previous client := by
  unfold reusesOf
  cases leases.get assigned with
  | none => simp
  | some previous =>
    by_cases hprevious : previous = client
    · simp [hprevious]
    · simp [hprevious]

theorem length_reusesOf (leases : Leases) (message : PassiveObservation) (assigned client : Str) :
    (reusesOf leases message assigned client).length ≤ 1 := by
  unfold reusesOf
  split
  · split
    · exact Nat.le_refl 1
    · exact Nat.zero_le 1
  · exact Nat.zero_le 1

/-- The reuses among the observations of a call. -/
def reusesIn (rt : Runtime) (p : DhcpParser) (leases : Leases) (frame : PassiveFrame) :
    List PassiveObservation :=
  (call rt p leases frame).2.1.filter fun o => o.kind = str "dhcp_address_reuse"

theorem reusesIn_of_ackOf {leases : Leases} {frame : PassiveFrame} {message : PassiveObservation}
    {assigned client : Str} (hmessage : messageOf rt p frame = some message)
    (hack : ackOf message = some (assigned, client)) :
    reusesIn rt p leases frame = reusesOf leases message assigned client := by
  have hparse := messageOf_eq_some.mp hmessage
  obtain ⟨m, hm, hkind, -⟩ := parseDhcp_eq_ok hparse
  obtain ⟨rfl, -⟩ := List.cons.inj hm
  have hall : ∀ o ∈ reusesOf leases message assigned client, o.kind = str "dhcp_address_reuse" := by
    intro o ho
    obtain ⟨previous, -, -, rfl⟩ := mem_reusesOf.mp ho
    rfl
  unfold reusesIn call
  rw [hparse]
  simp only [hack]
  rw [List.filter_cons_of_neg (by rw [hkind]; decide), List.filter_eq_self]
  exact fun o ho => decide_eq_true (hall o ho)

theorem reusesIn_of_none {leases : Leases} {frame : PassiveFrame}
    (h : (messageOf rt p frame).bind ackOf = none) : reusesIn rt p leases frame = [] := by
  unfold reusesIn call
  unfold messageOf at h
  cases hparse : parseDhcp rt p.redactor frame with
  | error e => rfl
  | ok parsed =>
    obtain ⟨m, rfl, hkind, -⟩ := parseDhcp_eq_ok hparse
    rw [hparse, Option.bind_some] at h
    simp only [h]
    rw [List.filter_cons_of_neg (by rw [hkind]; decide), List.filter_nil]

/-- A frame is a reuse when it holds an ACK and the leases name another client. -/
theorem mem_reusesIn {leases : Leases} {frame : PassiveFrame} {o : PassiveObservation} :
    o ∈ reusesIn rt p leases frame ↔
      ∃ message assigned client previous, messageOf rt p frame = some message ∧
        ackOf message = some (assigned, client) ∧ leases.get assigned = some previous ∧
        previous ≠ client ∧ o = reuse message assigned previous client := by
  cases hbind : (messageOf rt p frame).bind ackOf with
  | none =>
    rw [reusesIn_of_none hbind]
    refine iff_of_false List.not_mem_nil ?_
    rintro ⟨message, assigned, client, previous, hmessage, hack, -⟩
    rw [hmessage, Option.bind_some, hack] at hbind
    cases hbind
  | some ack =>
    obtain ⟨message, hmessage, hack⟩ := Option.bind_eq_some_iff.mp hbind
    obtain ⟨assigned, client⟩ := ack
    rw [reusesIn_of_ackOf hmessage hack, mem_reusesOf]
    constructor
    · rintro ⟨previous, hrest⟩
      exact ⟨message, assigned, client, previous, hmessage, hack, hrest⟩
    · rintro ⟨message', assigned', client', previous, hmessage', hack', hrest⟩
      cases hmessage.symm.trans hmessage'
      cases hack.symm.trans hack'
      exact ⟨previous, hrest⟩

/-- The reuse has the interface and the time of the frame. -/
theorem reuse_eq {frame : PassiveFrame} {message : PassiveObservation} (assigned previous client : Str)
    (h : parseDhcp rt p.redactor frame = .ok [message]) :
    reuse message assigned previous client =
      { kind := str "dhcp_address_reuse"
        fields := [(str "address", .string assigned), (str "previous_client", .string previous),
          (str "current_client", .string client),
          (str "interface", optional Json.string frame.interface)]
        source := str "passive.dhcp"
        observedAt := some frame.observedAt.stamp } := by
  obtain ⟨m, hm, -, hinterface, hobserved⟩ := parseDhcp_eq_ok h
  obtain ⟨rfl, -⟩ := List.cons.inj hm
  unfold reuse
  rw [hinterface, hobserved, Option.getD_some]

/-! ## Main theorem -/

/-- After any frames, a frame is disclosed as a reuse exactly when it holds an ACK of an address whose
latest ACK named another client and which is among the most recently acknowledged addresses; it is
disclosed once, with both clients. And no more leases are tracked than the parser may. -/
theorem reuse_exact (rt : Runtime) (p : DhcpParser) (frames : List PassiveFrame) :
    ∃ history, AcksOf rt p.redactor frames history ∧
      (∀ frame o, o ∈ reusesIn rt p (leasesAfter rt p frames) frame ↔
        ∃ message assigned client previous, parseDhcp rt p.redactor frame = .ok [message] ∧
          Acknowledges message assigned client ∧
          assigned ∈ recentKeys p.maxTrackedLeases history ∧
          latest history assigned = some previous ∧ previous ≠ client ∧
          o = { kind := str "dhcp_address_reuse"
                fields := [(str "address", .string assigned),
                  (str "previous_client", .string previous), (str "current_client", .string client),
                  (str "interface", optional Json.string frame.interface)]
                source := str "passive.dhcp"
                observedAt := some frame.observedAt.stamp }) ∧
      (∀ frame, (reusesIn rt p (leasesAfter rt p frames) frame).length ≤ 1) ∧
      (leasesAfter rt p frames).length ≤ p.maxTrackedLeases := by
  have hleases : leasesAfter rt p frames =
      (acks rt p frames).foldl (touch p.maxTrackedLeases) [] := foldl_call [] frames
  have hget : ∀ assigned previous, (leasesAfter rt p frames).get assigned = some previous ↔
      assigned ∈ recentKeys p.maxTrackedLeases (acks rt p frames) ∧
        latest (acks rt p frames) assigned = some previous := by
    intro assigned previous
    rw [hleases, get_foldl_touch]
    by_cases hrecent : assigned ∈ recentKeys p.maxTrackedLeases (acks rt p frames)
    · rw [if_pos hrecent, and_iff_right hrecent]
    · rw [if_neg hrecent]
      exact iff_of_false (fun h => by cases h) fun h => hrecent h.1
  refine ⟨acks rt p frames, acksOf_acks frames, fun frame o => ?_, fun frame => ?_, ?_⟩
  · rw [mem_reusesIn]
    constructor
    · rintro ⟨message, assigned, client, previous, hmessage, hack, hprevious, hne, rfl⟩
      have hparse := messageOf_eq_some.mp hmessage
      obtain ⟨hrecent, hlatest⟩ := (hget assigned previous).mp hprevious
      exact ⟨message, assigned, client, previous, hparse, ackOf_eq_some.mp hack, hrecent, hlatest, hne,
        reuse_eq assigned previous client hparse⟩
    · rintro ⟨message, assigned, client, previous, hparse, hack, hrecent, hlatest, hne, rfl⟩
      exact ⟨message, assigned, client, previous, messageOf_eq_some.mpr hparse,
        ackOf_eq_some.mpr hack, (hget assigned previous).mpr ⟨hrecent, hlatest⟩, hne,
        (reuse_eq assigned previous client hparse).symm⟩
  · cases hbind : (messageOf rt p frame).bind ackOf with
    | none =>
      rw [reusesIn_of_none hbind]
      exact Nat.zero_le 1
    | some ack =>
      obtain ⟨message, hmessage, hack⟩ := Option.bind_eq_some_iff.mp hbind
      rw [reusesIn_of_ackOf hmessage hack]
      exact length_reusesOf _ _ _ _
  · rw [hleases]
    exact length_foldl_touch _ _

/-! ## Two clients of one address -/

/-- A frame with the ACK of `10.0.0.5` to the client with a MAC address. -/
def ackFrame (mac : List Byte) : PassiveFrame where
  protocol := str "dhcp"
  payload := [2, 1, 6, 0] ++ List.replicate 12 0 ++ [10, 0, 0, 5] ++ List.replicate 8 0 ++ mac ++
    List.replicate 202 0 ++ magicCookie ++ [53, 1, 5, 255]
  observedAt := ⟨epochDay * microsPerDay, epoch_inCalendar⟩
  interface := some (str "eth0")

/-- The address and the clients of the reuses in the second of two such frames. -/
def reusedAfter (first second : List Byte) : List (List (Option Str)) :=
  let p : DhcpParser := ⟨⟨[], []⟩, 1, by decide⟩
  (reusesIn (.ofDigests []) p (leasesAfter (.ofDigests []) p [ackFrame first]) (ackFrame second)).map
    fun o => [str "address", str "previous_client", str "current_client"].map (textField o.fields)

example : reusedAfter [2, 0, 0, 0, 0, 1] [2, 0, 0, 0, 0, 1] = [] := by decide +kernel

example : reusedAfter [2, 0, 0, 0, 0, 1] [2, 0, 0, 0, 0, 2] = [[some (str "10.0.0.5"),
    some (str "02:00:00:00:00:01"), some (str "02:00:00:00:00:02")]] := by decide +kernel

end FieldDiscovery.Passive.Dhcp
