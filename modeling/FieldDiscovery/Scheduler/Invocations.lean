import FieldDiscovery.Lib.Sorted
import FieldDiscovery.Lib.Str

/-!
# The invocations of a cycle

`build_invocations` turns the configured collectors into commands of the CLI. It calls for each
configured target once: one command for all SNMP targets, one for each UniFi endpoint, one for AD,
and one for each SSH platform (`buildInvocations_covers`).
-/

namespace FieldDiscovery.Scheduler

open Py

/-! ## The configuration -/

structure SnmpSettings where
  enabled : Bool
  targets : List Str

structure UnifiEndpoint where
  url : Str

structure UnifiSettings where
  enabled : Bool
  endpoints : List UnifiEndpoint

structure AdSettings where
  enabled : Bool
  target : Option Str
  domain : Option Str
  serverName : Option Str

structure SshTarget where
  platform : Str
  address : Str

structure SshSettings where
  enabled : Bool
  targets : List SshTarget

/-- `configuration["collectors"]`, as far as the scheduler reads it. -/
structure CollectorSettings where
  snmp : SnmpSettings
  unifi : UnifiSettings
  ad : AdSettings
  ssh : SshSettings

/-! ## Invocations -/

structure ScheduledInvocation where
  collector : Str
  arguments : List Str
  deriving DecidableEq

/-- `str` of an optional text. -/
def strOfOptional : Option Str → Str
  | some s => s
  | none => str "None"

/-- `--target` for each address. -/
def targetArguments (addresses : List Str) : List Str :=
  addresses.flatMap fun address => [str "--target", address]

def snmpInvocations (snmp : SnmpSettings) : List ScheduledInvocation :=
  if snmp.enabled ∧ snmp.targets ≠ [] then
    [⟨str "snmp", [str "collect", str "snmp"] ++ targetArguments (sortedSet snmp.targets)⟩]
  else []

def unifiInvocations (unifi : UnifiSettings) : List ScheduledInvocation :=
  if unifi.enabled then
    (sortedBy UnifiEndpoint.url unifi.endpoints).map fun endpoint =>
      ⟨str "unifi", [str "collect", str "unifi", str "--controller", endpoint.url]⟩
  else []

def adInvocations (ad : AdSettings) : List ScheduledInvocation :=
  if ad.enabled then
    [⟨str "ad", [str "collect", str "ad", str "--target", strOfOptional ad.target] ++
      (match ad.domain with
        | some domain => [str "--domain", domain]
        | none => []) ++
      (match ad.serverName with
        | some serverName => [str "--server-name", serverName]
        | none => [])⟩]
  else []

/-- `by_platform`, in ascending order: the platforms with their addresses. -/
def byPlatform (targets : List SshTarget) : List (Str × List Str) :=
  (sortedBy Prod.fst (groupBy SshTarget.platform targets)).map fun group =>
    (group.1, sortedSet (group.2.map SshTarget.address))

def sshArguments (group : Str × List Str) : List Str :=
  [str "collect", str "ssh", str "--platform", group.1] ++ targetArguments group.2

def sshInvocations (ssh : SshSettings) : List ScheduledInvocation :=
  if ssh.enabled then
    (byPlatform ssh.targets).map fun group => ⟨str "ssh", sshArguments group⟩
  else []

/-- `build_invocations`. -/
def buildInvocations (collectors : CollectorSettings) : List ScheduledInvocation :=
  snmpInvocations collectors.snmp ++ unifiInvocations collectors.unifi ++
    adInvocations collectors.ad ++ sshInvocations collectors.ssh

/-! ## Every configured target once -/

/-- The commands for one collector. -/
def argumentsFor (name : Str) (invocations : List ScheduledInvocation) : List (List Str) :=
  (invocations.filter fun i => i.collector = name).map ScheduledInvocation.arguments

/-- Each enabled collector is called for each of its targets, and for each once. -/
structure Covers (collectors : CollectorSettings) (invocations : List ScheduledInvocation) :
    Prop where
  snmp : argumentsFor (str "snmp") invocations =
    if collectors.snmp.enabled ∧ collectors.snmp.targets ≠ [] then
      [[str "collect", str "snmp"] ++ targetArguments (sortedSet collectors.snmp.targets)]
    else []
  unifi : (argumentsFor (str "unifi") invocations).Perm
    (if collectors.unifi.enabled then
      collectors.unifi.endpoints.map fun endpoint =>
        [str "collect", str "unifi", str "--controller", endpoint.url]
    else [])
  ad : (argumentsFor (str "ad") invocations).length = collectors.ad.enabled.toNat
  ssh : ∃ platforms : List (Str × List Str),
    argumentsFor (str "ssh") invocations = platforms.map sshArguments ∧
    (platforms.map Prod.fst).Nodup ∧ (∀ p ∈ platforms, p.2.Nodup) ∧
    ∀ platform address, (∃ p ∈ platforms, p.1 = platform ∧ address ∈ p.2) ↔
      collectors.ssh.enabled = true ∧ ⟨platform, address⟩ ∈ collectors.ssh.targets
  others : ∀ i ∈ invocations,
    i.collector ∈ [str "snmp", str "unifi", str "ad", str "ssh"]

theorem argumentsFor_append (name : Str) (l l' : List ScheduledInvocation) :
    argumentsFor name (l ++ l') = argumentsFor name l ++ argumentsFor name l' := by
  unfold argumentsFor
  rw [List.filter_append, List.map_append]

/-- Commands of one collector are not those of another. -/
theorem argumentsFor_eq {name name' : Str} {l : List ScheduledInvocation}
    (h : ∀ i ∈ l, i.collector = name') :
    argumentsFor name l = if name' = name then l.map ScheduledInvocation.arguments else [] := by
  unfold argumentsFor
  split
  · next heq =>
    rw [List.filter_eq_self.mpr fun i hi => decide_eq_true ((h i hi).trans heq)]
  · next hne =>
    rw [List.filter_eq_nil_iff.mpr fun i hi hname => hne ((h i hi).symm.trans
      (of_decide_eq_true hname)), List.map_nil]

section

variable (collectors : CollectorSettings)

theorem snmpInvocations_collector : ∀ i ∈ snmpInvocations collectors.snmp,
    i.collector = str "snmp" := by
  unfold snmpInvocations
  split <;> simp

theorem unifiInvocations_collector : ∀ i ∈ unifiInvocations collectors.unifi,
    i.collector = str "unifi" := by
  unfold unifiInvocations
  split <;> simp

theorem adInvocations_collector : ∀ i ∈ adInvocations collectors.ad, i.collector = str "ad" := by
  unfold adInvocations
  split <;> simp

theorem sshInvocations_collector : ∀ i ∈ sshInvocations collectors.ssh,
    i.collector = str "ssh" := by
  unfold sshInvocations
  split
  · intro i hi
    obtain ⟨group, -, rfl⟩ := List.mem_map.mp hi
    rfl
  · simp

theorem byPlatform_eq (targets : List SshTarget) : byPlatform targets =
    (sortedSet (targets.map SshTarget.platform)).map fun platform =>
      (platform, sortedSet ((targets.filter (SshTarget.platform · = platform)).map
        SshTarget.address)) := by
  unfold byPlatform
  rw [sortedBy_groupBy, List.map_map]
  rfl

theorem mem_byPlatform {targets : List SshTarget} {platform address : Str} :
    (∃ p ∈ byPlatform targets, p.1 = platform ∧ address ∈ p.2) ↔
      ⟨platform, address⟩ ∈ targets := by
  rw [byPlatform_eq]
  constructor
  · rintro ⟨p, hp, rfl, haddress⟩
    obtain ⟨platform, -, rfl⟩ := List.mem_map.mp hp
    obtain ⟨target, htarget, rfl⟩ := List.mem_map.mp (mem_sortedSet.mp haddress)
    obtain ⟨hmem, hplatform⟩ := List.mem_filter.mp htarget
    rw [← of_decide_eq_true hplatform]
    exact hmem
  · intro h
    refine ⟨_, List.mem_map_of_mem (mem_sortedSet.mpr (List.mem_map_of_mem h)), rfl, ?_⟩
    exact mem_sortedSet.mpr (List.mem_map.mpr
      ⟨_, List.mem_filter.mpr ⟨h, decide_eq_true rfl⟩, rfl⟩)

theorem buildInvocations_covers : Covers collectors (buildInvocations collectors) := by
  have hsplit : ∀ name, argumentsFor name (buildInvocations collectors) =
      argumentsFor name (snmpInvocations collectors.snmp) ++
        argumentsFor name (unifiInvocations collectors.unifi) ++
        argumentsFor name (adInvocations collectors.ad) ++
        argumentsFor name (sshInvocations collectors.ssh) := by
    intro name
    unfold buildInvocations
    simp only [argumentsFor_append]
  simp only [argumentsFor_eq (snmpInvocations_collector collectors),
    argumentsFor_eq (unifiInvocations_collector collectors),
    argumentsFor_eq (adInvocations_collector collectors),
    argumentsFor_eq (sshInvocations_collector collectors)] at hsplit
  refine ⟨?_, ?_, ?_, ?_, ?_⟩
  · rw [hsplit, if_pos rfl, if_neg (by decide), if_neg (by decide), if_neg (by decide)]
    unfold snmpInvocations
    split <;> rfl
  · rw [hsplit, if_pos rfl, if_neg (by decide), if_neg (by decide), if_neg (by decide)]
    unfold unifiInvocations
    split
    · rw [List.map_map, List.nil_append, List.append_nil, List.append_nil]
      exact (sortedBy_perm _ _).map _
    · exact .refl _
  · rw [hsplit, if_pos rfl, if_neg (by decide), if_neg (by decide), if_neg (by decide)]
    unfold adInvocations
    cases collectors.ad.enabled <;> rfl
  · rw [hsplit, if_pos rfl, if_neg (by decide), if_neg (by decide), if_neg (by decide)]
    unfold sshInvocations
    cases collectors.ssh.enabled with
    | false => exact ⟨[], rfl, List.nodup_nil, by simp, by simp⟩
    | true =>
      refine ⟨byPlatform collectors.ssh.targets, ?_, ?_, ?_, ?_⟩
      · rw [if_pos rfl, List.map_map]
        rfl
      · rw [byPlatform_eq, List.map_map]
        exact (List.map_id _).symm ▸ nodup_sortedSet _
      · rw [byPlatform_eq]
        intro p hp
        obtain ⟨platform, -, rfl⟩ := List.mem_map.mp hp
        exact nodup_sortedSet _
      · exact fun platform address => mem_byPlatform.trans ⟨fun h => ⟨rfl, h⟩, fun h => h.2⟩
  · intro i hi
    unfold buildInvocations at hi
    simp only [List.mem_append] at hi
    rcases hi with ((hi | hi) | hi) | hi
    · simp [snmpInvocations_collector collectors i hi]
    · simp [unifiInvocations_collector collectors i hi]
    · simp [adInvocations_collector collectors i hi]
    · simp [sshInvocations_collector collectors i hi]

end

end FieldDiscovery.Scheduler
