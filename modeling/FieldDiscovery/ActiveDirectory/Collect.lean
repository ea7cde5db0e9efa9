import FieldDiscovery.ActiveDirectory.Domains
import FieldDiscovery.ActiveDirectory.Ranges

/-!
# What a collection gathers

The fixed queries of `ad_collection.py`, and the records that `ActiveDirectoryCollector.collect` has
when it calls `_persist`: those of the RootDSE query, then those of every later query that returned. A
query that fails leaves its issue only.
-/

namespace FieldDiscovery.ActiveDirectory

open Py

/-! ## The queries -/

/-- `ROOT_QUERY` -/
def rootQuery : QuerySpec where
  kind := str "root"
  base := []
  ldapFilter := str "(objectClass=*)"
  scope := str "base"
  attributes := rootdseAttributes
  keyAttribute := "defaultNamingContext"

/-- `DOMAIN_ATTRIBUTES` -/
def domainAttributes : List Str :=
  ["distinguishedName", "objectGUID", "name", "objectSid", "msDS-Behavior-Version"].map str

/-- `COMPUTER_ATTRIBUTES` -/
def computerAttributes : List Str :=
  ["distinguishedName", "objectGUID", "sAMAccountName", "dNSHostName", "operatingSystem",
    "operatingSystemVersion", "userAccountControl", "servicePrincipalName"].map str

/-- `SITE_ATTRIBUTES` -/
def siteAttributes : List Str :=
  ["distinguishedName", "objectGUID", "name", "description"].map str

/-- `SUBNET_ATTRIBUTES` -/
def subnetAttributes : List Str :=
  ["distinguishedName", "objectGUID", "name", "siteObject", "location"].map str

/-- `OU_ATTRIBUTES` -/
def ouAttributes : List Str :=
  ["distinguishedName", "objectGUID", "name", "description"].map str

/-- `TRUST_ATTRIBUTES` -/
def trustAttributes : List Str :=
  ["distinguishedName", "objectGUID", "name", "trustDirection", "trustType",
    "trustAttributes"].map str

/-- `GROUP_ATTRIBUTES` -/
def groupAttributes : List Str :=
  ["distinguishedName", "objectGUID", "sAMAccountName", "displayName", "description", "groupType",
    "member"].map str

/-- `_escape_filter` -/
def escapeFilter (value : Str) : Str :=
  value.flatMap fun c =>
    if c = cp '*' then str "\\2a"
    else if c = cp '(' then str "\\28"
    else if c = cp ')' then str "\\29"
    else if c = cp '\\' then str "\\5c"
    else if c.val = 0 then str "\\00"
    else [c]

/-- One of the queries of a kind under a base. -/
def subtreeQuery (kind : String) (base : Str) (ldapFilter : String) (attributes : List Str) :
    QuerySpec where
  kind := str kind
  base
  ldapFilter := str ldapFilter
  scope := str "subtree"
  attributes
  keyAttribute := "objectGUID"

/-- The query for the groups that are documented. -/
def groupQuery (baseDn : Str) (documentationGroups : List Str) : QuerySpec where
  kind := str "group"
  base := baseDn
  ldapFilter := str "(&(objectCategory=group)(|" ++
    (documentationGroups.flatMap fun name =>
      str "(sAMAccountName=" ++ escapeFilter name ++ str ")") ++ str "))"
  scope := str "subtree"
  attributes := groupAttributes
  keyAttribute := "objectGUID"

/-- `_query_specs` -/
def querySpecs (baseDn configurationDn : Str) (documentationGroups : List Str) : List QuerySpec :=
  [{ kind := str "domain", base := baseDn, ldapFilter := str "(objectClass=domainDNS)"
     scope := str "base", attributes := domainAttributes, keyAttribute := "distinguishedName" },
    subtreeQuery "domain_controller" baseDn
      "(&(objectCategory=computer)(userAccountControl:1.2.840.113556.1.4.803:=8192))"
      computerAttributes,
    subtreeQuery "computer" baseDn
      "(&(objectCategory=computer)(!(userAccountControl:1.2.840.113556.1.4.803:=8192)))"
      computerAttributes,
    subtreeQuery "organizational_unit" baseDn "(objectClass=organizationalUnit)" ouAttributes,
    subtreeQuery "trust" baseDn "(objectClass=trustedDomain)" trustAttributes,
    subtreeQuery "site" (str "CN=Sites," ++ configurationDn) "(objectClass=site)" siteAttributes,
    subtreeQuery "subnet" (str "CN=Subnets,CN=Sites," ++ configurationDn) "(objectClass=subnet)"
      subnetAttributes] ++
  if documentationGroups = [] then [] else [groupQuery baseDn documentationGroups]

/-- The kinds of records that are kept as facts. -/
def factKinds : List Str := ["root", "domain", "trust"].map str

/-- The kinds that the table `ad_entities` takes. -/
def entityKinds : List Str :=
  ["site", "subnet", "domain_controller", "computer", "group", "user", "organizational_unit",
    "server_role"].map str

theorem kind_of_mem_querySpecs {baseDn configurationDn : Str} {documentationGroups : List Str}
    {spec : QuerySpec} (h : spec ∈ querySpecs baseDn configurationDn documentationGroups) :
    spec.kind ∈ factKinds ∨ spec.kind ∈ entityKinds := by
  have hkind : spec.kind ∈ ["domain", "domain_controller", "computer", "organizational_unit",
      "trust", "site", "subnet", "group"].map str := by
    unfold querySpecs at h
    rcases List.mem_append.mp h with h | h
    · have hmem : spec.kind ∈ ["domain", "domain_controller", "computer", "organizational_unit",
          "trust", "site", "subnet"].map str := List.mem_map_of_mem (f := QuerySpec.kind) h
      exact List.mem_append_left [str "group"] hmem
    · split at h
      · cases h
      · rw [List.mem_singleton.mp h]
        show str "group" ∈ _
        decide +kernel
  revert hkind
  generalize spec.kind = kind
  revert kind
  decide +kernel

/-! ## What the queries return -/

section

variable (rt : Runtime) (printable : CodePoint → Bool) (limits : Limits)

/-- With some server, `_run_query` returns the records. -/
def QueryReturns (spec : QuerySpec) (records : List ADRecord) : Prop :=
  ∃ server n issues,
    Answers.after (queryStep rt printable limits spec) (.reading {}) server n =
      .finished records issues

/-- With some server, `_expand_group_ranges` leaves the groups with these attributes. -/
def ExpandReturns (groups groups' : List ADRecord) : Prop :=
  ∃ server n issues,
    Answers.after (rangeStep rt printable limits) (enterGroups rt [] groups []) server n =
      .finished groups' issues

/-- The records of the queries that returned, in their order. -/
inductive Gathered (baseDn configurationDn : Str) (documentationGroups : List Str) :
    List ADRecord → Prop
  | root {records : List ADRecord} (hreturns : QueryReturns rt printable limits rootQuery records)
      (hroot : records ≠ []) : Gathered baseDn configurationDn documentationGroups records
  | query {records found : List ADRecord} {spec : QuerySpec}
      (h : Gathered baseDn configurationDn documentationGroups records)
      (hspec : spec ∈ querySpecs baseDn configurationDn documentationGroups)
      (hreturns : QueryReturns rt printable limits spec found) :
      Gathered baseDn configurationDn documentationGroups (records ++ found)
  | groups {records found expanded : List ADRecord} {spec : QuerySpec}
      (h : Gathered baseDn configurationDn documentationGroups records)
      (hspec : spec ∈ querySpecs baseDn configurationDn documentationGroups)
      (hreturns : QueryReturns rt printable limits spec found)
      (hexpand : ExpandReturns rt printable limits found expanded) :
      Gathered baseDn configurationDn documentationGroups (records ++ expanded)

end

variable {rt : Runtime} {printable : CodePoint → Bool} {limits : Limits} {spec : QuerySpec}

/-! ## Their kinds -/

/-- All records are of a kind. -/
def AllOfKind (kind : Str) (records : List ADRecord) : Prop := ∀ record ∈ records, record.kind = kind

theorem addRecord_kind {q : QueryState} (hq : AllOfKind spec.kind q.records) (key : Str)
    (attributes : Attributes) : AllOfKind spec.kind (addRecord spec q key attributes).records := by
  unfold addRecord
  split
  · intro record hrecord
    obtain ⟨i, hi⟩ := List.getElem?_of_mem hrecord
    rw [List.getElem?_modify] at hi
    obtain ⟨old, hold, rfl⟩ := Option.map_eq_some_iff.mp hi
    split
    · rfl
    · exact hq old (List.mem_of_getElem? hold)
  · intro record hrecord
    rcases List.mem_append.mp hrecord with hrecord | hrecord
    · exact hq record hrecord
    · rw [List.mem_singleton.mp hrecord]

theorem readEntries_kind (entries : List Entry) {q : QueryState}
    (hq : AllOfKind spec.kind q.records) :
    AllOfKind spec.kind (readEntries rt printable limits spec entries q).records := by
  induction entries generalizing q with
  | nil => exact hq
  | cons entry entries ih =>
    unfold readEntries
    simp only
    split
    · exact ih hq
    · next key _ =>
      have hadd := addRecord_kind (q := { q with
        filtered := q.filtered + (sanitizeEntry rt entry spec.attributes).2 }) hq key
        (sanitizeEntry rt entry spec.attributes).1
      split
      · exact hadd
      · exact ih hadd

/-- The records of a run are of the kind of its query. -/
def QueryRun.AllOfKind (kind : Str) : QueryRun → Prop
  | .reading q => ActiveDirectory.AllOfKind kind q.records
  | .finished records _ => ActiveDirectory.AllOfKind kind records
  | .raised _ => True

theorem queryStep_kind {run : QueryRun} (hrun : run.AllOfKind spec.kind) (response : Response) :
    (queryStep rt printable limits spec run response).AllOfKind spec.kind := by
  cases run with
  | finished | raised => exact hrun
  | reading q =>
    cases response with
    | failed | cancelled => trivial
    | page p =>
      have hread : AllOfKind spec.kind (readEntries rt printable limits spec p.entries
          { q with issues := q.issues ++ referralIssues spec p }).records :=
        readEntries_kind p.entries hrun
      unfold queryStep readPage
      simp only
      split
      · exact hread
      · split
        · trivial
        · exact hread

theorem QueryReturns.kind {records : List ADRecord}
    (h : QueryReturns rt printable limits spec records) : AllOfKind spec.kind records := by
  obtain ⟨server, n, issues, hrun⟩ := h
  have hall : ∀ n, (Answers.after (queryStep rt printable limits spec) (.reading {}) server
      n).AllOfKind spec.kind := by
    intro n
    induction n with
    | zero => exact fun _ hmem => absurd hmem List.not_mem_nil
    | succ n ih => exact queryStep_kind ih _
  have := hall n
  rwa [hrun] at this

/-- The groups of an expansion are of a kind. -/
def RangeRun.AllOfKind (kind : Str) : RangeRun → Prop
  | .searching s => ActiveDirectory.AllOfKind kind (s.finishedGroups ++ s.group :: s.groups)
  | .finished groups _ => ActiveDirectory.AllOfKind kind groups
  | .raised _ => True

theorem enterGroups_kind {kind : Str} (groups finishedGroups : List ADRecord)
    (issues : List CollectorIssue) (h : AllOfKind kind (finishedGroups ++ groups)) :
    (enterGroups rt finishedGroups groups issues).AllOfKind kind := by
  induction groups generalizing finishedGroups issues with
  | nil =>
    rw [List.append_nil] at h
    exact h
  | cons group groups ih =>
    unfold enterGroups
    split
    · trivial
    · exact ih _ _ (by rwa [← List.append_cons])
    · exact h

theorem afterRange_kind {kind : Str} {s : RangeSearch} (records : List ADRecord)
    (issues : List CollectorIssue)
    (h : AllOfKind kind (s.finishedGroups ++ s.group :: s.groups)) :
    (afterRange rt s records issues).AllOfKind kind := by
  have hnext : AllOfKind kind (s.finishedGroups ++ [s.group] ++ s.groups) := by
    rwa [← List.append_cons]
  -- the attributes of a group may change, its kind does not
  have hsame : ∀ attributes, AllOfKind kind
      (s.finishedGroups ++ { s.group with attributes } :: s.groups) := by
    intro attributes record hrecord
    rcases List.mem_append.mp hrecord with hrecord | hrecord
    · exact h record (List.mem_append_left _ hrecord)
    · rcases List.mem_cons.mp hrecord with rfl | hrecord
      · exact h s.group (List.mem_append_right _ List.mem_cons_self)
      · exact h record (List.mem_append_right _ (List.mem_cons_of_mem _ hrecord))
  unfold afterRange
  split
  · exact enterGroups_kind _ _ _ hnext
  · simp only
    split
    · exact enterGroups_kind _ _ _ hnext
    · split
      · trivial
      · exact enterGroups_kind _ _ _ (by rw [← List.append_cons]; exact hsame _)
      · exact hsame _

theorem rangeStep_kind {kind : Str} {run : RangeRun} (hrun : run.AllOfKind kind)
    (response : Response) : (rangeStep rt printable limits run response).AllOfKind kind := by
  cases run with
  | finished | raised => exact hrun
  | searching s =>
    obtain ⟨query, hquery⟩ : ∃ query, queryStep rt printable limits (rangeSpec printable s)
      (.reading s.query) response = query := ⟨_, rfl⟩
    rw [rangeStep_searching hquery]
    cases query with
    | reading q => exact hrun
    | finished records issues => exact afterRange_kind records _ hrun
    | raised e => trivial

theorem ExpandReturns.kind {kind : Str} {groups groups' : List ADRecord}
    (h : ExpandReturns rt printable limits groups groups') (hgroups : AllOfKind kind groups) :
    AllOfKind kind groups' := by
  obtain ⟨server, n, issues, hrun⟩ := h
  have hall : ∀ n, (Answers.after (rangeStep rt printable limits) (enterGroups rt [] groups [])
      server n).AllOfKind kind := by
    intro n
    induction n with
    | zero => exact enterGroups_kind groups [] [] hgroups
    | succ n ih => exact rangeStep_kind ih _
  have := hall n
  rwa [hrun] at this

variable {baseDn configurationDn : Str} {documentationGroups : List Str}

/-- There is a root record, and every record is of a kind that is stored. -/
theorem Gathered.kinds {records : List ADRecord}
    (h : Gathered rt printable limits baseDn configurationDn documentationGroups records) :
    (∃ record ∈ records, record.kind = str "root") ∧
      ∀ record ∈ records, record.kind ∈ factKinds ∨ record.kind ∈ entityKinds := by
  induction h with
  | root hreturns hroot =>
    have hkind := hreturns.kind
    obtain ⟨record, hrecord⟩ := List.exists_mem_of_ne_nil _ hroot
    refine ⟨⟨record, hrecord, hkind record hrecord⟩, fun record hrecord => Or.inl ?_⟩
    rw [hkind record hrecord]
    decide +kernel
  | query h hspec hreturns ih =>
    obtain ⟨⟨root, hroot, hkind⟩, hkinds⟩ := ih
    refine ⟨⟨root, List.mem_append_left _ hroot, hkind⟩, fun record hrecord => ?_⟩
    rcases List.mem_append.mp hrecord with hrecord | hrecord
    · exact hkinds record hrecord
    · rw [hreturns.kind record hrecord]
      exact kind_of_mem_querySpecs hspec
  | groups h hspec hreturns hexpand ih =>
    obtain ⟨⟨root, hroot, hkind⟩, hkinds⟩ := ih
    refine ⟨⟨root, List.mem_append_left _ hroot, hkind⟩, fun record hrecord => ?_⟩
    rcases List.mem_append.mp hrecord with hrecord | hrecord
    · exact hkinds record hrecord
    · rw [hexpand.kind hreturns.kind record hrecord]
      exact kind_of_mem_querySpecs hspec

end FieldDiscovery.ActiveDirectory
