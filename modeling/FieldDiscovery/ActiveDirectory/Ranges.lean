import FieldDiscovery.ActiveDirectory.Query

/-!
# Ranged group membership

`_expand_group_ranges` of `ad_collection.py`. A server sends a long `member` attribute in ranges, and
the collector asks for the next range of a group until the last one came. Every range is a query of
its own. An answer that starts a range not asked for yet keeps the group going, also when it brings
no further member.
-/

namespace FieldDiscovery.ActiveDirectory

open Py

section

variable (rt : Runtime) (printable : CodePoint → Bool) (limits : Limits)

/-! ## The members of a group -/

/-- `\d` -/
def isDecimal (c : CodePoint) : Bool := if isAscii c then isDigit c else (rt.decimalChar c).isSome

/-- `_MEMBER_RANGE` -/
def memberRange : Pattern :=
  let digits := Re.plus (.chr (isDecimal rt))
  [.re (.wordIgnoreCase "member;range="), .re digits, .re (.lit '-'), .re (.alt digits (.lit '*'))]

/-- The two ends of the range that an attribute names. -/
def rangeEnds (name : Str) : Option (Str × Str) :=
  match fullmatch (memberRange rt) name with
  | some [_, low, _, high] => some (low, high)
  | _ => none

/-- `len(values)` of an attribute. -/
def valueCount : Json → Nat
  | .list items => items.length
  | _ => 1

/-- The local variables that one pass over the attributes sets. -/
structure RangeScan where
  pending : Option (Int × Int) := none
  hasTerminalRange : Bool := false
  totalMembers : Nat := 0

/-- The body of `for name, value in attributes.items()`. -/
def scanAttribute (scan : RangeScan) (item : Str × Json) : Except Exc RangeScan :=
  match rangeEnds rt item.1 with
  | none => .ok scan
  | some (low, high) =>
    let scan := { scan with totalMembers := scan.totalMembers + valueCount item.2 }
    if high = str "*" then .ok { scan with hasTerminalRange := true }
    else
      match parseInt rt low, parseInt rt high with
      | some low, some high => .ok { scan with pending := some (low, high) }
      | _, _ => .error .value

/-- The members that the ranges of a group list. -/
def memberTotal (attributes : Attributes) : Nat :=
  ((attributes.filter fun item => (rangeEnds rt item.1).isSome).map fun item =>
    valueCount item.2).sum

/-- Whether the loop over a group asks for another range. -/
inductive RangeDecision where
  | search (nextStart : Int)
  | stop (issues : List CollectorIssue)

/-- The body of `while True` up to the query. -/
def rangeDecision (group : ADRecord) (seenStarts : List Int) : Except Exc RangeDecision := do
  let scan ← group.attributes.foldlM (scanAttribute rt) {}
  match scan.pending with
  | none => .ok (.stop [])
  | some (_, high) =>
    if scan.hasTerminalRange then .ok (.stop [])
    else if high + 1 ∈ seenStarts ∨ maxAttributeValues ≤ scan.totalMembers then
      .ok (.stop [⟨str "ad_group_range_limit",
        str "membership range stopped safely for " ++ group.key⟩])
    else .ok (.search (high + 1))

/-! ## The loop -/

/-- A group that waits for a range. -/
structure RangeSearch where
  finishedGroups : List ADRecord
  group : ADRecord
  groups : List ADRecord
  seenStarts : List Int
  nextStart : Int
  query : QueryState
  issues : List CollectorIssue

/-- The expansion waits for a range, has returned or has raised. -/
inductive RangeRun where
  | searching (s : RangeSearch)
  | finished (groups : List ADRecord) (issues : List CollectorIssue)
  | raised (e : Exc)

/-- The query for a range of a group. -/
def rangeSpec (s : RangeSearch) : QuerySpec where
  kind := str "group_membership_range"
  base := (first printable s.group.attributes "distinguishedName").getD s.group.key
  ldapFilter := str "(objectClass=*)"
  scope := str "base"
  attributes := [str "distinguishedName", str "objectGUID",
    str "member;range=" ++ intStr s.nextStart ++ str "-*"]
  keyAttribute := "objectGUID"

/-- `for group in groups`, up to the next query. -/
def enterGroups : List ADRecord → List ADRecord → List CollectorIssue → RangeRun
  | finishedGroups, [], issues => .finished finishedGroups issues
  | finishedGroups, group :: groups, issues =>
    match rangeDecision rt group [] with
    | .error e => .raised e
    | .ok (.stop more) => enterGroups (finishedGroups ++ [group]) groups (issues ++ more)
    | .ok (.search nextStart) =>
      .searching { finishedGroups, group, groups, seenStarts := [nextStart], nextStart
                   query := {}, issues }

/-- The body of `while True` after the query. -/
def afterRange (s : RangeSearch) (records : List ADRecord) (issues : List CollectorIssue) :
    RangeRun :=
  match records with
  | [] => enterGroups rt (s.finishedGroups ++ [s.group]) s.groups
      (issues ++ [⟨str "ad_group_range_partial",
        str "membership range unavailable for " ++ s.group.key⟩])
  | record :: _ =>
    let newValues := record.attributes.filter fun item => (rangeEnds rt item.1).isSome
    if newValues.isEmpty then
      enterGroups rt (s.finishedGroups ++ [s.group]) s.groups
        (issues ++ [⟨str "ad_group_range_partial",
          str "membership range malformed for " ++ s.group.key⟩])
    else
      let attributes := newValues.foldl (fun d item => d.set item.1 item.2) s.group.attributes
      let group := { s.group with attributes }
      match rangeDecision rt group s.seenStarts with
      | .error e => .raised e
      | .ok (.stop more) => enterGroups rt (s.finishedGroups ++ [group]) s.groups (issues ++ more)
      | .ok (.search nextStart) =>
        .searching { s with
          group, seenStarts := nextStart :: s.seenStarts, nextStart, query := {}, issues }

/-- One answer of the server. -/
def rangeStep : RangeRun → Response → RangeRun
  | .searching s, response =>
    match queryStep rt printable limits (rangeSpec printable s) (.reading s.query) response with
    | .reading query => .searching { s with query }
    | .finished records issues => afterRange rt s records (s.issues ++ issues)
    | .raised e => .raised e
  | run, _ => run

/-- The expansion has returned or raised. -/
def RangeRun.Final : RangeRun → Prop
  | .searching _ => False
  | _ => True

/-- A page that adds no record to a range that goes on, or a range that raises no group's members
though the group goes on. -/
def rangeIdle (run : RangeRun) (response : Response) : Bool :=
  match run with
  | .searching s =>
    match queryStep rt printable limits (rangeSpec printable s) (.reading s.query) response with
    | .reading query => decide (query.records.length ≤ s.query.records.length)
    | .finished records issues =>
      match afterRange rt s records (s.issues ++ issues) with
      | .searching s' => decide (s'.groups.length = s.groups.length ∧
          memberTotal rt s'.group.attributes ≤ memberTotal rt s.group.attributes)
      | _ => false
    | .raised _ => false
  | _ => false

/-! ## The potential of an expansion -/

/-- The answers that one more member of a group may take. -/
def rangeCost : Nat := limits.maxEntries + 2

/-- The groups that are left, the members that still fit into the group, and the records that still
fit into the range. -/
def rangePotential : RangeRun → Nat
  | .searching s =>
    (s.groups.length * (maxAttributeValues + 1) +
      (maxAttributeValues - memberTotal rt s.group.attributes)) * rangeCost limits +
      queryPotential limits (.reading s.query)
  | _ => 0

variable {rt printable limits}

theorem scanAttribute_total {scan scan' : RangeScan} {item : Str × Json}
    (h : scanAttribute rt scan item = .ok scan') :
    scan'.totalMembers = scan.totalMembers + memberTotal rt [item] := by
  unfold scanAttribute at h
  unfold memberTotal
  cases hends : rangeEnds rt item.1 with
  | none =>
    rw [hends] at h
    cases h
    simp [hends]
  | some ends =>
    obtain ⟨low, high⟩ := ends
    rw [hends] at h
    simp only at h
    split at h
    · cases h
      simp [hends]
    · split at h
      · cases h
        simp [hends]
      · cases h

theorem foldlM_scan_total {attributes : Attributes} {scan scan' : RangeScan}
    (h : attributes.foldlM (scanAttribute rt) scan = .ok scan') :
    scan'.totalMembers = scan.totalMembers + memberTotal rt attributes := by
  induction attributes generalizing scan with
  | nil =>
    cases h
    rfl
  | cons item attributes ih =>
    rw [List.foldlM_cons] at h
    obtain ⟨scan₁, h₁, h⟩ := Except.bind_eq_ok.mp h
    have hsplit : memberTotal rt (item :: attributes) =
        memberTotal rt [item] + memberTotal rt attributes := by
      unfold memberTotal
      rw [← List.singleton_append, List.filter_append, List.map_append, List.sum_append]
    rw [ih h, scanAttribute_total h₁, hsplit, Nat.add_assoc]

/-- A group goes on only below the limit of members. -/
theorem rangeDecision_search {group : ADRecord} {seenStarts : List Int} {nextStart : Int}
    (h : rangeDecision rt group seenStarts = .ok (.search nextStart)) :
    memberTotal rt group.attributes < maxAttributeValues ∧ nextStart ∉ seenStarts := by
  unfold rangeDecision at h
  obtain ⟨scan, hscan, h⟩ := Except.bind_eq_ok.mp h
  have htotal := foldlM_scan_total hscan
  rw [Nat.zero_add] at htotal
  split at h
  · cases h
  · split at h
    · cases h
    · split at h
      · cases h
      · next hgo =>
        cases h
        rw [not_or, not_le, htotal] at hgo
        exact ⟨hgo.2, hgo.1⟩

/-- The groups that are left bound the potential of the group that is entered. -/
theorem rangePotential_enterGroups (rt : Runtime) (limits : Limits)
    (finishedGroups groups : List ADRecord) (issues : List CollectorIssue) :
    rangePotential rt limits (enterGroups rt finishedGroups groups issues) ≤
      groups.length * (maxAttributeValues + 1) * rangeCost limits := by
  induction groups generalizing finishedGroups issues with
  | nil => exact Nat.zero_le _
  | cons group groups ih =>
    unfold enterGroups
    split
    · exact Nat.zero_le _
    · refine (ih _ _).trans (Nat.mul_le_mul_right _ (Nat.mul_le_mul_right _ ?_))
      exact Nat.le_succ _
    · show (groups.length * (maxAttributeValues + 1) +
        (maxAttributeValues - memberTotal rt group.attributes)) * rangeCost limits +
          (limits.maxEntries - 0 + 1) ≤ _
      have hmembers : groups.length * (maxAttributeValues + 1) +
          (maxAttributeValues - memberTotal rt group.attributes) + 1 ≤
          (groups.length + 1) * (maxAttributeValues + 1) := by
        rw [Nat.add_mul, Nat.one_mul]
        omega
      have hscaled := Nat.mul_le_mul_right (rangeCost limits) hmembers
      rw [Nat.add_mul _ 1, Nat.one_mul] at hscaled
      rw [List.length_cons]
      unfold rangeCost at hscaled ⊢
      omega

/-- What a range leads to, besides an end or another group: one more range of the same group. -/
theorem afterRange_cases (rt : Runtime) (s : RangeSearch) (records : List ADRecord)
    (issues : List CollectorIssue) : (∃ e, afterRange rt s records issues = .raised e) ∨
      (∃ finishedGroups issues', afterRange rt s records issues =
        enterGroups rt finishedGroups s.groups issues') ∨
      ∃ s', afterRange rt s records issues = .searching s' ∧ s'.groups = s.groups ∧
        s'.query = {} ∧ memberTotal rt s'.group.attributes < maxAttributeValues := by
  unfold afterRange
  split
  · exact Or.inr (Or.inl ⟨_, _, rfl⟩)
  · simp only
    split
    · exact Or.inr (Or.inl ⟨_, _, rfl⟩)
    · split
      · exact Or.inl ⟨_, rfl⟩
      · exact Or.inr (Or.inl ⟨_, _, rfl⟩)
      · next hdecision =>
        exact Or.inr (Or.inr ⟨_, rfl, rfl, rfl, (rangeDecision_search hdecision).1⟩)

/-- A range that raises the members of its group pays for the next range. -/
theorem sameGroup_lower {left members members' potential : Nat} (hpositive : 1 ≤ potential)
    (hfit : members' < maxAttributeValues) :
    (left + (maxAttributeValues - members')) * rangeCost limits +
        queryPotential limits (.reading {}) + 1 ≤
      (left + (maxAttributeValues - members)) * rangeCost limits + potential +
        if members' ≤ members then (maxAttributeValues + 1) * rangeCost limits else 0 := by
  have hquery : queryPotential limits (.reading {}) + 1 = rangeCost limits := rfl
  rw [Nat.add_assoc, hquery]
  split
  · have hmembers : left + (maxAttributeValues - members') + 1 ≤
        left + (maxAttributeValues - members) + (maxAttributeValues + 1) := by omega
    have hscaled := Nat.mul_le_mul_right (rangeCost limits) hmembers
    rw [Nat.add_mul _ 1, Nat.one_mul, Nat.add_mul _ (maxAttributeValues + 1)] at hscaled
    omega
  · have hmembers : left + (maxAttributeValues - members') + 1 ≤
        left + (maxAttributeValues - members) := by omega
    have hscaled := Nat.mul_le_mul_right (rangeCost limits) hmembers
    rw [Nat.add_mul _ 1, Nat.one_mul] at hscaled
    omega

theorem rangeStep_searching {s : RangeSearch} {response : Response} {run : QueryRun} :
    queryStep rt printable limits (rangeSpec printable s) (.reading s.query) response = run →
    rangeStep rt printable limits (.searching s) response =
      match run with
      | .reading query => .searching { s with query }
      | .finished records issues => afterRange rt s records (s.issues ++ issues)
      | .raised e => .raised e := by
  rintro rfl
  rfl

theorem rangeIdle_searching {s : RangeSearch} {response : Response} {run : QueryRun} :
    queryStep rt printable limits (rangeSpec printable s) (.reading s.query) response = run →
    rangeIdle rt printable limits (.searching s) response =
      match run with
      | .reading query => decide (query.records.length ≤ s.query.records.length)
      | .finished records issues =>
        match afterRange rt s records (s.issues ++ issues) with
        | .searching s' => decide (s'.groups.length = s.groups.length ∧
            memberTotal rt s'.group.attributes ≤ memberTotal rt s.group.attributes)
        | _ => false
      | .raised _ => false := by
  rintro rfl
  rfl

/-- Every answer that adds a record, or a range that adds a member, uses up some potential. -/
theorem range_potential (rt : Runtime) (printable : CodePoint → Bool) (limits : Limits) :
    Answers.Potential (rangeStep rt printable limits) (rangeIdle rt printable limits)
      RangeRun.Final (rangePotential rt limits)
      ((maxAttributeValues + 1) * rangeCost limits) where
  absorbing run response h := by
    cases run with
    | searching s => exact absurd h id
    | finished | raised => rfl
  busy run response h := by
    cases run with
    | searching s => exact absurd h id
    | finished | raised => rfl
  lower run response h := by
    cases run with
    | finished | raised => exact absurd trivial h
    | searching s =>
      have hpositive : 1 ≤ queryPotential limits (.reading s.query) := Nat.le_add_left 1 _
      have hquery := (query_potential rt printable limits (rangeSpec printable s)).lower
        (.reading s.query) response id
      obtain ⟨run, hrun⟩ : ∃ run, queryStep rt printable limits (rangeSpec printable s)
        (.reading s.query) response = run := ⟨_, rfl⟩
      rw [rangeStep_searching hrun, rangeIdle_searching hrun]
      unfold queryIdle at hquery
      rw [hrun] at hquery
      cases run with
      | raised e =>
        simp only [rangePotential]
        omega
      | reading query =>
        have hone : 1 ≤ (maxAttributeValues + 1) * rangeCost limits :=
          Nat.mul_pos (Nat.succ_pos _) (Nat.succ_pos _)
        simp only [rangePotential] at hquery ⊢
        split at hquery
        · next hidle =>
          rw [if_pos hidle]
          omega
        · next hidle =>
          rw [if_neg hidle]
          omega
      | finished records issues =>
        simp only
        rcases afterRange_cases rt s records (s.issues ++ issues) with
          ⟨e, he⟩ | ⟨finishedGroups, issues', he⟩ | ⟨s', he, hgroups, hfresh, hfit⟩
        · simp only [he, rangePotential]
          omega
        · have hnext := rangePotential_enterGroups rt limits finishedGroups s.groups issues'
          have hleft : s.groups.length * (maxAttributeValues + 1) * rangeCost limits ≤
              (s.groups.length * (maxAttributeValues + 1) +
                (maxAttributeValues - memberTotal rt s.group.attributes)) * rangeCost limits :=
            Nat.mul_le_mul_right _ (Nat.le_add_right _ _)
          simp only [he]
          simp only [rangePotential] at hnext ⊢
          omega
        · simp only [he, hgroups, hfresh, rangePotential, true_and, decide_eq_true_eq]
          exact sameGroup_lower hpositive hfit

end

end FieldDiscovery.ActiveDirectory
