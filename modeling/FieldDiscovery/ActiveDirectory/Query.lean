import FieldDiscovery.ActiveDirectory.Entries
import FieldDiscovery.Lib.Potential

/-!
# Paged queries

`_run_query` of `ad_collection.py`. A query goes on while the server sends a cookie that it has not
sent before and the entry limit is not reached. A page that adds no record and carries a fresh cookie
makes no headway, and nothing bounds how many of them a server may send.
-/

namespace FieldDiscovery.ActiveDirectory

open Py

/-- The configuration of a collector that bounds its queries. -/
structure Limits where
  maxEntries : Nat
  maxEntries_pos : 1 ≤ maxEntries
  maxEntries_le : maxEntries ≤ 100000

/-- The local variables of `_run_query`. -/
structure QueryState where
  records : List ADRecord := []
  positions : Dict Str Nat := []
  issues : List CollectorIssue := []
  cookie : List Byte := []
  seenCookies : List (List Byte) := []
  filtered : Nat := 0

/-- A query that reads pages, has returned or has raised. -/
inductive QueryRun where
  | reading (q : QueryState)
  | finished (records : List ADRecord) (issues : List CollectorIssue)
  | raised (e : Exc)

section

variable (rt : Runtime) (printable : CodePoint → Bool) (limits : Limits) (spec : QuerySpec)

/-- The key of an entry. -/
def entryKey (attributes : Attributes) : Option Str :=
  (first printable attributes spec.keyAttribute).or
    (first printable attributes "distinguishedName")

/-- The record of an entry that has a key: an entry of a known key is merged into its record. -/
def addRecord (q : QueryState) (key : Str) (attributes : Attributes) : QueryState :=
  match q.positions.get key with
  | some position =>
    { q with records := q.records.modify position fun record =>
        { kind := spec.kind, key
          attributes := attributes.foldl (fun d item => d.set item.1 item.2) record.attributes } }
  | none =>
    { q with
      positions := q.positions.set key q.records.length
      records := q.records ++ [{ kind := spec.kind, key, attributes }] }

/-- `for entry in page.entries`, which breaks at the entry limit. -/
def readEntries : List Entry → QueryState → QueryState
  | [], q => q
  | entry :: entries, q =>
    let (attributes, removed) := sanitizeEntry rt entry spec.attributes
    let q := { q with filtered := q.filtered + removed }
    match entryKey printable spec attributes with
    | none =>
      readEntries entries { q with issues := q.issues ++
        [⟨str "ad_malformed_entry", str "entry omitted for " ++ spec.kind⟩] }
    | some key =>
      let q := addRecord spec q key attributes
      if limits.maxEntries ≤ q.records.length then
        { q with issues := q.issues ++
          [⟨str "ad_entry_limit", str "entry limit reached for " ++ spec.kind⟩] }
      else readEntries entries q

/-- The issue about referrals of a page. -/
def referralIssues (page : LDAPPage) : List CollectorIssue :=
  if page.referrals = [] then []
  else [⟨str "ad_referral_not_followed", natStr page.referrals.length ++
    str " referrals not followed for " ++ spec.kind⟩]

/-- What `_run_query` returns. -/
def finishQuery (q : QueryState) : QueryRun :=
  .finished q.records (q.issues ++ if q.filtered = 0 then [] else
    [⟨str "ad_attributes_filtered", natStr q.filtered ++
      str " unapproved attributes filtered for " ++ spec.kind⟩])

/-- The body of `while True` after the search. -/
def readPage (q : QueryState) (page : LDAPPage) : QueryRun :=
  let q := { q with issues := q.issues ++ referralIssues spec page }
  let q := readEntries rt printable limits spec page.entries q
  if page.cookie = [] ∨ limits.maxEntries ≤ q.records.length then finishQuery spec q
  else if page.cookie ∈ q.seenCookies then
    .raised (.adCollection (str "AD paging cookie repeated"))
  else .reading { q with seenCookies := page.cookie :: q.seenCookies, cookie := page.cookie }

/-- One turn of `while True`. -/
def queryStep : QueryRun → Response → QueryRun
  | .reading q, .page p => readPage rt printable limits spec q p
  | .reading _, .failed e => .raised e
  | .reading _, .cancelled => .raised .cancelled
  | run, _ => run

/-- The query has returned or raised. -/
def QueryRun.Final : QueryRun → Prop
  | .reading _ => False
  | _ => True

instance : DecidablePred QueryRun.Final
  | .reading _ => isFalse id
  | .finished _ _ => isTrue trivial
  | .raised _ => isTrue trivial

/-- A page that adds no record to a query that goes on. -/
def queryIdle (run : QueryRun) (response : Response) : Bool :=
  match run, queryStep rt printable limits spec run response with
  | .reading q, .reading q' => decide (q'.records.length ≤ q.records.length)
  | _, _ => false

/-! ## The potential of a query -/

/-- The records that still fit. -/
def queryPotential : QueryRun → Nat
  | .reading q => limits.maxEntries - q.records.length + 1
  | _ => 0

variable {rt printable limits spec}

theorem length_addRecord (q : QueryState) (key : Str) (attributes : Attributes) :
    q.records.length ≤ (addRecord spec q key attributes).records.length := by
  unfold addRecord
  split <;> simp

theorem length_readEntries (entries : List Entry) (q : QueryState) :
    q.records.length ≤ (readEntries rt printable limits spec entries q).records.length := by
  induction entries generalizing q with
  | nil => exact le_rfl
  | cons entry entries ih =>
    let counted : QueryState :=
      { q with filtered := q.filtered + (sanitizeEntry rt entry spec.attributes).2 }
    unfold readEntries
    simp only
    split
    · exact ih { counted with issues := _ }
    · next key _ =>
      have hadd : q.records.length ≤ (addRecord spec counted key _).records.length :=
        length_addRecord counted key (sanitizeEntry rt entry spec.attributes).1
      split
      · exact hadd
      · exact hadd.trans (ih _)

/-- A query that goes on after a page keeps its records and is below the limit. -/
theorem readPage_reading {q q' : QueryState} {page : LDAPPage}
    (h : readPage rt printable limits spec q page = .reading q') :
    q.records.length ≤ q'.records.length ∧ q'.records.length < limits.maxEntries := by
  unfold readPage at h
  simp only at h
  split at h
  · cases h
  · next hmore =>
    split at h
    · cases h
    · cases h
      exact ⟨length_readEntries page.entries
        { q with issues := q.issues ++ referralIssues spec page },
        not_le.mp (not_or.mp hmore).2⟩

/-- Every page that adds a record uses up a place below the limit. -/
theorem query_potential (rt : Runtime) (printable : CodePoint → Bool) (limits : Limits)
    (spec : QuerySpec) :
    Answers.Potential (queryStep rt printable limits spec) (queryIdle rt printable limits spec)
      QueryRun.Final (queryPotential limits) 1 where
  absorbing run response h := by
    cases run with
    | reading q => exact absurd h id
    | finished | raised => rfl
  busy run response h := by
    cases run with
    | reading q => exact absurd h id
    | finished | raised => rfl
  lower run response h := by
    cases run with
    | finished | raised => exact absurd trivial h
    | reading q =>
      unfold queryIdle
      cases hstep : queryStep rt printable limits spec (.reading q) response with
      | finished | raised => simp [queryPotential]
      | reading q' =>
        cases response with
        | failed | cancelled => cases hstep
        | page p =>
          obtain ⟨hgrow, hfit⟩ := readPage_reading hstep
          unfold queryPotential
          simp only [decide_eq_true_eq]
          split <;> omega

end

end FieldDiscovery.ActiveDirectory
