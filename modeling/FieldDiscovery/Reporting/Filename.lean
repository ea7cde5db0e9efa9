import FieldDiscovery.Lib.Datetime
import FieldDiscovery.Artifacts.SafeFilename
import FieldDiscovery.Redaction.Untouched

/-!
# The name of a report

How `generate_reports` names the files of a report, and what `_validate_report_filename` accepts.

The label `customer-site-Network-Discovery-date` is made of safe stems, so sanitizing it again
changes nothing but its length: `safe_filename` cuts at 100 letters, while the report convention
leaves 181 letters for the part before `-Network-Discovery-`. The names can be published when they
leave room for the date (`Dated`) and show no registered secret.
-/

namespace FieldDiscovery.Reporting

open Py Redaction Artifacts

/-- `_REPORT_FILENAME` -/
def reportFilename : Pattern :=
  [.re (.chr isAsciiAlnum), .re (.upTo 180 (.chr isNameChar)), .re (.word "-Network-Discovery-"),
    .re (.times 8 (.chr isDigit)), .re (.word ".docx")]

/-- `match.group("date")` -/
def dateGroup (pieces : List Str) : Str := pieces.getD 3 []

/-- `_validate_report_filename`, with the date it accepts. -/
def validateReportFilename (rt : Runtime) (r : Redactor) (name : Str) : Except Exc Str :=
  let unconventional : Exc :=
    .report (str "DOCX filename does not match the production report convention")
  match fullmatch reportFilename name with
  | none => .error unconventional
  | some pieces => do
    let text ← r.text rt name
    if text ≠ name then .error unconventional
    else
      match Datetime.parseCompactDate (dateGroup pieces) with
      | none => .error (.report (str "DOCX filename contains an invalid report date"))
      | some _ => .ok (dateGroup pieces)

/-- `label` of `generate_reports`. -/
def reportLabel (customerLabel siteLabel : Str) (generatedAt : Datetime) : Str :=
  customerLabel ++ str "-" ++ siteLabel ++ str "-Network-Discovery-" ++ generatedAt.compactDate

/-- `basename` of `generate_reports`. -/
def reportBasename (rt : Runtime) (r : Redactor) (customerName siteName : Str)
    (generatedAt : Datetime) : Except Exc Str := do
  let customerLabel ← safeFilename rt r customerName []
  let siteLabel ← safeFilename rt r siteName []
  safeFilename rt r (reportLabel customerLabel siteLabel generatedAt) []

/-- The name of the DOCX file. -/
def docxName (basename : Str) : Str := basename ++ str ".docx"

/-- The name of the JSON file. -/
def jsonName (basename : Str) : Str := basename ++ str ".json"

/-! ## The convention -/

/-- The end of a conforming base name. -/
def datedEnd (date : Str) : Str := str "-Network-Discovery-" ++ date

theorem mem_reportFilename {name : Str} {pieces : List Str} :
    (pieces, []) ∈ matchParts reportFilename [] none name ↔ ∃ c u date, isAsciiAlnum c = true ∧
      u.length ≤ 180 ∧ u.all isNameChar = true ∧ date.length = 8 ∧ date.all isDigit = true ∧
      name = docxName (c :: u ++ datedEnd date) ∧
      pieces = [[c], u, str "-Network-Discovery-", date, str ".docx"] := by
  unfold reportFilename
  simp only [mem_matchParts_re, Re.mem_run_chr, Re.mem_run_upTo_chr, Re.mem_run_word,
    Re.mem_run_times_chr]
  constructor
  · rintro ⟨⟨u₁, t₁⟩, ⟨c, hc, rfl, rfl⟩, ⟨u₂, t₂⟩, ⟨hlen, hall, rfl⟩, ⟨u₃, t₃⟩, ⟨rfl, rfl⟩,
      ⟨u₄, t₄⟩, ⟨h8, hdigits, rfl⟩, ⟨u₅, t₅⟩, ⟨rfl, rfl⟩, hend⟩
    rw [matchParts, List.mem_singleton, Prod.mk.injEq] at hend
    obtain ⟨rfl, rfl⟩ := hend
    exact ⟨c, u₂, u₄, hc, hlen, hall, h8, hdigits, by simp [docxName, datedEnd], by simp⟩
  · rintro ⟨c, u, date, hc, hlen, hall, h8, hdigits, rfl, rfl⟩
    have hname : docxName (c :: u ++ datedEnd date) =
        c :: (u ++ (str "-Network-Discovery-" ++ (date ++ str ".docx"))) := by
      simp [docxName, datedEnd]
    refine ⟨⟨[c], u ++ (str "-Network-Discovery-" ++ (date ++ str ".docx"))⟩, ⟨c, hc, rfl, hname⟩,
      ⟨u, str "-Network-Discovery-" ++ (date ++ str ".docx")⟩, ⟨hlen, hall, rfl⟩,
      ⟨str "-Network-Discovery-", date ++ str ".docx"⟩, ⟨rfl, rfl⟩,
      ⟨date, str ".docx"⟩, ⟨h8, hdigits, rfl⟩, ⟨str ".docx", []⟩, ⟨rfl, List.append_nil _⟩, ?_⟩
    simp [matchParts]

/-- The date group is what stands before the extension. -/
theorem fullmatch_reportFilename {base : Str} {pieces : List Str}
    (h : fullmatch reportFilename (docxName base) = some pieces) :
    datedEnd (dateGroup pieces) <:+ base := by
  obtain ⟨c, u, date, -, -, -, -, -, hname, rfl⟩ := mem_reportFilename.mp (fullmatch_eq_some h)
  have hbase : base = c :: u ++ datedEnd date := List.append_cancel_right hname
  rw [hbase]
  exact List.suffix_append _ _

/-- A safe stem of at most 100 letters with a date conforms, and its date group is that date. -/
theorem exists_fullmatch_reportFilename {base date : Str} (hbase : SafeStem base)
    (hlen : base.length ≤ 100) (h8 : date.length = 8) (hdigits : date.all isDigit = true)
    (hend : datedEnd date <:+ base) :
    ∃ pieces, fullmatch reportFilename (docxName base) = some pieces ∧ dateGroup pieces = date := by
  obtain ⟨v, rfl⟩ := hend
  cases v with
  | nil => exact absurd (hbase.head (cp '-') rfl) (by decide)
  | cons c u =>
    have hchars := hbase.chars
    simp only [List.cons_append, List.all_cons, List.all_append, Bool.and_eq_true] at hchars
    have hmem : ([[c], u, str "-Network-Discovery-", date, str ".docx"], []) ∈
        matchParts reportFilename [] none (docxName (c :: u ++ datedEnd date)) := by
      refine mem_reportFilename.mpr ⟨c, u, date, ?_, ?_, hchars.2.1, h8, hdigits, rfl, rfl⟩
      · exact alnum_of_name hchars.1 (hbase.head c rfl)
      · simp only [List.length_append, List.length_cons] at hlen
        omega
    obtain ⟨pieces, hpieces⟩ := exists_fullmatch hmem
    obtain ⟨c', u', date', -, -, -, h8', -, hname, rfl⟩ :=
      mem_reportFilename.mp (fullmatch_eq_some hpieces)
    refine ⟨_, hpieces, ?_⟩
    have hbase' : c :: u ++ datedEnd date = c' :: u' ++ datedEnd date' :=
      List.append_cancel_right hname
    have hdates : datedEnd date = datedEnd date' :=
      (List.append_inj' hbase' (by simp [datedEnd, h8, h8'])).2
    exact (List.append_cancel_left hdates).symm

/-! ## The label -/

theorem safeStem_date (d : Datetime) : SafeStem d.compactDate := by
  obtain ⟨h8, hdigits, -⟩ := d.compactDate_spec
  apply SafeStem.of_alnum
  · rw [← List.length_pos_iff, h8]
    omega
  · rw [List.all_eq_true] at hdigits ⊢
    intro c hc
    rw [isAsciiAlnum, hdigits c hc]
    rfl

theorem reportLabel_stem {customerLabel siteLabel : Str} (hc : SafeStem customerLabel)
    (hs : SafeStem siteLabel) (d : Datetime) :
    SafeStem (reportLabel customerLabel siteLabel d) := by
  have hNetwork : SafeStem (str "Network") := SafeStem.of_alnum (by decide) (by decide)
  have hDiscovery : SafeStem (str "Discovery") := SafeStem.of_alnum (by decide) (by decide)
  have hjoined := (((hc.dash hs).dash hNetwork).dash hDiscovery).dash (safeStem_date d)
  have hsplit : str "-Network-Discovery-" =
      str "-" ++ (str "Network" ++ (str "-" ++ (str "Discovery" ++ str "-"))) := by decide
  rw [reportLabel, hsplit]
  simpa only [List.append_assoc] using hjoined

/-- What sanitizing makes of a redacted text. -/
def portable (rt : Runtime) (cleaned : Str) : Str := bounded 100 (slug (asciiLabel rt cleaned))

/-- What the length limit leaves of a label. -/
def cut (label : Str) : Str := (label.take 100).rdropWhile isSeparator

section

variable (rt : Runtime) (r : Redactor)

theorem portable_stem (cleaned : Str) : SafeStem (portable rt cleaned) :=
  (bounded_stem (slug_start _) (by omega)).1

theorem portable_redacted {cleaned : Str} (h : redacted <:+: cleaned) :
    portable rt cleaned = str "artifact" := by
  have hascii : asciiLabel rt cleaned = str "artifact" := by
    rw [asciiLabel, contains, if_pos (by simpa using h)]
    exact nfkdAscii_eq_self rt SafeStem.artifact.chars
  rw [portable, hascii, slug_eq_self SafeStem.artifact]
  exact bounded_eq_self SafeStem.artifact (by decide)

theorem portable_eq_cut {label : Str} (h : SafeStem label) : portable rt label = cut label := by
  have hplain : ¬ redacted <:+: label := by
    intro hinfix
    have hbracket : cp '[' ∈ label := hinfix.subset (by decide)
    exact absurd (List.all_eq_true.mp h.chars _ hbracket) (by decide)
  have hascii : asciiLabel rt label = label := by
    rw [asciiLabel, contains, if_neg (by simpa using hplain)]
    exact nfkdAscii_eq_self rt h.chars
  rw [portable, hascii, slug_eq_self h]
  exact (bounded_stem h.toSafeStart (by omega)).2

theorem cut_stem {label : Str} (h : SafeStem label) : SafeStem (cut label) :=
  (h.toSafeStart.take (by omega)).rstrip

theorem cut_length_le (label : Str) : (cut label).length ≤ 100 :=
  (List.rdropWhile_prefix _ _).length_le.trans (List.length_take_le _ _)

theorem cut_eq_self {label : Str} (h : SafeStem label) (hlen : label.length ≤ 100) :
    cut label = label := by
  rw [cut, List.take_of_length_le hlen, h.rstrip_eq_self]

theorem safeFilename_eq_ok {name stem : Str} (h : safeFilename rt r name [] = .ok stem) :
    ∃ cleaned, r.text rt name = .ok cleaned ∧ portable rt cleaned = stem := by
  rw [safeFilename_eq] at h
  cases htext : r.text rt name with
  | error e => simp [htext, Except.map] at h
  | ok cleaned =>
    rw [htext] at h
    exact ⟨cleaned, rfl, Except.ok.inj h⟩

theorem safeFilename_stem {name stem : Str} (h : safeFilename rt r name [] = .ok stem) :
    SafeStem stem := by
  obtain ⟨cleaned, -, rfl⟩ := safeFilename_eq_ok rt r h
  exact portable_stem rt cleaned

end

/-! ## Names that leave room for the date -/

/-- What the length limit leaves in front of the date: the joined names, where they have at most 73
letters, or else what stands in them before the dated end of the report, where they hold it at the
place of the cut. -/
inductive Dated (date joined : Str) : Str → Prop where
  | room : joined.length ≤ 73 → Dated date joined joined
  | held {front back : Str} : joined = front ++ datedEnd date ++ back →
      front.length = 73 ∨ front.length = 72 ∧ (∀ c ∈ back.head?, isSeparator c = true) →
      Dated date joined front

section

variable {date joined front : Str} (h8 : date.length = 8) (hdigits : date.all isDigit = true)

theorem datedEnd_cons (date : Str) :
    datedEnd date = cp '-' :: cp 'N' :: (str "etwork-Discovery-" ++ date) := rfl

include h8

theorem datedEnd_length : (datedEnd date).length = 27 := by
  rw [datedEnd, List.length_append, h8]
  rfl

include hdigits

theorem getLast?_datedEnd : ∃ u d, datedEnd date = u ++ [d] ∧ isDigit d = true := by
  rcases List.eq_nil_or_concat' date with rfl | ⟨u, d, rfl⟩
  · cases h8
  · refine ⟨str "-Network-Discovery-" ++ u, d, by rw [datedEnd, List.append_assoc], ?_⟩
    exact List.all_eq_true.mp hdigits d (List.mem_append_right _ (List.mem_singleton_self d))

theorem rdropWhile_datedEnd (u : Str) :
    (u ++ datedEnd date).rdropWhile isSeparator = u ++ datedEnd date := by
  obtain ⟨v, d, hv, hd⟩ := getLast?_datedEnd h8 hdigits
  have hsep : isSeparator d = false :=
    not_separator_of_alnum (by rw [isAsciiAlnum, hd]; rfl)
  rw [hv, ← List.append_assoc]
  exact List.rdropWhile_concat_neg _ _ _ (by rw [hsep]; exact Bool.false_ne_true)

/-- No end of the dated end is the start of another. -/
theorem datedEnd_border {x y : Str} (h : x ++ y = datedEnd date) (hx : x ≠ [])
    (hy : y <+: datedEnd date) : y = [] := by
  cases y with
  | nil => rfl
  | cons c y =>
    rw [datedEnd_cons, List.cons_prefix_cons] at hy
    obtain ⟨rfl, hy⟩ := hy
    obtain ⟨a, x, rfl⟩ := List.exists_cons_of_ne_nil hx
    cases y with
    | nil =>
      -- a dash is no digit
      obtain ⟨u, d, hu, hd⟩ := getLast?_datedEnd h8 hdigits
      rw [hu] at h
      obtain rfl : cp '-' = d := List.singleton_inj.mp (List.append_inj' h rfl).2
      exact absurd hd (by decide)
    | cons e y =>
      obtain ⟨rfl, -⟩ := List.cons_prefix_cons.mp hy
      have hmem : cp 'N' ∈ (datedEnd date).drop 2 := by
        rw [← h]
        cases x <;> simp
      have htail : (datedEnd date).drop 2 = str "etwork-Discovery-" ++ date := rfl
      rw [htail, List.mem_append] at hmem
      rcases hmem with hmem | hmem
      · exact absurd hmem (by decide)
      · exact absurd (List.all_eq_true.mp hdigits _ hmem) (by decide)

/-- A dated end that the cut leaves stands in the names themselves. -/
theorem exists_back (hpre : front ++ datedEnd date <+: joined ++ datedEnd date)
    (hlt : front.length < joined.length) : ∃ back, joined = front ++ datedEnd date ++ back := by
  rcases prefix_or_prefix hpre with ⟨back, hback⟩ | ⟨y, hy⟩
  · exact ⟨back, hback.symm⟩
  · obtain ⟨x, rfl⟩ : front <+: joined := by
      refine List.prefix_of_prefix_length_le (List.prefix_append front (datedEnd date)) ?_ hlt.le
      exact ⟨y, hy⟩
    have hxy : x ++ y = datedEnd date := by
      rw [List.append_assoc] at hy
      exact List.append_cancel_left hy
    have hx : x ≠ [] := by
      rintro rfl
      rw [List.append_nil] at hlt
      exact Nat.lt_irrefl _ hlt
    have hprefix : y <+: datedEnd date := by
      rw [← hy] at hpre
      exact (List.prefix_append_right_inj _).mp hpre
    have hnil := datedEnd_border h8 hdigits hxy hx hprefix
    rw [hnil, List.append_nil] at hxy
    exact ⟨[], by rw [hxy, List.append_nil]⟩

theorem Dated.cut_eq (h : Dated date joined front) (hstem : SafeStem (joined ++ datedEnd date)) :
    cut (joined ++ datedEnd date) = front ++ datedEnd date := by
  have h27 := datedEnd_length h8
  cases h with
  | room hlen =>
    apply cut_eq_self hstem
    rw [List.length_append]
    omega
  | @held _ back hjoined hlen =>
    rw [hjoined, cut]
    rcases hlen with h73 | ⟨h72, hback⟩
    · have htake : (front ++ datedEnd date ++ back ++ datedEnd date).take 100 =
          front ++ datedEnd date := by
        rw [List.append_assoc]
        exact List.take_left' (by rw [List.length_append]; omega)
      rw [htake, rdropWhile_datedEnd h8 hdigits]
    · -- one letter is left over, a separator
      obtain ⟨x, rest, hx, hsep⟩ : ∃ x rest, back ++ datedEnd date = x :: rest ∧
          isSeparator x = true := by
        cases back with
        | nil => exact ⟨cp '-', _, rfl, rfl⟩
        | cons x back => exact ⟨x, _, rfl, hback x rfl⟩
      have htake : (front ++ datedEnd date ++ back ++ datedEnd date).take 100 =
          front ++ datedEnd date ++ [x] := by
        rw [List.append_assoc, hx, ← List.singleton_append, ← List.append_assoc]
        refine List.take_left' ?_
        simp only [List.length_append, List.length_singleton]
        omega
      rw [htake, List.rdropWhile_concat_pos _ _ _ hsep, rdropWhile_datedEnd h8 hdigits]

theorem exists_dated (hstem : SafeStem (joined ++ datedEnd date))
    (h : datedEnd date <:+ cut (joined ++ datedEnd date)) : ∃ front, Dated date joined front := by
  have h27 := datedEnd_length h8
  by_cases hroom : joined.length ≤ 73
  · exact ⟨joined, .room hroom⟩
  obtain ⟨front, hfront⟩ := h
  have htake : (joined ++ datedEnd date).take 100 <+: joined ++ datedEnd date := List.take_prefix _ _
  have hspaced := (hstem.toSafeStart.take (n := 100) (by omega)).spaced
  have hlen : ((joined ++ datedEnd date).take 100).length = 100 := by
    rw [List.length_take, List.length_append]
    omega
  rw [cut] at hfront
  generalize (joined ++ datedEnd date).take 100 = t at hfront htake hspaced hlen
  rcases List.eq_nil_or_concat' t with rfl | ⟨u, x, rfl⟩
  · cases hlen
  by_cases hx : isSeparator x = true
  · -- the separators are spaced, so one letter is stripped
    have hu : u.rdropWhile isSeparator = u := by
      rw [List.rdropWhile_eq_self_iff]
      intro hne hlast
      have hchain := List.isChain_append.mp hspaced
      have hboth := hchain.2.2 _ (List.getLast?_eq_some_getLast hne) x rfl
      rw [hlast, hx] at hboth
      simp at hboth
    rw [List.rdropWhile_concat_pos _ _ _ hx, hu] at hfront
    subst hfront
    have hfrontLen : front.length = 72 := by
      simp only [List.length_append, List.length_singleton] at hlen
      omega
    obtain ⟨back, rfl⟩ := exists_back h8 hdigits
      ((List.prefix_append _ [x]).trans htake) (by omega)
    refine ⟨front, .held rfl (.inr ⟨hfrontLen, fun c hc => ?_⟩)⟩
    rw [List.append_assoc (front ++ datedEnd date), List.prefix_append_right_inj] at htake
    obtain ⟨d, back, rfl⟩ := List.exists_cons_of_ne_nil (l := back) (by rintro rfl; cases hc)
    obtain rfl := Option.some.inj hc
    rwa [← (List.cons_prefix_cons.mp htake).1]
  · rw [List.rdropWhile_concat_neg _ _ _ hx] at hfront
    rw [← hfront] at htake hlen
    have hfrontLen : front.length = 73 := by
      rw [List.length_append] at hlen
      omega
    obtain ⟨back, rfl⟩ := exists_back h8 hdigits htake (by omega)
    exact ⟨front, .held rfl (.inl hfrontLen)⟩

end

section

variable (rt : Runtime) (r : Redactor)

/-! ## Accepted names -/

/-- The validator accepts the name that is built, with the date of the report. -/
def Publishable (customerName siteName : Str) (generatedAt : Datetime) : Prop :=
  ∃ basename, reportBasename rt r customerName siteName generatedAt = .ok basename ∧
    validateReportFilename rt r (docxName basename) = .ok generatedAt.compactDate

/-- The two names, the date and the secrets fit: both names have a label, the labels leave room for
the date, and neither the joined name nor what is published of it shows a registered secret. -/
structure Fits (secrets : List Str) (customerName siteName : Str) (generatedAt : Datetime)
    (customer site front : Str) : Prop where
  customer_label : safeFilename rt r customerName [] = .ok customer
  site_label : safeFilename rt r siteName [] = .ok site
  dated : Dated generatedAt.compactDate (customer ++ str "-" ++ site) front
  label_plain : ∀ secret ∈ secrets, 4 ≤ secret.length →
    ¬ Shows rt secret (customer ++ str "-" ++ site ++ datedEnd generatedAt.compactDate)
  name_plain : ∀ secret ∈ secrets, 4 ≤ secret.length →
    ¬ Shows rt secret (docxName (front ++ datedEnd generatedAt.compactDate))

theorem validateReportFilename_eq_ok {name date : Str} :
    validateReportFilename rt r name = .ok date ↔
      ∃ pieces, fullmatch reportFilename name = some pieces ∧ r.text rt name = .ok name ∧
        dateGroup pieces = date ∧ (Datetime.parseCompactDate date).isSome = true := by
  unfold validateReportFilename
  cases hmatch : fullmatch reportFilename name with
  | none => simp
  | some pieces =>
    cases htext : r.text rt name with
    | error e => simp [bind, Except.bind]
    | ok text =>
      simp only [Except.ok_bind, Option.some.injEq, Except.ok.injEq, exists_eq_left']
      by_cases heq : text = name
      · rw [if_neg (not_not.mpr heq)]
        cases hdate : Datetime.parseCompactDate (dateGroup pieces) with
        | none =>
          simp only [reduceCtorEq, false_iff, not_and]
          rintro - rfl
          simp [hdate]
        | some ymd =>
          simp only [Except.ok.injEq, heq, true_and]
          constructor
          · rintro rfl
            exact ⟨rfl, by simp [hdate]⟩
          · exact And.left
      · simp [heq]

theorem not_isMark_of_name {c : CodePoint} (h : isNameChar c = true) : ¬ IsMark c ∧ c ≠ cp '[' := by
  have hother : (str "%+:=>[").all (fun d => !isNameChar d) = true := by decide
  have hnot : c ∉ str "%+:=>[" := by
    intro hc
    have hno := List.all_eq_true.mp hother c hc
    rw [h] at hno
    cases hno
  refine ⟨fun hmark => hnot (List.mem_append_left (str "[") hmark), ?_⟩
  rintro rfl
  exact hnot (by decide)

/-- A name stays as it is exactly when it shows no registered secret. -/
theorem text_name_iff {so : SetOrder} {secrets : List Str} (hr : Redactor.new rt so secrets = .ok r)
    {name : Str} (hne : name ≠ []) (hchars : name.all isNameChar = true) :
    r.text rt name = .ok name ↔ ∀ secret ∈ secrets, 4 ≤ secret.length → ¬ Shows rt secret name := by
  have hname := List.all_eq_true.mp hchars
  refine text_eq_self_iff_shows hr hne (fun c hc => (not_isMark_of_name (hname c hc)).1) ?_
  exact fun hc => (not_isMark_of_name (hname _ hc)).2 rfl

theorem docxName_ne_nil (stem : Str) : docxName stem ≠ [] :=
  List.append_ne_nil_of_right_ne_nil _ (by decide)

theorem docxName_chars {stem : Str} (h : SafeStem stem) : (docxName stem).all isNameChar = true := by
  rw [docxName, List.all_append, h.chars]
  rfl

theorem reportLabel_eq (customer site : Str) (d : Datetime) :
    reportLabel customer site d = customer ++ str "-" ++ site ++ datedEnd d.compactDate := by
  simp [reportLabel, datedEnd]

/-- A configured pair of names gives an accepted report name exactly when it fits. -/
theorem publishable_iff_fits {so : SetOrder} {secrets : List Str}
    (hr : Redactor.new rt so secrets = .ok r) (customerName siteName : Str) (generatedAt : Datetime) :
    Publishable rt r customerName siteName generatedAt ↔
      ∃ customer site front, Fits rt r secrets customerName siteName generatedAt customer site front := by
  obtain ⟨h8, hdigits, hparse⟩ := generatedAt.compactDate_spec
  constructor
  · rintro ⟨basename, hbase, hvalid⟩
    obtain ⟨customer, hcustomer, hbase⟩ := Except.bind_eq_ok.mp hbase
    obtain ⟨site, hsite, hlabel⟩ := Except.bind_eq_ok.mp hbase
    obtain ⟨pieces, hmatch, hname, hdate, -⟩ := (validateReportFilename_eq_ok rt r).mp hvalid
    have hend : datedEnd generatedAt.compactDate <:+ basename :=
      hdate ▸ fullmatch_reportFilename hmatch
    have hstem := reportLabel_stem (safeFilename_stem rt r hcustomer) (safeFilename_stem rt r hsite)
      generatedAt
    obtain ⟨cleaned, htext, hportable⟩ := safeFilename_eq_ok rt r hlabel
    rcases Redactor.text_eq_or_redacted htext with rfl | hredacted
    · rw [portable_eq_cut rt hstem] at hportable
      have hplain := (text_name_iff rt r hr hstem.ne_nil hstem.chars).mp htext
      rw [reportLabel_eq] at hstem hportable hplain
      subst hportable
      obtain ⟨front, hdated⟩ := exists_dated h8 hdigits hstem hend
      have hcut := hdated.cut_eq h8 hdigits hstem
      have hcutStem := cut_stem hstem
      rw [hcut] at hname hcutStem
      exact ⟨customer, site, front, hcustomer, hsite, hdated, hplain,
        (text_name_iff rt r hr (docxName_ne_nil _) (docxName_chars hcutStem)).mp hname⟩
    · -- the whole label would be replaced by a word without a date
      rw [portable_redacted rt hredacted] at hportable
      have hlen := hend.length_le
      rw [← hportable, datedEnd_length h8] at hlen
      exact absurd hlen (by decide)
  · rintro ⟨customer, site, front, hfits⟩
    have hstem := reportLabel_stem (safeFilename_stem rt r hfits.customer_label)
      (safeFilename_stem rt r hfits.site_label) generatedAt
    have hlabel := hfits.label_plain
    rw [← reportLabel_eq, ← text_name_iff rt r hr hstem.ne_nil hstem.chars] at hlabel
    have hcut := hfits.dated.cut_eq h8 hdigits (reportLabel_eq customer site generatedAt ▸ hstem)
    rw [← reportLabel_eq] at hcut
    have hcutStem := hcut ▸ cut_stem hstem
    have hcutLen := hcut ▸ cut_length_le (reportLabel customer site generatedAt)
    refine ⟨front ++ datedEnd generatedAt.compactDate, ?_, ?_⟩
    · unfold reportBasename
      rw [hfits.customer_label, Except.ok_bind, hfits.site_label, Except.ok_bind, safeFilename_eq,
        hlabel]
      exact congrArg Except.ok ((portable_eq_cut rt hstem).trans hcut)
    · obtain ⟨pieces, hpieces, hdate⟩ := exists_fullmatch_reportFilename hcutStem hcutLen h8 hdigits
        (List.suffix_append _ _)
      have hname := (text_name_iff rt r hr (docxName_ne_nil _) (docxName_chars hcutStem)).mpr hfits.name_plain
      exact (validateReportFilename_eq_ok rt r).mpr ⟨pieces, hpieces, hname, hdate, by rw [hparse]; rfl⟩

end

namespace Sample

def generatedAt : Datetime := ⟨63902822400000000, 0, by decide, by decide⟩

end Sample

theorem publishable_iff_fits_sample :
    ∃ r customer site front, Redactor.new (.ofDigests []) .insertion [str "hunter2"] = .ok r ∧
      Fits (.ofDigests []) r [str "hunter2"] (str "Acme & Co.") (str "HQ") Sample.generatedAt
        customer site front := by
  have hdate : (Redactor.new (.ofDigests []) .insertion [str "hunter2"] >>= fun r =>
      reportBasename (.ofDigests []) r (str "Acme & Co.") (str "HQ") Sample.generatedAt >>=
        fun basename => validateReportFilename (.ofDigests []) r (docxName basename)).toOption =
          some Sample.generatedAt.compactDate := by
    decide +kernel
  have h := Except.toOption_eq_some.mp hdate
  obtain ⟨r, hr, h⟩ := Except.bind_eq_ok.mp h
  obtain ⟨basename, hbase, hvalid⟩ := Except.bind_eq_ok.mp h
  obtain ⟨customer, site, front, hfits⟩ := (publishable_iff_fits _ r hr (str "Acme & Co.")
    (str "HQ") Sample.generatedAt).mp ⟨basename, hbase, hvalid⟩
  exact ⟨r, customer, site, front, hr, hfits⟩

/-- A customer name of 80 letters leaves no room for the date. -/
theorem long_name_not_publishable :
    ∃ r, Redactor.new (.ofDigests []) .insertion [] = .ok r ∧
      ¬ Publishable (.ofDigests []) r (List.replicate 80 (cp 'N')) (str "B")
        ⟨63902822400000000, 0, by decide, by decide⟩ := by
  refine ⟨⟨[], []⟩, rfl, ?_⟩
  rintro ⟨basename, hbase, hvalid⟩
  have hname : (reportBasename (.ofDigests []) ⟨[], []⟩ (List.replicate 80 (cp 'N')) (str "B")
      ⟨63902822400000000, 0, by decide, by decide⟩).toOption =
        some (List.replicate 80 (cp 'N') ++ str "-B-Network-Discovery") := by
    decide +kernel
  obtain rfl : List.replicate 80 (cp 'N') ++ str "-B-Network-Discovery" = basename := by
    rw [hbase] at hname
    exact (Option.some.inj hname).symm
  have hrejected : (validateReportFilename (.ofDigests []) ⟨[], []⟩
      (docxName (List.replicate 80 (cp 'N') ++ str "-B-Network-Discovery"))).toOption = none := by
    decide +kernel
  rw [hvalid] at hrejected
  exact Option.some_ne_none _ hrejected

end FieldDiscovery.Reporting
