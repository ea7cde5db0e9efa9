import FieldDiscovery.Lib.IpAddress
import FieldDiscovery.Lib.JsonValue
import FieldDiscovery.Lib.Number
import FieldDiscovery.Lib.Separated
import FieldDiscovery.Lib.Dict
import FieldDiscovery.Redaction.Raises
import FieldDiscovery.Snmp.Walks

/-!
# Facts from variables

`normalize_varbinds`. The registry is searched in the order of the lengths of its OID texts; of the
fields that match a variable these are nested in each other, so the longest text has the most arcs
(`findField_eq_some_iff`), whatever the order of the registry. What one variable contributes depends
on those before it by the number of unknown OIDs only. The one thing that keeps variables from being
mapped is a value on which the redactor raises (`mapsVarbinds_iff`).
-/

open List (Forall₂)

namespace FieldDiscovery.Snmp

open Py Redaction
open ActiveDirectory (CollectorIssue)

/-! ## The registry -/

/-- `MAX_VALUE_CHARS` -/
def maxValueChars : Nat := 4096

/-- `OidField` -/
structure OidField where
  oid : Str
  factType : Str
  table : Bool := false
  valueKind : Str := str "text"
  unit : Option Str := none
  enumLabels : List (Int × Str) := []
  specialValues : List (Str × Str) := []
  deriving DecidableEq

/-- `varbind.oid == field.oid or (field.table and varbind.oid.startswith(field.oid + "."))` -/
def OidField.covers (field : OidField) (oid : Str) : Bool :=
  oid == field.oid || (field.table && (field.oid ++ str ".").isPrefixOf oid)

/-- `sorted(registry, key=lambda field: len(field.oid), reverse=True)` -/
def ordered (registry : List OidField) : List OidField :=
  sortedBy (fun field => OrderDual.toDual field.oid.length) registry

/-- The field that a variable is normalized by. -/
def findField (registry : List OidField) (oid : Str) : Option OidField :=
  (ordered registry).find? (·.covers oid)

/-! ## Values -/

/-- What the digits of `str.isdigit` outside ASCII are. -/
abbrev DigitTable := CodePoint → Bool

/-- `s.isdigit()` -/
def isDigits (digits : DigitTable) (s : Str) : Bool :=
  !s.isEmpty && s.all fun c => if isAscii c then isDigit c else digits c

/-- `s.removeprefix("0x")` -/
def removeHexPrefix (s : Str) : Str := if (str "0x").isPrefixOf s then s.drop 2 else s

/-- `":".join(compact[index : index + 2] for index in range(0, 12, 2))` -/
def colonPairs (compact : Str) : Str :=
  join (str ":") ((List.range 6).map fun k => (compact.drop (2 * k)).take 2)

section

variable (rt : Runtime) (digits : DigitTable) (redactor : Redactor)

/-- `_normalize_value` -/
def normalizeValue (value kind : Str) : Except Exc Json := do
  let text := (← redactor.text rt value).take maxValueChars
  if kind = str "integer" then
    match parseInt rt text with
    | some n => .ok (.int n)
    | none => .error .value
  else if kind = str "ipv4" then
    match ipv4Address text with
    | some octets => .ok (.string (join (str ".") (octets.map natStr)))
    | none => .error .value
  else if kind = str "mac" then
    let compact := (removeHexPrefix (rt.casefold text)).filter (str "0123456789abcdef").contains
    if compact.length ≠ 12 then .error .value else .ok (.string (colonPairs compact))
  else if kind = str "hex_bytes" then
    let compact := (removeHexPrefix (rt.casefold text)).filter fun c =>
      !isSpace c && c != cp ':' && c != cp '-'
    if compact = [] ∨ compact.length % 2 ≠ 0 ∨
        (compact.any fun c => !(str "0123456789abcdef").contains c) = true then .error .value
    else .ok (.string compact)
  else if kind = str "oid" then
    let stripped := stripBy (· == cp '.') text
    if (stripped.splitOn (cp '.')).all (isDigits digits) then .ok (.string stripped)
    else .error .value
  else if kind ≠ str "text" then .error .value
  else .ok (.string text)

/-- `except (TypeError, ValueError)`, for the exceptions that a normalization may raise. -/
def isInvalidValue : Exc → Bool
  | .type | .value | .jsonDecode | .unicodeEncode => true
  | _ => false

/-! ## Contributions -/

/-- A fact of a given type. -/
abbrev Fact := Str × Dict Str Json

/-- `dict(items)` -/
def dictOf {κ α : Type} [DecidableEq κ] (items : List (κ × α)) : Dict κ α :=
  items.foldl (fun d item => d.set item.1 item.2) []

/-- What one turn of the loop appends to `facts` and `issues` and adds to `unknown`. -/
structure Contribution where
  facts : List Fact := []
  issues : List CollectorIssue := []
  unknown : Nat := 0

def unsupportedIssue (oid : Str) : CollectorIssue :=
  ⟨str "unsupported_oid", str "OID " ++ oid ++ str " is unsupported"⟩

def invalidIssue (oid : Str) : CollectorIssue :=
  ⟨str "invalid_value", str "OID " ++ oid ++ str " value was invalid"⟩

def limitIssue : CollectorIssue :=
  ⟨str "unknown_oid_limit", str "unknown OID retention limit reached"⟩

/-- `varbind.oid[len(matched.oid) :].lstrip(".") if matched.table else ""` -/
def tableIndex (field : OidField) (oid : Str) : Str :=
  if field.table then (oid.drop field.oid.length).dropWhile (· == cp '.') else []

/-- The unit at the end of a payload. -/
def withUnit (field : OidField) (payload : Dict Str Json) : Dict Str Json :=
  match field.unit with
  | some unit => payload.set (str "unit") (.string unit)
  | none => payload

/-- The payload of a value that was normalized, with the label of an integer. -/
def valuePayload (field : OidField) (index : Str) (value : Json) : Dict Str Json :=
  let payload : Dict Str Json := [(str "index", .string index), (str "value", value)]
  let label := match value with
    | .int n => (dictOf field.enumLabels).get n
    | _ => none
  match label with
  | some label => payload.set (str "label") (.string label)
  | none => payload

/-- A variable of a known OID. -/
def normalizeKnown (field : OidField) (varbind : SnmpVarBind) : Except Exc Contribution := do
  let index := tableIndex field varbind.oid
  let textValue := (← redactor.text rt varbind.value).take maxValueChars
  match (dictOf field.specialValues).get textValue with
  | some special =>
    let payload : Dict Str Json := [(str "index", .string index), (str "value", .null),
      (str "value_status", .string special), (str "raw_value", .string textValue)]
    .ok { facts := [(field.factType, withUnit field payload)] }
  | none =>
    match normalizeValue rt digits redactor textValue field.valueKind with
    | .ok value => .ok { facts := [(field.factType, withUnit field (valuePayload field index value))] }
    | .error e =>
      if isInvalidValue e then .ok { issues := [invalidIssue varbind.oid] } else .error e

/-- One turn of `for varbind in varbinds`, with `unknown` unknown OIDs retained before it. -/
def normalizeVarbind (registry : List OidField) (maxUnknown unknown : Nat) (varbind : SnmpVarBind) :
    Except Exc Contribution :=
  if varbind.unsupported then .ok { issues := [unsupportedIssue varbind.oid] }
  else
    match findField registry varbind.oid with
    | some field => normalizeKnown rt digits redactor field varbind
    | none =>
      if unknown < maxUnknown then do
        let value := (← redactor.text rt varbind.value).take maxValueChars
        .ok {
          facts := [(str "snmp.raw.unknown",
            [(str "oid", .string varbind.oid), (str "value", .string value)])]
          unknown := 1 }
      else .ok {}

/-- The contributions of the variables, one by one. -/
def contributions (registry : List OidField) (maxUnknown : Nat) :
    Nat → List SnmpVarBind → Except Exc (List Contribution)
  | _, [] => .ok []
  | unknown, varbind :: varbinds => do
    let c ← normalizeVarbind rt digits redactor registry maxUnknown unknown varbind
    let cs ← contributions registry maxUnknown (unknown + c.unknown) varbinds
    .ok (c :: cs)

/-- The variables that no field of the registry covers, supported or not. -/
def unmatchedCount (registry : List OidField) (varbinds : List SnmpVarBind) : Nat :=
  varbinds.countP fun varbind => !registry.any (·.covers varbind.oid)

/-- `normalize_varbinds` -/
def normalizeVarbinds (varbinds : List SnmpVarBind) (registry : List OidField) (maxUnknown : Nat) :
    Except Exc (List Fact × List CollectorIssue) := do
  let cs ← contributions rt digits redactor registry maxUnknown 0 varbinds
  let facts := cs.flatMap Contribution.facts
  let issues := cs.flatMap Contribution.issues
  if maxUnknown < unmatchedCount registry varbinds then .ok (facts, issues ++ [limitIssue])
  else .ok (facts, issues)

end

/-! ## The deepest match -/

/-- The arcs of an OID. -/
def arcs (oid : Str) : List Str := oid.splitOn (cp '.')

/-- The field has the OID, or is a table whose arcs start it. -/
def OidField.Matches (field : OidField) (oid : Str) : Prop :=
  field.oid = oid ∨ field.table = true ∧ arcs field.oid <+: arcs oid

theorem OidField.covers_iff {field : OidField} {oid : Str} :
    field.covers oid = true ↔ field.Matches oid := by
  unfold OidField.covers OidField.Matches arcs
  rw [Separated.splitOn_prefix_iff, Bool.or_eq_true, Bool.and_eq_true, beq_iff_eq,
    List.isPrefixOf_iff_prefix]
  change _ ∨ field.table = true ∧ field.oid ++ [cp '.'] <+: oid ↔ _
  constructor
  · rintro (rfl | ⟨htable, hprefix⟩)
    · exact .inl rfl
    · exact .inr ⟨htable, .inr hprefix⟩
  · rintro (rfl | ⟨htable, rfl | hprefix⟩)
    · exact .inl rfl
    · exact .inl rfl
    · exact .inr ⟨htable, hprefix⟩

theorem OidField.Matches.arcs_prefix {field : OidField} {oid : Str} (h : field.Matches oid) :
    arcs field.oid <+: arcs oid := by
  rcases h with rfl | ⟨-, hprefix⟩
  · exact List.prefix_rfl
  · exact hprefix

theorem OidField.Matches.oid_prefix {field : OidField} {oid : Str} (h : field.Matches oid) :
    field.oid <+: oid := by
  rcases Separated.splitOn_prefix_iff.mp h.arcs_prefix with rfl | hprefix
  · exact List.prefix_rfl
  · exact (List.prefix_append ..).trans hprefix

/-- Of two matches, the one with the shorter text has fewer arcs. -/
theorem OidField.Matches.length_lt_iff {field other : OidField} {oid : Str} (h : field.Matches oid)
    (h' : other.Matches oid) :
    field.oid.length < other.oid.length ↔ (arcs field.oid).length < (arcs other.oid).length :=
  Separated.splitOn_prefix_length h.arcs_prefix h'.arcs_prefix

/-- Matches of one length have one OID. -/
theorem OidField.Matches.oid_eq {field other : OidField} {oid : Str} (h : field.Matches oid)
    (h' : other.Matches oid) (hlength : field.oid.length = other.oid.length) :
    field.oid = other.oid :=
  (List.prefix_of_prefix_length_le h.oid_prefix h'.oid_prefix hlength.le).eq_of_length hlength

/-- The field matches with more arcs than any other field of the registry. -/
structure IsDeepest (registry : List OidField) (oid : Str) (field : OidField) : Prop where
  mem : field ∈ registry
  isMatch : field.Matches oid
  deepest : ∀ other ∈ registry, other.Matches oid → other ≠ field →
    (arcs other.oid).length < (arcs field.oid).length

theorem IsDeepest.unique {registry : List OidField} {oid : Str} {field other : OidField}
    (h : IsDeepest registry oid field) (h' : IsDeepest registry oid other) : field = other := by
  by_contra hne
  have hlt := h.deepest other h'.mem h'.isMatch (Ne.symm hne)
  have hlt' := h'.deepest field h.mem h.isMatch hne
  omega

theorem IsDeepest.perm {registry registry' : List OidField} (hperm : registry'.Perm registry)
    {oid : Str} {field : OidField} (h : IsDeepest registry oid field) :
    IsDeepest registry' oid field :=
  ⟨hperm.mem_iff.mpr h.mem, h.isMatch, fun other hother => h.deepest other (hperm.mem_iff.mp hother)⟩

section

variable {registry : List OidField}

theorem findField_eq_none_iff {oid : Str} :
    findField registry oid = none ↔ ∀ field ∈ registry, ¬ field.Matches oid := by
  unfold findField ordered
  rw [List.find?_eq_none]
  simp only [mem_sortedBy, OidField.covers_iff]

/-- The first match in the order of the text lengths is the deepest one. -/
theorem findField_eq_some_iff (hnodup : (registry.map OidField.oid).Nodup) {oid : Str}
    {field : OidField} : findField registry oid = some field ↔ IsDeepest registry oid field := by
  have hfound : ∀ {field}, findField registry oid = some field → IsDeepest registry oid field := by
    intro field hfind
    obtain ⟨hcovers, before, after, hsplit, hbefore⟩ := List.find?_eq_some_iff_append.mp hfind
    have hmatch := OidField.covers_iff.mp hcovers
    have hsorted := pairwise_sortedBy (fun field : OidField => OrderDual.toDual field.oid.length)
      registry
    change (ordered registry).Pairwise _ at hsorted
    rw [hsplit] at hsorted
    have hmem : ∀ f, f ∈ registry ↔ f ∈ before ++ field :: after := by
      intro f
      rw [← hsplit]
      exact mem_sortedBy.symm
    refine ⟨(hmem field).mpr (by simp), hmatch, fun other hother hmatch' hne => ?_⟩
    rw [hmem, List.mem_append, List.mem_cons] at hother
    rcases hother with hother | rfl | hother
    · have hnot := hbefore other hother
      rw [Bool.not_eq_true', ← Bool.not_eq_true, OidField.covers_iff] at hnot
      exact absurd hmatch' hnot
    · exact absurd rfl hne
    · have hle : other.oid.length ≤ field.oid.length :=
        (List.pairwise_cons.mp (List.pairwise_append.mp hsorted).2.1).1 other hother
      rw [← hmatch'.length_lt_iff hmatch]
      refine lt_of_le_of_ne hle fun heq => hne ?_
      exact List.inj_on_of_nodup_map hnodup ((hmem other).mpr (by simp [hother]))
        ((hmem field).mpr (by simp)) (hmatch'.oid_eq hmatch heq)
  refine ⟨hfound, fun hdeepest => ?_⟩
  cases hfind : findField registry oid with
  | none => exact absurd hdeepest.isMatch (findField_eq_none_iff.mp hfind field hdeepest.mem)
  | some other => rw [(hfound hfind).unique hdeepest]

/-- The field does not depend on the order of the registry. -/
theorem findField_perm {registry' : List OidField} (hnodup : (registry.map OidField.oid).Nodup)
    (hperm : registry'.Perm registry) (oid : Str) :
    findField registry' oid = findField registry oid := by
  have hnodup' := (hperm.map OidField.oid).nodup_iff.mpr hnodup
  cases hfind : findField registry oid with
  | none =>
    rw [findField_eq_none_iff] at hfind ⊢
    exact fun field hfield => hfind field (hperm.mem_iff.mp hfield)
  | some field =>
    rw [findField_eq_some_iff hnodup] at hfind
    exact (findField_eq_some_iff hnodup').mpr (hfind.perm hperm)

end

/-! ## Contributions of single variables -/

/-- Behind the arcs of a match, the index is the remaining arcs of an OID. -/
theorem tableIndex_eq {field : OidField} {oid : Str} (h : field.Matches oid)
    (hoid : ∀ arc ∈ arcs oid, arc ≠ []) :
    tableIndex field oid = join (str ".") ((arcs oid).drop (arcs field.oid).length) := by
  have hself : tableIndex field field.oid = [] := by
    unfold tableIndex
    rw [List.drop_length, List.dropWhile_nil, ite_self]
  rcases h with rfl | ⟨htable, hprefix⟩
  · rw [hself, List.drop_length]
    rfl
  · rcases Separated.splitOn_prefix_iff.mp hprefix with rfl | ⟨rest, rfl⟩
    · rw [hself, List.drop_length]
      rfl
    · rw [List.append_assoc, List.singleton_append] at hoid ⊢
      unfold arcs at hoid ⊢
      rw [List.splitOn_append_cons_self] at hoid ⊢
      have hhead : rest.dropWhile (· == cp '.') = rest := by
        cases rest with
        | nil => rfl
        | cons c rest =>
          refine List.dropWhile_cons_of_neg fun hdot => ?_
          rw [beq_iff_eq.mp hdot] at hoid
          refine hoid [] (List.mem_append_right _ ?_) rfl
          rw [← List.nil_append (cp '.' :: rest), List.splitOn_append_cons_self]
          exact List.mem_append_left _ (by simp)
      rw [tableIndex, if_pos htable, List.drop_left, List.dropWhile_cons_of_pos (by simp), hhead,
        List.drop_left]
      exact (List.intercalate_splitOn (cp '.')).symm

section

variable {rt : Runtime} {digits : DigitTable} {redactor : Redactor}

theorem get_withUnit {field : OidField} {payload : Dict Str Json} {key : Str}
    (hkey : str "unit" ≠ key) : (withUnit field payload).get key = payload.get key := by
  unfold withUnit
  split
  · rw [Dict.get_set, if_neg hkey]
  · rfl

theorem get_valuePayload_index (field : OidField) (index : Str) (value : Json) :
    (valuePayload field index value).get (str "index") = some (.string index) := by
  unfold valuePayload
  simp only
  split
  · rw [Dict.get_set, if_neg (by decide)]
    rfl
  · rfl

theorem normalizeValue_raisesOnly (value kind : Str) :
    Except.RaisesOnly (isInvalidValue · = true) (normalizeValue rt digits redactor value kind) := by
  unfold normalizeValue
  refine Except.RaisesOnly.bind (fun e he => ?_) fun text _ => ?_
  · rw [Redactor.text_raisesOnly rt redactor value e he]
    rfl
  · simp only
    repeat' split
    all_goals first
      | exact Except.raisesOnly_ok _
      | exact Except.raisesOnly_error.mpr rfl

/-- A known OID contributes one fact of its field, or the one issue that its value is invalid. -/
theorem normalizeKnown_ok {field : OidField} {varbind : SnmpVarBind} {c : Contribution}
    (h : normalizeKnown rt digits redactor field varbind = .ok c) :
    (∃ payload : Dict Str Json, c = { facts := [(field.factType, payload)] } ∧
      payload.get (str "index") = some (.string (tableIndex field varbind.oid))) ∨
        c = { issues := [invalidIssue varbind.oid] } := by
  unfold normalizeKnown at h
  obtain ⟨text, -, h⟩ := Except.bind_eq_ok.mp h
  simp only at h
  split at h
  · obtain rfl := Except.ok.inj h
    exact .inl ⟨_, rfl, get_withUnit (by decide)⟩
  · split at h
    · obtain rfl := Except.ok.inj h
      exact .inl ⟨_, rfl, (get_withUnit (by decide)).trans (get_valuePayload_index ..)⟩
    · split at h
      · obtain rfl := Except.ok.inj h
        exact .inr rfl
      · cases h

theorem normalizeKnown_unknown {field : OidField} {varbind : SnmpVarBind} {c : Contribution}
    (h : normalizeKnown rt digits redactor field varbind = .ok c) : c.unknown = 0 := by
  rcases normalizeKnown_ok h with ⟨payload, rfl, -⟩ | rfl
  · rfl
  · rfl

theorem normalizeKnown_returns {field : OidField} {varbind : SnmpVarBind} :
    (normalizeKnown rt digits redactor field varbind).Returns ↔
      (redactor.text rt varbind.value).Returns := by
  unfold normalizeKnown
  rw [Except.returns_bind]
  refine ⟨fun ⟨text, htext, _⟩ => ⟨text, htext⟩, fun ⟨text, htext⟩ => ⟨text, htext, ?_⟩⟩
  simp only
  split
  · exact Except.returns_ok _
  · split
    · exact Except.returns_ok _
    · next e he =>
      rw [if_pos (normalizeValue_raisesOnly _ _ e he)]
      exact Except.returns_ok _

/-! ## All variables -/

variable {registry : List OidField} {maxUnknown : Nat}

/-- A field of the registry covers the variable. -/
def isMatched (registry : List OidField) (varbind : SnmpVarBind) : Bool :=
  registry.any (·.covers varbind.oid)

theorem isMatched_iff {varbind : SnmpVarBind} :
    isMatched registry varbind = true ↔ ∃ field ∈ registry, field.Matches varbind.oid := by
  unfold isMatched
  rw [List.any_eq_true]
  exact exists_congr fun field => and_congr_right fun _ => OidField.covers_iff

theorem findField_eq_none_iff_isMatched {varbind : SnmpVarBind} :
    findField registry varbind.oid = none ↔ isMatched registry varbind = false := by
  rw [← Bool.not_eq_true, isMatched_iff, findField_eq_none_iff]
  push Not
  rfl

/-- A supported variable that a field covers contributes one fact of the deepest match, with the
remaining arcs as its index, or the one issue that its value is invalid. -/
def MappedBy (registry : List OidField) (varbind : SnmpVarBind) (c : Contribution) : Prop :=
  varbind.unsupported = false → isMatched registry varbind = true →
    ∃ field, IsDeepest registry varbind.oid field ∧
      ((∃ payload : Dict Str Json, c = { facts := [(field.factType, payload)] } ∧
        ((∀ arc ∈ arcs varbind.oid, arc ≠ []) → payload.get (str "index") =
          some (.string (join (str ".") ((arcs varbind.oid).drop (arcs field.oid).length))))) ∨
        c = { issues := [invalidIssue varbind.oid] })

theorem normalizeVarbind_mapped (hnodup : (registry.map OidField.oid).Nodup) {unknown : Nat}
    {varbind : SnmpVarBind} {c : Contribution}
    (h : normalizeVarbind rt digits redactor registry maxUnknown unknown varbind = .ok c) :
    MappedBy registry varbind c := by
  intro hsupported hmatched
  unfold normalizeVarbind at h
  rw [hsupported, if_neg Bool.false_ne_true] at h
  split at h
  · next field hfind =>
    have hdeepest := (findField_eq_some_iff hnodup).mp hfind
    refine ⟨field, hdeepest, (normalizeKnown_ok h).imp_left ?_⟩
    rintro ⟨payload, hc, hindex⟩
    refine ⟨payload, hc, fun hoid => ?_⟩
    rw [hindex, tableIndex_eq hdeepest.isMatch hoid]
  · next hfind =>
    rw [findField_eq_none_iff_isMatched, hmatched] at hfind
    cases hfind

theorem contributions_mapped (hnodup : (registry.map OidField.oid).Nodup) {unknown : Nat}
    {varbinds : List SnmpVarBind} {cs : List Contribution}
    (h : contributions rt digits redactor registry maxUnknown unknown varbinds = .ok cs) :
    Forall₂ (MappedBy registry) varbinds cs := by
  induction varbinds generalizing unknown cs with
  | nil =>
    obtain rfl := Except.ok.inj h
    exact .nil
  | cons varbind varbinds ih =>
    rw [contributions] at h
    obtain ⟨c, hc, h⟩ := Except.bind_eq_ok.mp h
    obtain ⟨cs, hcs, h⟩ := Except.bind_eq_ok.mp h
    obtain rfl := Except.ok.inj h
    exact .cons (normalizeVarbind_mapped hnodup hc) (ih hcs)

/-- The variables whose values go through the redactor: the supported ones that a field covers, and
as many of the others as are retained. -/
def scrubbed (registry : List OidField) (maxUnknown : Nat) (varbinds : List SnmpVarBind) :
    List SnmpVarBind :=
  let supported := varbinds.filter fun varbind => !varbind.unsupported
  supported.filter (isMatched registry) ++
    (supported.filter fun varbind => !isMatched registry varbind).take maxUnknown

theorem scrubbed_unsupported {varbind : SnmpVarBind} (h : varbind.unsupported = true) (n : Nat)
    (varbinds : List SnmpVarBind) :
    scrubbed registry n (varbind :: varbinds) = scrubbed registry n varbinds := by
  unfold scrubbed
  rw [List.filter_cons_of_neg (by rw [h]; decide)]

theorem scrubbed_matched {varbind : SnmpVarBind} (h : varbind.unsupported = false)
    (hmatched : isMatched registry varbind = true) (n : Nat) (varbinds : List SnmpVarBind) :
    scrubbed registry n (varbind :: varbinds) = varbind :: scrubbed registry n varbinds := by
  unfold scrubbed
  rw [List.filter_cons_of_pos (by rw [h]; rfl)]
  simp only
  rw [List.filter_cons_of_pos hmatched, List.filter_cons_of_neg (by rw [hmatched]; decide),
    List.cons_append]

theorem forall_mem_scrubbed_unmatched {P : SnmpVarBind → Prop} {varbind : SnmpVarBind}
    (h : varbind.unsupported = false) (hunmatched : isMatched registry varbind = false) (n : Nat)
    (varbinds : List SnmpVarBind) :
    (∀ v ∈ scrubbed registry n (varbind :: varbinds), P v) ↔
      (0 < n → P varbind) ∧ ∀ v ∈ scrubbed registry (n - 1) varbinds, P v := by
  unfold scrubbed
  rw [List.filter_cons_of_pos (by rw [h]; rfl)]
  simp only
  rw [List.filter_cons_of_neg (by rw [hunmatched]; decide),
    List.filter_cons_of_pos (by rw [hunmatched]; rfl), List.forall_mem_append,
    List.forall_mem_append]
  cases n with
  | zero => simp
  | succ n =>
    rw [List.take_succ_cons, List.forall_mem_cons, Nat.add_sub_cancel]
    simp only [Nat.zero_lt_succ, true_imp_iff]
    exact and_left_comm

theorem contributions_returns {unknown : Nat} {varbinds : List SnmpVarBind} :
    (contributions rt digits redactor registry maxUnknown unknown varbinds).Returns ↔
      ∀ varbind ∈ scrubbed registry (maxUnknown - unknown) varbinds,
        (redactor.text rt varbind.value).Returns := by
  induction varbinds generalizing unknown with
  | nil =>
    refine iff_of_true (Except.returns_ok _) fun varbind hmem => ?_
    simp [scrubbed] at hmem
  | cons varbind varbinds ih =>
    have hstep : (contributions rt digits redactor registry maxUnknown unknown
        (varbind :: varbinds)).Returns ↔ ∃ c,
          normalizeVarbind rt digits redactor registry maxUnknown unknown varbind = .ok c ∧
            (contributions rt digits redactor registry maxUnknown (unknown + c.unknown)
              varbinds).Returns := by
      rw [contributions, Except.returns_bind]
      refine exists_congr fun c => and_congr_right fun _ => ?_
      rw [Except.returns_bind]
      exact ⟨fun ⟨cs, hcs, _⟩ => ⟨cs, hcs⟩, fun ⟨cs, hcs⟩ => ⟨cs, hcs, Except.returns_ok _⟩⟩
    rw [hstep]
    unfold normalizeVarbind
    cases hsupported : varbind.unsupported with
    | true =>
      rw [scrubbed_unsupported hsupported, ← ih]
      simp
    | false =>
      rw [if_neg Bool.false_ne_true]
      cases hfind : findField registry varbind.oid with
      | some field =>
        have hmatched : isMatched registry varbind = true := by
          rw [← Bool.not_eq_false, ← findField_eq_none_iff_isMatched, hfind]
          exact Option.some_ne_none field
        rw [scrubbed_matched hsupported hmatched, List.forall_mem_cons, ← ih,
          ← @normalizeKnown_returns rt digits redactor field]
        simp only
        constructor
        · rintro ⟨c, hc, hrest⟩
          rw [normalizeKnown_unknown hc] at hrest
          exact ⟨⟨c, hc⟩, hrest⟩
        · rintro ⟨⟨c, hc⟩, hrest⟩
          refine ⟨c, hc, ?_⟩
          rwa [normalizeKnown_unknown hc]
      | none =>
        rw [forall_mem_scrubbed_unmatched hsupported (findField_eq_none_iff_isMatched.mp hfind)]
        simp only
        by_cases hretained : unknown < maxUnknown
        · rw [if_pos hretained, Nat.sub_sub]
          simp only [Nat.sub_pos_of_lt hretained, true_imp_iff]
          rw [← ih]
          constructor
          · rintro ⟨c, hc, hrest⟩
            obtain ⟨value, hvalue, hc⟩ := Except.bind_eq_ok.mp hc
            obtain rfl := Except.ok.inj hc
            exact ⟨⟨value, hvalue⟩, hrest⟩
          · rintro ⟨⟨value, hvalue⟩, hrest⟩
            rw [hvalue]
            exact ⟨_, rfl, hrest⟩
        · have hfull : maxUnknown - unknown = 0 := Nat.sub_eq_zero_of_le (Nat.le_of_not_lt hretained)
          have hrest := @ih unknown
          rw [hfull] at hrest
          rw [if_neg hretained, hfull, Nat.zero_sub, ← hrest]
          simp

/-- The result does not depend on the order of the registry. -/
theorem normalizeVarbinds_perm {registry' : List OidField}
    (hnodup : (registry.map OidField.oid).Nodup) (hperm : registry'.Perm registry)
    (varbinds : List SnmpVarBind) :
    normalizeVarbinds rt digits redactor varbinds registry' maxUnknown =
      normalizeVarbinds rt digits redactor varbinds registry maxUnknown := by
  have hmatched : ∀ oid, (registry'.any (·.covers oid)) = registry.any (·.covers oid) := fun oid => by
    rw [Bool.eq_iff_iff, List.any_eq_true, List.any_eq_true]
    exact exists_congr fun field => and_congr_left fun _ => hperm.mem_iff
  have hstep : ∀ unknown varbind,
      normalizeVarbind rt digits redactor registry' maxUnknown unknown varbind =
        normalizeVarbind rt digits redactor registry maxUnknown unknown varbind := by
    intro unknown varbind
    unfold normalizeVarbind
    rw [findField_perm hnodup hperm]
  have hrun : ∀ unknown, contributions rt digits redactor registry' maxUnknown unknown varbinds =
      contributions rt digits redactor registry maxUnknown unknown varbinds := by
    induction varbinds with
    | nil => exact fun _ => rfl
    | cons varbind varbinds ih =>
      intro unknown
      rw [contributions, contributions, hstep]
      simp only [ih]
  unfold normalizeVarbinds unmatchedCount
  rw [hrun]
  simp only [hmatched]

/-- The variables are mapped one by one and in order, and in every order of the registry alike. -/
def MapsVarbinds (rt : Runtime) (digits : DigitTable) (redactor : Redactor)
    (varbinds : List SnmpVarBind) (registry : List OidField) (maxUnknown : Nat) : Prop :=
  ∃ cs : List Contribution, Forall₂ (MappedBy registry) varbinds cs ∧
    ∃ disclosed, (disclosed = [] ∨ disclosed = [limitIssue]) ∧
      ∀ registry' : List OidField, registry'.Perm registry →
        normalizeVarbinds rt digits redactor varbinds registry' maxUnknown =
          .ok (cs.flatMap Contribution.facts, cs.flatMap Contribution.issues ++ disclosed)

/-- The variables are mapped exactly when the quoted keys in every value that is given to the
redactor are JSON strings. -/
theorem mapsVarbinds_iff (hnodup : (registry.map OidField.oid).Nodup)
    (varbinds : List SnmpVarBind) :
    MapsVarbinds rt digits redactor varbinds registry maxUnknown ↔
      ∀ varbind ∈ scrubbed registry maxUnknown varbinds, KeysDecode rt redactor varbind.value := by
  simp only [← Redactor.text_returns]
  rw [← Nat.sub_zero maxUnknown, ← @contributions_returns rt digits redactor, Nat.sub_zero]
  constructor
  · rintro ⟨cs, -, disclosed, -, hrun⟩
    obtain ⟨cs', hcs, -⟩ := Except.bind_eq_ok.mp (hrun registry (.refl _))
    exact ⟨cs', hcs⟩
  · rintro ⟨cs, hcs⟩
    refine ⟨cs, contributions_mapped hnodup hcs,
      if maxUnknown < unmatchedCount registry varbinds then [limitIssue] else [], ?_,
      fun registry' hperm => ?_⟩
    · split
      · exact .inr rfl
      · exact .inl rfl
    · rw [normalizeVarbinds_perm hnodup hperm]
      unfold normalizeVarbinds
      rw [hcs, Except.ok_bind]
      simp only
      split
      · rfl
      · rw [List.append_nil]

/-! ### A table inside a table -/

def sampleRegistry : List OidField :=
  [{ oid := str "1.3.6", factType := str "outer", table := true },
    { oid := str "1.3.6.1", factType := str "inner", table := true }]

def sampleRedactor : Redactor := ⟨[], []⟩

theorem mapsVarbinds_sample : MapsVarbinds (.ofDigests []) (fun _ => false) sampleRedactor
    [sampleVarBind "1.3.6.1.4.2" "eth0", sampleVarBind "1.3.61.1" "lan"] sampleRegistry 1 := by
  refine (mapsVarbinds_iff (by decide) _).mpr fun varbind hmem => Redactor.text_returns.mp ?_
  have hscrubbed : scrubbed sampleRegistry 1
      [sampleVarBind "1.3.6.1.4.2" "eth0", sampleVarBind "1.3.61.1" "lan"] =
        [sampleVarBind "1.3.6.1.4.2" "eth0", sampleVarBind "1.3.61.1" "lan"] := by
    decide +kernel
  rw [hscrubbed] at hmem
  have hreturns : ∀ v ∈ [sampleVarBind "1.3.6.1.4.2" "eth0", sampleVarBind "1.3.61.1" "lan"],
      (sampleRedactor.text (.ofDigests []) v.value).isOk = true := by
    decide +kernel
  exact Except.exists_of_isOk (hreturns varbind hmem)

/-- A description with a quoted key that is no JSON string fails the whole call. -/
theorem not_mapsVarbinds : (sampleRegistry.map OidField.oid).Nodup ∧
    ¬ MapsVarbinds (.ofDigests []) (fun _ => false) sampleRedactor
      [sampleVarBind "1.3.6.1" "\"\\q\": \"x\""] sampleRegistry 128 := by
  refine ⟨by decide, ?_⟩
  rintro ⟨cs, -, disclosed, -, hrun⟩
  have hraises : (normalizeVarbinds (.ofDigests []) (fun _ => false) sampleRedactor
      [sampleVarBind "1.3.6.1" "\"\\q\": \"x\""] sampleRegistry 128).isOk = false := by
    decide +kernel
  rw [hrun sampleRegistry (.refl _)] at hraises
  cases hraises

end

end FieldDiscovery.Snmp
