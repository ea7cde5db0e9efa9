import FieldDiscovery.ActiveDirectory.Collect

/-!
# Complete memberships

What `_expand_group_ranges` gathers from a server that answers as LDAP asks. The server chooses how
many members a range holds, how many pages an answer takes and how it spells the name of a range.
The ranges of a group then cover its members from the first to the last without gap or overlap
(`expansion_complete`). Every text is cut to `MAX_ATTRIBUTE_TEXT` on the way.
-/

namespace FieldDiscovery.ActiveDirectory

open Py

section

variable (rt : Runtime)

/-! ## Ranges -/

/-- The attribute of a range, whose words a server may write in any case. -/
def RangeName (name : Str) (low : Nat) (high : Option Nat) : Prop :=
  ∃ word : Str, word.map lowerAscii = str "member;range=" ∧
    name = word ++ natStr low ++ str "-" ++ (high.map natStr).getD (str "*")

/-- The ranges among attributes. -/
def ranges (attributes : Attributes) : Attributes :=
  attributes.filter fun item => (rangeEnds rt item.1).isSome

/-- `value if isinstance(value, list) else [value]` -/
def memberValues : Json → List Json
  | .list items => items
  | value => [value]

/-- The positions that a range names, in a list of `count` members. -/
def positions (count : Nat) (item : Str × Json) : List Nat :=
  match rangeEnds rt item.1 with
  | none => []
  | some (low, high) =>
    match parseInt rt low, if high = str "*" then some (count - 1 : Int) else parseInt rt high with
    | some low, some high => List.range' low.toNat (high + 1 - low).toNat
    | _, _ => []

/-- The ranges among attributes divide the positions of all members, the last of them is open, and
together they list the members, each of them as it is kept. -/
structure Complete (kept : Str → Str) (members : List Str) (attributes : Attributes) : Prop where
  partition : (ranges rt attributes).flatMap (positions rt members.length) =
    List.range members.length
  terminal : ∃ item ∈ (ranges rt attributes).getLast?,
    (rangeEnds rt item.1).map Prod.snd = some (str "*")
  listed : (ranges rt attributes).flatMap (fun item => memberValues item.2) =
    members.map fun member => .string (kept member)

/-- The members from `low` to `high`. -/
def slice (members : List Str) (low : Nat) : Option Nat → List Str
  | some high => (members.drop low).take (high + 1 - low)
  | none => members.drop low

variable {rt}

theorem lowerAscii_eq {c : CodePoint} {d : Char} (h : lowerAscii c = cp d)
    (hd : isLower (cp d) = false := by decide) : c = cp d := by
  unfold lowerAscii at h
  split at h
  · next hupper =>
    exfalso
    unfold isUpper at hupper
    rw [Bool.and_eq_true, decide_eq_true_eq, decide_eq_true_eq] at hupper
    have hval := congrArg Fin.val h
    rw [Fin.val_ofNat] at hval
    unfold isLower at hd
    rw [Bool.and_eq_false_iff, decide_eq_false_iff_not, decide_eq_false_iff_not] at hd
    omega
  · exact h

theorem lowerAscii_lowerAscii (c : CodePoint) : lowerAscii (lowerAscii c) = lowerAscii c := by
  by_cases hupper : isUpper c = true
  · have hlower : isUpper (lowerAscii c) = false := by
      unfold isUpper at hupper
      rw [Bool.and_eq_true, decide_eq_true_eq, decide_eq_true_eq] at hupper
      rw [lowerAscii, if_pos (by simpa [isUpper] using hupper), isUpper, Bool.and_eq_false_iff,
        decide_eq_false_iff_not, decide_eq_false_iff_not, Fin.val_ofNat]
      omega
    exact if_neg (by rw [hlower]; exact Bool.false_ne_true)
  · have hself : lowerAscii c = c := if_neg hupper
    rw [hself, hself]

theorem isDecimal_of_isDigit {c : CodePoint} (h : isDigit c = true) : isDecimal rt c = true := by
  have hascii : isAscii c = true := by
    unfold isDigit at h
    rw [Bool.and_eq_true, decide_eq_true_eq, decide_eq_true_eq] at h
    exact decide_eq_true (by omega)
  rw [isDecimal, if_pos hascii, h]

theorem not_isDecimal_dash : isDecimal rt (cp '-') = false := rfl

/-- The ways in which a name is the name of a range. -/
theorem mem_memberRange {name : Str} {pieces : List Str} :
    (pieces, []) ∈ matchParts (memberRange rt) [] none name ↔
      ∃ word low high : Str, pieces = [word, low, str "-", high] ∧
        List.Forall₂ (fun letter c => Re.eqIgnoreCase letter c = true) (str "member;range=") word ∧
        (low ≠ [] ∧ low.all (isDecimal rt) = true) ∧
        (high ≠ [] ∧ high.all (isDecimal rt) = true ∨ high = str "*") ∧
        name = word ++ low ++ cp '-' :: high := by
  have hdash : ∀ {prev : Option CodePoint} {s : Str} {m : Str × Str},
      m ∈ (Re.lit '-').run prev s ↔ m.1 = str "-" ∧ s = cp '-' :: m.2 := by
    intro prev s m
    rw [Re.lit, Re.mem_run_chr]
    simp only [beq_iff_eq, exists_eq_left]
    rfl
  have hend : ∀ {prev : Option CodePoint} {s : Str} {m : Str × Str},
      m ∈ (Re.alt (Re.plus (.chr (isDecimal rt))) (.lit '*')).run prev s ↔
        (m.1 ≠ [] ∧ m.1.all (isDecimal rt) = true ∨ m.1 = str "*") ∧ m.1 ++ m.2 = s := by
    intro prev s m
    rw [Re.run, List.mem_append, Re.mem_run_plus_chr, Re.lit, Re.mem_run_chr]
    simp only [beq_iff_eq, exists_eq_left]
    constructor
    · rintro (⟨hne, hall, htext⟩ | ⟨hstar, rfl⟩)
      · exact ⟨.inl ⟨hne, hall⟩, htext⟩
      · exact ⟨.inr hstar, by rw [hstar]; rfl⟩
    · rintro ⟨⟨hne, hall⟩ | hstar, htext⟩
      · exact .inl ⟨hne, hall, htext⟩
      · exact .inr ⟨hstar, by rw [← htext, hstar]; rfl⟩
  unfold memberRange
  simp only [mem_matchParts_re, Re.mem_run_wordIgnoreCase, Re.mem_run_plus_chr, hdash, hend]
  constructor
  · rintro ⟨⟨word, s₁⟩, ⟨hword, rfl⟩, ⟨low, s₂⟩, ⟨hne, hall, rfl⟩, ⟨_, s₃⟩, ⟨rfl, rfl⟩,
      ⟨high, s₄⟩, ⟨hhigh, rfl⟩, hlast⟩
    obtain ⟨rfl, rfl⟩ := Prod.mk.inj (List.mem_singleton.mp hlast)
    exact ⟨word, low, high, rfl, hword, ⟨hne, hall⟩, hhigh, by simp⟩
  · rintro ⟨word, low, high, rfl, hword, ⟨hne, hall⟩, hhigh, rfl⟩
    exact ⟨(word, low ++ cp '-' :: high), ⟨hword, by simp⟩, (low, cp '-' :: high),
      ⟨hne, hall, rfl⟩, (str "-", high), ⟨rfl, rfl⟩, (high, []), ⟨hhigh, by simp⟩,
      List.mem_singleton.mpr rfl⟩

/-- The two ends are read from the name of a range. -/
theorem RangeName.ends {name : Str} {low : Nat} {high : Option Nat} (h : RangeName name low high) :
    rangeEnds rt name = some (natStr low, (high.map natStr).getD (str "*")) := by
  obtain ⟨word, hword, rfl⟩ := h
  have hletters : List.Forall₂ (fun letter c => Re.eqIgnoreCase letter c = true)
      (str "member;range=") word := by
    rw [← hword, List.forall₂_map_left_iff, List.forall₂_same]
    intro c _
    rw [Re.eqIgnoreCase, lowerAscii_lowerAscii, beq_self_eq_true]
    rfl
  have hdigits : ∀ n : Nat, natStr n ≠ [] ∧ (natStr n).all (isDecimal rt) = true := by
    intro n
    refine ⟨natStr_ne_nil n, List.all_eq_true.mpr fun c hc => ?_⟩
    exact isDecimal_of_isDigit (List.all_eq_true.mp (natStr_digits n) c hc)
  have hdash : ∀ s : Str, s.all (isDecimal rt) = true → cp '-' ∉ s := by
    intro s hs hmem
    have hminus := List.all_eq_true.mp hs _ hmem
    rw [not_isDecimal_dash] at hminus
    cases hminus
  have hname : word ++ natStr low ++ str "-" ++ (high.map natStr).getD (str "*") =
      word ++ natStr low ++ cp '-' :: (high.map natStr).getD (str "*") := List.append_assoc _ _ _
  have hmatch : ([word, natStr low, str "-", (high.map natStr).getD (str "*")], []) ∈
      matchParts (memberRange rt) [] none
        (word ++ natStr low ++ str "-" ++ (high.map natStr).getD (str "*")) := by
    refine mem_memberRange.mpr ⟨_, _, _, rfl, hletters, hdigits low, ?_, hname⟩
    cases high with
    | none => exact .inr rfl
    | some high => exact .inl (hdigits high)
  obtain ⟨pieces, hpieces⟩ := exists_fullmatch hmatch
  obtain ⟨word', low', high', rfl, hletters', -, -, hname'⟩ :=
    mem_memberRange.mp (fullmatch_eq_some hpieces)
  rw [hname] at hname'
  -- the dash is no digit, so that both readings of the name cut it at the same places
  rw [List.append_assoc, List.append_assoc] at hname'
  obtain ⟨rfl, hrest⟩ := List.append_inj hname'
    (hletters.length_eq.symm.trans hletters'.length_eq)
  have hlast : cp '-' ∉ (high.map natStr).getD (str "*") := by
    cases high with
    | none => decide
    | some high => exact hdash _ (hdigits high).2
  obtain ⟨hlow, -, hhigh⟩ := (List.append_cons_inj_of_notMem (hdash _ (hdigits low).2)
    hlast).mp hrest
  rw [rangeEnds, hpieces, hlow, hhigh]

theorem parseInt_position {n : Nat} (hn : n < maxAttributeValues) :
    parseInt rt (natStr n) = some (n : Int) :=
  parseInt_natStr rt ((natStr_length_le (w := 5) (by decide) hn).trans (by decide))

theorem natStr_ne_star (n : Nat) : natStr n ≠ str "*" := by
  intro h
  exact notMem_natStr (c := cp '*') rfl n (by rw [h]; exact List.mem_cons_self)

variable (rt) in
/-- The positions that the name of a range stands for. -/
theorem RangeName.positions {name : Str} {low : Nat} {high : Option Nat}
    (h : RangeName name low high) {count : Nat} (hcount : count ≤ maxAttributeValues)
    (hlow : low < count) (hhigh : ∀ last ∈ high, last < count) (value : Json) :
    positions rt count (name, value) =
      List.range' low ((high.getD (count - 1) + 1) - low) := by
  unfold ActiveDirectory.positions
  rw [h.ends]
  cases high with
  | none =>
    have hlast : count - low = count - 1 + 1 - low := by omega
    simpa [parseInt_position (hlow.trans_le hcount)] using hlast
  | some last =>
    have hlast : ((last : Int) + 1 - (low : Int)).toNat = last + 1 - low := by omega
    simp [parseInt_position (hlow.trans_le hcount), natStr_ne_star,
      parseInt_position ((hhigh last rfl).trans_le hcount), hlast]

theorem valueCount_eq (value : Json) : valueCount value = (memberValues value).length := by
  cases value <;> rfl

variable (rt) in
/-- What a range changes in the scan of a group. -/
theorem RangeName.scan {name : Str} {low : Nat} {high : Option Nat} (h : RangeName name low high)
    (hlow : low < maxAttributeValues) (hhigh : ∀ last ∈ high, last < maxAttributeValues)
    (scan : RangeScan) (value : Json) : scanAttribute rt scan (name, value) = .ok
      { pending := (high.map fun (last : Nat) => ((low : Int), (last : Int))).or scan.pending
        hasTerminalRange := scan.hasTerminalRange || high.isNone
        totalMembers := scan.totalMembers + (memberValues value).length } := by
  unfold scanAttribute
  rw [h.ends, ← valueCount_eq]
  cases high with
  | none => simp
  | some last =>
    simp [natStr_ne_star, parseInt_position hlow, parseInt_position (hhigh last rfl)]

/-- Only the ranges matter to the scan of a group. -/
theorem foldlM_scan_ranges (attributes : Attributes) (scan : RangeScan) :
    attributes.foldlM (scanAttribute rt) scan =
      (ranges rt attributes).foldlM (scanAttribute rt) scan := by
  unfold ranges
  induction attributes generalizing scan with
  | nil => rfl
  | cons item attributes ih =>
    rw [List.filter_cons]
    cases hends : rangeEnds rt item.1 with
    | none =>
      have hskip : scanAttribute rt scan item = .ok scan := by
        unfold scanAttribute
        rw [hends]
      rw [List.foldlM_cons, hskip]
      exact ih scan
    | some ends =>
      rw [List.foldlM_cons, if_pos Option.isSome_some, List.foldlM_cons]
      exact congrArg _ (funext fun scan => ih scan)

/-! ## Gathering ranges -/

theorem length_slice_some {members : List Str} {low last : Nat} (h : low ≤ last)
    (hlast : last < members.length) : (slice members low (some last)).length = last + 1 - low := by
  rw [slice, List.length_take, List.length_drop]
  omega

/-- The ranges of the members before `start`, as they are kept. -/
structure Reached (rt : Runtime) (members : List Str) (items : Attributes) (start : Nat) :
    Prop where
  positions : items.flatMap (positions rt members.length) = List.range start
  listed : items.flatMap (fun item => memberValues item.2) =
    (members.take start).map fun member => .string (member.take maxAttributeText)
  scan : ∃ pending, items.foldlM (scanAttribute rt) {} =
      .ok { pending, hasTerminalRange := false, totalMembers := start } ∧
    (start ≠ 0 → ∃ low, pending = some (low, (start : Int) - 1))

theorem Reached.nil (members : List Str) : Reached rt members [] 0 where
  positions := rfl
  listed := rfl
  scan := ⟨none, rfl, fun h => absurd rfl h⟩

/-- A further range, which a server chose. -/
structure NextRange (members : List Str) (item : Str × Json) (low : Nat) (high : Option Nat) :
    Prop where
  name : RangeName item.1 low high
  low_lt : low < members.length
  high_lt : ∀ last ∈ high, low ≤ last ∧ last + 1 < members.length
  values : memberValues item.2 =
    (slice members low high).map fun member => .string (member.take maxAttributeText)

section

variable {members : List Str} (hmembers : members.length < maxAttributeValues)
  {items : Attributes} {start : Nat} {item : Str × Json}

include hmembers in
theorem NextRange.positions {high : Option Nat} (h : NextRange members item start high) :
    positions rt members.length item =
      List.range' start ((high.getD (members.length - 1) + 1) - start) :=
  h.name.positions rt hmembers.le h.low_lt (fun last hlast => by
    have := (h.high_lt last hlast).2
    omega) item.2

include hmembers in
/-- A range that is not the last. -/
theorem Reached.step (h : Reached rt members items start) {last : Nat}
    (hitem : NextRange members item start (some last)) :
    Reached rt members (items ++ [item]) (last + 1) where
  positions := by
    obtain ⟨hle, hlt⟩ := hitem.high_lt last rfl
    rw [List.flatMap_append, h.positions, List.flatMap_singleton, hitem.positions hmembers,
      Option.getD_some, List.range_eq_range', List.range_eq_range']
    have happend := List.range'_append_1 (s := 0) (m := start) (n := last + 1 - start)
    rwa [Nat.zero_add, Nat.add_sub_cancel' (by omega)] at happend
  listed := by
    obtain ⟨hle, hlt⟩ := hitem.high_lt last rfl
    rw [List.flatMap_append, h.listed, List.flatMap_singleton, hitem.values, ← List.map_append,
      slice, ← List.take_add, Nat.add_sub_cancel' (by omega)]
  scan := by
    obtain ⟨hle, hlt⟩ := hitem.high_lt last rfl
    obtain ⟨pending, hscan, -⟩ := h.scan
    refine ⟨some (start, last), ?_, fun _ => ⟨start, by rw [Nat.cast_succ, add_sub_cancel_right]⟩⟩
    have hcount : start + (memberValues item.2).length = last + 1 := by
      rw [hitem.values, List.length_map, length_slice_some hle (by omega)]
      omega
    have hstep := hitem.name.scan rt (hitem.low_lt.trans hmembers)
      (fun other hother => by cases hother; omega)
      { pending, hasTerminalRange := false, totalMembers := start } item.2
    rw [hcount] at hstep
    rw [List.foldlM_append, hscan]
    exact congrArg (· >>= pure) hstep

include hmembers in
/-- The last range. -/
theorem Reached.last (h : Reached rt members items start)
    (hitem : NextRange members item start none)
    {attributes : Attributes} (hranges : ranges rt attributes = items ++ [item]) :
    Complete rt (List.take maxAttributeText) members attributes where
  partition := by
    have happend := List.range'_append_1 (s := 0) (m := start) (n := members.length - start)
    rw [Nat.zero_add, Nat.add_sub_cancel' hitem.low_lt.le] at happend
    rw [hranges, List.flatMap_append, h.positions, List.flatMap_singleton,
      hitem.positions hmembers, Option.getD_none, List.range_eq_range', List.range_eq_range',
      Nat.sub_add_cancel (Nat.zero_lt_of_lt hitem.low_lt)]
    exact happend
  terminal := by
    rw [hranges, List.getLast?_concat]
    exact ⟨item, rfl, by rw [hitem.name.ends]; rfl⟩
  listed := by
    rw [hranges, List.flatMap_append, h.listed, List.flatMap_singleton, hitem.values,
      ← List.map_append, slice, List.take_append_drop]

/-- A group whose ranges reach `start` asks for the range from there. -/
theorem Reached.search {group : ADRecord}
    (h : Reached rt members (ranges rt group.attributes) start)
    (hstart : start ≠ 0) (hlt : start < maxAttributeValues) {seenStarts : List Int}
    (hseen : (start : Int) ∉ seenStarts) :
    rangeDecision rt group seenStarts = .ok (.search start) := by
  obtain ⟨pending, hscan, hpending⟩ := h.scan
  obtain ⟨low, rfl⟩ := hpending hstart
  unfold rangeDecision
  rw [foldlM_scan_ranges, hscan]
  simp [hseen, not_le.mpr hlt]

include hmembers in
/-- A group that has the last range asks for no other. -/
theorem Reached.stop {group : ADRecord} (h : Reached rt members items start)
    (hitem : NextRange members item start none)
    (hranges : ranges rt group.attributes = items ++ [item]) (seenStarts : List Int) :
    rangeDecision rt group seenStarts = .ok (.stop []) := by
  obtain ⟨pending, hscan, -⟩ := h.scan
  have hstep := hitem.name.scan rt (hitem.low_lt.trans hmembers) (by simp)
    { pending, hasTerminalRange := false, totalMembers := start } item.2
  unfold rangeDecision
  rw [foldlM_scan_ranges, hranges, List.foldlM_append, hscan]
  show ((scanAttribute rt _ (item.1, item.2)) >>= pure >>= _) = _
  rw [hstep]
  cases pending with
  | none => rfl
  | some ends => rfl

end

/-! ## Entries of a group -/

/-- The values of an attribute; a single one may stand without a list. -/
def Lists (value : LdapValue) (texts : List Str) : Prop :=
  value = .list (texts.map .text) ∨ value = .tuple (texts.map .text) ∨
    ∃ text, texts = [text] ∧ value = .text text

variable (rt) in
/-- The entry of a group with the members from `low` on, as many of them as the server likes. -/
structure GroupEntry (entry : Entry) (dn : Str) (members : List Str) (low : Nat) : Prop where
  keys : entry.KeysNodup
  named : ∃ value, entry.get (str "distinguishedName") = some value ∧ Lists value [dn]
  range : ∃ name high value, RangeName name low high ∧
    (∀ last ∈ high, low ≤ last ∧ last + 1 < members.length) ∧
    Lists value (slice members low high) ∧
    (entry.filter fun item => (rangeEnds rt item.1).isSome) = [(name, value)]

theorem safeValues_eq_map (limit : Nat) (values : List LdapValue) :
    safeValues limit values = (values.take limit).map safeValue := by
  induction limit generalizing values with
  | zero => rw [safeValues, List.take_zero, List.map_nil]
  | succ limit ih =>
    cases values with
    | nil => simp [safeValues]
    | cons value values => rw [safeValues, ih, List.take_succ_cons, List.map_cons]

/-- What is kept of texts. -/
theorem Lists.kept {value : LdapValue} {texts : List Str} (h : Lists value texts)
    (hlength : texts.length ≤ maxAttributeValues) :
    memberValues (safeValue value) =
      texts.map fun text => .string (text.take maxAttributeText) := by
  have hall : safeValues maxAttributeValues (texts.map .text) =
      texts.map fun text => .string (text.take maxAttributeText) := by
    rw [safeValues_eq_map, List.take_of_length_le (by rwa [List.length_map]), List.map_map]
    rfl
  rcases h with rfl | rfl | ⟨text, rfl, rfl⟩
  · exact hall
  · exact hall
  · rfl

/-- The values from which `lowerAscii` leads to a text. -/
def spellings : Str → List Str
  | [] => [[]]
  | c :: s => (spellings s).flatMap fun t => [c :: t, Fin.ofNat _ (c.val - 32) :: t]

theorem mem_spellings {s t : Str} (h : s.map lowerAscii = t) : s ∈ spellings t := by
  subst h
  induction s with
  | nil => exact List.mem_singleton.mpr rfl
  | cons c s ih =>
    refine List.mem_flatMap.mpr ⟨s, ih, ?_⟩
    rw [List.mem_cons, List.mem_singleton, List.cons.injEq, List.cons.injEq, lowerAscii]
    split
    · next hupper =>
      unfold isUpper at hupper
      rw [Bool.and_eq_true, decide_eq_true_eq, decide_eq_true_eq] at hupper
      refine .inr ⟨Fin.ext ?_, rfl⟩
      rw [Fin.val_ofNat, Fin.val_ofNat]
      omega
    · exact .inl ⟨rfl, rfl⟩

/-- No spelling of the attribute is held back. -/
theorem search_member {s : Str} (h : s.map lowerAscii = str "member") :
    search forbiddenAttribute s = none := by
  have hall : ∀ s ∈ spellings (str "member"), search forbiddenAttribute s = none := by
    decide +kernel
  exact hall s (mem_spellings h)

theorem casefold_member {s : Str} (h : s.map lowerAscii = str "member") :
    rt.casefold s = str "member" := by
  have hletters : ∀ d ∈ str "member", isAscii d = true :=
    List.all_eq_true.mp (by decide +kernel)
  have hascii : ∀ c ∈ s, isAscii c = true := by
    intro c hc
    have hd := hletters _ (by rw [← h]; exact List.mem_map_of_mem hc)
    unfold lowerAscii at hd
    split at hd
    · next hupper =>
      unfold isUpper at hupper
      rw [Bool.and_eq_true, decide_eq_true_eq, decide_eq_true_eq] at hupper
      exact decide_eq_true (by omega)
    · exact hd
  rw [← h, Runtime.casefold, List.map_eq_flatMap]
  exact List.flatMap_congr fun c hc => if_pos (hascii c hc)

theorem RangeName.baseName {name : Str} {low : Nat} {high : Option Nat}
    (h : RangeName name low high) : (baseName name).map lowerAscii = str "member" := by
  obtain ⟨word, hword, rfl⟩ := h
  obtain ⟨base, option, rfl, hbase, hoption⟩ :=
    List.map_eq_append_iff.mp (show word.map lowerAscii = str "member" ++ str ";range=" from hword)
  obtain ⟨c, option, rfl, hc, -⟩ := List.map_eq_cons_iff.mp hoption
  obtain rfl : c = cp ';' := lowerAscii_eq hc
  have hfree : ∀ d ∈ base, (d != cp ';') = true := by
    intro d hd
    rw [bne_iff_ne]
    rintro rfl
    have hmem := List.mem_map_of_mem (f := lowerAscii) hd
    rw [hbase] at hmem
    exact absurd hmem (by decide)
  rw [ActiveDirectory.baseName, List.append_assoc, List.append_assoc, List.append_assoc,
    List.takeWhile_append_of_pos hfree, List.cons_append, List.takeWhile_cons_of_neg (by simp),
    List.append_nil]
  exact hbase

theorem first_of_lists {printable : CodePoint → Bool} {attributes : Attributes} {value : LdapValue}
    {dn : Str} (hvalue : attributes.get (str "distinguishedName") = some (safeValue value))
    (hlists : Lists value [dn]) (hne : dn ≠ []) (hlength : dn.length ≤ maxAttributeText) :
    first printable attributes "distinguishedName" = some dn := by
  have hkept : safeValue (.text dn) = .string dn := by
    rw [safeValue, List.take_of_length_le hlength]
  have hsingle : safeValues maxAttributeValues ([dn].map .text) = [.string dn] := by
    rw [safeValues_eq_map, List.take_of_length_le (show 1 ≤ maxAttributeValues by decide),
      List.map_map, List.map_singleton]
    exact congrArg (fun value => [value]) hkept
  obtain ⟨c, dn, rfl⟩ := List.exists_cons_of_ne_nil hne
  unfold first Json.field
  rw [hvalue, Option.getD_some]
  rcases hlists with rfl | rfl | ⟨text, htext, rfl⟩
  · rw [safeValue, hsingle]
    rfl
  · rw [safeValue, hsingle]
    rfl
  · obtain rfl : _ = text := (List.cons.inj htext).1
    rw [hkept]
    rfl

/-- What is kept of the entry of a group: its name, and the one range. -/
theorem GroupEntry.sanitized (printable : CodePoint → Bool) {entry : Entry} {dn : Str}
    {members : List Str} {low : Nat} (h : GroupEntry rt entry dn members low) (hne : dn ≠ [])
    (hlength : dn.length ≤ maxAttributeText) (hlow : low < members.length)
    (hmembers : members.length < maxAttributeValues) {allowed : List Str}
    (hname : str "distinguishedName" ∈ allowed)
    (hmember : ∃ name ∈ allowed, (baseName name).map lowerAscii = str "member") :
    first printable (sanitizeEntry rt entry allowed).1 "distinguishedName" = some dn ∧
      ∃ item high, NextRange members item low high ∧
        ranges rt (sanitizeEntry rt entry allowed).1 = [item] := by
  have happroved : ∀ name, search forbiddenAttribute (baseName name) = none →
      rt.casefold (baseName name) ∈ allowed.map (fun name => rt.casefold (baseName name)) →
      (!((search forbiddenAttribute (baseName name)).isSome ||
        !decide (rt.casefold (baseName name) ∈
          allowed.map fun name => rt.casefold (baseName name)))) = true := by
    intro name hsearch hallowed
    rw [hsearch, decide_eq_true hallowed]
    rfl
  constructor
  · obtain ⟨value, hvalue, hlists⟩ := h.named
    refine first_of_lists (Dict.get_of_mem ?_ ?_) hlists hne hlength
    · unfold Dict.KeysNodup
      rw [sanitizeEntry, List.map_map]
      exact h.keys.sublist (List.filter_sublist.map _)
    · refine List.mem_map.mpr ⟨(str "distinguishedName", value), List.mem_filter.mpr
        ⟨Dict.mem_of_get hvalue, happroved _ ?_ (List.mem_map_of_mem hname)⟩, rfl⟩
      decide +kernel
  · obtain ⟨name, high, value, hrange, hhigh, hlists, hfilter⟩ := h.range
    refine ⟨(name, safeValue value), high, ⟨hrange, hlow, hhigh, hlists.kept ?_⟩, ?_⟩
    · have hslice : (slice members low high).length ≤ members.length := by
        cases high with
        | none => exact (List.drop_sublist _ _).length_le
        | some last => exact ((List.take_sublist _ _).trans (List.drop_sublist _ _)).length_le
      exact hslice.trans hmembers.le
    · obtain ⟨other, hother, hbase⟩ := hmember
      have hkept := happroved name (search_member hrange.baseName) (List.mem_map.mpr
        ⟨other, hother, by rw [casefold_member hbase, casefold_member hrange.baseName]⟩)
      rw [ranges, sanitizeEntry, List.filter_map, List.filter_comm]
      have hrest := congrArg (List.filter fun item : Str × LdapValue =>
        !((search forbiddenAttribute (baseName item.1)).isSome ||
          !decide (rt.casefold (baseName item.1) ∈
            allowed.map fun name => rt.casefold (baseName name)))) hfilter
      rw [List.filter_singleton, hkept] at hrest
      exact congrArg (List.map fun item : Str × LdapValue => (item.1, safeValue item.2)) hrest

/-! ## One search -/

/-- The pages of a search: every cookie but the last is fresh, and the last page has none. -/
def Paged : List (List Byte) → List LDAPPage → Prop
  | _, [] => False
  | _, [page] => page.cookie = []
  | seenCookies, page :: pages => page.cookie ≠ [] ∧ page.cookie ∉ seenCookies ∧
      Paged (page.cookie :: seenCookies) pages

section

variable (rt) (printable : CodePoint → Bool) (limits : Limits) (spec : QuerySpec)

/-- `_run_query` while the server sends pages. -/
def runQuery (q : QueryState) (pages : List LDAPPage) : QueryRun :=
  (pages.map Response.page).foldl (queryStep rt printable limits spec) (.reading q)

/-- Issues of this category are about the ranges of a group. -/
def CollectorIssue.aboutRange (issue : CollectorIssue) : Bool :=
  (str "ad_group_range").isPrefixOf issue.category

end

variable {printable : CodePoint → Bool} {limits : Limits} {spec : QuerySpec}

theorem foldl_queryStep_final {run : QueryRun} (h : run.Final) (responses : List Response) :
    responses.foldl (queryStep rt printable limits spec) run = run := by
  induction responses with
  | nil => rfl
  | cons response responses ih =>
    rw [List.foldl_cons, (query_potential rt printable limits spec).absorbing run response h, ih]

/-- No issue of a query is about the ranges of a group. -/
def Quiet (issues : List CollectorIssue) : Prop := ∀ issue ∈ issues, issue.aboutRange = false

theorem Quiet.append {issues issues' : List CollectorIssue} (h : Quiet issues)
    (h' : Quiet issues') : Quiet (issues ++ issues') := by
  intro issue hissue
  rcases List.mem_append.mp hissue with hissue | hissue
  · exact h issue hissue
  · exact h' issue hissue

theorem quiet_singleton {category : String} {detail : Str}
    (h : (str "ad_group_range").isPrefixOf (str category) = false) :
    Quiet [⟨str category, detail⟩] := by
  intro issue hissue
  rw [List.mem_singleton.mp hissue]
  exact h

theorem readEntries_quiet (entries : List Entry) {q : QueryState} (h : Quiet q.issues) :
    Quiet (readEntries rt printable limits spec entries q).issues := by
  have hadd : ∀ (q : QueryState) (key : Str) (attributes : Attributes),
      (addRecord spec q key attributes).issues = q.issues := by
    intro q key attributes
    unfold addRecord
    split <;> rfl
  induction entries generalizing q with
  | nil => exact h
  | cons entry entries ih =>
    unfold readEntries
    simp only
    split
    · exact ih (h.append (quiet_singleton (by decide +kernel)))
    · split
      · rw [hadd]
        exact h.append (quiet_singleton (by decide +kernel))
      · refine ih ?_
        rw [hadd]
        exact h

variable (spec) in
theorem finishQuery_quiet {q : QueryState} (h : Quiet q.issues) :
    ∃ issues, finishQuery spec q = .finished q.records issues ∧ Quiet issues := by
  refine ⟨_, rfl, h.append ?_⟩
  split
  · exact fun issue hissue => absurd hissue List.not_mem_nil
  · exact quiet_singleton (by decide +kernel)

/-- A search is over after a page, or goes on with the next one. -/
theorem runQuery_cons {q q' : QueryState} {page : LDAPPage} {pages : List LDAPPage}
    (hread : readEntries rt printable limits spec page.entries
      { q with issues := q.issues ++ referralIssues spec page } = q')
    (hseen : q'.seenCookies = q.seenCookies) (hquiet : Quiet q.issues)
    (hpaged : Paged q.seenCookies (page :: pages)) :
    ((pages = [] ∨ limits.maxEntries ≤ q'.records.length) ∧ ∃ issues, Quiet issues ∧
      runQuery rt printable limits spec q (page :: pages) = .finished q'.records issues) ∨
    ∃ q'', q''.records = q'.records ∧ q''.positions = q'.positions ∧ Quiet q''.issues ∧
      Paged q''.seenCookies pages ∧
      runQuery rt printable limits spec q (page :: pages) =
        runQuery rt printable limits spec q'' pages := by
  have hreferral : Quiet (referralIssues spec page) := by
    unfold referralIssues
    split
    · exact fun issue hissue => absurd hissue List.not_mem_nil
    · exact quiet_singleton (by decide +kernel)
  have hquiet' : Quiet q'.issues := by
    rw [← hread]
    exact readEntries_quiet page.entries (hquiet.append hreferral)
  have hstep : runQuery rt printable limits spec q (page :: pages) =
      (pages.map Response.page).foldl (queryStep rt printable limits spec)
        (readPage rt printable limits spec q page) := rfl
  rw [hstep, readPage]
  simp only [hread]
  by_cases hover : page.cookie = [] ∨ limits.maxEntries ≤ q'.records.length
  · left
    obtain ⟨issues, hfinish, hissues⟩ := finishQuery_quiet spec hquiet'
    rw [if_pos hover, hfinish,
      foldl_queryStep_final (show QueryRun.Final (.finished _ _) from trivial)]
    refine ⟨hover.imp_left fun hcookie => ?_, issues, hissues, rfl⟩
    cases pages with
    | nil => rfl
    | cons next pages => exact absurd hcookie hpaged.1
  · right
    rw [not_or] at hover
    cases pages with
    | nil => exact absurd hpaged hover.1
    | cons next pages =>
      obtain ⟨-, hfresh, hnext⟩ := hpaged
      rw [if_neg (not_or.mpr hover), if_neg (by rwa [hseen])]
      refine ⟨{ q' with
        seenCookies := page.cookie :: q'.seenCookies, cookie := page.cookie }, rfl, rfl, hquiet',
        ?_, rfl⟩
      rwa [hseen]

variable (rt printable limits spec) in
/-- Pages without entries leave the records. -/
theorem runQuery_empty {pages : List LDAPPage} {q : QueryState} (hpaged : Paged q.seenCookies pages)
    (hempty : pages.flatMap LDAPPage.entries = []) (hquiet : Quiet q.issues) :
    ∃ issues, Quiet issues ∧
      runQuery rt printable limits spec q pages = .finished q.records issues := by
  induction pages generalizing q with
  | nil => exact absurd hpaged id
  | cons page pages ih =>
    rw [List.flatMap_cons, List.append_eq_nil_iff] at hempty
    obtain ⟨hpage, hempty⟩ := hempty
    have hread : readEntries rt printable limits spec page.entries
        { q with issues := q.issues ++ referralIssues spec page } =
        { q with issues := q.issues ++ referralIssues spec page } := by rw [hpage]; rfl
    rcases runQuery_cons hread rfl hquiet hpaged with
      ⟨-, hover⟩ | ⟨q', hrecords, -, hquiet', hnext, hrun⟩
    · exact hover
    · obtain ⟨issues, hissues, hfinish⟩ := ih hnext hempty hquiet'
      exact ⟨issues, hissues, by rw [hrun, hfinish, hrecords]⟩

variable (limits) in
theorem readEntries_singleton {entry : Entry} {key : Str} {q : QueryState}
    (hkey : entryKey printable spec (sanitizeEntry rt entry spec.attributes).1 = some key)
    (hrecords : q.records = []) (hpositions : q.positions = []) :
    (readEntries rt printable limits spec [entry] q).records =
        [{ kind := spec.kind, key, attributes := (sanitizeEntry rt entry spec.attributes).1 }] ∧
      (readEntries rt printable limits spec [entry] q).seenCookies = q.seenCookies := by
  unfold readEntries addRecord
  simp only [hkey, hrecords, hpositions, Dict.get, List.nil_append]
  split <;> exact ⟨rfl, rfl⟩

variable (limits) in
/-- A search that the server answers with one entry finds its record. -/
theorem runQuery_entry {entry : Entry} {key : Str}
    (hkey : entryKey printable spec (sanitizeEntry rt entry spec.attributes).1 = some key)
    {pages : List LDAPPage} {q : QueryState} (hpaged : Paged q.seenCookies pages)
    (hentry : pages.flatMap LDAPPage.entries = [entry]) (hquiet : Quiet q.issues)
    (hrecords : q.records = []) (hpositions : q.positions = []) :
    ∃ issues, Quiet issues ∧ runQuery rt printable limits spec q pages =
      .finished [{ kind := spec.kind, key
                   attributes := (sanitizeEntry rt entry spec.attributes).1 }] issues := by
  induction pages generalizing q with
  | nil => exact absurd hpaged id
  | cons page pages ih =>
    rw [List.flatMap_cons, List.append_eq_singleton_iff] at hentry
    rcases hentry with ⟨hpage, hentry⟩ | ⟨hpage, hempty⟩
    · have hread : readEntries rt printable limits spec page.entries
          { q with issues := q.issues ++ referralIssues spec page } =
          { q with issues := q.issues ++ referralIssues spec page } := by rw [hpage]; rfl
      rcases runQuery_cons hread rfl hquiet hpaged with
        ⟨hover, -⟩ | ⟨q', hrecords', hpositions', hquiet', hnext, hrun⟩
      · exfalso
        rcases hover with rfl | hover
        · cases hentry
        · rw [hrecords] at hover
          exact absurd (limits.maxEntries_pos.trans hover) (by decide)
      · rw [hrun]
        exact ih hnext hentry hquiet' (hrecords'.trans hrecords) (hpositions'.trans hpositions)
    · obtain ⟨q', hread⟩ : ∃ q', readEntries rt printable limits spec page.entries
        { q with issues := q.issues ++ referralIssues spec page } = q' := ⟨_, rfl⟩
      obtain ⟨hrecord, hseen⟩ := readEntries_singleton limits
        (q := { q with issues := q.issues ++ referralIssues spec page }) hkey hrecords hpositions
      rw [← hpage, hread] at hrecord hseen
      rcases runQuery_cons hread hseen hquiet hpaged with
        ⟨-, issues, hissues, hrun⟩ | ⟨q'', hrecords', -, hquiet', hnext, hrun⟩
      · exact ⟨issues, hissues, by rw [hrun, hrecord]⟩
      · obtain ⟨issues, hissues, hfinish⟩ := runQuery_empty rt printable limits spec hnext hempty
          hquiet'
        exact ⟨issues, hissues, by rw [hrun, hfinish, hrecords', hrecord]⟩

/-! ## The expansion -/

/-- A directory server, by the pages with which it answers each search. -/
abbrev Server := Nat → QuerySpec → List LDAPPage

section

variable (rt) (printable : CodePoint → Bool) (limits : Limits)

/-- A server that knows groups by their distinguished names, and answers each search for the members
of one from a position on with some of them. -/
def Compliant (directory : Str → Option (List Str)) (server : Server) : Prop :=
  ∀ search spec members low, directory spec.base = some members → low < members.length →
    spec.scope = str "base" → spec.ldapFilter = str "(objectClass=*)" →
    spec.attributes = [str "distinguishedName", str "objectGUID",
      str "member;range=" ++ natStr low ++ str "-*"] →
    Paged [] (server search spec) ∧ ∃ entry,
      (server search spec).flatMap LDAPPage.entries = [entry] ∧
        GroupEntry rt entry spec.base members low

/-- One search of the expansion. -/
def answerRange (s : RangeSearch) (pages : List LDAPPage) : RangeRun :=
  match runQuery rt printable limits (rangeSpec printable s) s.query pages with
  | .reading query => .searching { s with query }
  | .finished records issues => afterRange rt s records (s.issues ++ issues)
  | .raised e => .raised e

/-- The expansion after some searches; `search` were made before. -/
def searches (server : Server) : Nat → Nat → RangeRun → RangeRun
  | fuel + 1, search, .searching s =>
    searches server fuel (search + 1)
      (answerRange rt printable limits s (server search (rangeSpec printable s)))
  | _, _, run => run

/-- `_expand_group_ranges` after some searches. -/
def expandGroupRanges (server : Server) (groups : List ADRecord) (fuel : Nat) : RangeRun :=
  searches rt printable limits server fuel 0 (enterGroups rt [] groups [])

/-- The record of a group that the group query found, with the first of its ranges. -/
def FirstRange (directory : Str → Option (List Str)) (group : ADRecord) (members : List Str) :
    Prop :=
  ∃ dn entry, directory dn = some members ∧ dn ≠ [] ∧ dn.length ≤ maxAttributeText ∧
    0 < members.length ∧ members.length < maxAttributeValues ∧
    GroupEntry rt entry dn members 0 ∧
    group.attributes = (sanitizeEntry rt entry groupAttributes).1

end

/-- A search reads the pages that it asks for, one after the other. -/
theorem answerRange_eq_foldl (s : RangeSearch) (pages : List LDAPPage) :
    ∃ asked, asked <+: pages ∧ answerRange rt printable limits s pages =
      (asked.map Response.page).foldl (rangeStep rt printable limits) (.searching s) := by
  induction pages generalizing s with
  | nil => exact ⟨[], List.prefix_rfl, rfl⟩
  | cons page pages ih =>
    have hrun : runQuery rt printable limits (rangeSpec printable s) s.query (page :: pages) =
        (pages.map Response.page).foldl (queryStep rt printable limits (rangeSpec printable s))
          (queryStep rt printable limits (rangeSpec printable s) (.reading s.query) (.page page)) :=
      rfl
    cases hstep : queryStep rt printable limits (rangeSpec printable s) (.reading s.query)
      (.page page) with
    | reading query =>
      obtain ⟨asked, hasked, heq⟩ := ih { s with query }
      refine ⟨page :: asked, (List.prefix_cons_inj page).mpr hasked, ?_⟩
      rw [List.map_cons, List.foldl_cons, rangeStep_searching hstep, ← heq, answerRange, hrun,
        hstep]
      rfl
    | finished records issues =>
      refine ⟨[page], List.prefix_append [page] pages, ?_⟩
      rw [answerRange, hrun, hstep,
        foldl_queryStep_final (show QueryRun.Final (.finished _ _) from trivial)]
      exact (rangeStep_searching hstep).symm
    | raised e =>
      refine ⟨[page], List.prefix_append [page] pages, ?_⟩
      rw [answerRange, hrun, hstep,
        foldl_queryStep_final (show QueryRun.Final (.raised _) from trivial)]
      exact (rangeStep_searching hstep).symm

/-- What the expansion leaves of a record: attributes are added to it only. -/
structure Extends (group group' : ADRecord) : Prop where
  kind : group'.kind = group.kind
  key : group'.key = group.key
  attributes : group.attributes <+: group'.attributes

theorem Extends.refl (group : ADRecord) : Extends group group := ⟨rfl, rfl, List.prefix_rfl⟩

theorem Extends.trans {group group' group'' : ADRecord} (h : Extends group group')
    (h' : Extends group' group'') : Extends group group'' :=
  ⟨h'.kind.trans h.kind, h'.key.trans h.key, h.attributes.trans h'.attributes⟩

/-- The expansion waits for the members of a group from `start` on. -/
structure Waiting (rt : Runtime) (printable : CodePoint → Bool)
    (directory : Str → Option (List Str)) (s : RangeSearch) (dn : Str) (members : List Str)
    (start : Nat) : Prop where
  known : directory dn = some members
  dn_ne : dn ≠ []
  dn_length : dn.length ≤ maxAttributeText
  members_lt : members.length < maxAttributeValues
  named : first printable s.group.attributes "distinguishedName" = some dn
  reached : Reached rt members (ranges rt s.group.attributes) start
  start_ne : start ≠ 0
  start_lt : start < members.length
  seen : ∀ n ∈ s.seenStarts, n ≤ (start : Int)
  next : s.nextStart = start
  fresh : s.query = {}
  quiet : Quiet s.issues

section

variable {directory : Str → Option (List Str)} {s : RangeSearch} {dn : Str} {members : List Str}
  {start : Nat}

/-- A range from `start` on is a new attribute. -/
theorem Waiting.notMem (h : Waiting rt printable directory s dn members start) {item : Str × Json}
    {high : Option Nat} (hitem : NextRange members item start high) :
    item.1 ∉ s.group.attributes.map Prod.fst := by
  intro hmem
  obtain ⟨⟨name, value⟩, hattribute, hname⟩ := List.mem_map.mp hmem
  obtain rfl : name = item.1 := hname
  have hrange : (item.1, value) ∈ ranges rt s.group.attributes :=
    List.mem_filter.mpr ⟨hattribute, by rw [hitem.name.ends]; rfl⟩
  have hpositions := hitem.name.positions rt h.members_lt.le hitem.low_lt
    (fun last hlast => Nat.lt_of_succ_lt (hitem.high_lt last hlast).2) value
  have hstart : start ∈ positions rt members.length (item.1, value) := by
    rw [hpositions, List.mem_range'_1]
    cases high with
    | none =>
      rw [Option.getD_none]
      have := hitem.low_lt
      omega
    | some last =>
      rw [Option.getD_some]
      have := (hitem.high_lt last rfl).1
      omega
  have hcovered : start ∈ List.range start := by
    rw [← h.reached.positions]
    exact List.mem_flatMap.mpr ⟨_, hrange, hstart⟩
  exact absurd (List.mem_range.mp hcovered) (lt_irrefl start)

variable (limits) in
/-- The search finds the range that the server chose. -/
theorem Waiting.found (h : Waiting rt printable directory s dn members start) {server : Server}
    (hserver : Compliant rt directory server) (search : Nat) : ∃ record issues item high,
      Quiet issues ∧ NextRange members item start high ∧ ranges rt record.attributes = [item] ∧
      answerRange rt printable limits s (server search (rangeSpec printable s)) =
        afterRange rt s [record] (s.issues ++ issues) := by
  have hbase : (rangeSpec printable s).base = dn := by
    rw [rangeSpec, h.named]
    rfl
  have hasked : (rangeSpec printable s).attributes = [str "distinguishedName", str "objectGUID",
      str "member;range=" ++ natStr start ++ str "-*"] := by
    rw [rangeSpec, h.next]
    rfl
  have hname : str "distinguishedName" ∈ (rangeSpec printable s).attributes := List.mem_cons_self
  have hrange : str "member;range=" ++ natStr start ++ str "-*" ∈
      (rangeSpec printable s).attributes := by
    rw [hasked]
    exact List.mem_cons_of_mem _ (List.mem_cons_of_mem _ List.mem_cons_self)
  obtain ⟨hpaged, entry, hentries, hentry⟩ := hserver search (rangeSpec printable s) members start
    (by rw [hbase, h.known]) h.start_lt rfl rfl hasked
  rw [hbase] at hentry
  have hspelled : RangeName (str "member;range=" ++ natStr start ++ str "-*") start none :=
    ⟨str "member;range=", rfl, by rw [List.append_assoc, List.append_assoc]; rfl⟩
  obtain ⟨hfirst, item, high, hitem, hitems⟩ := hentry.sanitized printable h.dn_ne
    h.dn_length h.start_lt h.members_lt hname
    ⟨_, hrange, hspelled.baseName⟩
  obtain ⟨key, hkey⟩ : ∃ key, entryKey printable (rangeSpec printable s)
      (sanitizeEntry rt entry (rangeSpec printable s).attributes).1 = some key := by
    rw [entryKey, hfirst]
    exact ⟨_, Option.or_some⟩
  obtain ⟨issues, hissues, hrun⟩ := runQuery_entry limits (q := {}) hkey hpaged hentries
    (fun issue hissue => absurd hissue List.not_mem_nil) rfl rfl
  refine ⟨{ kind := (rangeSpec printable s).kind, key
            attributes := (sanitizeEntry rt entry (rangeSpec printable s).attributes).1 },
    issues, item, high, hissues, hitem, hitems, ?_⟩
  rw [answerRange, h.fresh, hrun]

variable (rt) in
/-- What `afterRange` makes of the decision. -/
def afterDecision (s : RangeSearch) (group : ADRecord) (issues : List CollectorIssue) :
    Except Exc RangeDecision → RangeRun
  | .error e => .raised e
  | .ok (.stop more) => enterGroups rt (s.finishedGroups ++ [group]) s.groups (issues ++ more)
  | .ok (.search nextStart) =>
    .searching { s with
      group, seenStarts := nextStart :: s.seenStarts, nextStart, query := {}, issues }

variable (limits) in
/-- A search brings the last range, or one that is not. -/
theorem Waiting.answer (h : Waiting rt printable directory s dn members start) {server : Server}
    (hserver : Compliant rt directory server) (search : Nat) :
    (∃ group issues, Extends s.group group ∧
      Complete rt (List.take maxAttributeText) members group.attributes ∧ Quiet issues ∧
      answerRange rt printable limits s (server search (rangeSpec printable s)) =
        enterGroups rt (s.finishedGroups ++ [group]) s.groups issues) ∨
    ∃ s' start', start < start' ∧ Waiting rt printable directory s' dn members start' ∧
      Extends s.group s'.group ∧ s'.finishedGroups = s.finishedGroups ∧ s'.groups = s.groups ∧
      answerRange rt printable limits s (server search (rangeSpec printable s)) =
        .searching s' := by
  obtain ⟨record, issues, item, high, hissues, hitem, hitems, hanswer⟩ :=
    h.found limits hserver search
  have hquiet : Quiet (s.issues ++ issues) := h.quiet.append hissues
  have hnew : s.group.attributes.set item.1 item.2 = s.group.attributes ++ [item] :=
    Dict.set_of_not_mem (h.notMem hitem) item.2
  obtain ⟨group, hgroup⟩ : ∃ group : ADRecord,
      group = { s.group with attributes := s.group.attributes.set item.1 item.2 } := ⟨_, rfl⟩
  have hextends : Extends s.group group := by
    rw [hgroup]
    exact ⟨rfl, rfl, by rw [hnew]; exact List.prefix_append _ _⟩
  have hranges : ranges rt group.attributes = ranges rt s.group.attributes ++ [item] := by
    rw [hgroup, hnew, ranges, List.filter_append, List.filter_singleton, hitem.name.ends]
    rfl
  have hnamed : first printable group.attributes "distinguishedName" = some dn := by
    have hne : item.1 ≠ str "distinguishedName" := by
      intro heq
      have hnone := Dict.get_eq_none.mpr (h.notMem hitem)
      have hnamed := h.named
      rw [first, Json.field, ← heq, hnone] at hnamed
      cases hnamed
    rw [hgroup, first, Json.field, Dict.get_set, if_neg hne]
    exact h.named
  have hafter : afterRange rt s [record] (s.issues ++ issues) =
      afterDecision rt s group (s.issues ++ issues) (rangeDecision rt group s.seenStarts) := by
    have hvalues : (record.attributes.filter fun item => (rangeEnds rt item.1).isSome) = [item] :=
      hitems
    rw [afterRange, hgroup]
    simp only [hvalues, List.isEmpty_cons, Bool.false_eq_true, if_false]
    rfl
  rw [hanswer, hafter]
  cases high with
  | none =>
    left
    rw [h.reached.stop h.members_lt hitem hranges]
    exact ⟨group, s.issues ++ issues, hextends, h.reached.last h.members_lt hitem hranges, hquiet,
      congrArg (enterGroups rt _ _) (List.append_nil _)⟩
  | some last =>
    right
    obtain ⟨hle, hlt⟩ := hitem.high_lt last rfl
    have hreached := h.reached.step h.members_lt hitem
    rw [← hranges] at hreached
    have hseen : ((last + 1 : Nat) : Int) ∉ s.seenStarts := by
      intro hmem
      have := h.seen _ hmem
      omega
    rw [hreached.search (Nat.succ_ne_zero last) (hlt.trans h.members_lt) hseen]
    refine ⟨{ s with
      group, seenStarts := ((last + 1 : Nat) : Int) :: s.seenStarts
      nextStart := ((last + 1 : Nat) : Int), query := {}, issues := s.issues ++ issues },
      last + 1, Nat.lt_succ_of_le hle, ?_, hextends, rfl, rfl, rfl⟩
    exact { h with
      named := hnamed
      reached := hreached
      start_ne := Nat.succ_ne_zero last
      start_lt := hlt
      seen := by
        intro n hn
        rcases List.mem_cons.mp hn with rfl | hn
        · exact le_rfl
        · have := h.seen n hn
          omega
      next := rfl
      fresh := rfl
      quiet := hquiet }

/-! ## Every group -/

variable (rt) in
/-- What the expansion makes of a group. -/
def Expanded (kept : Str → Str) (directory : Str → Option (List Str)) (group group' : ADRecord) :
    Prop :=
  Extends group group' ∧ ∀ members, FirstRange rt directory group members →
    Complete rt kept members group'.attributes

variable (rt printable limits) in
/-- The groups are expanded, whatever came before them. -/
def Expands (directory : Str → Option (List Str)) (server : Server) (groups : List ADRecord) :
    Prop :=
  ∀ finishedGroups issues search, Quiet issues → ∃ fuel groups' issues',
    searches rt printable limits server fuel search (enterGroups rt finishedGroups groups issues) =
        .finished (finishedGroups ++ groups') issues' ∧
      List.Forall₂ (Expanded rt (List.take maxAttributeText) directory) groups groups' ∧
      Quiet issues'

variable (limits) in
/-- A group that waits gets all its members, one search after the other. -/
theorem Waiting.expands (h : Waiting rt printable directory s dn members start) {server : Server}
    (hserver : Compliant rt directory server)
    (hrest : Expands rt printable limits directory server s.groups) (search : Nat) :
    ∃ fuel group groups' issues', searches rt printable limits server fuel search (.searching s) =
        .finished (s.finishedGroups ++ group :: groups') issues' ∧
      Extends s.group group ∧ Complete rt (List.take maxAttributeText) members group.attributes ∧
      List.Forall₂ (Expanded rt (List.take maxAttributeText) directory) s.groups groups' ∧
      Quiet issues' := by
  induction hleft : members.length - start using Nat.strong_induction_on
    generalizing s start search with
  | _ left ih =>
    rcases h.answer limits hserver search with
      ⟨group, issues, hextends, hcomplete, hquiet, hanswer⟩ |
      ⟨s', start', hlt, hwaiting, hextends, hfinished, hgroups, hanswer⟩
    · obtain ⟨fuel, groups', issues', hrun, hall, hquiet'⟩ :=
        hrest (s.finishedGroups ++ [group]) issues (search + 1) hquiet
      refine ⟨fuel + 1, group, groups', issues', ?_, hextends, hcomplete, hall, hquiet'⟩
      rw [searches, hanswer, hrun, List.append_assoc]
      rfl
    · have hless : members.length - start' < left := by
        have := h.start_lt
        omega
      rw [← hgroups] at hrest
      obtain ⟨fuel, group, groups', issues', hrun, hextends', hcomplete, hall, hquiet'⟩ :=
        ih _ hless hwaiting hrest (search + 1) rfl
      refine ⟨fuel + 1, group, groups', issues', ?_, hextends.trans hextends', hcomplete,
        hgroups ▸ hall, hquiet'⟩
      rw [searches, hanswer, hrun, hfinished]

/-- The first range of a group that the group query found. -/
theorem FirstRange.range {group : ADRecord} (h : FirstRange rt directory group members) :
    ∃ dn item high, directory dn = some members ∧ dn ≠ [] ∧ dn.length ≤ maxAttributeText ∧
      members.length < maxAttributeValues ∧
      (∀ printable, first printable group.attributes "distinguishedName" = some dn) ∧
      NextRange members item 0 high ∧ ranges rt group.attributes = [item] := by
  obtain ⟨dn, entry, hknown, hne, hlength, hpos, hlt, hentry, hattributes⟩ := h
  have hname : str "distinguishedName" ∈ groupAttributes := List.mem_cons_self
  have hmember : ∃ name ∈ groupAttributes, (baseName name).map lowerAscii = str "member" :=
    ⟨str "member", by decide +kernel, by decide +kernel⟩
  have hkept := fun printable => hentry.sanitized printable hne hlength hpos hlt
    hname hmember
  obtain ⟨-, item, high, hitem, hitems⟩ := hkept fun _ => true
  rw [hattributes]
  exact ⟨dn, item, high, hknown, hne, hlength, hlt, fun printable => (hkept printable).1, hitem,
    hitems⟩

theorem FirstRange.members_eq {group : ADRecord} {members' : List Str}
    (h : FirstRange rt directory group members) (h' : FirstRange rt directory group members') :
    members = members' := by
  obtain ⟨dn, -, -, hknown, -, -, -, hnamed, -⟩ := h.range
  obtain ⟨dn', -, -, hknown', -, -, -, hnamed', -⟩ := h'.range
  obtain rfl : dn = dn' :=
    Option.some.inj ((hnamed fun _ => true).symm.trans (hnamed' fun _ => true))
  exact Option.some.inj (hknown.symm.trans hknown')

variable (printable) in
/-- A group that the group query found is complete, or it asks for its next range. -/
theorem FirstRange.enter {group : ADRecord} (h : FirstRange rt directory group members) :
    (rangeDecision rt group [] = .ok (.stop []) ∧
      Complete rt (List.take maxAttributeText) members group.attributes) ∨
    ∃ start : Nat, rangeDecision rt group [] = .ok (.search start) ∧
      ∀ finishedGroups groups issues, Quiet issues → ∃ dn, Waiting rt printable directory
        { finishedGroups, group, groups, seenStarts := [(start : Int)], nextStart := start
          query := {}, issues } dn members start := by
  obtain ⟨dn, item, high, hknown, hne, hlength, hmembers, hnamed, hitem, hitems⟩ := h.range
  have hnone : Reached rt members [] 0 := Reached.nil members
  cases high with
  | none => exact .inl ⟨hnone.stop hmembers hitem hitems [], hnone.last hmembers hitem hitems⟩
  | some last =>
    obtain ⟨-, hlt⟩ := hitem.high_lt last rfl
    have hreached : Reached rt members (ranges rt group.attributes) (last + 1) := by
      rw [hitems]
      exact hnone.step hmembers hitem
    refine .inr ⟨last + 1, hreached.search (Nat.succ_ne_zero last) (hlt.trans hmembers)
      List.not_mem_nil, fun finishedGroups groups issues hquiet => ⟨dn, ?_⟩⟩
    exact {
      known := hknown, dn_ne := hne, dn_length := hlength, members_lt := hmembers
      named := hnamed printable, reached := hreached, start_ne := Nat.succ_ne_zero last
      start_lt := hlt, next := rfl, fresh := rfl, quiet := hquiet
      seen := fun n hn => (List.mem_singleton.mp hn).le }

variable (printable limits) in
/-- All groups are expanded, one after the other. -/
theorem expands_all {server : Server} (hserver : Compliant rt directory server)
    {groups : List ADRecord} (hgroups : ∀ group ∈ groups, ranges rt group.attributes = [] ∨
      ∃ members, FirstRange rt directory group members) :
    Expands rt printable limits directory server groups := by
  induction groups with
  | nil =>
    intro finishedGroups issues search hquiet
    exact ⟨0, [], issues, by rw [List.append_nil]; rfl, .nil, hquiet⟩
  | cons group groups ih =>
    have hrest := ih fun group hgroup => hgroups group (List.mem_cons_of_mem _ hgroup)
    intro finishedGroups issues search hquiet
    have hstop : ∀ {group}, rangeDecision rt group [] = .ok (.stop []) →
        Expanded rt (List.take maxAttributeText) directory group group → ∃ fuel groups' issues',
          searches rt printable limits server fuel search
              (enterGroups rt finishedGroups (group :: groups) issues) =
            .finished (finishedGroups ++ groups') issues' ∧
          List.Forall₂ (Expanded rt (List.take maxAttributeText) directory) (group :: groups)
            groups' ∧ Quiet issues' := by
      intro group hdecision hexpanded
      obtain ⟨fuel, groups', issues', hrun, hall, hquiet'⟩ :=
        hrest (finishedGroups ++ [group]) issues search hquiet
      refine ⟨fuel, group :: groups', issues', ?_, .cons hexpanded hall, hquiet'⟩
      rw [enterGroups, hdecision]
      simp only [List.append_nil]
      rw [hrun, List.append_assoc]
      rfl
    rcases hgroups group List.mem_cons_self with hplain | ⟨members, hfirst⟩
    · refine hstop ?_ ⟨.refl group, fun members hfirst => ?_⟩
      · rw [rangeDecision, foldlM_scan_ranges, hplain]
        rfl
      · obtain ⟨dn, item, high, -, -, -, -, -, -, hitems⟩ := hfirst.range
        rw [hplain] at hitems
        cases hitems
    · rcases hfirst.enter printable with ⟨hdecision, hcomplete⟩ | ⟨start, hdecision, hwaiting⟩
      · refine hstop hdecision ⟨.refl group, fun members' hfirst' => ?_⟩
        rw [← hfirst.members_eq hfirst']
        exact hcomplete
      · obtain ⟨dn, hwaiting⟩ := hwaiting finishedGroups groups issues hquiet
        obtain ⟨fuel, group', groups', issues', hrun, hextends, hcomplete, hall, hquiet'⟩ :=
          hwaiting.expands limits hserver hrest search
        refine ⟨fuel, group' :: groups', issues', ?_,
          .cons ⟨hextends, fun members' hfirst' => ?_⟩ hall, hquiet'⟩
        · rw [enterGroups, hdecision]
          exact hrun
        · rw [← hfirst.members_eq hfirst']
          exact hcomplete

end

/-- The expansion ends with every member of every group, each cut to `MAX_ATTRIBUTE_TEXT`, and with
no issue about a range. -/
theorem expansion_complete (rt : Runtime) (printable : CodePoint → Bool) (limits : Limits)
    (directory : Str → Option (List Str)) (server : Server)
    (hserver : Compliant rt directory server) (groups : List ADRecord)
    (hgroups : ∀ group ∈ groups, ranges rt group.attributes = [] ∨
      ∃ members, FirstRange rt directory group members) :
    ∃ fuel groups' issues,
      expandGroupRanges rt printable limits server groups fuel = .finished groups' issues ∧
      List.Forall₂ (Expanded rt (List.take maxAttributeText) directory) groups groups' ∧
      ∀ issue ∈ issues, issue.aboutRange = false := by
  obtain ⟨fuel, groups', issues, hrun, hall, hquiet⟩ := expands_all printable limits
    hserver hgroups [] [] 0 fun issue hissue => absurd hissue List.not_mem_nil
  exact ⟨fuel, groups', issues, hrun, hall, hquiet⟩

/-! ## A directory of one group -/

/-- An entry of the group with one more attribute. -/
def entryOf (name : String) (value : LdapValue) : Entry :=
  [(str "distinguishedName", .text (str "CN=g")), (str name, value)]

theorem groupEntry_entryOf {name : String} {value : LdapValue} {members : List Str} {low : Nat}
    (high : Option Nat) (hname : RangeName (str name) low high)
    (hhigh : ∀ last ∈ high, low ≤ last ∧ last + 1 < members.length)
    (hlists : Lists value (slice members low high)) :
    GroupEntry (.ofDigests []) (entryOf name value) (str "CN=g") members low where
  keys := by
    have hdn : rangeEnds (.ofDigests []) (str "distinguishedName") = none := by decide +kernel
    have hne : str "distinguishedName" ≠ str name := by
      intro heq
      rw [heq, hname.ends] at hdn
      cases hdn
    exact List.nodup_cons.mpr ⟨fun hmem => hne (List.mem_singleton.mp hmem), List.nodup_singleton _⟩
  named := ⟨.text (str "CN=g"), rfl, .inr (.inr ⟨_, rfl, rfl⟩)⟩
  range := by
    have hdn : rangeEnds (.ofDigests []) (str "distinguishedName") = none := by decide +kernel
    refine ⟨str name, high, value, hname, hhigh, hlists, ?_⟩
    rw [entryOf, List.filter_cons_of_neg (by rw [hdn]; decide), List.filter_singleton, hname.ends]
    rfl

/-- A directory with one group. -/
def directoryOf (members : List Str) (dn : Str) : Option (List Str) :=
  if dn = str "CN=g" then some members else none

/-- Two members, one in each range. -/
def pairServer : Server := fun _ spec =>
  if spec.attributes.getLast? = some (str "member;range=0-*") then
    [{ entries := [entryOf "member;range=0-0" (.list [.text (str "CN=a")])], cookie := [] }]
  else [{ entries := [], cookie := [1], referrals := [str "ldap://b"] },
    { entries := [entryOf "Member;Range=1-*" (.text (str "CN=b"))], cookie := [] }]

/-- The record of the group with its first range. -/
def pairGroup : ADRecord where
  kind := str "group"
  key := str "CN=g"
  attributes := (sanitizeEntry (.ofDigests [])
    (entryOf "member;range=0-0" (.list [.text (str "CN=a")])) groupAttributes).1

theorem firstPair : GroupEntry (.ofDigests [])
    (entryOf "member;range=0-0" (.list [.text (str "CN=a")])) (str "CN=g")
    [str "CN=a", str "CN=b"] 0 := by
  refine groupEntry_entryOf (some 0) ?_ ?_ (.inl rfl)
  · exact ⟨str "member;range=", by decide +kernel, by decide +kernel⟩
  · intro last hlast
    cases hlast
    exact ⟨le_rfl, by decide⟩

theorem pairServer_compliant :
    Compliant (.ofDigests []) (directoryOf [str "CN=a", str "CN=b"]) pairServer := by
  intro search spec members low hknown hlow hscope hfilter hattributes
  unfold directoryOf at hknown
  split at hknown
  · next hbase =>
    cases hknown
    rw [hbase, pairServer, hattributes]
    have hcases : low = 0 ∨ low = 1 := by
      have : low < 2 := hlow
      omega
    rcases hcases with rfl | rfl
    · rw [if_pos (by decide +kernel)]
      exact ⟨rfl, _, rfl, firstPair⟩
    · rw [if_neg (by decide +kernel)]
      refine ⟨⟨by decide, by decide, rfl⟩, _, rfl, groupEntry_entryOf none ?_ ?_ ?_⟩
      · exact ⟨str "Member;Range=", by decide +kernel, by decide +kernel⟩
      · exact fun last hlast => by cases hlast
      · exact .inr (.inr ⟨_, rfl, rfl⟩)
  · cases hknown

theorem expansion_complete_pair : ∃ fuel groups' issues,
    expandGroupRanges (.ofDigests []) isAscii ⟨5, by decide, by decide⟩ pairServer [pairGroup]
      fuel = .finished groups' issues ∧
    List.Forall₂ (Expanded (.ofDigests []) (List.take maxAttributeText)
      (directoryOf [str "CN=a", str "CN=b"])) [pairGroup] groups' ∧
    ∀ issue ∈ issues, issue.aboutRange = false :=
  expansion_complete _ _ _ _ _ pairServer_compliant _ fun group hgroup => .inr
    ⟨[str "CN=a", str "CN=b"], str "CN=g", _, rfl, by decide, by decide, by decide, by decide,
      firstPair, by rw [List.mem_singleton.mp hgroup]; rfl⟩

/-- The name of a member, longer than the texts that the collector keeps. -/
def longMember : Str := List.replicate (maxAttributeText + 1) (cp 'a')

/-- One member, in the first range. -/
def longServer : Server := fun _ _ =>
  [{ entries := [entryOf "member;range=0-*" (.list [.text longMember])], cookie := [] }]

/-- The record of the group with its only range. -/
def longGroup : ADRecord where
  kind := str "group"
  key := str "CN=g"
  attributes := (sanitizeEntry (.ofDigests [])
    (entryOf "member;range=0-*" (.list [.text longMember])) groupAttributes).1

theorem onlyRange : GroupEntry (.ofDigests [])
    (entryOf "member;range=0-*" (.list [.text longMember])) (str "CN=g") [longMember] 0 :=
  groupEntry_entryOf none ⟨str "member;range=", by decide +kernel, by decide +kernel⟩
    (fun last hlast => by cases hlast) (.inl rfl)

theorem longServer_compliant :
    Compliant (.ofDigests []) (directoryOf [longMember]) longServer := by
  intro search spec members low hknown hlow hscope hfilter hattributes
  unfold directoryOf at hknown
  split at hknown
  · next hbase =>
    cases hknown
    obtain rfl : low = 0 := Nat.lt_one_iff.mp hlow
    rw [hbase]
    exact ⟨rfl, _, rfl, onlyRange⟩
  · cases hknown

theorem longGroup_first :
    FirstRange (.ofDigests []) (directoryOf [longMember]) longGroup [longMember] :=
  ⟨str "CN=g", _, rfl, by decide, by decide, Nat.one_pos, by decide, onlyRange, rfl⟩

/-- A member whose name is longer than the texts that are kept is not listed under its name. -/
theorem not_expansion_complete : ¬ ∀ (rt : Runtime) (printable : CodePoint → Bool) (limits : Limits)
    (directory : Str → Option (List Str)) (server : Server), Compliant rt directory server →
    ∀ groups : List ADRecord, (∀ group ∈ groups, ranges rt group.attributes = [] ∨
      ∃ members, FirstRange rt directory group members) →
    ∃ fuel groups' issues,
      expandGroupRanges rt printable limits server groups fuel = .finished groups' issues ∧
      List.Forall₂ (fun group group' => ∀ members, FirstRange rt directory group members →
        Complete rt id members group'.attributes) groups groups' ∧
      ∀ issue ∈ issues, issue.aboutRange = false := by
  intro h
  obtain ⟨fuel, groups', issues, hrun, hall, -⟩ := h (.ofDigests []) isAscii
    ⟨5, by decide, by decide⟩ (directoryOf [longMember]) longServer longServer_compliant [longGroup]
    fun group hgroup => .inr
      ⟨[longMember], by rw [List.mem_singleton.mp hgroup]; exact longGroup_first⟩
  rcases longGroup_first.enter isAscii with ⟨hdecision, hkept⟩ | ⟨start, -, hwaiting⟩
  · have hfinished : expandGroupRanges (.ofDigests []) isAscii ⟨5, by decide, by decide⟩ longServer
        [longGroup] fuel = .finished [longGroup] [] := by
      rw [expandGroupRanges, enterGroups, hdecision]
      cases fuel <;> rfl
    rw [hfinished] at hrun
    cases hrun
    obtain ⟨hgroup, -⟩ := List.forall₂_cons.mp hall
    have hlisted := hkept.listed.symm.trans (hgroup _ longGroup_first).listed
    have hcut : longMember.take maxAttributeText = longMember :=
      Json.string.inj (List.cons.inj hlisted).1
    have hlength := congrArg List.length hcut
    rw [List.length_take, longMember, List.length_replicate] at hlength
    omega
  · obtain ⟨dn, h⟩ := hwaiting [] [] [] fun issue hissue => absurd hissue List.not_mem_nil
    exact h.start_ne (Nat.lt_one_iff.mp h.start_lt)

end

end FieldDiscovery.ActiveDirectory
