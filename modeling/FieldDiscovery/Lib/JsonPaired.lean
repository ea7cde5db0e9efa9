import FieldDiscovery.Lib.JsonLoads

/-!
# Texts of JSON strings

A quoted text can be told from what follows it (`quoted_append_inj`). What `json.loads` reads off
a text without surrogates has no high surrogate before a low one (`loads_paired`): a pair of escapes
is joined, and a surrogate that is left stands alone.
-/

namespace Py

/-! ## Quoted texts -/

/-- Quoted texts at the front of two equal texts are read alike. -/
theorem quoted_append_inj {s s' rest rest' : Str}
    (h : quoted true s ++ rest = quoted true s' ++ rest') :
    joinPairs s = joinPairs s' ∧ rest = rest' := by
  have htext : ∀ s rest : Str, quoted true s ++ rest =
      cp '"' :: (s.flatMap (escapeChar true) ++ cp '"' :: rest) := by
    intro s rest
    simp [quoted, str, List.append_assoc]
  rw [htext, htext] at h
  have hread := jsonString_escaped s rest (Nat.lt_succ_of_le (Nat.le_add_right
    (s.flatMap (escapeChar true)).length (s'.flatMap (escapeChar true)).length))
  have hread' := jsonString_escaped s' rest' (Nat.lt_succ_of_le (Nat.le_add_left
    (s'.flatMap (escapeChar true)).length (s.flatMap (escapeChar true)).length))
  rw [(List.cons.inj h).2, hread', Option.some.injEq, Prod.mk.injEq] at hread
  exact ⟨hread.1.symm, hread.2.symm⟩

/-- So are lists of them, up to the bracket. -/
theorem quotedItems_append_inj {l l' : List Str} {rest rest' : Str}
    (h : join (str ", ") (l.map (quoted true)) ++ cp ']' :: rest =
      join (str ", ") (l'.map (quoted true)) ++ cp ']' :: rest') : rest = rest' := by
  have hcons : ∀ (s : Str) (l : List Str) (r : Str),
      join (str ", ") ((s :: l).map (quoted true)) ++ cp ']' :: r =
        quoted true s ++ (if l = [] then cp ']' :: r else
          str ", " ++ (join (str ", ") (l.map (quoted true)) ++ cp ']' :: r)) := by
    intro s l r
    cases l with
    | nil => simp [join]
    | cons t l => simp [join, List.intercalate, List.append_assoc]
  have hquote : ∀ (s : Str) (r r' : Str), quoted true s ++ r ≠ cp ']' :: r' :=
    fun s r r' heq => absurd (List.cons.inj heq).1 (by decide)
  induction l generalizing l' with
  | nil =>
    cases l' with
    | nil => exact (List.cons.inj h).2
    | cons s' l' =>
      rw [hcons] at h
      exact absurd h.symm (hquote _ _ _)
  | cons s l ih =>
    cases l' with
    | nil =>
      rw [hcons] at h
      exact absurd h (hquote _ _ _)
    | cons s' l' =>
      rw [hcons, hcons] at h
      have htail := (quoted_append_inj h).2
      by_cases hl : l = []
      · by_cases hl' : l' = []
        · rw [if_pos hl, if_pos hl'] at htail
          exact (List.cons.inj htail).2
        · rw [if_pos hl, if_neg hl'] at htail
          exact absurd (List.cons.inj htail).1 (by decide)
      · by_cases hl' : l' = []
        · rw [if_neg hl, if_pos hl'] at htail
          exact absurd (List.cons.inj htail).1 (by decide)
        · rw [if_neg hl, if_neg hl'] at htail
          exact ih (List.append_cancel_left htail)

/-- A string, or a list of strings. -/
inductive Json.IsTexts : Json → Prop
  | string (s : Str) : IsTexts (.string s)
  | list (items : List Str) : IsTexts (.list (items.map .string))

theorem Json.dumpsItems_eq (style : DumpStyle) (items : List Json) :
    dumpsItems style items = items.map (dumps style) := by
  induction items with
  | nil => rfl
  | cons v vs ih =>
    rw [dumpsItems, ih]
    rfl

/-- Such values at the front of two equal texts end alike. -/
theorem Json.IsTexts.append_inj {v v' : Json} (hv : v.IsTexts) (hv' : v'.IsTexts) {rest rest' : Str}
    (h : v.dumps {} ++ rest = v'.dumps {} ++ rest') : rest = rest' := by
  have hlist : ∀ (items : List Str) (r : Str), (Json.list (items.map .string)).dumps {} ++ r =
      cp '[' :: (join (str ", ") (items.map (quoted true)) ++ cp ']' :: r) := by
    intro items r
    rw [dumps, dumpsItems_eq, List.map_map, List.append_assoc, List.append_assoc]
    have hitems : items.map (dumps {} ∘ Json.string) = items.map (quoted true) :=
      List.map_congr_left fun s _ => by rw [Function.comp_apply, dumps]
    rw [hitems]
    rfl
  have hstring : ∀ (s : Str) (r : Str), (Json.string s).dumps {} ++ r = quoted true s ++ r := by
    intro s r
    rw [dumps]
  cases hv with
  | string s =>
    cases hv' with
    | string s' =>
      rw [hstring, hstring] at h
      exact (quoted_append_inj h).2
    | list items' =>
      rw [hstring, hlist] at h
      exact absurd (List.cons.inj h).1 (by decide)
  | list items =>
    cases hv' with
    | string s' =>
      rw [hlist, hstring] at h
      exact absurd (List.cons.inj h).1 (by decide)
    | list items' =>
      rw [hlist, hlist] at h
      exact quotedItems_append_inj (List.cons.inj h).2

/-- The text of an object whose fields are listed in the order in which they are written. -/
theorem Json.dumps_dict_perm {fields sorted : List (Str × Json)} (hp : fields.Perm sorted)
    (hs : (sorted.map Prod.fst).Pairwise (· < ·)) : (Json.dict fields).dumps {} =
      str "\x7b" ++ join (str ", ")
        (sorted.map fun f => quoted true f.1 ++ str ": " ++ f.2.dumps {}) ++ str "\x7d" := by
  rw [List.pairwise_map] at hs
  have hsorted : sortedBy Prod.fst (dumpsFields {} fields) = dumpsFields {} sorted := by
    rw [dumpsFields_eq, dumpsFields_eq]
    have hkeys : ((fields.map fun f => (f.1, f.2.dumps {})).map Prod.fst).Nodup := by
      rw [List.map_map]
      refine (hp.map _).nodup_iff.mpr ?_
      rw [List.nodup_iff_pairwise_ne, List.pairwise_map]
      exact hs.imp ne_of_lt
    rw [sortedBy_eq_of_perm (hp.map _) hkeys, sortedBy_eq_self]
    rw [List.pairwise_map]
    exact hs.imp le_of_lt
  rw [dumps, hsorted, dumpsFields_eq, List.map_map]
  rfl

/-! ## Strings that are read -/

theorem isSurrogate_joinSurrogates {high low : CodePoint}
    (hhigh : 0xD800 ≤ high.val ∧ high.val ≤ 0xDBFF) (hlow : 0xDC00 ≤ low.val ∧ low.val ≤ 0xDFFF) :
    isSurrogate (joinSurrogates high low) = false := by
  have hval : (joinSurrogates high low).val =
      0x10000 + (high.val - 0xD800) * 1024 + (low.val - 0xDC00) := by
    unfold joinSurrogates
    rw [Fin.val_ofNat]
    omega
  unfold isSurrogate
  simp only [Bool.and_eq_false_iff, decide_eq_false_iff_not]
  omega

theorem isSurrogate_jsonEscape {c d : CodePoint} (h : jsonEscape d = some c) :
    isSurrogate c = false := by
  unfold jsonEscape at h
  repeat' split at h
  all_goals first
    | next hd => cases h; rcases hd with rfl | rfl | rfl <;> decide
    | cases h

theorem Encodable.drop {s : Str} (h : Encodable s) (n : Nat) : Encodable (s.drop n) :=
  fun c hc => h c (List.mem_of_mem_drop hc)

theorem Encodable.cons {c : CodePoint} {s : Str} (h : Encodable (c :: s)) : Encodable s :=
  fun d hd => h d (List.mem_cons_of_mem _ hd)

/-- The text begins with the escape of the code unit `c`. -/
def StartsUnit (s : Str) (c : CodePoint) : Prop := 6 ≤ s.length ∧ escapedUnit s = some c

/-- The first character that is read: no surrogate, or the escape of a code unit, which is not
joined with another one after it. -/
theorem jsonString_cons {fuel : Nat} {s rest t : Str} {c : CodePoint} (hs : Encodable s)
    (h : jsonString fuel s = some (c :: t, rest)) : ∃ fuel' s', fuel = fuel' + 1 ∧ Encodable s' ∧
      jsonString fuel' s' = some (t, rest) ∧ (isSurrogate c = false ∨ StartsUnit s c ∧
        (isHighSurrogate c = true → ∀ low, StartsUnit s' low → isLowSurrogate low = false)) := by
  cases fuel with
  | zero => cases h
  | succ fuel =>
  cases s with
  | nil => cases h
  | cons a s =>
  have ha : isSurrogate a = false := hs a List.mem_cons_self
  refine ⟨fuel, ?_⟩
  unfold jsonString at h
  simp only at h
  split at h
  · cases h
  split at h
  · cases h
  split at h
  · obtain ⟨m, hm, heq⟩ := Option.map_eq_some_iff.mp h
    cases heq
    exact ⟨s, rfl, hs.cons, hm, .inl ha⟩
  next hback =>
  rw [ne_eq, not_not] at hback
  cases s with
  | nil => cases h
  | cons d s =>
  simp only at h
  split at h
  · next hu =>
    split at h
    · obtain ⟨unit, hunit, h⟩ := Option.bind_eq_some_iff.mp h
      have hstarts : StartsUnit (a :: d :: s) unit := by
        refine ⟨by simp only [List.length_cons]; omega, ?_⟩
        unfold escapedUnit
        rw [if_pos (by rw [hback, hu]; rfl)]
        exact hunit
      have hdrop : Encodable (s.drop 4) := (hs.cons.cons).drop 4
      split at h
      · next low hlow =>
        obtain ⟨m, hm, heq⟩ := Option.bind_eq_some_iff.mp h
        simp only [Option.some.injEq, Prod.mk.injEq, List.cons.injEq] at heq
        obtain ⟨⟨rfl, rfl⟩, rfl⟩ := heq
        obtain ⟨-, hranges⟩ := Option.filter_eq_some_iff.mp hlow
        have hranges := of_decide_eq_true hranges
        exact ⟨_, rfl, hdrop.drop 6, hm, .inl (isSurrogate_joinSurrogates
          ⟨hranges.1, hranges.2.1⟩ ⟨hranges.2.2.2.1, hranges.2.2.2.2⟩)⟩
      · next hnone =>
        obtain ⟨m, hm, heq⟩ := Option.bind_eq_some_iff.mp h
        cases heq
        refine ⟨_, rfl, hdrop, hm, .inr ⟨hstarts, fun hhigh low hlow => ?_⟩⟩
        -- a low surrogate there would have been joined
        rw [Bool.eq_false_iff]
        intro hislow
        unfold isHighSurrogate at hhigh
        unfold isLowSurrogate at hislow
        simp only [Bool.and_eq_true, decide_eq_true_eq] at hhigh hislow
        have hnot := Option.filter_eq_none_iff.mp hnone low hlow.2
        rw [decide_eq_true_eq] at hnot
        exact hnot ⟨hhigh.1, hhigh.2, hlow.1, hislow.1, hislow.2⟩
    · cases h
  · obtain ⟨e, he, h⟩ := Option.bind_eq_some_iff.mp h
    obtain ⟨m, hm, heq⟩ := Option.bind_eq_some_iff.mp h
    cases heq
    exact ⟨s, rfl, hs.cons.cons, hm, .inl (isSurrogate_jsonEscape he)⟩

/-- A string that begins with a low surrogate is written with the escape of it. -/
theorem jsonString_low {fuel : Nat} {s rest t : Str} {c : CodePoint} (hs : Encodable s)
    (h : jsonString fuel s = some (c :: t, rest)) (hc : isLowSurrogate c = true) :
    StartsUnit s c := by
  obtain ⟨-, -, -, -, -, hsurrogate | ⟨hstarts, -⟩⟩ := jsonString_cons hs h
  · unfold isSurrogate at hsurrogate
    unfold isLowSurrogate at hc
    simp only [Bool.and_eq_true, decide_eq_true_eq, Bool.and_eq_false_iff,
      decide_eq_false_iff_not] at hsurrogate hc
    omega
  · exact hstarts

theorem jsonString_paired {fuel : Nat} {s rest t : Str} (hs : Encodable s)
    (h : jsonString fuel s = some (t, rest)) : IsPaired t := by
  induction t generalizing fuel s with
  | nil => exact .nil
  | cons c t ih =>
    obtain ⟨fuel', s', -, hs', htail, hcase⟩ := jsonString_cons hs h
    have hpaired := ih hs' htail
    cases t with
    | nil => exact .singleton c
    | cons d t =>
      refine List.isChain_cons_cons.mpr ⟨fun ⟨hhigh, hlow⟩ => ?_, hpaired⟩
      rcases hcase with hsurrogate | ⟨-, halone⟩
      · unfold isSurrogate at hsurrogate
        unfold isHighSurrogate at hhigh
        simp only [Bool.and_eq_true, decide_eq_true_eq, Bool.and_eq_false_iff,
          decide_eq_false_iff_not] at hsurrogate hhigh
        omega
      · rw [halone hhigh d (jsonString_low hs' htail hlow)] at hlow
        cases hlow

/-- What follows the closing quotation mark is the end of the text. -/
theorem jsonString_nil {fuel : Nat} {s rest : Str} (h : jsonString fuel s = some ([], rest)) :
    s = cp '"' :: rest := by
  cases fuel with
  | zero => cases h
  | succ fuel =>
  cases s with
  | nil => cases h
  | cons a s =>
  unfold jsonString at h
  simp only at h
  split at h
  · next ha =>
    cases h
    rw [ha]
  split at h
  · cases h
  split at h
  · obtain ⟨m, -, heq⟩ := Option.map_eq_some_iff.mp h
    cases heq
  cases s with
  | nil => cases h
  | cons d s =>
  simp only at h
  split at h
  · split at h
    · obtain ⟨unit, -, h⟩ := Option.bind_eq_some_iff.mp h
      split at h <;> obtain ⟨m, -, heq⟩ := Option.bind_eq_some_iff.mp h <;> cases heq
    · cases h
  · obtain ⟨e, -, h⟩ := Option.bind_eq_some_iff.mp h
    obtain ⟨m, -, heq⟩ := Option.bind_eq_some_iff.mp h
    cases heq

theorem jsonString_encodable {fuel : Nat} {s rest t : Str} (hs : Encodable s)
    (h : jsonString fuel s = some (t, rest)) : Encodable rest := by
  induction t generalizing fuel s with
  | nil =>
    rw [jsonString_nil h] at hs
    exact hs.cons
  | cons c t ih =>
    obtain ⟨fuel', s', -, hs', htail, -⟩ := jsonString_cons hs h
    exact ih hs' htail

/-! ## Values that are read -/

theorem Encodable.of_suffix {s t : Str} (h : Encodable s) (hst : t <:+ s) : Encodable t :=
  fun c hc => h c (hst.subset hc)

theorem skipSpace_suffix (s : Str) : skipSpace s <:+ s := List.dropWhile_suffix _

theorem jsonInteger_suffix {s text rest : Str} (h : jsonInteger s = some (text, rest)) :
    rest <:+ s := by
  unfold jsonInteger at h
  simp only at h
  have htail : ∀ u : Str, u <:+ (if s.head? = some (cp '-') then ([cp '-'], s.tail)
      else (([] : Str), s)).2 → u <:+ s := by
    intro u hu
    split at hu
    · exact hu.trans (List.tail_suffix s)
    · exact hu
  split at h
  · cases h
  · next c t heq =>
    split at h
    · cases h
      exact htail rest (by rw [heq]; exact List.suffix_cons c rest)
    · split at h
      · cases h
        exact htail _ (by rw [heq]; exact List.dropWhile_suffix _)
      · cases h

theorem jsonFraction_suffix (s : Str) : (jsonFraction s).2 <:+ s := by
  unfold jsonFraction
  simp only
  split
  · exact (List.dropWhile_suffix _).trans (List.tail_suffix s)
  · exact List.suffix_refl s

theorem jsonExponent_suffix (s : Str) : (jsonExponent s).2 <:+ s := by
  unfold jsonExponent
  simp only
  split <;> split
  · exact (List.dropWhile_suffix _).trans (List.drop_suffix _ s)
  · exact List.suffix_refl s
  · exact (List.dropWhile_suffix _).trans (List.drop_suffix _ s)
  · exact List.suffix_refl s

section

variable {floatRepr : Str → Str}

/-- The strings among the fields are paired. -/
def FieldsPaired (fields : List (Str × Json)) : Prop :=
  ∀ field ∈ fields, ∀ s, field.2 = .string s → IsPaired s

/-- A paired string, an object with paired strings, or another value. -/
def Json.PairedText : Json → Prop
  | .string s => IsPaired s
  | .dict fields => FieldsPaired fields
  | _ => True

theorem FieldsPaired.foldl_set {fields : List (Str × Json)} (h : FieldsPaired fields)
    {d : Dict Str Json} (hd : FieldsPaired d) :
    FieldsPaired (fields.foldl (fun d field => Dict.set d field.1 field.2) d) := by
  induction fields generalizing d with
  | nil => exact hd
  | cons f fields ih =>
    obtain ⟨hfirst, hrest⟩ := List.forall_mem_cons.mp h
    refine ih hrest fun field hfield => ?_
    rcases Dict.mem_set hfield with hfield | rfl
    · exact hd field hfield
    · exact hfirst

theorem jsonScalar_suffix {s rest : Str} {v : Json}
    (h : jsonScalar floatRepr s = some (v, rest)) : rest <:+ s ∧ v.PairedText := by
  have hnumber : jsonNumber floatRepr s = some (v, rest) → rest <:+ s ∧ v.PairedText := by
    intro h
    unfold jsonNumber at h
    obtain ⟨⟨integer, after⟩, hinteger, h⟩ := Option.bind_eq_some_iff.mp h
    have hsuffix : (jsonExponent (jsonFraction after).2).2 <:+ s :=
      ((jsonExponent_suffix _).trans (jsonFraction_suffix _)).trans (jsonInteger_suffix hinteger)
    simp only at h
    split at h
    · obtain ⟨n, -, h⟩ := Option.bind_eq_some_iff.mp h
      cases h
      exact ⟨hsuffix, trivial⟩
    · cases h
      exact ⟨hsuffix, trivial⟩
  unfold jsonScalar at h
  split at h
  · cases h
    exact ⟨List.drop_suffix _ s, trivial⟩
  split at h
  · cases h
    exact ⟨List.drop_suffix _ s, trivial⟩
  split at h
  · cases h
    exact ⟨List.drop_suffix _ s, trivial⟩
  split at h
  · exact hnumber h
  split at h
  · cases h
    exact ⟨List.drop_suffix _ s, trivial⟩
  split at h
  · cases h
    exact ⟨List.drop_suffix _ s, trivial⟩
  split at h
  · cases h
    exact ⟨List.drop_suffix _ s, trivial⟩
  · cases h

/-- One induction on the fuel for the three readers. -/
theorem json_encodable (fuel : Nat) :
    (∀ s v rest, Encodable s → jsonValue floatRepr fuel s = some (v, rest) →
      Encodable rest ∧ v.PairedText) ∧
    (∀ s fields rest, Encodable s → jsonFields floatRepr fuel s = some (fields, rest) →
      Encodable rest ∧ FieldsPaired fields) ∧
    (∀ s items rest, Encodable s → jsonItems floatRepr fuel s = some (items, rest) →
      Encodable rest) := by
  have hskip : ∀ s : Str, Encodable s → Encodable (skipSpace s) :=
    fun s hs => hs.of_suffix (skipSpace_suffix s)
  have htail : ∀ s : Str, Encodable s → Encodable s.tail :=
    fun s hs => hs.of_suffix (List.tail_suffix s)
  induction fuel with
  | zero => exact ⟨nofun, nofun, nofun⟩
  | succ fuel ih =>
    obtain ⟨hvalue, hfields, hitems⟩ := ih
    refine ⟨fun s v rest hs h => ?_, fun s fields rest hs h => ?_, fun s items rest hs h => ?_⟩
    · cases s with
      | nil => cases h
      | cons c s =>
      unfold jsonValue at h
      split at h
      · obtain ⟨m, hm, heq⟩ := Option.map_eq_some_iff.mp h
        cases heq
        exact ⟨jsonString_encodable hs.cons hm, jsonString_paired hs.cons hm⟩
      split at h
      · split at h
        · cases h
          exact ⟨htail _ (hskip _ hs.cons), fun field hfield => absurd hfield List.not_mem_nil⟩
        · obtain ⟨m, hm, heq⟩ := Option.map_eq_some_iff.mp h
          cases heq
          obtain ⟨hs', hall⟩ := hfields _ _ _ (hskip _ hs.cons) hm
          exact ⟨hs', hall.foldl_set fun field hfield => absurd hfield List.not_mem_nil⟩
      split at h
      · split at h
        · cases h
          exact ⟨htail _ (hskip _ hs.cons), trivial⟩
        · obtain ⟨m, hm, heq⟩ := Option.map_eq_some_iff.mp h
          cases heq
          exact ⟨hitems _ _ _ (hskip _ hs.cons) hm, trivial⟩
      · exact (jsonScalar_suffix h).imp_left hs.of_suffix
    · cases s with
      | nil => cases h
      | cons c s =>
      unfold jsonFields at h
      split at h
      · obtain ⟨⟨key, s₁⟩, hkey, h⟩ := Option.bind_eq_some_iff.mp h
        have hs₁ := jsonString_encodable hs.cons hkey
        simp only at h
        split at h
        · obtain ⟨⟨value, s₂⟩, hread, h⟩ := Option.bind_eq_some_iff.mp h
          obtain ⟨hs₂, hpaired⟩ := hvalue _ _ _ (hskip _ (htail _ (hskip _ hs₁))) hread
          have hs₃ := hskip _ hs₂
          have hfirst : ∀ u, value = .string u → IsPaired u := by
            rintro u rfl
            exact hpaired
          simp only at h
          split at h
          · cases h
          · next d t heq =>
            rw [heq] at hs₃
            split at h
            · cases h
              exact ⟨hs₃.cons, List.forall_mem_singleton.mpr hfirst⟩
            split at h
            · obtain ⟨⟨more, s₄⟩, hmore, h⟩ := Option.bind_eq_some_iff.mp h
              obtain ⟨hs₄, hall⟩ := hfields _ _ _ (hskip _ hs₃.cons) hmore
              cases h
              exact ⟨hs₄, List.forall_mem_cons.mpr ⟨hfirst, hall⟩⟩
            · cases h
        · cases h
      · cases h
    · unfold jsonItems at h
      obtain ⟨⟨value, s₁⟩, hread, h⟩ := Option.bind_eq_some_iff.mp h
      have hs₁ := hskip _ (hvalue _ _ _ hs hread).1
      simp only at h
      split at h
      · cases h
      · next d t heq =>
        rw [heq] at hs₁
        split at h
        · cases h
          exact hs₁.cons
        split at h
        · obtain ⟨⟨more, s₂⟩, hmore, h⟩ := Option.bind_eq_some_iff.mp h
          have hs₂ := hitems _ _ _ (hskip _ hs₁.cons) hmore
          cases h
          exact hs₂
        · cases h

/-- The string fields of an object that is read. -/
theorem loads_paired {text : Str} {record : List (Str × Json)} (htext : Encodable text)
    (h : Json.loads floatRepr text = some (.dict record)) : FieldsPaired record := by
  unfold Json.loads at h
  split at h
  · next v rest hread =>
    split at h
    · cases h
      exact ((json_encodable _).1 _ _ _ (htext.of_suffix (skipSpace_suffix text)) hread).2
    · cases h
  · cases h

end

end Py
