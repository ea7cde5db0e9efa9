import FieldDiscovery.Lib.Brackets
import FieldDiscovery.Redaction.Masked

/-!
# Authorization sequences

`_sequence_end` finds exactly the balanced sequences within its two limits
(`sequenceEnd_eq_some_iff`), and the loop of `_redact_authorization_sequences` is a derivation
without fuel in which every turn moves the cursor on (`Redacts`, `redacts`).
-/

namespace FieldDiscovery.Redaction

open Py Re

/-! ## The end of a sequence -/

/-- The brackets and quotes of `_sequence_end`. -/
def brackets : Brackets CodePoint where
  isQuote := isQuote
  escape := cp '\\'
  closing := closingOf
  isClosing c := c == cp ']' || c == cp ')'
  isClosing_closing := by
    intro c k h
    unfold closingOf at h
    split at h
    · cases h; rfl
    · split at h
      · cases h; rfl
      · cases h
  closing_isClosing := by
    intro k h
    rcases Bool.or_eq_true _ _ ▸ h with h | h
    · rw [beq_iff_eq.mp h]; rfl
    · rw [beq_iff_eq.mp h]; rfl
  isQuote_isClosing := by
    intro k h
    rcases Bool.or_eq_true _ _ ▸ h with h | h
    · rw [beq_iff_eq.mp h]; rfl
    · rw [beq_iff_eq.mp h]; rfl
  isQuote_closing := by
    intro c k h
    unfold closingOf at h
    split at h
    · next hc => rw [hc]; rfl
    · split at h
      · next hc => rw [hc]; rfl
      · cases h
  isQuote_escape := rfl

theorem brackets_isClosing (c : CodePoint) :
    brackets.isClosing c = true ↔ c = cp ']' ∨ c = cp ')' := by
  simp [brackets]

/-- Unserialized, with enough fuel, the loop is the scanner. -/
theorem sequenceScan_eq_scan {fuel : Nat} {s : Str} (hfuel : s.length < fuel) (index : Nat)
    (stack : List CodePoint) (quote : Option CodePoint) (escaped : Bool) :
    sequenceScan false fuel index stack quote escaped s =
      (brackets.scan maxSequenceDepth stack quote escaped s).map (index + ·) := by
  have hmap : ∀ r : Option Nat, (r.map (index + 1 + ·)) = (r.map (· + 1)).map (index + ·) := by
    intro r
    rw [Option.map_map]
    congr 1
    funext n
    simp only [Function.comp_apply]
    omega
  induction s generalizing fuel index stack quote escaped with
  | nil =>
    obtain ⟨fuel, rfl⟩ := Nat.exists_eq_succ_of_ne_zero (Nat.ne_of_gt hfuel)
    cases quote <;> rfl
  | cons c s ih =>
    obtain ⟨fuel, rfl⟩ := Nat.exists_eq_succ_of_ne_zero (Nat.ne_of_gt (Nat.zero_lt_of_lt hfuel))
    have hrec : ∀ stack quote escaped, sequenceScan false fuel (index + 1) stack quote escaped s =
        ((brackets.scan maxSequenceDepth stack quote escaped s).map (· + 1)).map (index + ·) := by
      intro stack quote escaped
      rw [← hmap]
      refine ih (by simpa using hfuel) _ _ _ _ fun r => ?_
      rw [Option.map_map]
      congr 1
      funext n
      simp only [Function.comp_apply]
      omega
    simp only [sequenceScan, Bool.false_eq_true, if_false, ne_eq, not_true_eq_false, false_and,
      hrec]
    cases quote with
    | some q =>
      simp only [Brackets.scan]
      cases escaped with
      | true => rfl
      | false =>
        simp only [Bool.false_eq_true, if_false]
        by_cases hescape : c = cp '\\'
        · have hescape' : c = brackets.escape := hescape
          rw [if_pos hescape, if_pos hescape']
        · have hescape' : ¬ c = brackets.escape := hescape
          rw [if_neg hescape, if_neg hescape']
          by_cases hcq : c = q
          · rw [if_pos hcq, if_pos hcq]
          · rw [if_neg hcq, if_neg hcq]
    | none =>
      simp only [Brackets.scan]
      by_cases hquote : isQuote c = true
      · have hquote' : brackets.isQuote c = true := hquote
        rw [if_pos hquote, if_pos hquote']
      · have hquote' : ¬ brackets.isQuote c = true := hquote
        rw [if_neg hquote, if_neg hquote']
        have hclosing : brackets.closing c = closingOf c := rfl
        rw [hclosing]
        cases closingOf c with
        | some k =>
          by_cases hdeep : maxSequenceDepth ≤ stack.length
          · simp only [if_pos hdeep, Option.map_none]
          · simp only [if_neg hdeep]
        | none =>
          simp only
          by_cases hclose : c = cp ']' ∨ c = cp ')'
          · rw [if_pos hclose, if_pos ((brackets_isClosing c).mpr hclose)]
            by_cases hhead : stack.head? = some c
            · rw [if_neg (not_not.mpr hhead), if_neg (not_not.mpr hhead)]
              by_cases htail : stack.tail = []
              · rw [if_pos htail, if_pos htail]
                rfl
              · rw [if_neg htail, if_neg htail]
            · rw [if_pos hhead, if_pos hhead]
              rfl
          · rw [if_neg hclose, if_neg (mt (brackets_isClosing c).mp hclose)]

/-- From an opening bracket, `_sequence_end` returns the end of a balanced sequence within the
limits, and there is one end at most. -/
theorem sequenceEnd_eq_some_iff {c k : CodePoint} {s : Str} (hopen : closingOf c = some k)
    {e : Nat} : sequenceEnd false (c :: s) = some e ↔ e ≤ (c :: s).length ∧ e ≤ maxSequenceChars ∧
      brackets.IsSequence maxSequenceDepth ((c :: s).take e) := by
  have hmax : maxSequenceChars = 65535 + 1 := rfl
  have hend : sequenceEnd false (c :: s) =
      (brackets.scan maxSequenceDepth [k] none false (s.take 65535)).map (1 + ·) := by
    unfold sequenceEnd
    rw [hmax, List.take_succ_cons]
    simp only [hopen, Option.getD_some]
    exact sequenceScan_eq_scan (Nat.lt_succ_self _) 1 [k] none false
  rw [hend, hmax]
  cases e with
  | zero =>
    have hleft : (brackets.scan maxSequenceDepth [k] none false (s.take 65535)).map (1 + ·) ≠
        some 0 := by
      cases brackets.scan maxSequenceDepth [k] none false (s.take 65535) with
      | none => simp
      | some n => simp
    refine ⟨fun h => absurd h hleft, ?_⟩
    rintro ⟨-, -, c', k', u, -, -, hnil⟩
    cases hnil
  | succ n =>
    have hmap : ∀ r : Option Nat, r.map (1 + ·) = some (n + 1) ↔ r = some n := by
      intro r
      cases r with
      | none => simp
      | some m => simp [Nat.add_comm 1]
    have hchars : (0 : Nat) < maxSequenceDepth := by decide
    rw [hmap, brackets.scan_isSequence_iff hchars hopen, List.take_succ_cons, List.length_take,
      List.length_cons, List.take_take, le_min_iff]
    constructor
    · rintro ⟨⟨hlimit, hlength⟩, hsequence⟩
      rw [min_eq_left hlimit] at hsequence
      exact ⟨by omega, by omega, hsequence⟩
    · rintro ⟨hlength, hlimit, hsequence⟩
      rw [min_eq_left (by omega)]
      exact ⟨⟨by omega, by omega⟩, hsequence⟩

/-! ## The loops of the two helpers end -/

/-- A quote after backslashes leaves less text. -/
theorem length_after {after s : Str} {n : Nat} (hafter : after = s.drop n)
    (hquote : after.head?.any isQuote = true) : n + 1 + after.tail.length = s.length := by
  cases after with
  | nil => cases hquote
  | cons c rest =>
    have hlen := congrArg List.length hafter
    rw [List.length_drop, List.length_cons] at hlen
    rw [List.tail_cons]
    omega

/-- More fuel than characters never changes where the loop stops. -/
theorem sequenceScan_fuel (serialized : Bool) {fuel fuel' : Nat} {s : Str} (hfuel : s.length < fuel)
    (hfuel' : s.length < fuel') (index : Nat) (stack : List CodePoint) (quote : Option CodePoint)
    (escaped : Bool) : sequenceScan serialized fuel index stack quote escaped s =
      sequenceScan serialized fuel' index stack quote escaped s := by
  induction fuel generalizing fuel' s index stack quote escaped with
  | zero => exact absurd hfuel (Nat.not_lt_zero _)
  | succ fuel ih =>
    obtain ⟨fuel', rfl⟩ := Nat.exists_eq_succ_of_ne_zero (Nat.ne_of_gt (Nat.zero_lt_of_lt hfuel'))
    cases s with
    | nil => rfl
    | cons c s =>
      have hrec : ∀ index stack quote escaped,
          sequenceScan serialized fuel index stack quote escaped s =
            sequenceScan serialized fuel' index stack quote escaped s := by
        intro index stack quote escaped
        exact ih (by simpa using hfuel) (by simpa using hfuel') index stack quote escaped
      simp only [sequenceScan, hrec]
      generalize (if serialized = true then (c :: s).takeWhile (· == cp '\\') else []) = slashes
      split
      · next hslashes =>
        have hlength := length_after rfl hslashes.2
        rw [List.length_cons] at hfuel hfuel' hlength
        exact ih (by omega) (by omega) _ _ _ _
      · rfl

/-- The loop stops after a character that it has read. -/
theorem sequenceScan_bounds {serialized : Bool} {fuel index : Nat} {stack : List CodePoint}
    {quote : Option CodePoint} {escaped : Bool} {s : Str} {e : Nat}
    (h : sequenceScan serialized fuel index stack quote escaped s = some e) :
    index < e ∧ e ≤ index + s.length := by
  induction fuel generalizing index stack quote escaped s with
  | zero =>
    rw [sequenceScan] at h
    cases h
  | succ fuel ih =>
    cases s with
    | nil => cases h
    | cons c s =>
      have hrec : ∀ {stack quote escaped},
          sequenceScan serialized fuel (index + 1) stack quote escaped s = some e →
          index < e ∧ e ≤ index + (c :: s).length := by
        intro stack quote escaped h
        have := ih h
        rw [List.length_cons]
        omega
      simp only [sequenceScan] at h
      generalize (if serialized = true then (c :: s).takeWhile (· == cp '\\') else []) = slashes
        at h
      split at h
      · next hslashes =>
        have hlength := length_after rfl hslashes.2
        have := ih h
        omega
      · split at h
        · split at h
          · exact hrec h
          · split at h
            · exact hrec h
            · split at h <;> exact hrec h
        · split at h
          · exact hrec h
          · split at h
            · split at h
              · cases h
              · exact hrec h
            · split at h
              · split at h
                · cases h
                · split at h
                  · cases h
                    rw [List.length_cons]
                    omega
                  · exact hrec h
              · exact hrec h

theorem sequenceEnd_bounds {serialized : Bool} {text : Str} {e : Nat}
    (h : sequenceEnd serialized text = some e) : 0 < e ∧ e ≤ text.length := by
  unfold sequenceEnd at h
  split at h
  · cases h
  · next bracket s htake =>
    have hbounds := sequenceScan_bounds h
    have hlength := congrArg List.length htake
    rw [List.length_take, List.length_cons] at hlength
    omega

/-! ## Newlines -/

/-- A newline has one or two characters and stands in the text. -/
theorem firstNewline_bounds {text : Str} {offset length : Nat}
    (h : firstNewline text = some (offset, length)) : 0 < length ∧ offset + length ≤ text.length ∧
      (text[offset]? = some (cp '\r') ∨ text[offset]? = some (cp '\n')) := by
  obtain ⟨⟨before, pieces, rest⟩, hsearch, hm⟩ := Option.map_eq_some_iff.mp h
  obtain ⟨rfl, rfl⟩ := Prod.mk.inj hm
  have htext : before ++ (pieces.flatten ++ rest) = text := searchFrom_append hsearch
  obtain ⟨prev, hmem⟩ := exists_mem_matchParts hsearch
  obtain ⟨m, hrun, hlast⟩ := mem_matchParts_re.mp hmem
  rw [matchParts, List.mem_singleton] at hlast
  obtain ⟨hpieces, -⟩ := Prod.mk.inj hlast
  have hflatten : pieces.flatten = m.1 := by
    rw [hpieces]
    simp
  have hshape : m.1 = [cp '\r', cp '\n'] ∨ m.1 = [cp '\n'] := by
    simp only [newline, opt, Re.run, List.mem_flatMap, List.mem_append, List.mem_map,
      List.mem_singleton] at hrun
    obtain ⟨m₁, hcr | hnone, m₂, hlf, rfl⟩ := hrun
    · obtain ⟨c, hc, hm₁, -⟩ := mem_run_chr.mp hcr
      obtain ⟨d, hd, hm₂, -⟩ := mem_run_chr.mp hlf
      rw [beq_iff_eq] at hc hd
      exact Or.inl (by rw [hm₁, hm₂, hc, hd]; rfl)
    · obtain ⟨d, hd, hm₂, -⟩ := mem_run_chr.mp hlf
      rw [beq_iff_eq] at hd
      exact Or.inr (by rw [hnone, hm₂, hd]; rfl)
  subst htext
  rw [hflatten]
  rcases hshape with hshape | hshape
  · rw [hshape]
    exact ⟨by simp, by simp, Or.inl (by simp)⟩
  · rw [hshape]
    exact ⟨by simp, by simp, Or.inr (by simp)⟩

/-- The loop of `_malformed_sequence_boundary`, without fuel. -/
inductive BoundaryFrom : Nat → Nat → Str → Nat → Prop where
  | stop {boundary nextLine : Nat} {s : Str} :
      (s.head?.any fun c => c == cp ' ' || c == cp '\t') = false →
      BoundaryFrom boundary nextLine s boundary
  | last {boundary nextLine : Nat} {s : Str} :
      (s.head?.any fun c => c == cp ' ' || c == cp '\t') = true → firstNewline s = none →
      BoundaryFrom boundary nextLine s (nextLine + s.length)
  | next {boundary nextLine offset length e : Nat} {s : Str} :
      (s.head?.any fun c => c == cp ' ' || c == cp '\t') = true →
      firstNewline s = some (offset, length) →
      BoundaryFrom (nextLine + offset) (nextLine + (offset + length)) (s.drop (offset + length)) e →
      BoundaryFrom boundary nextLine s e

theorem boundaryLoop_spec {fuel : Nat} {s : Str} (hfuel : s.length ≤ fuel)
    (boundary nextLine : Nat) :
    BoundaryFrom boundary nextLine s (boundaryLoop fuel boundary nextLine s) := by
  induction fuel generalizing s boundary nextLine with
  | zero =>
    obtain rfl := List.length_eq_zero_iff.mp (Nat.le_zero.mp hfuel)
    exact .stop rfl
  | succ fuel ih =>
    unfold boundaryLoop
    split
    · next hblank =>
      split
      · next hnone => exact .last hblank hnone
      · next offset length hsome =>
        have hbounds := firstNewline_bounds hsome
        refine .next hblank hsome (ih ?_ _ _)
        rw [List.length_drop]
        omega
    · next hblank => exact .stop (Bool.eq_false_iff.mpr hblank)

theorem BoundaryFrom.bounds {boundary nextLine e : Nat} {s : Str}
    (h : BoundaryFrom boundary nextLine s e) (hle : boundary ≤ nextLine) :
    boundary ≤ e ∧ e ≤ nextLine + s.length := by
  induction h with
  | stop => exact ⟨le_refl _, by omega⟩
  | last => exact ⟨by omega, le_refl _⟩
  | next _ hsome _ ih =>
    have hbounds := firstNewline_bounds hsome
    have hrest := ih (by omega)
    rw [List.length_drop] at hrest
    exact ⟨by omega, by omega⟩

/-- Where the value of a field ends, from its opening bracket on: with the sequence, or, where there
is none, with the line and those that continue it. -/
inductive ValueEnd (serialized : Bool) (text : Str) : Nat → Prop where
  | sequence {e : Nat} : sequenceEnd serialized text = some e → ValueEnd serialized text e
  | text : sequenceEnd serialized text = none → firstNewline text = none →
      ValueEnd serialized text text.length
  | line {offset length e : Nat} : sequenceEnd serialized text = none →
      firstNewline text = some (offset, length) →
      BoundaryFrom offset (offset + length) (text.drop (offset + length)) e →
      ValueEnd serialized text e

theorem valueEnd_spec (serialized : Bool) (text : Str) : ValueEnd serialized text
    ((sequenceEnd serialized text).getD (malformedSequenceBoundary text)) := by
  cases hend : sequenceEnd serialized text with
  | some e => exact .sequence hend
  | none =>
    rw [Option.getD_none, malformedSequenceBoundary]
    split
    · next hnone => exact .text hend hnone
    · next offset length hsome =>
      refine .line hend hsome (boundaryLoop_spec ?_ _ _)
      rw [List.length_drop]
      omega

/-- A value ends after its opening bracket, and in the text. -/
theorem ValueEnd.bounds {serialized : Bool} {c : CodePoint} {s : Str} {e : Nat}
    (hopen : closingOf c ≠ none) (h : ValueEnd serialized (c :: s) e) :
    0 < e ∧ e ≤ (c :: s).length := by
  cases h with
  | sequence hend => exact sequenceEnd_bounds hend
  | text => exact ⟨Nat.succ_pos _, le_refl _⟩
  | @line offset length _ _ hsome hboundary =>
    have hnewline := firstNewline_bounds hsome
    have hbounds := hboundary.bounds (Nat.le_add_right _ _)
    have hoffset : offset ≠ 0 := by
      rintro rfl
      simp only [List.getElem?_cons_zero, Option.some.injEq] at hnewline
      rcases hnewline.2.2 with rfl | rfl <;> exact hopen rfl
    rw [List.length_drop] at hbounds
    omega

/-! ## The loop over a text -/

/-- The pattern finds a key, a separator and an opening bracket. -/
def FindsBracket (pattern : Pattern) : Prop :=
  ∀ text m, search pattern text = some m → ∃ before key separator bracket rest,
    m = (before, [key, separator, [bracket]], rest) ∧ closingOf bracket ≠ none

theorem findsBracket_of_parts (key separator : Re) :
    FindsBracket [.re key, .re separator, .re (oneOf "[(")] := by
  intro text m h
  obtain ⟨prev, hmem⟩ := exists_mem_matchParts h
  obtain ⟨m₁, -, hmem⟩ := mem_matchParts_re.mp hmem
  obtain ⟨m₂, -, hmem⟩ := mem_matchParts_re.mp hmem
  obtain ⟨m₃, hrun, hmem⟩ := mem_matchParts_re.mp hmem
  rw [matchParts, List.mem_singleton] at hmem
  obtain ⟨c, hc, hm₃, -⟩ := mem_run_chr.mp hrun
  refine ⟨m.1, m₁.1, m₂.1, c, m₃.2, ?_, ?_⟩
  · refine Prod.ext rfl ?_
    rw [hmem, hm₃]
    rfl
  · have hmem : c = cp '[' ∨ c = cp '(' := by
      simpa [str, cp] using hc
    rcases hmem with rfl | rfl
    · exact Option.some_ne_none _
    · exact Option.some_ne_none _

theorem findsBracket_authSequenceStart : FindsBracket authSequenceStart :=
  findsBracket_of_parts _ _

theorem findsBracket_escapedAuthSequenceStart : FindsBracket escapedAuthSequenceStart :=
  findsBracket_of_parts _ _

/-- `_redact_authorization_sequences` from a cursor on, without fuel: what it puts out. Each turn
copies the text up to the opening bracket, and moves the cursor on within the text. -/
inductive Redacts (rt : Runtime) (serialized : Bool) (pattern : Pattern) (value : Str) :
    Nat → Str → Prop where
  | done {cursor : Nat} : search pattern (value.drop cursor) = none →
      Redacts rt serialized pattern value cursor (value.drop cursor)
  | other {cursor next : Nat} {before key separator rest out : Str} {bracket : CodePoint} :
      search pattern (value.drop cursor) = some (before, [key, separator, [bracket]], rest) →
      isSequenceKey rt serialized key = false →
      next = cursor + (before ++ key ++ separator ++ [bracket]).length →
      cursor < next → next ≤ value.length →
      Redacts rt serialized pattern value next out →
      Redacts rt serialized pattern value cursor (before ++ key ++ separator ++ [bracket] ++ out)
  | value {cursor next stop : Nat} {before key separator rest out : Str} {bracket : CodePoint} :
      search pattern (value.drop cursor) = some (before, [key, separator, [bracket]], rest) →
      isSequenceKey rt serialized key = true →
      ValueEnd serialized (bracket :: rest) stop →
      next = cursor + (before ++ key ++ separator).length + stop →
      cursor < next → next ≤ value.length →
      Redacts rt serialized pattern value next out →
      Redacts rt serialized pattern value cursor (before ++ key ++ separator ++
        (sequenceQuote serialized key ++ redacted ++ sequenceQuote serialized key) ++ out)

theorem sequenceLoop_redacts {rt : Runtime} {serialized : Bool} {pattern : Pattern}
    (hpattern : FindsBracket pattern) {value : Str} {fuel cursor : Nat}
    (hcursor : cursor ≤ value.length) (hfuel : value.length ≤ cursor + fuel) :
    Redacts rt serialized pattern value cursor
      (sequenceLoop rt serialized pattern fuel (value.drop cursor)) := by
  induction fuel generalizing cursor with
  | zero =>
    rw [sequenceLoop]
    cases hsearch : search pattern (value.drop cursor) with
    | none => exact .done hsearch
    | some m =>
      obtain ⟨before, key, separator, bracket, rest, rfl, -⟩ := hpattern _ _ hsearch
      have hlength := congrArg List.length (searchFrom_append hsearch)
      simp only [List.length_append, List.flatten_cons, List.length_cons, List.length_drop]
        at hlength
      omega
  | succ fuel ih =>
    cases hsearch : search pattern (value.drop cursor) with
    | none =>
      have hout : sequenceLoop rt serialized pattern (fuel + 1) (value.drop cursor) =
          value.drop cursor := by
        rw [sequenceLoop, hsearch]
      rw [hout]
      exact .done hsearch
    | some m =>
      obtain ⟨before, key, separator, bracket, rest, rfl, hopen⟩ := hpattern _ _ hsearch
      have htext : before ++ key ++ separator ++ bracket :: rest = value.drop cursor := by
        have happend : before ++ ([key, separator, [bracket]].flatten ++ rest) =
            value.drop cursor := searchFrom_append hsearch
        rw [← happend]
        simp
      have hlength := congrArg List.length htext
      rw [List.length_append, List.length_cons, List.length_drop] at hlength
      have hdrop : ∀ n, value.drop (cursor + ((before ++ key ++ separator).length + n)) =
          (bracket :: rest).drop n := by
        intro n
        rw [← List.drop_drop, ← htext, ← List.drop_drop, List.drop_left]
      rw [sequenceLoop, hsearch]
      simp only
      cases hkey : isSequenceKey rt serialized key with
      | false =>
        have hnext : cursor + (before ++ key ++ separator ++ [bracket]).length =
            cursor + ((before ++ key ++ separator).length + 1) := by
          rw [List.length_append, List.length_singleton]
        have hrest := hdrop 1
        rw [List.drop_one, List.tail_cons] at hrest
        have hout : Redacts rt serialized pattern value
            (cursor + ((before ++ key ++ separator).length + 1)) (sequenceLoop rt serialized pattern
              fuel (value.drop (cursor + ((before ++ key ++ separator).length + 1)))) :=
          ih (by omega) (by omega)
        rw [hrest] at hout
        simp only [Bool.false_eq_true, if_false]
        exact .other hsearch hkey hnext.symm (by omega) (by omega) hout
      | true =>
        have hend := valueEnd_spec serialized (bracket :: rest)
        have hcons : [bracket] ++ rest = bracket :: rest := rfl
        simp only [if_true, hcons]
        generalize (sequenceEnd serialized (bracket :: rest)).getD
          (malformedSequenceBoundary (bracket :: rest)) = stop at hend
        have hbounds := hend.bounds hopen
        rw [List.length_cons] at hbounds
        have hout : Redacts rt serialized pattern value
            (cursor + ((before ++ key ++ separator).length + stop)) (sequenceLoop rt serialized
              pattern fuel (value.drop (cursor + ((before ++ key ++ separator).length + stop)))) :=
          ih (by omega) (by omega)
        rw [hdrop] at hout
        exact .value hsearch hkey hend (Nat.add_assoc _ _ _).symm (by omega) (by omega) hout

/-- The whole function. -/
theorem redacts {rt : Runtime} {serialized : Bool} {pattern : Pattern}
    (hpattern : FindsBracket pattern) (value : Str) : Redacts rt serialized pattern value 0
      (redactAuthorizationSequences rt serialized pattern value) := by
  have hloop : Redacts rt serialized pattern value 0
      (sequenceLoop rt serialized pattern value.length (value.drop 0)) :=
    sequenceLoop_redacts hpattern (Nat.zero_le _) (Nat.le_of_eq (Nat.zero_add _).symm)
  rwa [List.drop_zero] at hloop

/-! ## Main theorem -/

/-- The prefixes of a text that are a balanced sequence within the two limits. -/
def sequencePrefixes (text : Str) : Set Nat :=
  {n | n ≤ text.length ∧ n ≤ maxSequenceChars ∧
    brackets.IsSequence maxSequenceDepth (text.take n)}

theorem mem_sequencePrefixes {text : Str} {c : CodePoint} (hhead : text[0]? = some c)
    (hopen : closingOf c ≠ none) {n : Nat} :
    n ∈ sequencePrefixes text ↔ sequenceEnd false text = some n := by
  obtain ⟨k, hk⟩ := Option.ne_none_iff_exists'.mp hopen
  cases text with
  | nil => cases hhead
  | cons d s =>
    obtain rfl := Option.some.inj hhead
    exact (sequenceEnd_eq_some_iff hk).symm

/-- From every opening bracket, `_sequence_end` returns the shortest balanced sequence within its
limits, and nothing where there is none; its loop needs no more turns than there are characters; and
`_redact_authorization_sequences` ends on every text, moves its cursor on in every turn and copies
what it does not redact. -/
theorem sequences_redacted :
    (∀ (value : Str) (start : Nat) (c : CodePoint), value[start]? = some c → closingOf c ≠ none →
      (∀ e, sequenceEnd false (value.drop start) = some e ↔
        IsLeast (sequencePrefixes (value.drop start)) e) ∧
      (sequenceEnd false (value.drop start) = none ↔ sequencePrefixes (value.drop start) = ∅)) ∧
    (∀ (serialized : Bool) (fuel index : Nat) (stack : List CodePoint) (quote : Option CodePoint)
      (escaped : Bool) (s : Str), s.length < fuel →
        sequenceScan serialized fuel index stack quote escaped s =
          sequenceScan serialized (s.length + 1) index stack quote escaped s) ∧
    ∀ (rt : Runtime) (serialized : Bool) (value : Str),
      ∀ pattern ∈ [authSequenceStart, escapedAuthSequenceStart],
        Redacts rt serialized pattern value 0
          (redactAuthorizationSequences rt serialized pattern value) ∧
        Masked value (redactAuthorizationSequences rt serialized pattern value) := by
  refine ⟨?_, fun serialized fuel index stack quote escaped s hfuel =>
    sequenceScan_fuel serialized hfuel (Nat.lt_succ_self _) index stack quote escaped, ?_⟩
  · intro value start c hstart hopen
    have hhead : (value.drop start)[0]? = some c := by
      rw [List.getElem?_drop, Nat.add_zero, hstart]
    have hmem := fun n => mem_sequencePrefixes (n := n) hhead hopen
    constructor
    · intro e
      constructor
      · intro hend
        refine ⟨(hmem e).mpr hend, fun n hn => ?_⟩
        rw [hmem, hend, Option.some.injEq] at hn
        exact hn.le
      · exact fun hleast => (hmem e).mp hleast.1
    · rw [Option.eq_none_iff_forall_ne_some, Set.eq_empty_iff_forall_notMem]
      exact forall_congr' fun n => not_congr (hmem n).symm
  · intro rt serialized value pattern hpattern
    refine ⟨redacts ?_ value, sequenceLoop_masked serialized pattern _ value⟩
    rcases List.mem_pair.mp hpattern with rfl | rfl
    · exact findsBracket_authSequenceStart
    · exact findsBracket_escapedAuthSequenceStart

theorem sequences_redacted_sample :
    IsLeast (sequencePrefixes ((str "x[(\"]\")]y]").drop 1)) 7 :=
  ((sequences_redacted.1 (str "x[(\"]\")]y]") 1 (cp '[') rfl (Option.some_ne_none _)).1 7).mp
    (by decide +kernel)

end FieldDiscovery.Redaction
