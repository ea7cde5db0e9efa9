import Mathlib.Data.List.Basic
import Mathlib.Order.Bounds.Basic

/-!
# Balanced sequences

Texts of brackets and quoted strings over any alphabet: the grammar (`Items`, `IsSequence`), a
scanner with a stack, a quote and an escape (`scan`), and that the scanner finds exactly the
sequences of the grammar (`scan_eq_some_iff`). The induction of the scanner carries what its state
still has to read (`Reads`); the lemmas on `Completes` and `Quoted` say how one character changes
that.
-/

/-- The characters of a bracketed language. -/
structure Brackets (α : Type*) where
  isQuote : α → Bool
  escape : α
  /-- The closing bracket of an opening one. -/
  closing : α → Option α
  isClosing : α → Bool
  isClosing_closing : ∀ {c k}, closing c = some k → isClosing k = true
  closing_isClosing : ∀ {k}, isClosing k = true → closing k = none
  isQuote_isClosing : ∀ {k}, isClosing k = true → isQuote k = false
  isQuote_closing : ∀ {c k}, closing c = some k → isQuote c = false
  isQuote_escape : isQuote escape = false

namespace Brackets

variable {α : Type*} (b : Brackets α)

/-! ## The grammar -/

/-- What stands between two quotes; an escape hides the next character. -/
inductive Body (q : α) : List α → Prop where
  | nil : Body q []
  | escaped {c : α} {s : List α} : Body q s → Body q (b.escape :: c :: s)
  | char {c : α} {s : List α} : c ≠ b.escape → c ≠ q → Body q s → Body q (c :: s)

/-- What stands between two brackets, with at most so many more levels of brackets. -/
inductive Items : Nat → List α → Prop where
  | nil {d : Nat} : Items d []
  | char {d : Nat} {c : α} {s : List α} : b.isQuote c = false → b.closing c = none →
      b.isClosing c = false → Items d s → Items d (c :: s)
  | quoted {d : Nat} {q : α} {u s : List α} : b.isQuote q = true → b.Body q u → Items d s →
      Items d (q :: (u ++ q :: s))
  | nested {d : Nat} {c k : α} {u s : List α} : b.closing c = some k → Items d u →
      Items (d + 1) s → Items (d + 1) (c :: (u ++ k :: s))

/-- A bracket, items and the closing bracket, with at most `depth` levels of brackets. -/
def IsSequence (depth : Nat) (t : List α) : Prop :=
  ∃ c k u, b.closing c = some k ∧ b.Items (depth - 1) u ∧ t = c :: (u ++ [k])

/-! ## The scanner -/

section Scan

variable [DecidableEq α]

/-- How many characters complete the sequence, from the closing brackets that are due, the quote
that is open and whether the next character is escaped. -/
def scan (depth : Nat) : List α → Option α → Bool → List α → Option Nat
  | _, _, _, [] => none
  | stack, some q, escaped, c :: s =>
    Option.map (· + 1) <|
      if escaped then scan depth stack (some q) false s
      else if c = b.escape then scan depth stack (some q) true s
      else if c = q then scan depth stack none escaped s
      else scan depth stack (some q) escaped s
  | stack, none, escaped, c :: s =>
    Option.map (· + 1) <|
      if b.isQuote c then scan depth stack (some c) escaped s
      else
        match b.closing c with
        | some k => if depth ≤ stack.length then none else scan depth (k :: stack) none escaped s
        | none =>
          if b.isClosing c then
            if stack.head? ≠ some c then none
            else if stack.tail = [] then some 0
            else scan depth stack.tail none escaped s
          else scan depth stack none escaped s

end Scan

/-! ## What a state still has to read -/

/-- The rest of the items of every open bracket, each with its closing bracket. -/
def Completes (depth : Nat) : List α → List α → Prop
  | [], t => t = []
  | k :: ks, t => ∃ u rest, b.Items (depth - (ks.length + 1)) u ∧ t = u ++ k :: rest ∧
      Completes depth ks rest

/-- The rest of a quoted string, and then `P`. -/
def Quoted (q : α) (P : List α → Prop) (t : List α) : Prop :=
  ∃ u rest, b.Body q u ∧ t = u ++ q :: rest ∧ P rest

/-- What completes the sequence, from a state of the scanner. -/
def Reads (depth : Nat) (stack : List α) : Option α → Bool → List α → Prop
  | none, _, t => b.Completes depth stack t
  | some q, false, t => b.Quoted q (b.Completes depth stack) t
  | some q, true, t => ∃ c t', t = c :: t' ∧ b.Quoted q (b.Completes depth stack) t'

variable {b} {depth : Nat}

section Steps

variable {P : List α → Prop} {q c k : α} {t ks : List α}

theorem not_quoted_nil : ¬ b.Quoted q P [] := by
  rintro ⟨u, rest, -, ht, -⟩
  cases u <;> cases ht

theorem quoted_escape (hq : b.isQuote q = true) :
    b.Quoted q P (b.escape :: t) ↔ ∃ c t', t = c :: t' ∧ b.Quoted q P t' := by
  have hne : b.escape ≠ q := by
    rintro rfl
    rw [b.isQuote_escape] at hq
    cases hq
  constructor
  · rintro ⟨u, rest, hu, ht, hrest⟩
    cases hu with
    | nil => exact absurd (List.cons.inj ht).1 hne
    | escaped hbody => exact ⟨_, _, (List.cons.inj ht).2, _, _, hbody, rfl, hrest⟩
    | char hescape => exact absurd (List.cons.inj ht).1.symm hescape
  · rintro ⟨c, t', rfl, u, rest, hu, rfl, hrest⟩
    exact ⟨_, rest, .escaped hu, rfl, hrest⟩

theorem quoted_quote (hq : b.isQuote q = true) : b.Quoted q P (q :: t) ↔ P t := by
  constructor
  · rintro ⟨u, rest, hu, ht, hrest⟩
    cases hu with
    | nil => rwa [(List.cons.inj ht).2]
    | escaped hbody =>
      rw [(List.cons.inj ht).1, b.isQuote_escape] at hq
      cases hq
    | char _ hne => exact absurd (List.cons.inj ht).1.symm hne
  · intro hrest
    exact ⟨[], t, .nil, rfl, hrest⟩

theorem quoted_char (hescape : c ≠ b.escape) (hc : c ≠ q) :
    b.Quoted q P (c :: t) ↔ b.Quoted q P t := by
  constructor
  · rintro ⟨u, rest, hu, ht, hrest⟩
    cases hu with
    | nil => exact absurd (List.cons.inj ht).1 hc
    | escaped => exact absurd (List.cons.inj ht).1 hescape
    | char _ _ hbody => exact ⟨_, rest, hbody, (List.cons.inj ht).2, hrest⟩
  · rintro ⟨u, rest, hu, rfl, hrest⟩
    exact ⟨_, rest, .char hescape hc hu, rfl, hrest⟩

theorem not_completes_nil : ¬ b.Completes depth (k :: ks) [] := by
  rintro ⟨u, rest, -, ht, -⟩
  cases u <;> cases ht

theorem completes_char (hk : b.isClosing k = true) (hquote : b.isQuote c = false)
    (hopen : b.closing c = none) (hclose : b.isClosing c = false) :
    b.Completes depth (k :: ks) (c :: t) ↔ b.Completes depth (k :: ks) t := by
  constructor
  · rintro ⟨u, rest, hu, ht, hrest⟩
    generalize hd : depth - (ks.length + 1) = d at hu
    cases hu with
    | nil =>
      rw [(List.cons.inj ht).1, hk] at hclose
      cases hclose
    | char _ _ _ hitems => exact ⟨_, rest, hd ▸ hitems, (List.cons.inj ht).2, hrest⟩
    | quoted hq =>
      rw [(List.cons.inj ht).1, hq] at hquote
      cases hquote
    | nested hc =>
      rw [(List.cons.inj ht).1, hc] at hopen
      cases hopen
  · rintro ⟨u, rest, hu, rfl, hrest⟩
    exact ⟨_, rest, .char hquote hopen hclose hu, rfl, hrest⟩

theorem completes_quote (hk : b.isClosing k = true) (hquote : b.isQuote c = true) :
    b.Completes depth (k :: ks) (c :: t) ↔ b.Quoted c (b.Completes depth (k :: ks)) t := by
  constructor
  · rintro ⟨u, rest, hu, ht, hrest⟩
    generalize hd : depth - (ks.length + 1) = d at hu
    cases hu with
    | nil =>
      rw [(List.cons.inj ht).1, b.isQuote_isClosing hk] at hquote
      cases hquote
    | char hc =>
      rw [(List.cons.inj ht).1, hc] at hquote
      cases hquote
    | quoted hq hbody hitems =>
      obtain ⟨rfl, rfl⟩ := List.cons.inj ht
      exact ⟨_, _, hbody, by simp, _, rest, hd ▸ hitems, rfl, hrest⟩
    | nested hc =>
      rw [(List.cons.inj ht).1, b.isQuote_closing hc] at hquote
      cases hquote
  · rintro ⟨v, rest, hv, rfl, u, rest', hu, rfl, hrest⟩
    exact ⟨_, rest', .quoted hquote hv hu, by simp, hrest⟩

theorem completes_closing (hk : b.isClosing k = true) (hclose : b.isClosing c = true) :
    b.Completes depth (k :: ks) (c :: t) ↔ k = c ∧ b.Completes depth ks t := by
  constructor
  · rintro ⟨u, rest, hu, ht, hrest⟩
    generalize depth - (ks.length + 1) = d at hu
    cases hu with
    | nil =>
      obtain ⟨rfl, rfl⟩ := List.cons.inj ht
      exact ⟨rfl, hrest⟩
    | char _ _ hc =>
      rw [(List.cons.inj ht).1, hc] at hclose
      cases hclose
    | quoted hq =>
      rw [← (List.cons.inj ht).1, b.isQuote_isClosing hclose] at hq
      cases hq
    | nested hc =>
      rw [← (List.cons.inj ht).1, b.closing_isClosing hclose] at hc
      cases hc
  · rintro ⟨rfl, hrest⟩
    exact ⟨[], t, .nil, rfl, hrest⟩

theorem completes_opening {k' : α} (hk : b.isClosing k = true) (hopen : b.closing c = some k') :
    b.Completes depth (k :: ks) (c :: t) ↔
      ks.length + 1 < depth ∧ b.Completes depth (k' :: k :: ks) t := by
  constructor
  · rintro ⟨u, rest, hu, ht, hrest⟩
    generalize hd : depth - (ks.length + 1) = d at hu
    cases hu with
    | nil =>
      rw [(List.cons.inj ht).1, b.closing_isClosing hk] at hopen
      cases hopen
    | char _ hc =>
      rw [(List.cons.inj ht).1, hc] at hopen
      cases hopen
    | quoted hq =>
      rw [← (List.cons.inj ht).1, b.isQuote_closing hopen] at hq
      cases hq
    | @nested d c' k'' v s hc hv hs =>
      obtain ⟨rfl, rfl⟩ := List.cons.inj ht
      obtain rfl := Option.some.inj (hopen.symm.trans hc)
      have hdepth : depth - ((k :: ks).length + 1) = d := by
        rw [List.length_cons]
        omega
      refine ⟨by omega, v, s ++ k :: rest, hdepth ▸ hv, by simp, s, rest, ?_, rfl, hrest⟩
      rw [hd]
      exact hs
  · rintro ⟨hlt, v, rest', hv, rfl, s, rest, hs, rfl, hrest⟩
    have hdepth : depth - (ks.length + 1) = depth - ((k :: ks).length + 1) + 1 := by
      rw [List.length_cons]
      omega
    refine ⟨c :: (v ++ k' :: s), rest, ?_, by simp, hrest⟩
    rw [hdepth] at hs ⊢
    exact .nested hopen hv hs

end Steps

/-! ## The scanner reads the grammar -/

section Scan

variable [DecidableEq α]

/-- The scanner stops after the characters that complete its state, and nowhere else. -/
theorem scan_eq_some_iff {stack : List α} {quote : Option α} {escaped : Bool} {s : List α} {n : Nat}
    (hstack : stack ≠ []) (hclosing : ∀ k ∈ stack, b.isClosing k = true)
    (hdepth : stack.length ≤ depth) (hquote : ∀ q ∈ quote, b.isQuote q = true)
    (hescaped : quote = none → escaped = false) :
    b.scan depth stack quote escaped s = some n ↔
      n ≤ s.length ∧ b.Reads depth stack quote escaped (s.take n) := by
  induction s generalizing stack quote escaped n with
  | nil =>
    rw [List.take_nil]
    obtain ⟨k, ks, rfl⟩ := List.exists_cons_of_ne_nil hstack
    simp only [scan, reduceCtorEq, false_iff, not_and]
    intro _
    cases quote with
    | none => exact not_completes_nil
    | some q =>
      cases escaped with
      | false => exact not_quoted_nil
      | true =>
        rintro ⟨c, t', ht, -⟩
        cases ht
  | cons c s ih =>
    obtain ⟨k, ks, rfl⟩ := List.exists_cons_of_ne_nil hstack
    have hk := hclosing k List.mem_cons_self
    cases n with
    | zero =>
      have hleft : b.scan depth (k :: ks) quote escaped (c :: s) ≠ some 0 := by
        cases quote <;> simp [scan]
      have hright : ¬ b.Reads depth (k :: ks) quote escaped [] := by
        cases quote with
        | none => exact not_completes_nil
        | some q =>
          cases escaped with
          | false => exact not_quoted_nil
          | true =>
            rintro ⟨c', t', ht, -⟩
            cases ht
      rw [List.take_zero]
      exact ⟨fun h => absurd h hleft, fun h => absurd h.2 hright⟩
    | succ n =>
      have hmap : ∀ r : Option Nat, Option.map (· + 1) r = some (n + 1) ↔ r = some n := by
        intro r
        cases r <;> simp
      have hlength : n + 1 ≤ (c :: s).length ↔ n ≤ s.length := by simp
      rw [List.take_succ_cons, hlength]
      cases quote with
      | some q =>
        have hq := hquote q rfl
        have hsome : some q = none → escaped = false := fun h => by cases h
        simp only [scan, hmap]
        cases escaped with
        | true =>
          rw [if_pos rfl, ih hstack hclosing hdepth hquote (fun h => by cases h)]
          refine and_congr_right fun _ => ?_
          constructor
          · exact fun h => ⟨c, _, rfl, h⟩
          · rintro ⟨c', t', ht, h⟩
            rwa [← (List.cons.inj ht).2] at h
        | false =>
          rw [if_neg Bool.false_ne_true]
          by_cases hescape : c = b.escape
          · rw [if_pos hescape, ih hstack hclosing hdepth hquote (fun h => by cases h), hescape]
            exact and_congr_right fun _ => (quoted_escape hq).symm
          · rw [if_neg hescape]
            by_cases hcq : c = q
            · rw [if_pos hcq, hcq, ih hstack hclosing hdepth (fun q hq => by cases hq)
                (fun _ => rfl)]
              exact and_congr_right fun _ => (quoted_quote hq).symm
            · rw [if_neg hcq, ih hstack hclosing hdepth hquote (fun h => by cases h)]
              exact and_congr_right fun _ => (quoted_char hescape hcq).symm
      | none =>
        obtain rfl := hescaped rfl
        simp only [scan, hmap]
        by_cases hcq : b.isQuote c = true
        · rw [if_pos hcq, ih hstack hclosing hdepth
            (fun q hq => by obtain rfl := Option.mem_some.mp hq; exact hcq) (fun _ => rfl)]
          exact and_congr_right fun _ => (completes_quote hk hcq).symm
        · rw [if_neg hcq]
          have hcq' := Bool.eq_false_iff.mpr hcq
          cases hopen : b.closing c with
          | some k' =>
            have hstep := @completes_opening _ b depth c k (s.take n) ks k' hk hopen
            simp only [Reads, hstep]
            by_cases hdeep : depth ≤ (k :: ks).length
            · rw [if_pos hdeep]
              have hnot : ¬ ks.length + 1 < depth := not_lt.mpr hdeep
              simp only [reduceCtorEq, hnot, false_and, and_false]
            · rw [if_neg hdeep, ih (List.cons_ne_nil _ _) (List.forall_mem_cons.mpr
                ⟨b.isClosing_closing hopen, hclosing⟩) (by rw [List.length_cons]; omega) hquote
                (fun _ => rfl)]
              have hlt : ks.length + 1 < depth := not_le.mp hdeep
              simp only [Reads, hlt, true_and]
          | none =>
            by_cases hclose : b.isClosing c = true
            · have hstep := @completes_closing _ b depth c k (s.take n) ks hk hclose
              simp only [Reads, hstep, if_pos hclose, List.head?_cons, ne_eq, Option.some.injEq]
              by_cases hkc : k = c
              · rw [if_neg (not_not.mpr hkc)]
                cases ks with
                | nil =>
                  rw [if_pos List.tail_cons]
                  simp only [Option.some.injEq, hkc, true_and, Completes]
                  constructor
                  · rintro rfl
                    exact ⟨Nat.zero_le _, rfl⟩
                  · rintro ⟨hn, htake⟩
                    have := congrArg List.length htake
                    rw [List.length_take, List.length_nil] at this
                    omega
                | cons k₂ ks =>
                  have htail : (k :: k₂ :: ks).tail ≠ [] := List.cons_ne_nil k₂ ks
                  rw [if_neg htail, List.tail_cons, ih (List.cons_ne_nil _ _)
                    (fun k h => hclosing k (List.mem_cons_of_mem _ h))
                    (by rw [List.length_cons] at hdepth; omega) hquote (fun _ => rfl)]
                  simp only [Reads, hkc, true_and]
              · rw [if_pos hkc]
                simp only [reduceCtorEq, hkc, false_and, and_false]
            · rw [if_neg hclose, ih hstack hclosing hdepth hquote (fun _ => rfl)]
              exact and_congr_right fun _ => (completes_char hk hcq' hopen
                (Bool.eq_false_iff.mpr hclose)).symm

/-- After an opening bracket the scanner stops where a sequence ends. -/
theorem scan_isSequence_iff {c k : α} {s : List α} {n : Nat} (hdepth : 0 < depth)
    (hopen : b.closing c = some k) : b.scan depth [k] none false s = some n ↔
      n ≤ s.length ∧ b.IsSequence depth (c :: s.take n) := by
  rw [scan_eq_some_iff (List.cons_ne_nil _ _)
    (List.forall_mem_singleton.mpr (b.isClosing_closing hopen)) hdepth (fun q hq => by cases hq)
    (fun _ => rfl)]
  refine and_congr_right fun _ => ?_
  constructor
  · rintro ⟨u, rest, hu, ht, rfl⟩
    exact ⟨c, k, u, hopen, hu, by rw [ht]⟩
  · rintro ⟨c', k', u, hopen', hu, ht⟩
    obtain ⟨rfl, htake⟩ := List.cons.inj ht
    obtain rfl := Option.some.inj (hopen.symm.trans hopen')
    exact ⟨u, [], hu, htake, rfl⟩

end Scan

end Brackets
