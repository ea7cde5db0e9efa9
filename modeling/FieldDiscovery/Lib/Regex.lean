import FieldDiscovery.Lib.Except
import FieldDiscovery.Lib.Str

/-!
# Backtracking regular expressions

The part of Python's `re` that redaction and the file-name checks use. `Re.run` lists every way to
match at a position in the order in which the backtracking engine tries them, so the match is the
head of the list. A position is the preceding code point and the text that remains.

A `Pattern` is the sequence of the top-level groups of a regular expression, and of the stretches
between them; a match is the list of the pieces they consumed. Captures inside a group are not
modelled, and the bodies of repetitions consume something, so the rules for empty iterations are
not needed. A pattern that can match nothing is only ever searched for, never substituted.

The proofs use two facts: the pieces of a match are as many as the parts of the pattern
(`matchParts_length`), and together they are the text that was matched (`matchAt_append`). A rewrite
with a pattern therefore keeps everything between its matches (`subFrom_rel`).
-/

namespace Py

/-! ## Matching -/

/-- A regular expression without captures. -/
inductive Re where
  | eps
  | chr (p : CodePoint → Bool)
  | seq (a b : Re)
  | alt (a b : Re)
  /-- Greedy repetition, `a*`. -/
  | star (a : Re)
  /-- `(?=a)`, or `(?!a)` when `negative`. -/
  | look (negative : Bool) (a : Re)
  /-- `(?<![p])`. -/
  | notBehind (p : CodePoint → Bool)
  /-- `\b`, with the word class. -/
  | boundary (word : CodePoint → Bool)
  /-- `^` without `MULTILINE`. -/
  | start
  /-- `$`; without `MULTILINE` it is the end or a final newline. -/
  | eol (multiline : Bool)

/-- The code point before the rest, once `u` has been consumed. -/
def lastOr (prev : Option CodePoint) (u : Str) : Option CodePoint :=
  match u.getLast? with
  | some c => some c
  | none => prev

theorem lastOr_cons (prev : Option CodePoint) (c : CodePoint) (u : Str) :
    lastOr prev (c :: u) = lastOr (some c) u := by
  unfold lastOr
  rw [List.getLast?_cons]
  cases u.getLast? <;> rfl

/-- Greedy repetition of a matcher, at most `fuel` times. -/
def iterate (f : Option CodePoint → Str → List (Str × Str)) :
    Nat → Option CodePoint → Str → List (Str × Str)
  | 0, _, s => [([], s)]
  | fuel + 1, prev, s =>
    (((f prev s).filter fun m => !m.1.isEmpty).flatMap fun m =>
      (iterate f fuel (lastOr prev m.1) m.2).map fun m' => (m.1 ++ m'.1, m'.2)) ++ [([], s)]

namespace Re

/-- Every match at a position, as the text consumed and the text that remains. -/
def run : Re → Option CodePoint → Str → List (Str × Str)
  | eps, _, s => [([], s)]
  | chr _, _, [] => []
  | chr p, _, c :: s => if p c then [([c], s)] else []
  | seq a b, prev, s => (a.run prev s).flatMap fun m =>
      (b.run (lastOr prev m.1) m.2).map fun m' => (m.1 ++ m'.1, m'.2)
  | alt a b, prev, s => a.run prev s ++ b.run prev s
  | star a, prev, s => iterate a.run s.length prev s
  | look negative a, prev, s => if (a.run prev s).isEmpty = negative then [([], s)] else []
  | notBehind p, prev, s => if prev.any p then [] else [([], s)]
  | boundary word, prev, s =>
    if (prev.any word) != (s.head?.any word) then [([], s)] else []
  | start, prev, s => if prev.isNone then [([], s)] else []
  | eol multiline, _, s =>
    if s = [] ∨ (if multiline then s.head? = some (cp '\n') else s = [cp '\n']) then [([], s)]
    else []

/-! Derived forms. -/

def plus (a : Re) : Re := seq a (star a)

def opt (a : Re) : Re := alt a eps

def lit (c : Char) : Re := chr (· == cp c)

/-- A letter under `IGNORECASE`: `i`, `k` and `s` have partners outside ASCII. -/
def eqIgnoreCase (letter : CodePoint) (c : CodePoint) : Bool :=
  lowerAscii c == lowerAscii letter ||
    (letter == cp 'i' && (c.val == 0x130 || c.val == 0x131)) ||
    (letter == cp 'k' && c.val == 0x212A) || (letter == cp 's' && c.val == 0x17F)

/-- `[a-z]` under `IGNORECASE`. -/
def letterIgnoreCase (c : CodePoint) : Bool :=
  isLower c || isUpper c || c.val == 0x130 || c.val == 0x131 || c.val == 0x17F || c.val == 0x212A

def seqs : List Re → Re
  | [] => eps
  | [a] => a
  | a :: as => seq a (seqs as)

def alts : List Re → Re
  | [] => look true eps
  | [a] => a
  | a :: as => alt a (alts as)

/-- A literal word. -/
def word (s : String) : Re := seqs (s.toList.map lit)

/-- A literal word under `IGNORECASE`. -/
def wordIgnoreCase (s : String) : Re := seqs ((str s).map fun c => chr (eqIgnoreCase c))

/-- `a{n}`. -/
def times (n : Nat) (a : Re) : Re := seqs (List.replicate n a)

/-- `a{0,n}`. -/
def upTo : Nat → Re → Re
  | 0, _ => eps
  | n + 1, a => opt (seq a (upTo n a))

end Re

/-- One part of a pattern: a group, or a reference back to the piece of an earlier part. -/
inductive Part where
  | re (r : Re)
  | backref (i : Nat)

/-- The parts of a regular expression in order. -/
abbrev Pattern := List Part

/-- Every match of the parts, given the pieces of the earlier parts. -/
def matchParts : Pattern → List Str → Option CodePoint → Str → List (List Str × Str)
  | [], pieces, _, s => [(pieces, s)]
  | .re r :: ps, pieces, prev, s => (r.run prev s).flatMap fun m =>
      matchParts ps (pieces ++ [m.1]) (lastOr prev m.1) m.2
  | .backref i :: ps, pieces, prev, s =>
    let piece := pieces.getD i []
    if piece <+: s then
      matchParts ps (pieces ++ [piece]) (lastOr prev piece) (s.drop piece.length)
    else []

/-- The match at one position. -/
def matchAt (p : Pattern) (prev : Option CodePoint) (s : Str) : Option (List Str × Str) :=
  (matchParts p [] prev s).head?

/-- `p.search(s)` from a position: the text before the match, its pieces and the text after it. -/
def searchFrom (p : Pattern) : Option CodePoint → Str → Option (Str × List Str × Str)
  | prev, [] => (matchAt p prev []).map fun m => ([], m)
  | prev, c :: s =>
    match matchAt p prev (c :: s) with
    | some m => some ([], m)
    | none => (searchFrom p (some c) s).map fun m => (c :: m.1, m.2)

/-- `p.search(s)`. -/
def search (p : Pattern) (s : Str) : Option (Str × List Str × Str) := searchFrom p none s

/-- The pieces of the match at one position, if it consumes anything. -/
def piecesAt (p : Pattern) (prev : Option CodePoint) (s : Str) : Option (List Str) :=
  match matchAt p prev s with
  | some (pieces, _) => if pieces.flatten = [] then none else some pieces
  | none => none

/-- `p.fullmatch(s)`, as its pieces. -/
def fullmatch (p : Pattern) (s : Str) : Option (List Str) :=
  ((matchParts p [] none s).find? fun m => m.2 = []).map Prod.fst

/-- `p.finditer(s)` from a position: the offsets and the pieces of the matches. The first `skip`
code points belong to the last match. -/
def findFrom (p : Pattern) : Nat → Nat → Option CodePoint → Str → List (Nat × List Str)
  | _, _, _, [] => []
  | skip + 1, offset, _, c :: s => findFrom p skip (offset + 1) (some c) s
  | 0, offset, prev, c :: s =>
    match piecesAt p prev (c :: s) with
    | some pieces =>
      (offset, pieces) :: findFrom p (pieces.flatten.length - 1) (offset + 1) (some c) s
    | none => findFrom p 0 (offset + 1) (some c) s

/-- `p.finditer(s)`. -/
def finditer (p : Pattern) (s : Str) : List (Nat × List Str) := findFrom p 0 0 none s

/-- `p.sub(f, s)` from a position. -/
def subFrom {ε : Type} (p : Pattern) (f : List Str → Except ε Str) :
    Nat → Option CodePoint → Str → Except ε Str
  | _, _, [] => .ok []
  | skip + 1, _, c :: s => subFrom p f skip (some c) s
  | 0, prev, c :: s =>
    match piecesAt p prev (c :: s) with
    | some pieces => do
      let replacement ← f pieces
      let rest ← subFrom p f (pieces.flatten.length - 1) (some c) s
      .ok (replacement ++ rest)
    | none => do
      let rest ← subFrom p f 0 (some c) s
      .ok (c :: rest)

/-- `p.sub(f, s)` for a pattern that matches nothing empty. -/
def sub {ε : Type} (p : Pattern) (f : List Str → Except ε Str) (s : Str) : Except ε Str :=
  subFrom p f 0 none s

/-- `p.sub(f, s)` for a replacement that cannot fail. -/
def rewrite (p : Pattern) (f : List Str → Str) (s : Str) : Str :=
  match sub (ε := Empty) p (fun pieces => .ok (f pieces)) s with
  | .ok t => t

/-! ## A match is a stretch of the text -/

section Append

theorem iterate_append {f : Option CodePoint → Str → List (Str × Str)}
    (hf : ∀ prev s, ∀ m ∈ f prev s, m.1 ++ m.2 = s) (fuel : Nat) (prev : Option CodePoint)
    (s : Str) : ∀ m ∈ iterate f fuel prev s, m.1 ++ m.2 = s := by
  induction fuel generalizing prev s with
  | zero =>
    intro m hm
    rw [iterate, List.mem_singleton] at hm
    subst hm
    rfl
  | succ fuel ih =>
    intro m hm
    rw [iterate, List.mem_append, List.mem_singleton] at hm
    rcases hm with hm | rfl
    · obtain ⟨m₁, hm₁, hm⟩ := List.mem_flatMap.mp hm
      obtain ⟨m₂, hm₂, rfl⟩ := List.mem_map.mp hm
      have h₁ := hf prev s m₁ (List.mem_filter.mp hm₁).1
      have h₂ := ih (lastOr prev m₁.1) m₁.2 m₂ hm₂
      rw [← h₁, ← h₂, List.append_assoc]
    · rfl

theorem Re.run_append (r : Re) (prev : Option CodePoint) (s : Str) :
    ∀ m ∈ r.run prev s, m.1 ++ m.2 = s := by
  induction r generalizing prev s with
  | eps =>
    intro m hm
    rw [run, List.mem_singleton] at hm
    rw [hm, List.nil_append]
  | chr p =>
    intro m hm
    cases s with
    | nil => exact absurd hm List.not_mem_nil
    | cons c s =>
      rw [run] at hm
      split at hm
      · rw [List.mem_singleton.mp hm, List.singleton_append]
      · exact absurd hm List.not_mem_nil
  | seq a b iha ihb =>
    intro m hm
    rw [run] at hm
    obtain ⟨m₁, hm₁, hm⟩ := List.mem_flatMap.mp hm
    obtain ⟨m₂, hm₂, rfl⟩ := List.mem_map.mp hm
    have h₁ := iha prev s m₁ hm₁
    have h₂ := ihb _ _ m₂ hm₂
    rw [← h₁, ← h₂, List.append_assoc]
  | alt a b iha ihb =>
    intro m hm
    rw [run, List.mem_append] at hm
    rcases hm with hm | hm
    · exact iha prev s m hm
    · exact ihb prev s m hm
  | star a iha => exact iterate_append iha s.length prev s
  | look | notBehind | boundary | start | eol =>
    intro m hm
    rw [run] at hm
    split at hm
    · simp_all
    · simp_all

theorem matchParts_append (p : Pattern) (pieces : List Str) (prev : Option CodePoint) (s : Str) :
    ∀ m ∈ matchParts p pieces prev s, m.1.flatten ++ m.2 = pieces.flatten ++ s := by
  induction p generalizing pieces prev s with
  | nil =>
    intro m hm
    rw [matchParts, List.mem_singleton] at hm
    rw [hm]
  | cons part p ih =>
    intro m hm
    cases part with
    | re r =>
      rw [matchParts] at hm
      obtain ⟨m₁, hm₁, hm⟩ := List.mem_flatMap.mp hm
      rw [ih _ _ _ m hm, ← r.run_append prev s m₁ hm₁]
      simp
    | backref i =>
      simp only [matchParts] at hm
      split at hm
      · next hpre =>
        obtain ⟨t, rfl⟩ := hpre
        rw [ih _ _ _ m hm]
        simp
      · exact absurd hm List.not_mem_nil

/-- The pieces of a match and the rest make up the text. -/
theorem matchAt_append {p : Pattern} {prev : Option CodePoint} {s : Str} {m : List Str × Str}
    (h : matchAt p prev s = some m) : m.1.flatten ++ m.2 = s := by
  simpa using matchParts_append p [] prev s m (List.mem_of_mem_head? h)

theorem matchParts_length (p : Pattern) (pieces : List Str) (prev : Option CodePoint) (s : Str) :
    ∀ m ∈ matchParts p pieces prev s, m.1.length = pieces.length + p.length := by
  induction p generalizing pieces prev s with
  | nil =>
    intro m hm
    rw [matchParts, List.mem_singleton] at hm
    rw [hm]
    rfl
  | cons part p ih =>
    intro m hm
    cases part with
    | re r =>
      rw [matchParts] at hm
      obtain ⟨m₁, -, hm⟩ := List.mem_flatMap.mp hm
      rw [ih _ _ _ m hm, List.length_append, List.length_cons, List.length_cons, List.length_nil]
      omega
    | backref i =>
      simp only [matchParts] at hm
      split at hm
      · rw [ih _ _ _ m hm, List.length_append, List.length_cons, List.length_cons,
          List.length_nil]
        omega
      · exact absurd hm List.not_mem_nil

theorem searchFrom_append {p : Pattern} {prev : Option CodePoint} {s : Str}
    {m : Str × List Str × Str} (h : searchFrom p prev s = some m) :
    m.1 ++ (m.2.1.flatten ++ m.2.2) = s := by
  induction s generalizing prev m with
  | nil =>
    obtain ⟨m', hm', rfl⟩ := Option.map_eq_some_iff.mp h
    exact matchAt_append hm'
  | cons c s ih =>
    rw [searchFrom] at h
    split at h
    · next m' hm' =>
      cases h
      exact matchAt_append hm'
    · obtain ⟨m', hm', rfl⟩ := Option.map_eq_some_iff.mp h
      rw [← ih hm']
      rfl

/-- The pieces of a match of the pattern, somewhere in a text. -/
def IsMatch (p : Pattern) (pieces : List Str) : Prop :=
  ∃ prev s rest, (pieces, rest) ∈ matchParts p [] prev s

theorem IsMatch.length {p : Pattern} {pieces : List Str} (h : IsMatch p pieces) :
    pieces.length = p.length := by
  obtain ⟨prev, s, rest, h⟩ := h
  simpa using matchParts_length p [] prev s _ h

/-- Each group of the pattern has a piece of its own. -/
theorem matchParts_pieces (p : Pattern) (pieces : List Str) (prev : Option CodePoint) (s : Str) :
    ∀ m ∈ matchParts p pieces prev s, ∃ own, m.1 = pieces ++ own ∧ ∀ (i : Nat) (r : Re),
      p[i]? = some (.re r) → ∃ prev s, ∃ m' ∈ r.run prev s, own[i]? = some m'.1 := by
  induction p generalizing pieces prev s with
  | nil =>
    intro m hm
    rw [matchParts, List.mem_singleton] at hm
    refine ⟨[], by rw [hm, List.append_nil], fun i r hi => ?_⟩
    cases hi
  | cons part p ih =>
    intro m hm
    cases part with
    | re r =>
      rw [matchParts] at hm
      obtain ⟨m₁, hm₁, hm⟩ := List.mem_flatMap.mp hm
      obtain ⟨own, hown, hpieces⟩ := ih _ _ _ m hm
      refine ⟨m₁.1 :: own, by rw [hown, List.append_assoc, List.singleton_append], fun i r' hi => ?_⟩
      cases i with
      | zero =>
        cases hi
        exact ⟨prev, s, m₁, hm₁, rfl⟩
      | succ i => exact hpieces i r' hi
    | backref j =>
      simp only [matchParts] at hm
      split at hm
      · obtain ⟨own, hown, hpieces⟩ := ih _ _ _ m hm
        refine ⟨pieces.getD j [] :: own, by rw [hown, List.append_assoc, List.singleton_append],
          fun i r' hi => ?_⟩
        cases i with
        | zero => cases hi
        | succ i => exact hpieces i r' hi
      · exact absurd hm List.not_mem_nil

theorem IsMatch.piece {p : Pattern} {pieces : List Str} (h : IsMatch p pieces) {i : Nat} {r : Re}
    (hi : p[i]? = some (.re r)) : ∃ prev s, ∃ m ∈ r.run prev s, pieces[i]? = some m.1 := by
  obtain ⟨prev, s, rest, h⟩ := h
  obtain ⟨own, hown, hpieces⟩ := matchParts_pieces p [] prev s _ h
  rw [List.nil_append] at hown
  rw [show pieces = own from hown]
  exact hpieces i r hi

/-- What a search finds is a match of the pattern. -/
theorem exists_mem_matchParts {p : Pattern} {prev : Option CodePoint} {s : Str}
    {m : Str × List Str × Str} (h : searchFrom p prev s = some m) :
    ∃ prev', m.2 ∈ matchParts p [] prev' (m.2.1.flatten ++ m.2.2) := by
  induction s generalizing prev m with
  | nil =>
    obtain ⟨m', hm', rfl⟩ := Option.map_eq_some_iff.mp h
    refine ⟨prev, ?_⟩
    rw [matchAt_append hm']
    exact List.mem_of_mem_head? hm'
  | cons c s ih =>
    rw [searchFrom] at h
    split at h
    · next m' hm' =>
      cases h
      refine ⟨prev, ?_⟩
      rw [matchAt_append hm']
      exact List.mem_of_mem_head? hm'
    · obtain ⟨m', hm', rfl⟩ := Option.map_eq_some_iff.mp h
      obtain ⟨prev', hmem⟩ := ih hm'
      exact ⟨prev', hmem⟩

theorem piecesAt_spec {p : Pattern} {prev : Option CodePoint} {s : Str} {pieces : List Str}
    (h : piecesAt p prev s = some pieces) : pieces.flatten ≠ [] ∧
      ∃ rest, (pieces, rest) ∈ matchParts p [] prev s ∧ pieces.flatten ++ rest = s := by
  unfold piecesAt at h
  split at h
  · next m hm =>
    split at h
    · cases h
    · next hne =>
      cases h
      exact ⟨hne, _, List.mem_of_mem_head? hm, matchAt_append hm⟩
  · cases h

end Append

/-! ## Single characters and their repetitions -/

namespace Re

theorem mem_run_seq {a b : Re} {prev : Option CodePoint} {s : Str} {m : Str × Str} :
    m ∈ (seq a b).run prev s ↔ ∃ m₁ ∈ a.run prev s, ∃ m₂ ∈ b.run (lastOr prev m₁.1) m₁.2,
      (m₁.1 ++ m₂.1, m₂.2) = m := by
  simp only [run, List.mem_flatMap, List.mem_map]

/-- What stands between two equal words. -/
theorem run_seqs_between {a b : Re} {w : Str} (ha : ∀ {prev s}, ∀ m ∈ a.run prev s, m.1 = w)
    {prev : Option CodePoint} {s : Str} {m : Str × Str} (hm : m ∈ (seqs [a, b, a]).run prev s) :
    ∃ body, m.1 = w ++ body ++ w := by
  obtain ⟨m₁, hm₁, m₂, hm₂, rfl⟩ := mem_run_seq.mp hm
  obtain ⟨m₃, -, m₄, hm₄, rfl⟩ := mem_run_seq.mp hm₂
  exact ⟨m₃.1, by rw [ha m₁ hm₁, ha m₄ hm₄, List.append_assoc]⟩

theorem mem_run_chr {p : CodePoint → Bool} {prev : Option CodePoint} {s : Str} {m : Str × Str} :
    m ∈ (chr p).run prev s ↔ ∃ c, p c = true ∧ m.1 = [c] ∧ s = c :: m.2 := by
  obtain ⟨u, t⟩ := m
  cases s with
  | nil => simp [run]
  | cons d s =>
    rw [run]
    split
    · next hd =>
      rw [List.mem_singleton, Prod.mk.injEq]
      constructor
      · rintro ⟨rfl, rfl⟩
        exact ⟨d, hd, rfl, rfl⟩
      · rintro ⟨c, -, rfl, hs⟩
        obtain ⟨rfl, rfl⟩ := List.cons.inj hs
        exact ⟨rfl, rfl⟩
    · next hd =>
      refine ⟨fun h => absurd h List.not_mem_nil, ?_⟩
      rintro ⟨c, hc, -, hs⟩
      obtain ⟨rfl, rfl⟩ := List.cons.inj hs
      exact absurd hc hd

theorem mem_run_seq_chr {p : CodePoint → Bool} {b : Re} {prev : Option CodePoint} {s : Str}
    {m : Str × Str} : m ∈ (seq (chr p) b).run prev s ↔ ∃ c u t, p c = true ∧ s = c :: t ∧
      m.1 = c :: u ∧ (u, m.2) ∈ b.run (some c) t := by
  rw [run, List.mem_flatMap]
  constructor
  · rintro ⟨m₁, hm₁, hm⟩
    obtain ⟨c, hc, hu, hs⟩ := mem_run_chr.mp hm₁
    obtain ⟨m₂, hm₂, rfl⟩ := List.mem_map.mp hm
    rw [hu] at hm₂ ⊢
    exact ⟨c, m₂.1, m₁.2, hc, hs, rfl, hm₂⟩
  · rintro ⟨c, u, t, hc, hs, hm, hb⟩
    refine ⟨([c], t), mem_run_chr.mpr ⟨c, hc, rfl, hs⟩, List.mem_map.mpr ⟨(u, m.2), hb, ?_⟩⟩
    exact Prod.ext hm.symm rfl

/-- A sequence of classes matches letter by letter. -/
theorem mem_run_seqs_chr {ps : List (CodePoint → Bool)} {prev : Option CodePoint} {s : Str}
    {m : Str × Str} : m ∈ (seqs (ps.map chr)).run prev s ↔
      List.Forall₂ (fun p c => p c = true) ps m.1 ∧ m.1 ++ m.2 = s := by
  induction ps generalizing prev s m with
  | nil =>
    obtain ⟨u, t⟩ := m
    simp only [List.map_nil, seqs, run, List.mem_singleton, Prod.mk.injEq,
      List.forall₂_nil_left_iff]
    constructor
    · rintro ⟨rfl, rfl⟩
      exact ⟨rfl, rfl⟩
    · rintro ⟨rfl, rfl⟩
      exact ⟨rfl, rfl⟩
  | cons p ps ih =>
    obtain ⟨u, t⟩ := m
    cases ps with
    | nil =>
      simp only [List.map_cons, List.map_nil, seqs, mem_run_chr]
      constructor
      · rintro ⟨c, hc, rfl, rfl⟩
        exact ⟨.cons hc .nil, rfl⟩
      · rintro ⟨hall, rfl⟩
        obtain ⟨c, u, hc, hnil, rfl⟩ := List.forall₂_cons_left_iff.mp hall
        obtain rfl := List.forall₂_nil_left_iff.mp hnil
        exact ⟨c, hc, rfl, rfl⟩
    | cons q qs =>
      have hseq : seqs ((p :: q :: qs).map chr) = seq (chr p) (seqs ((q :: qs).map chr)) := rfl
      rw [hseq, mem_run_seq_chr]
      constructor
      · rintro ⟨c, u', t', hc, rfl, rfl, hm⟩
        obtain ⟨hall, htext⟩ := ih.mp hm
        exact ⟨.cons hc hall, congrArg (c :: ·) htext⟩
      · rintro ⟨hall, rfl⟩
        obtain ⟨c, u', hc, htail, hcons⟩ := List.forall₂_cons_left_iff.mp hall
        obtain rfl : u = c :: u' := hcons
        exact ⟨c, u', u' ++ t, hc, rfl, rfl, ih.mpr ⟨htail, rfl⟩⟩

/-- `[p]{n}` -/
theorem mem_run_times_chr {p : CodePoint → Bool} {n : Nat} {prev : Option CodePoint} {s : Str}
    {m : Str × Str} : m ∈ (times n (chr p)).run prev s ↔
      m.1.length = n ∧ m.1.all p = true ∧ m.1 ++ m.2 = s := by
  have hclasses : times n (chr p) = seqs ((List.replicate n p).map chr) := by
    rw [times, List.map_replicate]
  have hall : ∀ (n : Nat) (u : Str), List.Forall₂ (fun p c => p c = true) (List.replicate n p) u ↔
      u.length = n ∧ u.all p = true := by
    intro n
    induction n with
    | zero => intro u; cases u <;> simp
    | succ n ih =>
      intro u
      cases u with
      | nil => simp [List.replicate_succ]
      | cons c u =>
        rw [List.replicate_succ, List.forall₂_cons, ih]
        simp only [List.length_cons, List.all_cons, Bool.and_eq_true, Nat.add_right_cancel_iff]
        exact and_left_comm
  rw [hclasses, mem_run_seqs_chr, hall, and_assoc]

/-- A literal word. -/
theorem mem_run_word {w : String} {prev : Option CodePoint} {s : Str} {m : Str × Str} :
    m ∈ (word w).run prev s ↔ m.1 = str w ∧ str w ++ m.2 = s := by
  have hclasses : word w = seqs ((w.toList.map fun c => (· == cp c)).map chr) := by
    rw [word, List.map_map]
    rfl
  have hall : ∀ (l : List Char) (u : Str), List.Forall₂ (fun p c => p c = true)
      (l.map fun (c : Char) (x : CodePoint) => x == cp c) u ↔ u = l.map cp := by
    intro l
    induction l with
    | nil => intro u; simp
    | cons c l ih =>
      intro u
      cases u with
      | nil => simp
      | cons d u =>
        simp only [List.map_cons, List.forall₂_cons, ih, beq_iff_eq, List.cons.injEq]
  rw [hclasses, mem_run_seqs_chr, hall]
  change m.1 = str w ∧ m.1 ++ m.2 = s ↔ m.1 = str w ∧ str w ++ m.2 = s
  apply and_congr_right
  intro hu
  rw [hu]

/-- `[p]{0,n}` -/
theorem mem_run_upTo_chr {p : CodePoint → Bool} {n : Nat} {prev : Option CodePoint} {s : Str}
    {m : Str × Str} : m ∈ (upTo n (chr p)).run prev s ↔
      m.1.length ≤ n ∧ m.1.all p = true ∧ m.1 ++ m.2 = s := by
  obtain ⟨u, t⟩ := m
  induction n generalizing prev s u with
  | zero =>
    rw [upTo, run, List.mem_singleton, Prod.mk.injEq]
    constructor
    · rintro ⟨rfl, rfl⟩
      exact ⟨le_rfl, rfl, rfl⟩
    · rintro ⟨hlen, -, rfl⟩
      obtain rfl := List.length_eq_zero_iff.mp (Nat.le_zero.mp hlen)
      exact ⟨rfl, rfl⟩
  | succ n ih =>
    rw [upTo, opt, run, List.mem_append, mem_run_seq_chr, run, List.mem_singleton, Prod.mk.injEq]
    constructor
    · rintro (⟨c, u', t', hc, rfl, rfl, hm⟩ | ⟨rfl, rfl⟩)
      · obtain ⟨hlen, hall, htext⟩ := (ih u').mp hm
        refine ⟨by simpa using hlen, by simp [hc, hall], congrArg (c :: ·) htext⟩
      · exact ⟨Nat.zero_le _, rfl, rfl⟩
    · rintro ⟨hlen, hall, rfl⟩
      cases u with
      | nil => exact Or.inr ⟨rfl, rfl⟩
      | cons c u =>
        rw [List.all_cons, Bool.and_eq_true] at hall
        exact Or.inl ⟨c, u, u ++ t, hall.1, rfl, rfl,
          (ih u).mpr ⟨by simpa using hlen, hall.2, rfl⟩⟩

theorem mem_iterate_chr {p : CodePoint → Bool} {fuel : Nat} {prev : Option CodePoint} {s : Str}
    {m : Str × Str} : m ∈ iterate (chr p).run fuel prev s ↔
      m.1.length ≤ fuel ∧ m.1.all p = true ∧ m.1 ++ m.2 = s := by
  obtain ⟨u, t⟩ := m
  induction fuel generalizing prev s u with
  | zero =>
    rw [iterate, List.mem_singleton, Prod.mk.injEq]
    constructor
    · rintro ⟨rfl, rfl⟩
      exact ⟨le_rfl, rfl, rfl⟩
    · rintro ⟨hlen, -, rfl⟩
      obtain rfl := List.length_eq_zero_iff.mp (Nat.le_zero.mp hlen)
      exact ⟨rfl, rfl⟩
  | succ fuel ih =>
    rw [iterate, List.mem_append, List.mem_flatMap, List.mem_singleton, Prod.mk.injEq]
    constructor
    · rintro (⟨m₁, hm₁, hm⟩ | ⟨rfl, rfl⟩)
      · obtain ⟨c, hc, hu, rfl⟩ := mem_run_chr.mp (List.mem_of_mem_filter hm₁)
        obtain ⟨m₂, hm₂, heq⟩ := List.mem_map.mp hm
        obtain ⟨rfl, rfl⟩ := Prod.mk.inj heq
        obtain ⟨hlen, hall, htext⟩ := (ih m₂.1).mp hm₂
        rw [hu]
        refine ⟨by simpa using hlen, by simp [hc, hall], congrArg (c :: ·) htext⟩
      · exact ⟨Nat.zero_le _, rfl, rfl⟩
    · rintro ⟨hlen, hall, rfl⟩
      cases u with
      | nil => exact .inr ⟨rfl, rfl⟩
      | cons c u =>
        rw [List.all_cons, Bool.and_eq_true] at hall
        refine .inl ⟨([c], u ++ t), List.mem_filter.mpr ⟨mem_run_chr.mpr ⟨c, hall.1, rfl, rfl⟩, rfl⟩,
          List.mem_map.mpr ⟨(u, t), (ih u).mpr ⟨by simpa using hlen, hall.2, rfl⟩, rfl⟩⟩

/-- `[p]*` -/
theorem mem_run_star_chr {p : CodePoint → Bool} {prev : Option CodePoint} {s : Str}
    {m : Str × Str} : m ∈ (star (chr p)).run prev s ↔ m.1.all p = true ∧ m.1 ++ m.2 = s := by
  rw [run, mem_iterate_chr]
  refine and_iff_right_of_imp fun ⟨_, htext⟩ => ?_
  rw [← htext, List.length_append]
  exact Nat.le_add_right _ _

/-- `[p]+` -/
theorem mem_run_plus_chr {p : CodePoint → Bool} {prev : Option CodePoint} {s : Str}
    {m : Str × Str} : m ∈ (plus (chr p)).run prev s ↔
      m.1 ≠ [] ∧ m.1.all p = true ∧ m.1 ++ m.2 = s := by
  obtain ⟨u, t⟩ := m
  rw [plus, mem_run_seq_chr]
  simp only [mem_run_star_chr]
  constructor
  · rintro ⟨c, u', t', hc, rfl, rfl, hall, rfl⟩
    exact ⟨List.cons_ne_nil _ _, by simp [hc, hall], rfl⟩
  · rintro ⟨hne, hall, rfl⟩
    obtain ⟨c, u, rfl⟩ := List.exists_cons_of_ne_nil hne
    rw [List.all_cons, Bool.and_eq_true] at hall
    exact ⟨c, u, u ++ t, hall.1, rfl, rfl, hall.2, rfl⟩

/-- A literal word in any case. -/
theorem mem_run_wordIgnoreCase {w : String} {prev : Option CodePoint} {s : Str} {m : Str × Str} :
    m ∈ (wordIgnoreCase w).run prev s ↔
      List.Forall₂ (fun letter c => eqIgnoreCase letter c = true) (str w) m.1 ∧ m.1 ++ m.2 = s := by
  have hclasses : wordIgnoreCase w = seqs (((str w).map eqIgnoreCase).map chr) := by
    rw [wordIgnoreCase, List.map_map]
    rfl
  rw [hclasses, mem_run_seqs_chr, List.forall₂_map_left_iff]

end Re

theorem mem_matchParts_re {r : Re} {ps : Pattern} {pieces : List Str} {prev : Option CodePoint}
    {s : Str} {m : List Str × Str} : m ∈ matchParts (.re r :: ps) pieces prev s ↔
      ∃ m₁ ∈ r.run prev s, m ∈ matchParts ps (pieces ++ [m₁.1]) (lastOr prev m₁.1) m₁.2 := by
  rw [matchParts, List.mem_flatMap]

/-- A full match is one of the ways to match that leaves nothing. -/
theorem fullmatch_eq_some {p : Pattern} {s : Str} {pieces : List Str}
    (h : fullmatch p s = some pieces) : (pieces, []) ∈ matchParts p [] none s := by
  obtain ⟨m, hm, rfl⟩ := Option.map_eq_some_iff.mp h
  have hempty : m.2 = [] := by simpa using List.find?_some hm
  have := List.mem_of_find?_eq_some hm
  rwa [← hempty]

theorem exists_fullmatch {p : Pattern} {s : Str} {pieces : List Str}
    (h : (pieces, []) ∈ matchParts p [] none s) : ∃ pieces', fullmatch p s = some pieces' := by
  have hsome : ((matchParts p [] none s).find? fun m => m.2 = []).isSome = true :=
    List.find?_isSome.mpr ⟨_, h, by simp⟩
  obtain ⟨m, hm⟩ := Option.isSome_iff_exists.mp hsome
  exact ⟨m.1, by rw [fullmatch, hm]; rfl⟩

/-! ## Rewriting -/

/-- A relation that holds between equal texts and is closed under concatenation extends from the
matches of a pattern to the whole text. -/
theorem subFrom_rel {ε : Type} {p : Pattern} {f : List Str → Except ε Str}
    {R : Str → Str → Prop} (hnil : R [] []) (hcons : ∀ c {s t}, R s t → R (c :: s) (c :: t))
    (happend : ∀ {s t s' t'}, R s t → R s' t' → R (s ++ s') (t ++ t'))
    (hf : ∀ {pieces t}, IsMatch p pieces → f pieces = .ok t → R pieces.flatten t)
    {skip : Nat} {prev : Option CodePoint} {s t : Str} (h : subFrom p f skip prev s = .ok t) :
    R (s.drop skip) t := by
  induction s generalizing skip prev t with
  | nil =>
    rw [subFrom] at h
    cases h
    rw [List.drop_nil]
    exact hnil
  | cons c s ih =>
    cases skip with
    | succ skip =>
      rw [subFrom] at h
      exact ih h
    | zero =>
      rw [subFrom] at h
      split at h
      · next pieces hm =>
        obtain ⟨replacement, hr, h⟩ := Except.bind_eq_ok.mp h
        obtain ⟨t', ht', h⟩ := Except.bind_eq_ok.mp h
        cases h
        obtain ⟨hne, rest, hpieces, htext⟩ := piecesAt_spec hm
        have hmatch : R pieces.flatten replacement := hf ⟨prev, _, rest, hpieces⟩ hr
        have hrest : R (s.drop (pieces.flatten.length - 1)) t' := ih ht'
        have hsplit : c :: s = pieces.flatten ++ s.drop (pieces.flatten.length - 1) := by
          cases hp : pieces.flatten with
          | nil => exact absurd hp hne
          | cons d u =>
            rw [hp] at htext
            obtain ⟨rfl, rfl⟩ := List.cons.inj htext
            simp
        rw [List.drop_zero, hsplit]
        exact happend hmatch hrest
      · obtain ⟨t', ht', h⟩ := Except.bind_eq_ok.mp h
        cases h
        exact hcons c (ih ht')

theorem sub_rel {ε : Type} {p : Pattern} {f : List Str → Except ε Str} {R : Str → Str → Prop}
    (hnil : R [] []) (hcons : ∀ c {s t}, R s t → R (c :: s) (c :: t))
    (happend : ∀ {s t s' t'}, R s t → R s' t' → R (s ++ s') (t ++ t'))
    (hf : ∀ {pieces t}, IsMatch p pieces → f pieces = .ok t → R pieces.flatten t)
    {s t : Str} (h : sub p f s = .ok t) : R s t := by
  simpa using subFrom_rel hnil hcons happend hf h

theorem rewrite_rel {p : Pattern} {f : List Str → Str} {R : Str → Str → Prop}
    (hnil : R [] []) (hcons : ∀ c {s t}, R s t → R (c :: s) (c :: t))
    (happend : ∀ {s t s' t'}, R s t → R s' t' → R (s ++ s') (t ++ t'))
    (hf : ∀ {pieces}, IsMatch p pieces → R pieces.flatten (f pieces)) (s : Str) :
    R s (rewrite p f s) := by
  unfold rewrite
  split
  next t ht =>
  refine sub_rel hnil hcons happend ?_ ht
  intro pieces t hpieces h
  cases h
  exact hf hpieces

/-! ## Texts without a match -/

namespace Re

/-- Every match consumes a character of the class. -/
def Needs (C : CodePoint → Prop) (r : Re) : Prop :=
  ∀ prev s, ∀ m ∈ r.run prev s, ∃ c ∈ m.1, C c

namespace Needs

variable {C : CodePoint → Prop} {a b : Re}

theorem chr {p : CodePoint → Bool} (h : ∀ c, p c = true → C c) : (Re.chr p).Needs C := by
  intro prev s m hm
  obtain ⟨c, hc, hm, -⟩ := mem_run_chr.mp hm
  exact ⟨c, by rw [hm]; exact List.mem_cons_self, h c hc⟩

theorem seq_left (ha : a.Needs C) (b : Re) : (seq a b).Needs C := by
  intro prev s m hm
  obtain ⟨m₁, hm₁, m₂, -, rfl⟩ := mem_run_seq.mp hm
  obtain ⟨c, hc, hC⟩ := ha _ _ m₁ hm₁
  exact ⟨c, List.mem_append_left _ hc, hC⟩

theorem seq_right (a : Re) (hb : b.Needs C) : (seq a b).Needs C := by
  intro prev s m hm
  obtain ⟨m₁, -, m₂, hm₂, rfl⟩ := mem_run_seq.mp hm
  obtain ⟨c, hc, hC⟩ := hb _ _ m₂ hm₂
  exact ⟨c, List.mem_append_right _ hc, hC⟩

theorem alt (ha : a.Needs C) (hb : b.Needs C) : (Re.alt a b).Needs C := by
  intro prev s m hm
  rw [run, List.mem_append] at hm
  rcases hm with hm | hm
  · exact ha _ _ m hm
  · exact hb _ _ m hm

theorem seqs {as : List Re} (h : a ∈ as) (ha : a.Needs C) : (Re.seqs as).Needs C := by
  induction as with
  | nil => cases h
  | cons b bs ih =>
    rcases List.mem_cons.mp h with rfl | h
    · cases bs with
      | nil => exact ha
      | cons _ _ => exact ha.seq_left _
    · obtain ⟨d, ds, rfl⟩ := List.exists_cons_of_ne_nil (List.ne_nil_of_mem h)
      exact seq_right b (ih h)

theorem alts {as : List Re} (h : ∀ a ∈ as, a.Needs C) : (Re.alts as).Needs C := by
  induction as with
  | nil =>
    intro prev s m hm
    exact absurd hm List.not_mem_nil
  | cons b bs ih =>
    have hb := h b List.mem_cons_self
    cases bs with
    | nil => exact hb
    | cons _ _ => exact hb.alt (ih fun a ha => h a (List.mem_cons_of_mem b ha))

theorem word {w : String} {c : CodePoint} (hc : c ∈ str w) (hC : C c) : (Re.word w).Needs C := by
  intro prev s m hm
  rw [(mem_run_word.mp hm).1]
  exact ⟨c, hc, hC⟩

end Needs

end Re

/-- Every match of the pattern consumes a character of the class. -/
def Pattern.Needs (C : CodePoint → Prop) (p : Pattern) : Prop :=
  ∃ (i : Nat) (r : Re), p[i]? = some (.re r) ∧ r.Needs C

section NoMatch

variable {C : CodePoint → Prop} {p : Pattern}

theorem Pattern.Needs.isMatch (hp : p.Needs C) {pieces : List Str} (h : IsMatch p pieces) :
    ∃ c ∈ pieces.flatten, C c := by
  obtain ⟨i, r, hi, hr⟩ := hp
  obtain ⟨prev, s, m, hm, hpiece⟩ := h.piece hi
  obtain ⟨c, hc, hC⟩ := hr _ _ m hm
  exact ⟨c, List.mem_flatten.mpr ⟨m.1, List.mem_of_getElem? hpiece, hc⟩, hC⟩

theorem Pattern.Needs.searchFrom (hp : p.Needs C) {prev : Option CodePoint} {s : Str}
    (hs : ∀ c ∈ s, ¬ C c) : searchFrom p prev s = none := by
  cases h : Py.searchFrom p prev s with
  | none => rfl
  | some m =>
    obtain ⟨prev', hm⟩ := exists_mem_matchParts h
    obtain ⟨c, hc, hC⟩ := hp.isMatch ⟨prev', _, _, hm⟩
    have htext : m.1 ++ (m.2.1.flatten ++ m.2.2) = s := searchFrom_append h
    refine absurd hC (hs c ?_)
    rw [← htext]
    exact List.mem_append_right _ (List.mem_append_left _ hc)

/-- A text stays as it is when every match in it is replaced by itself. -/
theorem subFrom_eq_self {ε : Type} {f : List Str → Except ε Str} {prev : Option CodePoint} {s : Str}
    (h : ∀ before rest pieces, s = before ++ rest → piecesAt p (lastOr prev before) rest =
      some pieces → f pieces = .ok pieces.flatten) : subFrom p f 0 prev s = .ok s := by
  have hskip : ∀ (s : Str) (skip : Nat) (prev : Option CodePoint),
      (∀ before rest pieces, skip ≤ before.length → s = before ++ rest →
        piecesAt p (lastOr prev before) rest = some pieces → f pieces = .ok pieces.flatten) →
      subFrom p f skip prev s = .ok (s.drop skip) := by
    intro s
    induction s with
    | nil =>
      intro skip prev _
      rw [subFrom, List.drop_nil]
    | cons c s ih =>
      intro skip prev h
      have hlater : ∀ skip', skip ≤ skip' + 1 → ∀ before rest pieces, skip' ≤ before.length →
          s = before ++ rest → piecesAt p (lastOr (some c) before) rest = some pieces →
          f pieces = .ok pieces.flatten := by
        intro skip' hle before rest pieces hlen hs hpieces
        refine h (c :: before) rest pieces (by rw [List.length_cons]; omega) (by rw [hs]; rfl) ?_
        rwa [lastOr_cons]
      cases skip with
      | succ skip =>
        rw [subFrom, ih skip (some c) (hlater skip (Nat.le_refl _)), List.drop_succ_cons]
      | zero =>
        rw [subFrom, List.drop_zero]
        split
        · next pieces hpieces =>
          obtain ⟨hne, rest, -, htext⟩ := piecesAt_spec hpieces
          rw [h [] (c :: s) pieces (Nat.zero_le _) rfl hpieces, Except.ok_bind,
            ih _ (some c) (hlater _ (Nat.zero_le _)), Except.ok_bind]
          obtain ⟨d, u, hu⟩ := List.exists_cons_of_ne_nil hne
          rw [hu] at htext ⊢
          obtain ⟨rfl, rfl⟩ := List.cons.inj htext
          simp
        · rw [ih 0 (some c) (hlater 0 (Nat.zero_le _)), Except.ok_bind, List.drop_zero]
  exact hskip s 0 prev fun before rest pieces _ => h before rest pieces

theorem sub_eq_self {ε : Type} {f : List Str → Except ε Str} {s : Str}
    (h : ∀ before rest pieces, s = before ++ rest → piecesAt p (lastOr none before) rest =
      some pieces → f pieces = .ok pieces.flatten) : sub p f s = .ok s :=
  subFrom_eq_self h

theorem rewrite_eq_self {f : List Str → Str} {s : Str}
    (h : ∀ before rest pieces, s = before ++ rest → piecesAt p (lastOr none before) rest =
      some pieces → f pieces = pieces.flatten) : rewrite p f s = s := by
  unfold rewrite
  rw [sub_eq_self fun before rest pieces hs hpieces =>
    congrArg Except.ok (h before rest pieces hs hpieces)]

/-- A text without the characters that a match needs has none. -/
theorem Pattern.Needs.piecesAt (hp : p.Needs C) {s before rest : Str} (hs : ∀ c ∈ s, ¬ C c)
    (htext : s = before ++ rest) {prev : Option CodePoint} {pieces : List Str} :
    Py.piecesAt p prev rest ≠ some pieces := by
  intro h
  obtain ⟨-, tail, hmatch, hrest⟩ := piecesAt_spec h
  obtain ⟨c, hc, hC⟩ := hp.isMatch ⟨prev, rest, tail, hmatch⟩
  refine hs c ?_ hC
  rw [htext, ← hrest]
  exact List.mem_append_right _ (List.mem_append_left _ hc)

theorem Pattern.Needs.sub (hp : p.Needs C) {s : Str} (hs : ∀ c ∈ s, ¬ C c) {ε : Type}
    (f : List Str → Except ε Str) : sub p f s = .ok s :=
  sub_eq_self fun _ _ _ htext h => absurd h (hp.piecesAt hs htext)

theorem Pattern.Needs.rewrite (hp : p.Needs C) {s : Str} (hs : ∀ c ∈ s, ¬ C c)
    (f : List Str → Str) : rewrite p f s = s :=
  rewrite_eq_self fun _ _ _ htext h => absurd h (hp.piecesAt hs htext)

end NoMatch

end Py
