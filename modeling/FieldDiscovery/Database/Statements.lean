import FieldDiscovery.Errors

/-!
# The statements of a script

`_sql_statements` collects lines until SQLite takes them for a complete statement. It is a generator,
so its caller has run the earlier statements when it raises: the result is the statements and the
exception after them, if any. `sqlStatements_covers` says that a script that ends well is its
statements, up to the white space around them.
-/

namespace Py

/-- Where `str.splitlines` ends a line. -/
def isLineBreak (c : CodePoint) : Bool :=
  (10 ≤ c.val && c.val ≤ 13) || (28 ≤ c.val && c.val ≤ 30) || c.val == 0x85 ||
    c.val == 0x2028 || c.val == 0x2029

/-- The lines of a text whose first line began with `line`. -/
def splitLinesFrom (line : Str) : Str → List Str
  | [] => if line = [] then [] else [line]
  | [c] => [line ++ [c]]
  | c :: d :: s =>
    if c = cp '\r' ∧ d = cp '\n' then (line ++ [c, d]) :: splitLinesFrom [] s
    else if isLineBreak c then (line ++ [c]) :: splitLinesFrom [] (d :: s)
    else splitLinesFrom (line ++ [c]) (d :: s)

/-- `s.splitlines(keepends=True)` -/
def splitLines (s : Str) : List Str := splitLinesFrom [] s

theorem flatten_splitLinesFrom (line s : Str) : (splitLinesFrom line s).flatten = line ++ s := by
  fun_induction splitLinesFrom line s with
  | case1 => simp
  | case2 line hline => simp
  | case3 line c => simp
  | case4 line c d s _ ih => simp [ih]
  | case5 line c d s _ _ ih => simp [ih]
  | case6 line c d s _ _ ih => simp [ih]

theorem flatten_splitLines (s : Str) : (splitLines s).flatten = s :=
  flatten_splitLinesFrom [] s

end Py

namespace FieldDiscovery.Database

open Py

section

variable (complete : Str → Except Exc Bool)

/-- The loop of `_sql_statements` with the lines collected so far. -/
def statementsFrom (buffer : Str) : List Str → List Str × Option Exc
  | [] => ([], if strip buffer = [] then none
      else some (.migration (str "migration ends with an incomplete SQL statement")))
  | line :: lines =>
    match complete (buffer ++ line) with
    | .error e => ([], some e)
    | .ok true =>
      let rest := statementsFrom [] lines
      (strip (buffer ++ line) :: rest.1, rest.2)
    | .ok false => statementsFrom (buffer ++ line) lines

/-- `_sql_statements(script)` -/
def sqlStatements (script : Str) : List Str × Option Exc :=
  statementsFrom complete [] (splitLines script)

variable {complete}

theorem statementsFrom_covers {buffer : Str} {lines : List Str}
    (h : (statementsFrom complete buffer lines).2 = none) :
    ∃ (pieces : List Str) (blank : Str),
      pieces.map strip = (statementsFrom complete buffer lines).1 ∧ strip blank = [] ∧
        pieces.flatten ++ blank = buffer ++ lines.flatten := by
  induction lines generalizing buffer with
  | nil =>
    unfold statementsFrom at h ⊢
    split at h
    · next hblank => exact ⟨[], buffer, rfl, hblank, by simp⟩
    · cases h
  | cons line lines ih =>
    unfold statementsFrom at h ⊢
    split at h
    · cases h
    · obtain ⟨pieces, blank, hpieces, hblank, hall⟩ := ih h
      refine ⟨(buffer ++ line) :: pieces, blank, ?_, hblank, ?_⟩
      · rw [List.map_cons, hpieces]
      · simp [hall]
    · obtain ⟨pieces, blank, hpieces, hblank, hall⟩ := ih h
      exact ⟨pieces, blank, hpieces, hblank, by simp [hall]⟩

/-- A script that ends well is its statements with white space around them. -/
theorem sqlStatements_covers {script : Str} (h : (sqlStatements complete script).2 = none) :
    ∃ (pieces : List Str) (blank : Str),
      pieces.map strip = (sqlStatements complete script).1 ∧ strip blank = [] ∧
        pieces.flatten ++ blank = script := by
  obtain ⟨pieces, blank, hpieces, hblank, hall⟩ := statementsFrom_covers h
  rw [flatten_splitLines, List.nil_append] at hall
  exact ⟨pieces, blank, hpieces, hblank, hall⟩

end

end FieldDiscovery.Database
