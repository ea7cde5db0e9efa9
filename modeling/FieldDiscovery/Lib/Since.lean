import Mathlib.Data.List.Basic

/-!
# Traces that open before they close

Events open and close keys. A key is `Open` after a trace when some event opened it and none closed it
since; a trace is `Lawful` when every event closes open keys only. A machine whose state names open
keys alone makes lawful traces: events that close nothing keep the law (`Lawful.append_of_quiet`), and
so do events that close open keys, each key once (`Lawful.append_closing`).
-/

namespace Since

variable {E K : Type*} (opens closes : E → K → Prop)

/-- The key was opened, and not closed since. -/
def Open (trace : List E) (k : K) : Prop :=
  ∃ front e back, trace = front ++ e :: back ∧ opens e k ∧ ∀ e' ∈ back, ¬ closes e' k

/-- Every event closes keys that are open before it. -/
def Lawful (trace : List E) : Prop :=
  ∀ front e back k, trace = front ++ e :: back → closes e k → Open opens closes front k

variable {opens closes} {trace more : List E} {k : K}

theorem Open.append (h : Open opens closes trace k) (hmore : ∀ e ∈ more, ¬ closes e k) :
    Open opens closes (trace ++ more) k := by
  obtain ⟨front, e, back, rfl, hopens, hback⟩ := h
  refine ⟨front, e, back ++ more, ?_, hopens, ?_⟩
  · rw [List.append_assoc, List.cons_append]
  · intro e' he'
    rcases List.mem_append.mp he' with he' | he'
    · exact hback e' he'
    · exact hmore e' he'

theorem open_append_cons {e : E} (hopens : opens e k) (hmore : ∀ e' ∈ more, ¬ closes e' k) :
    Open opens closes (trace ++ e :: more) k := ⟨trace, e, more, rfl, hopens, hmore⟩

theorem lawful_nil : Lawful opens closes [] := by
  intro front e back k h
  exact absurd h.symm (List.append_ne_nil_of_right_ne_nil _ (List.cons_ne_nil _ _))

theorem Lawful.append (h : Lawful opens closes trace)
    (hmore : ∀ front e back k, more = front ++ e :: back → closes e k →
      Open opens closes (trace ++ front) k) : Lawful opens closes (trace ++ more) := by
  intro front e back k hsplit hcloses
  rcases List.append_eq_append_iff.mp hsplit with ⟨mid, rfl, hrest⟩ | ⟨mid, hfront, hrest⟩
  · exact hmore mid e back k hrest hcloses
  · cases mid with
    | nil =>
      rw [List.append_nil] at hfront
      subst hfront
      simpa using hmore [] e back k hrest.symm hcloses
    | cons e' mid =>
      obtain ⟨rfl, -⟩ := List.cons.inj hrest
      exact h front e mid k hfront hcloses

theorem Lawful.append_of_quiet (h : Lawful opens closes trace) (hmore : ∀ e ∈ more, ∀ k, ¬ closes e k) :
    Lawful opens closes (trace ++ more) := by
  refine h.append fun front e back k hsplit hcloses => ?_
  exact absurd hcloses (hmore e (hsplit ▸ List.mem_append_right _ List.mem_cons_self) k)

theorem Lawful.append_closing (h : Lawful opens closes trace)
    (hopen : ∀ e ∈ more, ∀ k, closes e k → Open opens closes trace k)
    (honce : more.Pairwise fun e e' => ∀ k, closes e k → ¬ closes e' k) :
    Lawful opens closes (trace ++ more) := by
  refine h.append fun front e back k hsplit hcloses => ?_
  subst hsplit
  refine (hopen e (List.mem_append_right _ List.mem_cons_self) k hcloses).append ?_
  intro e' he' hcloses'
  exact (List.pairwise_append.mp honce).2.2 e' he' e List.mem_cons_self k hcloses' hcloses

end Since
